import Nomifun.Library.JsonPointer

/-!
# Objects in key order

The map behind a parsed object keeps its keys increasing. Such a map is determined by its lookups
(`ext_of_lookup`), so that removing entries and inserting them again gives back the same map.
`hereditary` extends a test of single values to all parts of a value, and `keysIncrease` is the
test for the order. Writing to a place keeps what the test says about both sides, and the size of
the text around the place (`size_set`).
-/
namespace Nomifun.Library.Json
open Library.JsonPointer List Option Bool

variable {v : Value} {entries : List (String × Value)} {items : List Value}

/-! ### Insertion into a map -/

theorem insertEntry_of_lt (before : key < other) :
    insertEntry key v ((other, w) :: rest) = (key, v) :: (other, w) :: rest := by
  simp [insertEntry, compare_lt_iff_lt.mpr before]

theorem insertEntry_of_eq : insertEntry key v ((key, w) :: rest) = (key, v) :: rest := by
  simp [insertEntry]

theorem insertEntry_of_gt (after : other < key) :
    insertEntry key v ((other, w) :: rest) = (other, w) :: insertEntry key v rest := by
  simp [insertEntry, compare_gt_iff_gt.mpr after]

theorem lookup_insertEntry (key : String) (v : Value) (entries : List (String × Value))
    (name : String) :
    (insertEntry key v entries).lookup name = if name = key then some v
      else entries.lookup name := by
  induction entries with
  | nil => exact lookup_cons name
  | cons entry rest ih =>
    obtain ⟨other, w⟩ := entry
    rcases lt_trichotomy key other with before | rfl | after
    · rw [insertEntry_of_lt before, lookup_cons]
    · rw [insertEntry_of_eq, lookup_cons, lookup_cons]
      split <;> rfl
    · rw [insertEntry_of_gt after, lookup_cons, lookup_cons, ih]
      grind

/-- Removing an entry that was inserted for a new key. -/
theorem filter_insertEntry (new : entries.lookup key = none) :
    (insertEntry key v entries).filter (·.1 ≠ key) = entries := by
  have kept (rest : List (String × Value)) (free : rest.lookup key = none) :
      rest.filter (·.1 ≠ key) = rest := by
    refine filter_eq_self.mpr fun entry member => ?_
    have other := lookup_eq_none_iff.mp free entry member
    rw [decide_eq_true_eq]
    rintro rfl
    simp at other
  induction entries with
  | nil => simp [insertEntry]
  | cons entry rest ih =>
    obtain ⟨other, w⟩ := entry
    have different : key ≠ other := by
      rintro rfl
      rw [lookup_cons_self] at new
      cases new
    rcases lt_trichotomy key other with before | rfl | after
    · rw [insertEntry_of_lt before, filter_cons_of_neg (by simp), kept _ new]
    · exact absurd rfl different
    · rw [lookup_cons_ne different] at new
      rw [insertEntry_of_gt after, filter_cons_of_pos (by simpa using Ne.symm different), ih new]

theorem lookup_filter (keep : String → Bool) (entries : List (String × Value)) (name : String) :
    (entries.filter fun entry => keep entry.1).lookup name =
      if keep name then entries.lookup name else none := by
  induction entries with
  | nil => simp
  | cons entry rest ih =>
    obtain ⟨other, w⟩ := entry
    rw [filter_cons]
    split
    · rw [lookup_cons, lookup_cons, ih]
      grind
    · rw [lookup_cons, ih]
      grind

/-- The keys of a map. -/
def Increasing (entries : List (String × Value)) : Prop := (entries.map (·.1)).Pairwise (· < ·)

instance : Decidable (Increasing entries) :=
  inferInstanceAs (Decidable ((entries.map (·.1)).Pairwise (· < ·)))

theorem increasing_cons : Increasing ((key, v) :: rest) ↔
    (∀ entry ∈ rest, key < entry.1) ∧ Increasing rest := by
  simp [Increasing]

theorem Increasing.filter (increasing : Increasing entries) (keep : String × Value → Bool) :
    Increasing (entries.filter keep) :=
  List.Pairwise.sublist (filter_sublist.map _) increasing

theorem mem_insertEntry (member : entry ∈ insertEntry key v entries) :
    entry = (key, v) ∨ entry ∈ entries := by
  induction entries with
  | nil => exact .inl (mem_singleton.mp member)
  | cons first rest ih =>
    obtain ⟨other, w⟩ := first
    rcases lt_trichotomy key other with before | rfl | after
    · rw [insertEntry_of_lt before, mem_cons] at member
      exact member
    · rw [insertEntry_of_eq, mem_cons] at member
      exact member.imp_right (mem_cons_of_mem _)
    · rw [insertEntry_of_gt after, mem_cons] at member
      rcases member with rfl | later
      · exact .inr mem_cons_self
      · exact (ih later).imp_right (mem_cons_of_mem _)

theorem Increasing.insert (increasing : Increasing entries) :
    Increasing (insertEntry key v entries) := by
  induction entries with
  | nil => simp [insertEntry, Increasing]
  | cons first rest ih =>
    obtain ⟨other, w⟩ := first
    obtain ⟨above, later⟩ := increasing_cons.mp increasing
    rcases lt_trichotomy key other with before | rfl | after
    · rw [insertEntry_of_lt before, increasing_cons]
      refine ⟨forall_mem_cons.mpr ⟨before, fun entry member => ?_⟩, increasing⟩
      exact before.trans (above entry member)
    · rw [insertEntry_of_eq, increasing_cons]
      exact ⟨above, later⟩
    · rw [insertEntry_of_gt after, increasing_cons]
      refine ⟨fun entry member => ?_, ih later⟩
      rcases mem_insertEntry member with rfl | old
      · exact after
      · exact above entry old

/-- A key above all others goes to the end. -/
theorem insertEntry_last (above : ∀ entry ∈ entries, entry.1 < key) :
    insertEntry key v entries = entries ++ [(key, v)] := by
  induction entries with
  | nil => rfl
  | cons first rest ih =>
    obtain ⟨other, w⟩ := first
    rw [forall_mem_cons] at above
    rw [insertEntry_of_gt above.1, ih above.2, cons_append]

theorem lookup_of_above (above : ∀ entry ∈ entries, key < entry.1) : entries.lookup key = none := by
  rw [lookup_eq_none_iff]
  intro entry member
  simpa using (above entry member).ne

/-- A map is determined by its lookups. -/
theorem ext_of_lookup (increasing : Increasing first) (increasingSecond : Increasing second)
    (same : ∀ name, first.lookup name = second.lookup name) : first = second := by
  induction first generalizing second with
  | nil =>
    cases second with
    | nil => rfl
    | cons entry rest =>
      have missing := same entry.1
      rw [lookup_nil, lookup_cons_self] at missing
      cases missing
  | cons entry rest ih =>
    obtain ⟨key, v⟩ := entry
    obtain ⟨above, later⟩ := increasing_cons.mp increasing
    cases second with
    | nil =>
      have missing := same key
      rw [lookup_nil, lookup_cons_self] at missing
      cases missing
    | cons entrySecond restSecond =>
      obtain ⟨keySecond, w⟩ := entrySecond
      obtain ⟨aboveSecond, laterSecond⟩ := increasing_cons.mp increasingSecond
      -- The smaller of the two first keys is a key of the other map, so they are equal.
      have sameKey : key = keySecond := by
        rcases lt_trichotomy key keySecond with before | equal | after
        · have missing := same key
          rw [lookup_of_above (forall_mem_cons.mpr
            ⟨before, fun entry member => before.trans (aboveSecond entry member)⟩)] at missing
          simp at missing
        · exact equal
        · have missing := same keySecond
          rw [lookup_of_above (forall_mem_cons.mpr
            ⟨after, fun entry member => after.trans (above entry member)⟩)] at missing
          simp at missing
      subst sameKey
      have sameValue : v = w := by
        have found := same key
        rwa [lookup_cons_self, lookup_cons_self, some.injEq] at found
      rw [sameValue, ih later laterSecond fun name => ?_]
      by_cases here : name = key
      · rw [here, lookup_of_above above, lookup_of_above aboveSecond]
      · have found := same name
        rwa [lookup_cons_ne here, lookup_cons_ne here] at found

/-! ### All parts of a value -/

mutual

/-- A test that a value and all its parts pass. -/
def hereditary (test : Value → Bool) : Value → Bool
  | .array items => test (.array items) && hereditaryItems test items
  | .object entries => test (.object entries) && hereditaryEntries test entries
  | .null => test .null
  | .bool b => test (.bool b)
  | .number n => test (.number n)
  | .string s => test (.string s)

def hereditaryItems (test : Value → Bool) : List Value → Bool
  | [] => true
  | v :: rest => hereditary test v && hereditaryItems test rest

def hereditaryEntries (test : Value → Bool) : List (String × Value) → Bool
  | [] => true
  | (_, v) :: rest => hereditary test v && hereditaryEntries test rest

end

theorem hereditaryItems_iff :
    hereditaryItems test items = true ↔ ∀ item ∈ items, hereditary test item = true := by
  induction items with
  | nil => simp [hereditaryItems]
  | cons item items ih => simp [hereditaryItems, ih]

theorem hereditaryEntries_iff :
    hereditaryEntries test entries = true ↔ ∀ entry ∈ entries, hereditary test entry.2 = true := by
  induction entries with
  | nil => simp [hereditaryEntries]
  | cons entry entries ih => simp [hereditaryEntries, ih]

theorem hereditary_array : hereditary test (.array items) = true ↔
    test (.array items) = true ∧ ∀ item ∈ items, hereditary test item = true := by
  rw [hereditary, and_eq_true, hereditaryItems_iff]

theorem hereditary_object :
    hereditary test (.object entries) = true ↔
      test (.object entries) = true ∧ ∀ entry ∈ entries, hereditary test entry.2 = true := by
  rw [hereditary, and_eq_true, hereditaryEntries_iff]

theorem mem_of_lookup (found : entries.lookup token = some v) : (token, v) ∈ entries := by
  obtain ⟨before, after, rfl, -⟩ := lookup_eq_some_iff.mp found
  exact mem_append_right before mem_cons_self

theorem hereditary_child (all : hereditary test v = true) (found : child v token = some part) :
    hereditary test part = true := by
  cases v with
  | object entries => exact (hereditary_object.mp all).2 _ (mem_of_lookup found)
  | array items =>
    obtain ⟨index, -, item⟩ := bind_eq_some_iff.mp found
    exact (hereditary_array.mp all).2 _ (mem_of_getElem? item)
  | null | bool | number | string => cases found

theorem hereditary_resolve (all : hereditary test v = true) (found : resolve v path = some part) :
    hereditary test part = true := by
  induction path generalizing v with
  | nil =>
    cases found
    exact all
  | cons token path ih =>
    obtain ⟨next, step, rest⟩ := bind_eq_some_iff.mp found
    exact ih (hereditary_child all step) rest

theorem mem_replaceMember (member : entry ∈ replaceMember key x entries) :
    entry.2 = x ∨ entry ∈ entries := by
  fun_induction replaceMember key x entries with
  | case1 => cases member
  | case2 =>
    rcases mem_cons.mp member with rfl | later
    · exact .inl rfl
    · exact .inr (mem_cons_of_mem _ later)
  | case3 _ _ _ _ ih =>
    rcases mem_cons.mp member with rfl | later
    · exact .inr mem_cons_self
    · exact (ih later).imp_right (mem_cons_of_mem _)

theorem hereditary_put (all : hereditary test v = true) (new : hereditary test x = true)
    (here : test (put v token x) = true) : hereditary test (put v token x) = true := by
  cases v with
  | object entries =>
    refine hereditary_object.mpr ⟨here, fun entry member => ?_⟩
    rcases mem_replaceMember member with same | old
    · rwa [same]
    · exact (hereditary_object.mp all).2 entry old
  | array items =>
    cases parsed : parseIndex token with
    | none => simpa [put, parsed] using all
    | some index =>
      simp only [put, parsed] at here ⊢
      refine hereditary_array.mpr ⟨here, fun item member => ?_⟩
      rcases mem_or_eq_of_mem_set member with old | rfl
      · exact (hereditary_array.mp all).2 item old
      · exact new
  | null | bool | number | string => exact all

theorem hereditary_self (all : hereditary test v = true) : test v = true := by
  cases v with
  | object entries => exact (hereditary_object.mp all).1
  | array items => exact (hereditary_array.mp all).1
  | null | bool | number | string => exact all

/-- Writing to a place keeps a test that does not look at the parts of a value. -/
theorem hereditary_set (keeps : ∀ v token x, test v = true → test (put v token x) = true)
    (all : hereditary test v = true) (new : hereditary test x = true) :
    hereditary test (set x path v) = true := by
  induction path generalizing v with
  | nil => exact new
  | cons token path ih =>
    rw [JsonPointer.set]
    cases step : child v token with
    | none => exact all
    | some next =>
      exact hereditary_put all (ih (hereditary_child all step)) (keeps _ _ _ (hereditary_self all))

/-- The test for maps in key order. -/
def keysIncrease : Value → Bool
  | .object entries => Increasing entries
  | .null | .bool _ | .number _ | .string _ | .array _ => true

/-- All objects of the value are maps in key order. -/
def ordered : Value → Bool := hereditary keysIncrease

theorem keysIncrease_put (v : Value) (token : String) (x : Value)
    (increase : keysIncrease v = true) : keysIncrease (put v token x) = true := by
  cases v with
  | object entries => simpa [put, keysIncrease, Increasing, map_fst_replaceMember] using increase
  | array items =>
    unfold put
    cases parseIndex token <;> rfl
  | null | bool | number | string => rfl

theorem ordered_set (orderly : ordered v = true) (new : ordered x = true) :
    ordered (set x path v) = true :=
  hereditary_set keysIncrease_put orderly new

/-! ### The size of the text -/

theorem size_array_cons (v : Value) (items : List Value) :
    size float (.array (v :: items)) =
      size float (.array items) + (if items.isEmpty then 0 else 1) + size float v := by
  cases items with
  | nil =>
    simp only [size, compact, compactItems, map_append, sum_append, isEmpty_nil,
      if_pos, map_nil, sum_nil]
    omega
  | cons next rest =>
    have comma : ([','].map Char.utf8Size).sum = 1 := rfl
    simp only [size, compact, compactItems, map_append, sum_append, comma,
      isEmpty_cons, if_neg Bool.false_ne_true]
    omega

theorem size_object_cons (key : String) (v : Value) (entries : List (String × Value)) :
    size float (.object ((key, v) :: entries)) =
      size float (.object entries) + (((quoted key).map Char.utf8Size).sum + 1) +
        (if entries.isEmpty then 0 else 1) + size float v := by
  have colon : ([':'].map Char.utf8Size).sum = 1 := rfl
  cases entries with
  | nil =>
    simp only [size, compact, compactEntries, map_append, sum_append, colon,
      isEmpty_nil, if_pos, map_nil, sum_nil]
    omega
  | cons next rest =>
    have comma : ([','].map Char.utf8Size).sum = 1 := rfl
    simp only [size, compact, compactEntries, map_append, sum_append, comma, colon,
      isEmpty_cons, if_neg Bool.false_ne_true]
    omega

theorem size_array_set (inside : index < items.length) :
    ∃ around, ∀ x, size float (.array (items.set index x)) = around + size float x := by
  induction items generalizing index with
  | nil => cases inside
  | cons item items ih =>
    cases index with
    | zero => exact ⟨_, fun x => size_array_cons x items⟩
    | succ index =>
      obtain ⟨around, rest⟩ := ih (Nat.lt_of_succ_lt_succ inside)
      refine ⟨around + (if items.isEmpty then 0 else 1) + size float item, fun x => ?_⟩
      have sameEmpty : (items.set index x).isEmpty = items.isEmpty := by cases items <;> simp
      rw [set_cons_succ, size_array_cons, sameEmpty, rest]
      omega

theorem size_object_replace (found : entries.lookup token = some old) :
    ∃ around, ∀ x, size float (.object (replaceMember token x entries)) =
      around + size float x := by
  induction entries with
  | nil => cases found
  | cons entry entries ih =>
    obtain ⟨key, w⟩ := entry
    by_cases same : token = key
    · simp only [replaceMember, if_pos same]
      exact ⟨_, fun x => size_object_cons key x entries⟩
    · rw [lookup_cons_ne same] at found
      obtain ⟨around, rest⟩ := ih found
      refine ⟨around + (((quoted key).map Char.utf8Size).sum + 1) +
        (if entries.isEmpty then 0 else 1) + size float w, fun x => ?_⟩
      have sameEmpty : (replaceMember token x entries).isEmpty = entries.isEmpty := by
        rw [← isEmpty_map, map_fst_replaceMember, isEmpty_map]
      rw [replaceMember, if_neg same, size_object_cons, sameEmpty, rest]
      omega

theorem size_put (found : child v token = some old) :
    ∃ around, ∀ x, size float (put v token x) = around + size float x := by
  cases v with
  | object entries => exact size_object_replace found
  | array items =>
    obtain ⟨index, parsed, item⟩ := bind_eq_some_iff.mp found
    simp only [put, parsed]
    exact size_array_set (List.getElem?_eq_some_iff.mp item).1
  | null | bool | number | string => cases found

/-- The text around a place keeps its size. -/
theorem size_set (float : UInt64 → List Char) (found : resolve v path = some old) :
    ∃ around, ∀ x, size float (set x path v) = around + size float x := by
  induction path generalizing v with
  | nil => exact ⟨0, fun x => (Nat.zero_add _).symm⟩
  | cons token path ih =>
    obtain ⟨next, step, rest⟩ := bind_eq_some_iff.mp found
    obtain ⟨outer, outside⟩ := size_put step
    obtain ⟨inner, inside⟩ := ih rest
    simp only [JsonPointer.set, step]
    exact ⟨outer + inner, fun x => by rw [outside, inside, Nat.add_assoc]⟩

/-- A part is not longer than the whole. -/
theorem size_resolve_le (float : UInt64 → List Char) (found : resolve v path = some old) :
    size float old ≤ size float v := by
  obtain ⟨around, sizes⟩ := size_set float found
  have whole := sizes old
  rw [set_resolve found] at whole
  omega

theorem size_null : size float .null = 4 := by
  rw [size, compact]
  rfl

/-- Blanking a place makes the text smaller by what it held, up to the text of null. -/
theorem size_blank_first (float : UInt64 → List Char) (apart : ∀ other ∈ paths, Apart path other)
    (found : resolve v path = some old) :
    size float (blank (path :: paths) v) + size float old = size float (blank paths v) + 4 := by
  rw [← resolve_blank apart] at found
  obtain ⟨around, sizes⟩ := size_set float found
  have whole := sizes old
  rw [set_resolve found] at whole
  rw [blank_cons, blank_set apart, sizes, size_null]
  omega

end Nomifun.Library.Json
