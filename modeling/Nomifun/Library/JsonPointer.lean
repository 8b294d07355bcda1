import Nomifun.Library.Json

/-!
# JSON pointers

A pointer is a text of tokens, each after a slash. It names a place of a value: a token selects a
member of an object, or an item of an array by its decimal index. `set` writes to a place. The
rules are those of a store of places: a place reads back what was written to it, writing back what
it holds changes nothing, and places whose tokens part ways do not see each other's writes.
-/
namespace Nomifun.Library.JsonPointer
open Library.Json List

variable {p q : List String} {x y v : Value} {token : String}

/-! ### Tokens -/

def splitTokens : List Char → List (List Char)
  | [] => [[]]
  | c :: rest =>
    if c = '/' then [] :: splitTokens rest
    else
      match splitTokens rest with
      | [] => [[c]]
      | first :: more => (c :: first) :: more

/-- Replaces the escape made of a tilde and `code`. -/
def unescape (code plain : Char) : List Char → List Char
  | [] => []
  | [c] => [c]
  | c :: d :: rest =>
    if c = '~' ∧ d = code then plain :: unescape code plain rest
    else c :: unescape code plain (d :: rest)

def tokenText (chars : List Char) : String :=
  String.ofList (unescape '0' '~' (unescape '1' '/' chars))

/-- The tokens of a pointer; a text that is not empty starts with a slash. -/
def tokens (pointer : String) : Option (List String) :=
  match pointer.toList with
  | [] => some []
  | c :: rest => if c = '/' then some ((splitTokens rest).map tokenText) else none

/-- The index that a token writes in decimal, without a sign and without leading zeros. -/
def parseIndex (token : String) : Option Nat :=
  let index := Nat.ofDigitChars 10 token.toList 0
  if toString index = token then some index else none

theorem parseIndex_eq_some : parseIndex token = some index ↔ token = toString index := by
  simp only [parseIndex]
  constructor
  · intro parsed
    split at parsed
    next written =>
      cases parsed
      exact written.symm
    next => cases parsed
  · rintro rfl
    simp

/-! ### Places -/

def child (v : Value) (token : String) : Option Value :=
  match v with
  | .object entries => entries.lookup token
  | .array items => (parseIndex token).bind (items[·]?)
  | .null | .bool _ | .number _ | .string _ => none

def resolve (v : Value) : List String → Option Value
  | [] => some v
  | token :: path => (child v token).bind (resolve · path)

def replaceMember (key : String) (new : Value) : List (String × Value) → List (String × Value)
  | [] => []
  | (other, v) :: rest =>
    if key = other then (other, new) :: rest else (other, v) :: replaceMember key new rest

/-- Writes to a member or an item that exists. -/
def put (v : Value) (token : String) (new : Value) : Value :=
  match v with
  | .object entries => .object (replaceMember token new entries)
  | .array items =>
    match parseIndex token with
    | some index => .array (items.set index new)
    | none => v
  | .null | .bool _ | .number _ | .string _ => v

def set (new : Value) : List String → Value → Value
  | [], _ => new
  | token :: path, v =>
    match child v token with
    | some old => put v token (set new path old)
    | none => v

/-- `Value::pointer`. -/
def pointer (v : Value) (place : String) : Option Value := (tokens place).bind (resolve v)

/-- An assignment through `Value::pointer_mut`. -/
def assign (v : Value) (place : String) (new : Value) : Value :=
  match tokens place with
  | some path => set new path v
  | none => v

/-- Two places that part ways. -/
inductive Apart : List String → List String → Prop
  | here {a b : String} {p q : List String} : a ≠ b → Apart (a :: p) (b :: q)
  | later {a : String} {p q : List String} : Apart p q → Apart (a :: p) (a :: q)

theorem Apart.symm (apart : Apart p q) : Apart q p := by
  induction apart with
  | here different => exact .here (Ne.symm different)
  | later _ ih => exact .later ih

theorem Apart.ne (apart : Apart p q) : p ≠ q := by
  induction apart with
  | here different => exact fun same => different (cons.inj same).1
  | later _ ih => exact fun same => ih (cons.inj same).2

section

variable {key other : String} {entries rest : List (String × Value)}

theorem lookup_cons (name : String) :
    ((key, v) :: rest).lookup name = if name = key then some v else rest.lookup name := by
  by_cases same : name = key
  · simp [same]
  · rw [List.lookup_cons, beq_false_of_ne same, if_neg same]

theorem lookup_cons_self : ((key, v) :: rest).lookup key = some v := by
  simp

theorem lookup_cons_ne (different : key ≠ other) :
    ((other, v) :: rest).lookup key = rest.lookup key := by
  rw [lookup_cons, if_neg different]

theorem lookup_replaceMember (name : String) :
    (replaceMember key x entries).lookup name =
      if name = key then (entries.lookup key).map fun _ => x else entries.lookup name := by
  fun_induction replaceMember key x entries with
  | case1 => simp
  | case2 => grind
  | case3 => grind [lookup_cons]

theorem lookup_replaceMember_same (found : entries.lookup key = some v) :
    (replaceMember key x entries).lookup key = some x := by
  rw [lookup_replaceMember, if_pos rfl, found, Option.map_some]

theorem lookup_replaceMember_other (different : key ≠ other) :
    (replaceMember key x entries).lookup other = entries.lookup other := by
  rw [lookup_replaceMember, if_neg different.symm]

theorem replaceMember_found (found : entries.lookup key = some v) :
    replaceMember key v entries = entries := by
  fun_induction replaceMember key v entries with
  | case1 => rfl
  | case2 w rest =>
    rw [lookup_cons_self] at found
    rw [Option.some.inj found]
  | case3 other w rest different ih =>
    rw [lookup_cons_ne different] at found
    rw [ih found]

theorem replaceMember_replaceMember :
    replaceMember key y (replaceMember key x entries) = replaceMember key y entries := by
  fun_induction replaceMember key x entries with
  | case1 => rfl
  | case2 => simp [replaceMember]
  | case3 other w rest different ih => simp [replaceMember, different, ih]

theorem replaceMember_comm (different : key ≠ other) :
    replaceMember other y (replaceMember key x entries) =
      replaceMember key x (replaceMember other y entries) := by
  induction entries with
  | nil => rfl
  | cons entry rest ih => grind [replaceMember]

theorem map_fst_replaceMember : (replaceMember key x entries).map (·.1) = entries.map (·.1) := by
  fun_induction replaceMember key x entries with
  | case1 => rfl
  | case2 => rfl
  | case3 other w rest different ih => rw [map_cons, ih, map_cons]

end

theorem child_put_same (found : child v a = some old) : child (put v a x) a = some x := by
  cases v with
  | object entries => exact lookup_replaceMember_same found
  | array items =>
    obtain ⟨index, parsed, item⟩ := Option.bind_eq_some_iff.mp found
    have inside := (List.getElem?_eq_some_iff.mp item).1
    simp [put, child, parsed, inside]
  | null | bool | number | string => cases found

theorem parseIndex_ne (different : a ≠ b) (parsed : parseIndex a = some index)
    (parsedOther : parseIndex b = some otherIndex) : index ≠ otherIndex := by
  rintro rfl
  exact different ((parseIndex_eq_some.mp parsed).trans (parseIndex_eq_some.mp parsedOther).symm)

theorem child_put_other (different : a ≠ b) : child (put v a x) b = child v b := by
  cases v with
  | object entries => exact lookup_replaceMember_other different
  | array items =>
    unfold put
    cases parsed : parseIndex a with
    | none => rfl
    | some index =>
      simp only [child]
      cases parsedOther : parseIndex b with
      | none => rfl
      | some otherIndex =>
        simp [getElem?_set_ne (parseIndex_ne different parsed parsedOther)]
  | null | bool | number | string => rfl

theorem put_child (found : child v a = some old) : put v a old = v := by
  cases v with
  | object entries => rw [put, replaceMember_found found]
  | array items =>
    obtain ⟨index, parsed, item⟩ := Option.bind_eq_some_iff.mp found
    obtain ⟨inside, rfl⟩ := List.getElem?_eq_some_iff.mp item
    simp [put, parsed]
  | null | bool | number | string => rfl

theorem put_put : put (put v a x) a y = put v a y := by
  cases v with
  | object entries => simp [put, replaceMember_replaceMember]
  | array items =>
    cases parsed : parseIndex a with
    | none => simp [put, parsed]
    | some index => simp [put, parsed]
  | null | bool | number | string => rfl

theorem put_comm (different : a ≠ b) : put (put v a x) b y = put (put v b y) a x := by
  cases v with
  | object entries => simp [put, replaceMember_comm different]
  | array items =>
    cases parsed : parseIndex a with
    | none => cases parsedOther : parseIndex b <;> simp [put, parsed, parsedOther]
    | some index =>
      cases parsedOther : parseIndex b with
      | none => simp [put, parsed, parsedOther]
      | some otherIndex =>
        simp [put, parsed, parsedOther, set_comm _ _ (parseIndex_ne different parsed parsedOther)]
  | null | bool | number | string => rfl

section

theorem resolve_set_same (found : resolve v p = some old) : resolve (set x p v) p = some x := by
  induction p generalizing v with
  | nil => rfl
  | cons token path ih =>
    obtain ⟨next, step, rest⟩ := Option.bind_eq_some_iff.mp found
    simp only [set, step, resolve, child_put_same step]
    exact ih rest

theorem resolve_set_apart (apart : Apart p q) : resolve (set x p v) q = resolve v q := by
  induction apart generalizing v with
  | @here a b p q different =>
    cases step : child v a with
    | none => simp [set, step]
    | some next => simp [set, step, resolve, child_put_other different]
  | @later a p q _ ih =>
    cases step : child v a with
    | none => simp [set, step]
    | some next => simp [set, step, resolve, child_put_same step, ih]

/-- Writing back what a place holds. -/
theorem set_resolve (found : resolve v p = some old) : set old p v = v := by
  induction p generalizing v with
  | nil => exact (Option.some.inj found).symm
  | cons token path ih =>
    obtain ⟨next, step, rest⟩ := Option.bind_eq_some_iff.mp found
    simp only [set, step, ih rest, put_child step]

theorem set_set : set y p (set x p v) = set y p v := by
  induction p generalizing v with
  | nil => rfl
  | cons token path ih =>
    cases step : child v token with
    | none => simp [set, step]
    | some next => simp [set, step, child_put_same step, put_put, ih]

/-- Writing below a place changes what the place holds. -/
theorem resolve_set_below : resolve (set x (p ++ q) v) p = (resolve v p).map (set x q) := by
  induction p generalizing v with
  | nil => rfl
  | cons token path ih =>
    cases step : child v token with
    | none => simp [set, resolve, step]
    | some next => simp [set, resolve, step, child_put_same step, ih]

theorem set_comm (apart : Apart p q) : set y q (set x p v) = set x p (set y q v) := by
  induction apart generalizing v with
  | @here a b p q different =>
    cases step : child v a with
    | none =>
      cases stepOther : child v b with
      | none => simp [set, step, stepOther]
      | some other => simp [set, step, stepOther, child_put_other (Ne.symm different)]
    | some next =>
      cases stepOther : child v b with
      | none => simp [set, step, stepOther, child_put_other different]
      | some other =>
        simp [set, step, stepOther, child_put_other different, child_put_other (Ne.symm different),
          put_comm different]
  | @later a p q _ ih =>
    cases step : child v a with
    | none => simp [set, step]
    | some next => simp [set, step, child_put_same step, put_put, ih]

/-! ### Blanked places -/

def blank (paths : List (List String)) (v : Value) : Value :=
  paths.foldl (fun w path => set .null path w) v

theorem blank_cons (path : List String) (paths : List (List String)) (v : Value) :
    blank (path :: paths) v = blank paths (set .null path v) := rfl

theorem blank_append (first second : List (List String)) (v : Value) :
    blank (first ++ second) v = blank second (blank first v) := foldl_append

variable {paths : List (List String)}

variable (apart : ∀ path ∈ paths, Apart p path)
include apart

theorem blank_set : blank paths (set x p v) = set x p (blank paths v) := by
  induction paths generalizing v with
  | nil => rfl
  | cons path paths ih =>
    rw [forall_mem_cons] at apart
    rw [blank_cons, blank_cons, set_comm apart.1, ih apart.2]

theorem resolve_blank : resolve (blank paths v) p = resolve v p := by
  induction paths generalizing v with
  | nil => rfl
  | cons path paths ih =>
    rw [forall_mem_cons] at apart
    rw [blank_cons, ih apart.2, resolve_set_apart apart.1.symm]

/-- The place that was blanked first holds null. -/
theorem resolve_blank_first (found : resolve v p = some old) :
    resolve (blank (p :: paths) v) p = some .null := by
  rw [blank_cons, resolve_blank apart, resolve_set_same found]

/-- Writing back what the first place held. -/
theorem set_blank_first (found : resolve v p = some old) :
    set old p (blank (p :: paths) v) = blank paths v := by
  rw [blank_cons, blank_set apart, set_set, set_resolve]
  rw [resolve_blank apart, found]

end

/-! ### The text of a pointer -/

variable {path : List String}

theorem splitTokens_ne_nil (chars : List Char) : splitTokens chars ≠ [] := by
  cases chars with
  | nil => simp [splitTokens]
  | cons c rest =>
    unfold splitTokens
    split
    · simp
    · split <;> simp

theorem splitTokens_append :
    splitTokens (first ++ '/' :: second) = splitTokens first ++ splitTokens second := by
  induction first with
  | nil => simp [splitTokens]
  | cons c rest ih =>
    by_cases slash : c = '/'
    · simp [splitTokens, slash, ih]
    · simp only [cons_append, splitTokens, if_neg slash, ih]
      cases split : splitTokens rest with
      | nil => exact absurd split (splitTokens_ne_nil rest)
      | cons token more => simp

/-- A token that needs no escapes. -/
def Plain (token : String) : Prop := ∀ c ∈ token.toList, c ≠ '/' ∧ c ≠ '~'

instance (token : String) : Decidable (Plain token) :=
  token.toList.decidableBAll fun c => c ≠ '/' ∧ c ≠ '~'

/-- The text of a pointer to a place. -/
def place (path : List String) : String :=
  String.ofList (path.flatMap fun token => '/' :: token.toList)

theorem splitTokens_single (plain : ∀ c ∈ chars, c ≠ '/') : splitTokens chars = [chars] := by
  induction chars with
  | nil => rfl
  | cons c rest ih =>
    rw [forall_mem_cons] at plain
    simp [splitTokens, plain.1, ih plain.2]

theorem unescape_plain (free : ∀ c ∈ chars, c ≠ '~') : unescape code plain chars = chars := by
  induction chars with
  | nil => rfl
  | cons c rest ih =>
    rw [forall_mem_cons] at free
    cases rest with
    | nil => rfl
    | cons d more => rw [unescape, if_neg fun both => free.1 both.1, ih free.2]

theorem tokenText_plain (plain : Plain token) : tokenText token.toList = token := by
  have free : ∀ c ∈ token.toList, c ≠ '~' := fun c member => (plain c member).2
  rw [tokenText, unescape_plain free, unescape_plain free, String.ofList_toList]

theorem splitTokens_flatMap (plain : Plain token) (rest : ∀ token ∈ path, Plain token) :
    splitTokens (token.toList ++ path.flatMap fun token => '/' :: token.toList) =
      token.toList :: path.map String.toList := by
  induction path generalizing token with
  | nil =>
    rw [flatMap_nil, append_nil]
    exact splitTokens_single fun c member => (plain c member).1
  | cons next path ih =>
    rw [forall_mem_cons] at rest
    rw [flatMap_cons, cons_append, splitTokens_append, ih rest.1 rest.2,
      splitTokens_single fun c member => (plain c member).1]
    rfl

theorem tokens_place (plain : ∀ token ∈ path, Plain token) : tokens (place path) = some path := by
  cases path with
  | nil => rfl
  | cons token path =>
    have all := plain
    rw [forall_mem_cons] at plain
    have texts : ((token :: path).map String.toList).map tokenText = token :: path := by
      rw [map_map]
      conv_rhs => rw [← map_id (token :: path)]
      exact map_congr_left fun token member => tokenText_plain (all token member)
    rw [tokens, place, String.toList_ofList, flatMap_cons, cons_append]
    simp only [splitTokens_flatMap plain.1 plain.2]
    exact congrArg some texts

theorem plain_toString (n : Nat) : Plain (toString n) := by
  intro c member
  rw [Nat.toString_eq_ofList_toDigits, String.toList_ofList] at member
  have digit := Nat.isDigit_of_mem_toDigits (by decide) (by decide) member
  constructor <;> (rintro rfl; exact absurd digit (by decide))

end Nomifun.Library.JsonPointer
