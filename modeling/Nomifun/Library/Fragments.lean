import Mathlib.Data.String.Basic

/-!
# Texts in fragments

A stream of items of which some carry a fragment of the text of a key. `collected` puts the
fragments of one key together in the order of the stream. `split_unique` finds an item by its key.
-/
namespace Nomifun.Library.Fragments

variable {α κ : Type} [DecidableEq κ] (part : α → Option (κ × String))

/-- What an item adds to the text of a key. -/
def fragment (key : κ) (item : α) : String :=
  match part item with
  | none => ""
  | some (other, text) => if other = key then text else ""

def collected (key : κ) : List α → String
  | [] => ""
  | item :: rest => fragment part key item ++ collected key rest

variable {part}

theorem collected_append (first second : List α) :
    collected part key (first ++ second) =
      collected part key first ++ collected part key second := by
  induction first with
  | nil => simp [collected]
  | cons item rest ih => simp [collected, ih, String.append_assoc]

theorem collected_singleton (item : α) : collected part key [item] = fragment part key item := by
  simp [collected]

theorem fragment_of_part (found : part item = some (key, text)) :
    fragment part key item = text := by
  simp [fragment, found]

theorem fragment_eq_empty (foreign : ∀ text, part item ≠ some (key, text)) :
    fragment part key item = "" := by
  unfold fragment
  split
  next => rfl
  next other text found =>
    split
    next same => exact absurd (same ▸ found) (foreign text)
    next => rfl

/-- Items that carry nothing of the key. -/
theorem collected_eq_empty (foreign : ∀ item ∈ items, ∀ text, part item ≠ some (key, text)) :
    collected part key items = "" := by
  induction items with
  | nil => rfl
  | cons item rest ih =>
    rw [List.forall_mem_cons] at foreign
    rw [collected, fragment_eq_empty foreign.1, ih foreign.2, String.empty_append]

omit [DecidableEq κ] in
/-- An item is determined by its key where no key occurs twice, and so is what comes before it. -/
theorem split_unique (distinct : ((before ++ item :: after).filterMap keyOf).Nodup)
    (same : before ++ item :: after = before' ++ item' :: after') (first : keyOf item = some key)
    (second : keyOf item' = some key) : before = before' ∧ item = item' := by
  induction before generalizing before' with
  | nil =>
    cases before' with
    | nil => exact ⟨rfl, (List.cons.inj same).1⟩
    | cons head rest =>
      obtain ⟨rfl, tail⟩ := List.cons.inj same
      rw [tail] at distinct
      simp [first, second] at distinct
  | cons head rest ih =>
    cases before' with
    | nil =>
      obtain ⟨rfl, tail⟩ := List.cons.inj same
      simp [first, second] at distinct
    | cons other more =>
      obtain ⟨rfl, tail⟩ := List.cons.inj same
      have fewer : ((rest ++ item :: after).filterMap keyOf).Nodup := by
        rw [List.cons_append, List.filterMap_cons] at distinct
        split at distinct
        · exact distinct
        · exact (List.nodup_cons.mp distinct).2
      obtain ⟨rfl, rfl⟩ := ih fewer tail
      exact ⟨rfl, rfl⟩

end Nomifun.Library.Fragments
