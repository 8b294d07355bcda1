import Mathlib.Data.List.Basic

/-!
# The last position with a property

`rposition` of the Rust iterators: the index of the last item that passes a test. The item
cuts the list in two, and nothing behind it passes.
-/
namespace Nomifun.Library

variable {α : Type}

def rposition (test : α → Bool) : List α → Option Nat
  | [] => none
  | a :: rest =>
    match rposition test rest with
    | some i => some (i + 1)
    | none => if test a then some 0 else none

variable {test : α → Bool} {items : List α}

theorem rposition_eq_none : rposition test items = none ↔ ∀ a ∈ items, test a = false := by
  induction items with
  | nil => simp [rposition]
  | cons a rest ih =>
    rw [rposition, List.forall_mem_cons, ← ih]
    cases rposition test rest <;> simp

theorem rposition_eq_some (found : rposition test items = some i) :
    ∃ before a after, items = before ++ a :: after ∧ before.length = i ∧ test a = true ∧
      ∀ b ∈ after, test b = false := by
  induction items generalizing i with
  | nil => cases found
  | cons first rest ih =>
    rw [rposition] at found
    cases later : rposition test rest with
    | some j =>
      rw [later] at found
      cases found
      obtain ⟨before, a, after, split, rfl, passes, none⟩ := ih later
      exact ⟨first :: before, a, after, by rw [split, List.cons_append], rfl, passes, none⟩
    | none =>
      rw [later] at found
      simp only [Option.ite_none_right_eq_some, Option.some.injEq] at found
      obtain ⟨passes, rfl⟩ := found
      exact ⟨[], first, rest, rfl, rfl, passes, rposition_eq_none.mp later⟩

end Nomifun.Library
