import Mathlib.Data.List.Induction
import Mathlib.Data.List.Nodup

/-!
# Greedy choice

Items are offered in order, and an item is chosen if it fits what was chosen before it. The choice
from a longer list extends the choice from its first items, so whether an item is chosen depends
only on the items offered earlier (`mem_greedy_iff`).
-/
namespace Nomifun.Library.Greedy
open List

variable {α : Type} {fits : List α → α → Bool} {items : List α}

def consider (fits : List α → α → Bool) (chosen : List α) (item : α) : List α :=
  if fits chosen item then chosen ++ [item] else chosen

def greedy (fits : List α → α → Bool) (items : List α) : List α := items.foldl (consider fits) []

theorem greedy_append (fits : List α → α → Bool) (before after : List α) :
    greedy fits (before ++ after) = after.foldl (consider fits) (greedy fits before) :=
  foldl_append

theorem foldl_consider_sublist (chosen items : List α) :
    ∃ more, items.foldl (consider fits) chosen = chosen ++ more ∧ more.Sublist items := by
  induction items generalizing chosen with
  | nil => exact ⟨[], (append_nil chosen).symm, .refl []⟩
  | cons item items ih =>
    rw [foldl_cons, consider]
    split
    · obtain ⟨more, extended, sublist⟩ := ih (chosen ++ [item])
      exact ⟨item :: more, by rw [extended, append_assoc, singleton_append], sublist.cons_cons item⟩
    · obtain ⟨more, extended, sublist⟩ := ih chosen
      exact ⟨more, extended, sublist.cons item⟩

theorem greedy_sublist (fits : List α → α → Bool) (items : List α) :
    (greedy fits items).Sublist items := by
  obtain ⟨more, extended, sublist⟩ := foldl_consider_sublist [] items
  rw [greedy, extended]
  exact sublist

theorem foldl_consider_full (full : ∀ item ∈ items, fits chosen item = false) :
    items.foldl (consider fits) chosen = chosen := by
  induction items with
  | nil => rfl
  | cons item items ih =>
    rw [foldl_cons, consider, full item mem_cons_self]
    exact ih fun other member => full other (mem_cons_of_mem item member)

/-- Items that are not offered are items that never fit. -/
theorem greedy_filter (offered : α → Bool) :
    greedy fits (items.filter offered) =
      greedy (fun chosen item => offered item && fits chosen item) items := by
  rw [greedy, foldl_filter]
  congr 1
  funext chosen item
  cases yes : offered item <;> simp [consider, yes]

/-- What every choice keeps, the whole choice has. -/
theorem greedy_invariant (inv : List α → Prop) (empty : inv [])
    (keeps : ∀ chosen, ∀ item ∈ items, inv chosen → fits chosen item = true →
      inv (chosen ++ [item])) : inv (greedy fits items) := by
  induction items using List.reverseRecOn with
  | nil => exact empty
  | append_singleton items item ih =>
    have before : inv (greedy fits items) := ih fun chosen other member =>
      keeps chosen other (mem_append_left [item] member)
    rw [greedy_append, foldl_cons, consider]
    split
    next fit => exact keeps _ item (by simp) before fit
    next => exact before

variable {before after : List α} {item : α}

/-- The chosen items among the first ones are the choice from the first ones. -/
theorem filter_greedy [DecidableEq α] (distinct : (before ++ after).Nodup) :
    (greedy fits (before ++ after)).filter (· ∈ before) = greedy fits before := by
  obtain ⟨more, extended, sublist⟩ := foldl_consider_sublist (greedy fits before) after
  rw [greedy_append, extended, filter_append]
  have kept : (greedy fits before).filter (· ∈ before) = greedy fits before :=
    filter_eq_self.mpr fun item member =>
      decide_eq_true ((greedy_sublist fits before).mem member)
  have dropped : more.filter (· ∈ before) = [] :=
    filter_eq_nil_iff.mpr fun item member listed =>
      disjoint_of_nodup_append distinct (of_decide_eq_true listed) (sublist.mem member)
  rw [kept, dropped, append_nil]

theorem mem_greedy_iff (distinct : (before ++ item :: after).Nodup) :
    item ∈ greedy fits (before ++ item :: after) ↔ fits (greedy fits before) item = true := by
  obtain ⟨more, extended, sublist⟩ :=
    foldl_consider_sublist (consider fits (greedy fits before) item) after
  rw [greedy_append, foldl_cons, extended]
  obtain ⟨-, distinctAfter, apart⟩ := nodup_append.mp distinct
  have notBefore : item ∉ greedy fits before := fun member =>
    apart item ((greedy_sublist fits before).mem member) item mem_cons_self rfl
  have notAfter : item ∉ more := fun member =>
    (nodup_cons.mp distinctAfter).1 (sublist.mem member)
  cases fit : fits (greedy fits before) item with
  | false => simp [consider, fit, notBefore, notAfter]
  | true => simp [consider, fit]

end Nomifun.Library.Greedy
