import Mathlib.Logic.Relation

/-!
# Things that are used once

A thing is there to be claimed by one user, or to be withdrawn before that. A claim is made only
on a thing that nobody claimed or withdrew, a withdrawal only on one that nobody claimed. Over any
run there is at most one claim, never together with a withdrawal, and what happened first stays.
-/
namespace Nomifun.Library.SingleUse

variable {κ : Type}

/-- The claims on a thing so far, and whether it was withdrawn. -/
structure Usage (κ : Type) where
  claims : List κ
  withdrawn : Bool

def unused : Usage κ := ⟨[], false⟩

inductive Step : Usage κ → Usage κ → Prop
  | keep {usage : Usage κ} : Step usage usage
  | claim (user : κ) : Step unused ⟨[user], false⟩
  | withdraw {withdrawn : Bool} : Step ⟨[], withdrawn⟩ ⟨[], true⟩

abbrev Run : Usage κ → Usage κ → Prop := Relation.ReflTransGen Step

theorem Run.of_claimed (run : Run before after) (claimed : before.claims ≠ []) :
    after = before := by
  induction run with
  | refl => rfl
  | tail _ step ih =>
    subst ih
    cases step with
    | keep => rfl
    | claim | withdraw => exact absurd rfl claimed

theorem Run.of_withdrawn (run : Run before after) (unclaimed : before.claims = [])
    (withdrawn : before.withdrawn = true) : after = before := by
  induction run with
  | refl => rfl
  | tail _ step ih =>
    subst ih
    cases step with
    | keep => rfl
    | claim => cases withdrawn
    | withdraw => rw [← withdrawn]

theorem Run.withdrawn (run : Run before after) (withdrawn : before.withdrawn = true) :
    after.withdrawn = true := by
  induction run with
  | refl => exact withdrawn
  | tail _ step ih =>
    cases step with
    | keep => exact ih
    | claim => cases ih
    | withdraw => rfl

theorem Run.exclusive (run : Run unused after) :
    after.claims.length ≤ 1 ∧ (after.withdrawn = true → after.claims = []) := by
  induction run with
  | refl => exact ⟨Nat.zero_le 1, fun _ => rfl⟩
  | tail _ step ih =>
    cases step with
    | keep => exact ih
    | claim => exact ⟨Nat.le_refl 1, fun impossible => by cases impossible⟩
    | withdraw => exact ⟨Nat.zero_le 1, fun _ => rfl⟩

end Nomifun.Library.SingleUse
