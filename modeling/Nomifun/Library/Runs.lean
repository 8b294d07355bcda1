import Mathlib.Data.List.Induction

/-!
# Runs of a partial step function

A system takes one operation after the other; an operation may be refused. `run` is the
state after a whole sequence, if none of it was refused. What one step preserves a run
preserves (`run_invariant`, `run_history`), and what one step relates a run relates, provided the
relation can be chained (`run_relates`).
-/
namespace Nomifun.Library

variable {σ ω : Type} {ops : List ω} {inv : σ → Prop}

def run (step : σ → ω → Option σ) (s : σ) (ops : List ω) : Option σ := ops.foldlM step s

variable {step : σ → ω → Option σ} {s s' : σ}

theorem run_cons (step : σ → ω → Option σ) (s : σ) (op : ω) (ops : List ω) :
    run step s (op :: ops) = (step s op).bind fun next => run step next ops := rfl

theorem run_append (step : σ → ω → Option σ) (s : σ) (first second : List ω) :
    run step s (first ++ second) = (run step s first).bind fun next => run step next second := by
  simp [run]

/-- An invariant that may speak of the operations so far. -/
theorem run_history {inv : List ω → σ → Prop}
    (keeps : ∀ seen s op s', inv seen s → step s op = some s' → inv (seen ++ [op]) s')
    (start : inv [] s) (ran : run step s ops = some s') : inv ops s' := by
  induction ops using List.reverseRecOn generalizing s' with
  | nil =>
    cases ran
    exact start
  | append_singleton ops op ih =>
    rw [run_append, Option.bind_eq_some_iff] at ran
    obtain ⟨before, earlier, last⟩ := ran
    exact keeps ops before op s' (ih earlier) (by simpa [run] using last)

theorem run_invariant (keeps : ∀ s op s', inv s → step s op = some s' → inv s') (start : inv s)
    (ran : run step s ops = some s') : inv s' :=
  @run_history _ _ _ _ _ _ (fun _ => inv) (fun _ => keeps) start ran

theorem run_relates {allowed : ω → Prop} {rel : σ → σ → Prop}
    (keeps : ∀ s op s', inv s → step s op = some s' → inv s') (refl : ∀ s, rel s s)
    (trans : ∀ a b c, rel a b → rel b c → rel a c)
    (each : ∀ s op s', inv s → allowed op → step s op = some s' → rel s s') (start : inv s)
    (permitted : ∀ op ∈ ops, allowed op) (ran : run step s ops = some s') : rel s s' := by
  refine (@run_history _ _ _ _ _ _ (fun seen t => (∀ op ∈ seen, allowed op) → inv t ∧ rel s t)
    (fun seen t op next before stepped all => ?_) (fun _ => ⟨start, refl s⟩) ran permitted).2
  obtain ⟨holds, related⟩ := before fun earlier member =>
    all earlier (List.mem_append_left _ member)
  have may : allowed op := all op (List.mem_append_right seen (List.mem_singleton_self op))
  exact ⟨keeps t op next holds stepped, trans s t next related (each t op next holds may stepped)⟩

end Nomifun.Library
