import Nomifun.Source.Cron.Occurrences
import Mathlib.Data.Int.ModEq
import Mathlib.Order.Bounds.Basic
import Mathlib.Algebra.Order.Ring.Int
import Mathlib.Data.List.Chain

/-!
# The cadence of a cron job

A job that runs every so often is planned at the first instant of its cadence that is still to come.
None of the checked operations fails before the instant itself is too large for a timestamp.
-/
namespace Nomifun.Guarantees.CronOccurrences
open Library.MachineInt Source.Cron List Option

variable {computeCronNextRun : String → Option String → Int → Option Int}
  {everyMs planned now : Int}

/-- The instants of a cadence that are behind the planned one and the time. -/
def Upcoming (everyMs planned now : Int) : Set Int :=
  {instant | ∃ k : Nat, 1 ≤ k ∧ instant = planned + k * everyMs ∧ now < instant}

/-- A timestamp that is not before the epoch. -/
def IsTimestamp (n : Int) : Prop := 0 ≤ n ∧ n ≤ i64Max

/-- The elapsed periods and one more. -/
def steps (everyMs planned now : Int) : Int := max (now - planned) 0 / everyMs + 1

theorem steps_isLeast (positive : 0 < everyMs) :
    IsLeast (Upcoming everyMs planned now) (planned + steps everyMs planned now * everyMs) := by
  have passed := Int.lt_ediv_add_one_mul_self (max (now - planned) 0) positive
  have whole : 0 ≤ max (now - planned) 0 / everyMs :=
    Int.ediv_nonneg (le_max_right ..) positive.le
  constructor
  · refine ⟨(steps everyMs planned now).toNat, ?_, ?_, ?_⟩
    · rw [steps]
      omega
    · rw [Int.toNat_of_nonneg (by rw [steps]; omega)]
    · rw [steps]
      omega
  · rintro _ ⟨k, some, rfl, later⟩
    have period : everyMs ≤ k * everyMs := le_mul_of_one_le_left positive.le (by omega)
    have few : max (now - planned) 0 / everyMs < k :=
      Int.ediv_lt_of_lt_mul positive (by omega)
    have := mul_le_mul_of_nonneg_right (show steps everyMs planned now ≤ k from few) positive.le
    omega

theorem checkedI64_ok {n result : Int} (ok : checkedI64 n = some result) : n = result :=
  some.inj (ite_none_right_eq_some.mp ok).2

theorem successor_eq (positive : 0 < everyMs) (isPlanned : IsTimestamp planned)
    (isNow : IsTimestamp now) :
    computeOccurrenceSuccessor computeCronNextRun (.every everyMs) planned now =
      if planned + steps everyMs planned now * everyMs ≤ i64Max then
        some (planned + steps everyMs planned now * everyMs) else none := by
  obtain ⟨⟨k, -, -, later⟩, -⟩ := @steps_isLeast everyMs planned now positive
  obtain ⟨notNegative, planned_le⟩ := isPlanned
  obtain ⟨_, now_le⟩ := isNow
  have room : (i64Max : Int) = 2 ^ 63 - 1 := rfl
  have exact' : saturatedI64 (now - planned) = now - planned := by
    rw [saturatedI64]
    omega
  have whole : 0 ≤ max (now - planned) 0 / everyMs :=
    Int.ediv_nonneg (le_max_right ..) positive.le
  have few := Int.ediv_le_self everyMs (le_max_right (now - planned) 0)
  have period : steps everyMs planned now ≤ steps everyMs planned now * everyMs :=
    le_mul_of_one_le_right (by rw [steps]; omega) positive
  have isWhole : checkedI64 (max (now - planned) 0 / everyMs) =
      some (max (now - planned) 0 / everyMs) := if_pos (by omega)
  simp only [computeOccurrenceSuccessor, if_pos positive, exact',
    Int.tdiv_eq_ediv_of_nonneg (le_max_right ..), isWhole, bind_eq_bind, bind_some]
  change (checkedI64 (steps everyMs planned now)).bind _ = _
  have counts : 1 ≤ steps everyMs planned now := by
    rw [steps]
    omega
  generalize steps everyMs planned now = count at *
  by_cases fits : planned + count * everyMs ≤ i64Max
  · have isCount : checkedI64 count = some count := if_pos (by omega)
    have isSpan : checkedI64 (count * everyMs) = some (count * everyMs) := if_pos (by omega)
    have isNext : checkedI64 (planned + count * everyMs) = some (planned + count * everyMs) :=
      if_pos (by omega)
    simp only [isCount, isSpan, isNext, bind_some, if_pos fits]
    exact if_pos ⟨by omega, later⟩
  · -- The instant is too large, whichever operation finds that out.
    rw [if_neg fits, bind_eq_none_iff]
    intro _ isCount
    rw [← checkedI64_ok isCount, bind_eq_none_iff]
    intro _ isSpan
    rw [← checkedI64_ok isSpan, checkedI64, if_neg (by omega)]
    rfl

/-- Each instant is the first of the cadence behind the one before it and the time at which it was
planned. -/
abbrev Follows (everyMs : Int) (before next : Int × Int) : Prop :=
  IsLeast (Upcoming everyMs before.2 next.1) next.2

theorem occurrences_follow (positive : 0 < everyMs) (isPlanned : IsTimestamp planned)
    {clock : List Int} (isClock : ∀ now ∈ clock, IsTimestamp now) (start : Int) :
    IsChain (Follows everyMs) ((start, planned) ::
      occurrences computeCronNextRun (.every everyMs) planned clock) := by
  induction clock generalizing planned start with
  | nil => exact .singleton _
  | cons now clock ih =>
    rw [forall_mem_cons] at isClock
    have least := @steps_isLeast everyMs planned now positive
    rw [occurrences, successor_eq positive isPlanned isClock.1]
    split
    next => exact .singleton _
    next next isNext =>
      obtain ⟨fits, same⟩ := ite_none_right_eq_some.mp isNext
      obtain rfl := some.inj same
      refine .cons_cons least (ih ⟨?_, fits⟩ isClock.2 now)
      obtain ⟨⟨_, -, -, later⟩, -⟩ := least
      exact isClock.1.1.trans later.le

theorem Follows.passes (positive : 0 < everyMs) {before next : Int × Int}
    (follows : Follows everyMs before next) :
    before.2 < next.2 ∧ before.2 ≡ next.2 [ZMOD everyMs] := by
  obtain ⟨⟨k, some, isNext, -⟩, -⟩ := follows
  rw [isNext]
  have := mul_pos (show 0 < (k : Int) by omega) positive
  exact ⟨by omega, by simp⟩

/-- The successor of a planned instant is the least instant of its cadence that is greater than the
time, if it is a timestamp at all. Planned one after the other, the instants increase, keep to the
cadence of the first and skip none that is still to come. -/
theorem occurrences_keep_cadence (positive : 0 < everyMs) (isPlanned : IsTimestamp planned) :
    (∀ now, IsTimestamp now → ∃ next, IsLeast (Upcoming everyMs planned now) next ∧
      computeOccurrenceSuccessor computeCronNextRun (.every everyMs) planned now =
        if next ≤ i64Max then some next else none) ∧
    ∀ clock, (∀ now ∈ clock, IsTimestamp now) → ∀ start,
      let run := (start, planned) ::
        occurrences computeCronNextRun (.every everyMs) planned clock
      IsChain (Follows everyMs) run ∧ run.Pairwise fun before next =>
        before.2 < next.2 ∧ before.2 ≡ next.2 [ZMOD everyMs] := by
  refine ⟨fun now isNow => ⟨_, steps_isLeast positive, successor_eq positive isPlanned isNow⟩, ?_⟩
  intro clock isClock start
  have chain := @occurrences_follow computeCronNextRun _ _ positive isPlanned _ isClock start
  refine ⟨chain, ?_⟩
  have : IsTrans (Int × Int) fun before next =>
      before.2 < next.2 ∧ before.2 ≡ next.2 [ZMOD everyMs] :=
    ⟨fun _ _ _ first second => ⟨first.1.trans second.1, first.2.trans second.2⟩⟩
  exact isChain_iff_pairwise.mp (chain.imp fun _ _ follows => follows.passes positive)

/-- A job that runs every ten milliseconds, at a time behind its planned one. -/
theorem late_job_keeps_cadence :
    computeOccurrenceSuccessor (fun _ _ _ => none) (.every 10) 5 37 = some 45 ∧
      ∃ next, IsLeast (Upcoming 10 5 37) next := by
  obtain ⟨next, least, -⟩ := (@occurrences_keep_cadence (fun _ _ _ => none) 10 5 (by decide)
    ⟨by decide, by decide⟩).1 37 ⟨by decide, by decide⟩
  exact ⟨by decide, next, least⟩

end Nomifun.Guarantees.CronOccurrences
