import Nomifun.Library.MachineInt

/-!
# The occurrences of a cron job

nomifun-cron, scheduler.rs:49-84 and types.rs:18-32. Timestamps are `i64` milliseconds. The next run
of a cron expression is that of the `cron` crate, a parameter.
-/
namespace Nomifun.Source.Cron
open Library.MachineInt

inductive CronSchedule where
  | atMs (atMs : Int)
  | every (everyMs : Int)
  | cron (expr : String) (tz : Option String)

/-- The result of a checked operation on `i64`. -/
def checkedI64 (n : Int) : Option Int :=
  if -(i64Max : Int) - 1 ≤ n ∧ n ≤ i64Max then some n else none

/-- The result of a saturating one. -/
def saturatedI64 (n : Int) : Int := max (-(i64Max : Int) - 1) (min n i64Max)

variable (computeCronNextRun : String → Option String → Int → Option Int)

def computeNextRun (schedule : CronSchedule) (now : Int) : Option Int :=
  match schedule with
  | .atMs atMs => some atMs
  | .every everyMs => if everyMs ≤ 0 then none else checkedI64 (now + everyMs)
  | .cron expr tz => computeCronNextRun expr tz now

/-- The first future occurrence on the cadence of what was planned. -/
def computeOccurrenceSuccessor (schedule : CronSchedule) (planned now : Int) : Option Int :=
  match schedule with
  | .atMs _ => none
  | .every everyMs =>
    if everyMs > 0 then do
      let whole ← checkedI64 ((max (saturatedI64 (now - planned)) 0).tdiv everyMs)
      let steps ← checkedI64 (whole + 1)
      let next ← checkedI64 (planned + (← checkedI64 (steps * everyMs)))
      if next > planned ∧ next > now then some next else none
    else none
  | .cron _ _ => computeNextRun computeCronNextRun schedule (max planned now)

/-- The instants that are planned one after the other, each with the time at which it was. -/
def occurrences (schedule : CronSchedule) (planned : Int) : List Int → List (Int × Int)
  | [] => []
  | now :: clock =>
    match computeOccurrenceSuccessor computeCronNextRun schedule planned now with
    | none => []
    | some next => (now, next) :: occurrences schedule next clock

end Nomifun.Source.Cron
