import Nomifun.Source.AgentExecution.Scheduler

/-!
# The lease of the scheduler

nomi-types, agent.rs:9-40; nomifun-db, sqlite_agent_execution.rs:373-398, 2200-2268, 2434-2485,
2570-2644, 3481-3489, 4045-4075, 4236-4270, 4384-4397, 4551-4564, 4674-4697 and 4908-4930;
001_canonical_baseline.sql:381-422. A scheduler holds the lease of an execution for a time. Its own
transactions carry the owner of the lease as a token and begin with the fence; the repository then
updates the row of the execution, and commits or leaves everything as it was.

`now` is what the clock showed when the call began.
-/
namespace Nomifun.Source.AgentExecution
open Library Library.RustText Option

inductive AgentExecutionStatus where
  | planning | running | paused | waitingInput | completed | completedWithFailures | failed
  | cancelled
  deriving DecidableEq

namespace AgentExecutionStatus

def isTerminal : AgentExecutionStatus → Bool
  | .completed | .completedWithFailures | .failed | .cancelled => true
  | .planning | .running | .paused | .waitingInput => false

/-- `status IN ('running', 'waiting_input')`: steps are dispatched. -/
def isDispatching : AgentExecutionStatus → Bool
  | .running | .waitingInput => true
  | .planning | .paused | .completed | .completedWithFailures | .failed | .cancelled => false

/-- `status IN ('running', 'waiting_input', 'paused')`: a scheduler may hold the lease. -/
def isLeasable (status : AgentExecutionStatus) : Bool := status.isDispatching || status = .paused

end AgentExecutionStatus

/-- The table keeps the owner and the expiry both NULL or both set. -/
structure Lease where
  owner : String
  expiresAt : Int
  deriving DecidableEq

set_option linter.dupNamespace false in
/-- The columns of an execution that its scheduler reads or writes. -/
structure ExecutionRow extends AgentExecution where
  userId : String
  status : AgentExecutionStatus
  lease : Option Lease
  deletedAt : Option Int
  updatedAt : Int
  deriving DecidableEq

/-! ### The calls on a lease -/

def tryAcquireLease (now expectedVersion : Int) (owner : String) (expiresAt : Int)
    (row : ExecutionRow) : Except (Fault DbError) (Option ExecutionRow) := do
  if (trim owner).isEmpty || expiresAt ≤ now then
    dbConflict "lease owner must be non-empty and expiry must be in the future"
  if row.version = expectedVersion &&
      row.lease.all (fun lease => lease.expiresAt ≤ now || lease.owner = owner) &&
      row.deletedAt.isNone && row.status.isLeasable then
    return some { row with lease := some ⟨owner, expiresAt⟩ }
  else return none

def renewLease (now : Int) (owner : String) (expectedExpiresAt expiresAt : Int)
    (row : ExecutionRow) : Except (Fault DbError) (Option ExecutionRow) := do
  if (trim owner).isEmpty || expiresAt ≤ now then
    dbConflict "lease owner must be non-empty and expiry must be in the future"
  if row.lease = some ⟨owner, expectedExpiresAt⟩ && row.deletedAt.isNone &&
      row.status.isLeasable then
    return some { row with lease := some ⟨owner, expiresAt⟩ }
  else return none

def releaseLease (owner : String) (expectedExpiresAt : Int) (row : ExecutionRow) :
    Except (Fault DbError) (Option ExecutionRow) := do
  if (trim owner).isEmpty then dbConflict "lease owner must be non-empty"
  if row.lease = some ⟨owner, expectedExpiresAt⟩ && row.deletedAt.isNone then
    return some { row with lease := none }
  else return none

/-- A transaction without a token passes. -/
def fenceSchedulerWrite (token : Option String) (now : Int) (row : ExecutionRow) :
    Except (Fault DbError) Unit :=
  match token with
  | none => .ok ()
  | some owner =>
    if row.lease.any (fun lease => lease.owner = owner && now < lease.expiresAt) &&
        row.deletedAt.isNone && row.status.isLeasable then .ok ()
    else dbConflict "Agent Execution scheduler lease is no longer valid"

/-! ### The transactions of the scheduler -/

/-- What the transactions that begin with the fence do to the row of the execution. -/
inductive SchedulerWrite where
  /-- `update_execution` -/
  | updateExecution (expectedVersion : Int) (status : Option AgentExecutionStatus)
  /-- `fail_active_execution` -/
  | failActiveExecution (expectedVersion : Int)
  /-- `transition_step_status` -/
  | transitionStepStatus (expectedVersion : Int)
  /-- `create_attempt`, `start_attempt` and `acknowledge_initial_input_admission` -/
  | changeAttempt
  /-- `admit_waiting_attempt_input`: whether another attempt still waits for input. -/
  | admitWaitingAttemptInput (waiting : Bool)
  /-- `reconcile_recovered_attempt`: whether the attempt now waits for input. -/
  | reconcileRecoveredAttempt (waiting : Bool)
  /-- `settle_attempt` -/
  | settleAttempt (status : Option AgentExecutionStatus)
  /-- `acknowledge_initial_input_admission` and `reconcile_recovered_attempt`, where they commit
  without a change -/
  | observe
  deriving DecidableEq

namespace ExecutionRow

variable (row : ExecutionRow)

def bump (now : Int) : ExecutionRow := { row with version := row.version + 1, updatedAt := now }

/-- The columns of a new status; the lease stays where `keeps` says so. -/
def withStatus (status : AgentExecutionStatus) (keeps : Bool) (now : Int) : ExecutionRow :=
  { row.bump now with status := status, lease := if keeps then row.lease else none }

/-- The caller owns the execution, and it is not deleted. -/
def ownedBy (userId : String) : Bool := row.userId = userId && row.deletedAt.isNone

end ExecutionRow

namespace SchedulerWrite

/-- The WHERE clause of the update. -/
def selects (userId : String) (write : SchedulerWrite) (row : ExecutionRow) : Bool :=
  match write with
  | .updateExecution expectedVersion status =>
    -- Pausing has a transaction of its own.
    status ≠ some .paused && row.ownedBy userId && row.version = expectedVersion &&
      (status.all (fun requested => requested = row.status) || !row.status.isTerminal) &&
      !(row.status = .paused && status.isSome)
  | .failActiveExecution expectedVersion =>
    row.ownedBy userId && row.version = expectedVersion && row.status.isDispatching
  | .transitionStepStatus expectedVersion => row.ownedBy userId && row.version = expectedVersion
  | .changeAttempt | .settleAttempt _ => row.ownedBy userId && !row.status.isTerminal
  | .admitWaitingAttemptInput _ => row.ownedBy userId && row.status.isDispatching
  | .reconcileRecoveredAttempt _ => row.ownedBy userId && row.status.isLeasable
  | .observe => true

/-- The SET clause of the update. -/
def change (now : Int) (write : SchedulerWrite) (row : ExecutionRow) : ExecutionRow :=
  match write with
  | .updateExecution _ status =>
    let next := status.getD row.status
    row.withStatus next next.isLeasable now
  | .failActiveExecution _ => row.withStatus .failed false now
  | .transitionStepStatus _ | .changeAttempt => row.bump now
  | .admitWaitingAttemptInput waiting =>
    row.withStatus (if waiting then .waitingInput else .running) true now
  | .reconcileRecoveredAttempt waiting =>
    row.withStatus (if row.status = .paused || !waiting then row.status else .waitingInput) true now
  | .settleAttempt status =>
    let next := status.getD row.status
    row.withStatus (if row.status = .paused then row.status else next)
      (row.status = .paused || next.isDispatching) now
  | .observe => row

end SchedulerWrite

/-! ### What a committed call leaves -/

theorem tryAcquireLease_ok {expectedVersion expiresAt : Int}
    (ok : tryAcquireLease now expectedVersion owner expiresAt row = .ok (some row')) :
    now < expiresAt ∧ row.lease.all (fun lease => lease.expiresAt ≤ now || lease.owner = owner) ∧
      row.status.isLeasable = true ∧ row' = { row with lease := some ⟨owner, expiresAt⟩ } := by
  simp only [tryAcquireLease, dbConflict, guard_eq_ok, Bool.or_eq_true, decide_eq_true_eq,
    not_or, not_le] at ok
  obtain ⟨⟨-, later⟩, ok⟩ := ok
  split at ok
  next free =>
    simp only [Bool.and_eq_true] at free
    exact ⟨later, free.1.1.2, free.2, (some.inj (Except.ok.inj ok)).symm⟩
  next => cases ok

theorem renewLease_ok
    (ok : renewLease now owner expectedExpiresAt expiresAt row = .ok (some row')) :
    row.lease = some ⟨owner, expectedExpiresAt⟩ ∧
      row' = { row with lease := some ⟨owner, expiresAt⟩ } := by
  simp only [renewLease, dbConflict, guard_eq_ok] at ok
  obtain ⟨-, ok⟩ := ok
  split at ok
  next held =>
    simp only [Bool.and_eq_true, decide_eq_true_eq] at held
    exact ⟨held.1.1, (some.inj (Except.ok.inj ok)).symm⟩
  next => cases ok

theorem releaseLease_ok (ok : releaseLease owner expectedExpiresAt row = .ok (some row')) :
    row.lease = some ⟨owner, expectedExpiresAt⟩ ∧ row' = { row with lease := none } := by
  simp only [releaseLease, dbConflict, guard_eq_ok] at ok
  obtain ⟨-, ok⟩ := ok
  split at ok
  next held =>
    simp only [Bool.and_eq_true, decide_eq_true_eq] at held
    exact ⟨held.1, (some.inj (Except.ok.inj ok)).symm⟩
  next => cases ok

theorem fenceSchedulerWrite_ok (ok : fenceSchedulerWrite (some owner) now row = .ok ()) :
    ∃ expiresAt, row.lease = some ⟨owner, expiresAt⟩ ∧ now < expiresAt := by
  simp only [fenceSchedulerWrite] at ok
  split at ok
  next held =>
    simp only [Bool.and_eq_true] at held
    obtain ⟨⟨held, -⟩, -⟩ := held
    cases lease : row.lease with
    | none => simp [lease] at held
    | some current =>
      simp only [lease, any_some, Bool.and_eq_true, decide_eq_true_eq] at held
      exact ⟨current.expiresAt, congrArg some (by rw [← held.1]), held.2⟩
  next => cases ok

/-- A write keeps the lease or drops it; it drops it without leaving the leasable statuses only
where a settlement pauses the execution. -/
theorem SchedulerWrite.change_lease (now : Int) (write : SchedulerWrite) (row : ExecutionRow) :
    (write.change now row).lease = row.lease ∨ ((write.change now row).lease = none ∧
      ((write.change now row).status.isLeasable = true →
        write = .settleAttempt (some .paused))) := by
  cases write with
  | observe | transitionStepStatus | changeAttempt | admitWaitingAttemptInput
  | reconcileRecoveredAttempt => exact .inl rfl
  | failActiveExecution => exact .inr ⟨rfl, fun leasable => by cases leasable⟩
  | updateExecution expectedVersion status =>
    cases kept : (status.getD row.status).isLeasable with
    | true => exact .inl (by simp [change, ExecutionRow.withStatus, kept])
    | false => exact .inr (by simp [change, ExecutionRow.withStatus, kept])
  | settleAttempt status =>
    by_cases paused : row.status = .paused
    · exact .inl (by simp [change, ExecutionRow.withStatus, paused])
    cases kept : (status.getD row.status).isDispatching with
    | true => exact .inl (by simp [change, ExecutionRow.withStatus, kept])
    | false =>
      refine .inr ⟨by simp [change, ExecutionRow.withStatus, kept, paused], fun leasable => ?_⟩
      simp only [change, ExecutionRow.withStatus, if_neg paused, AgentExecutionStatus.isLeasable,
        kept, Bool.false_or, decide_eq_true_eq] at leasable
      cases status with
      | none => exact absurd leasable paused
      | some requested => exact congrArg (settleAttempt ∘ some) leasable

end Nomifun.Source.AgentExecution
