import Nomifun.Guarantees.ActiveAttempts
import Nomifun.Library.Runs

/-!
# Mutual exclusion of schedulers

Schedulers acquire, renew and release the lease of an execution and write under it, in any order.
A write commits only for the scheduler that acquired last, before it released and before the lease
expired. Another scheduler gets the lease when it has expired or was released, or after a
settlement that paused the execution: that transaction drops the lease of its own scheduler.
-/
namespace Nomifun.Guarantees.SchedulerLeases
open Library Source.AgentExecution Guarantees.AttemptRecords Guarantees.AttemptVersions Option
  Guarantees.ActiveAttempts List

variable {row row' : ExecutionRow}

/-! ### Histories -/

inductive LeaseCall where
  | acquire (expectedVersion : Int) (owner : String) (expiresAt : Int)
  | renew (owner : String) (expectedExpiresAt expiresAt : Int)
  | release (owner : String) (expectedExpiresAt : Int)
  | write (owner userId : String) (write : SchedulerWrite)

/-- A call that committed, and the clock it read. -/
structure Commit where
  now : Int
  call : LeaseCall

variable {history : List Commit} {commit : Commit}

/-- The row after the call; `none` if it does not commit. -/
def leaseStep (row : ExecutionRow) (commit : Commit) : Option ExecutionRow :=
  match commit.call with
  | .acquire expectedVersion owner expiresAt =>
    (tryAcquireLease commit.now expectedVersion owner expiresAt row).toOption.join
  | .renew owner expectedExpiresAt expiresAt =>
    (renewLease commit.now owner expectedExpiresAt expiresAt row).toOption.join
  | .release owner expectedExpiresAt => (releaseLease owner expectedExpiresAt row).toOption.join
  | .write owner userId write =>
    if (fenceSchedulerWrite (some owner) commit.now row).toOption.isSome &&
        write.selects userId row then some (write.change commit.now row)
    else none

/-- The owner that acquires. -/
def LeaseCall.acquires : LeaseCall → Option String
  | .acquire _ owner _ => some owner
  | .renew .. | .release .. | .write .. => none

def LeaseCall.isRelease : LeaseCall → Bool
  | .release .. => true
  | .acquire .. | .renew .. | .write .. => false

/-- The owner gives the lease up: it releases, or a settlement of its own pauses the execution. -/
def LeaseCall.givesUp (owner : String) : LeaseCall → Bool
  | .release releaser _ => releaser = owner
  | .write writer _ settlement => writer = owner && settlement = .settleAttempt (some .paused)
  | .acquire .. | .renew .. => false

/-- The owner of the latest acquisition, and what was committed since. -/
def latestAcquire (history : List Commit) : Option (String × List Commit) :=
  history.foldl (fun latest commit =>
    match commit.call.acquires with
    | some owner => some (owner, [])
    | none => latest.map fun (owner, since) => (owner, since ++ [commit])) none

theorem latestAcquire_acquired (acquired : commit.call.acquires = some owner) :
    latestAcquire (history ++ [commit]) = some (owner, []) := by
  simp [latestAcquire, acquired]

theorem latestAcquire_other (other : commit.call.acquires = none) :
    latestAcquire (history ++ [commit]) =
      (latestAcquire history).map fun (owner, since) => (owner, since ++ [commit]) := by
  simp [latestAcquire, other]

/-- An owner that was followed by another is not the latest unless it acquires again. -/
theorem latestAcquire_superseded (acquired : commit.call.acquires = some other)
    (different : owner ≠ other) (notAgain : ∀ next ∈ later, next.call.acquires ≠ some owner)
    (since : List Commit) : latestAcquire (earlier ++ commit :: later) ≠ some (owner, since) := by
  induction later using List.reverseRecOn generalizing since with
  | nil =>
    rw [latestAcquire_acquired acquired]
    intro same
    exact different (Prod.mk.inj (some.inj same)).1.symm
  | append_singleton later next ih =>
    rw [← cons_append, ← append_assoc]
    rw [forall_mem_append, forall_mem_singleton] at notAgain
    cases acquires : next.call.acquires with
    | some holder =>
      rw [latestAcquire_acquired acquires]
      intro same
      rw [acquires, (Prod.mk.inj (some.inj same)).1] at notAgain
      exact notAgain.2 rfl
    | none =>
      rw [latestAcquire_other acquires, ne_eq, map_eq_some_iff]
      rintro ⟨⟨holder, before⟩, latest, same⟩
      obtain rfl : holder = owner := (Prod.mk.inj same).1
      exact ih notAgain.1 before latest

/-! ### One commit -/

section

variable {owner : String}

theorem join_eq_some {call : Except ε (Option α)} :
    call.toOption.join = some a ↔ call = .ok (some a) := by
  cases call <;> simp [Except.toOption]

theorem leaseStep_write :
    leaseStep row ⟨now, .write owner userId write⟩ = some row' ↔
      fenceSchedulerWrite (some owner) now row = .ok () ∧ write.selects userId row = true ∧
        row' = write.change now row := by
  unfold leaseStep
  cases fence : fenceSchedulerWrite (some owner) now row with
  | error fault => simp [Except.toOption, fence]
  | ok _ =>
    simp only [fence, ite_none_right_eq_some, some.injEq, true_and]
    exact and_congr_right fun _ => eq_comm

/-- What the history says about the lease. -/
structure Traced (history : List Commit) (row : ExecutionRow) : Prop where
  held : ∀ lease, row.lease = some lease → ∃ since,
    latestAcquire history = some (lease.owner, since) ∧
      ∀ commit ∈ since, commit.call.isRelease = false
  free : row.lease = none → row.status.isLeasable = true → ∀ owner since,
    latestAcquire history = some (owner, since) → ∃ commit ∈ since, commit.call.givesUp owner = true

/-- A commit that keeps the owner of the lease. -/
theorem Traced.keep (traced : Traced history row) (held : row.lease = some lease)
    (kept : row'.lease = some lease') (same : lease'.owner = lease.owner)
    (other : commit.call.acquires = none) (unreleased : commit.call.isRelease = false) :
    Traced (history ++ [commit]) row' := by
  refine ⟨fun now current => ?_, fun none => absurd (none.symm.trans kept) nofun⟩
  obtain rfl : lease' = now := some.inj (kept.symm.trans current)
  obtain ⟨since, latest, clean⟩ := traced.held lease held
  refine ⟨since ++ [commit], ?_, ?_⟩
  · rw [latestAcquire_other other, latest, same]
    rfl
  · rw [forall_mem_append, forall_mem_singleton]
    exact ⟨clean, unreleased⟩

/-- A commit by which the owner drops the lease. -/
theorem Traced.drop (traced : Traced history row) (held : row.lease = some lease)
    (dropped : row'.lease = none) (other : commit.call.acquires = none)
    (givesUp : row'.status.isLeasable = true → commit.call.givesUp lease.owner = true) :
    Traced (history ++ [commit]) row' := by
  refine ⟨fun now current => absurd (dropped.symm.trans current) nofun, fun _ leasable => ?_⟩
  intro owner since latest
  obtain ⟨before, known, -⟩ := traced.held lease held
  rw [latestAcquire_other other, known] at latest
  cases latest
  exact ⟨commit, mem_append_right before (mem_singleton_self commit), givesUp leasable⟩

theorem leaseStep_traced (traced : Traced history row)
    (stepped : leaseStep row commit = some row') : Traced (history ++ [commit]) row' := by
  obtain ⟨now, call⟩ := commit
  cases call with
  | acquire expectedVersion owner expiresAt =>
    obtain ⟨-, -, -, rfl⟩ := tryAcquireLease_ok (join_eq_some.mp stepped)
    refine ⟨fun lease current => ?_, nofun⟩
    cases current
    exact ⟨[], latestAcquire_acquired rfl, fun _ listed => absurd listed not_mem_nil⟩
  | renew owner expectedExpiresAt expiresAt =>
    obtain ⟨held, rfl⟩ := renewLease_ok (join_eq_some.mp stepped)
    exact traced.keep held rfl rfl rfl rfl
  | release owner expectedExpiresAt =>
    obtain ⟨held, rfl⟩ := releaseLease_ok (join_eq_some.mp stepped)
    exact traced.drop held rfl rfl fun _ => decide_eq_true rfl
  | write owner userId write =>
    obtain ⟨fence, -, rfl⟩ := leaseStep_write.mp stepped
    obtain ⟨expiresAt, held, -⟩ := fenceSchedulerWrite_ok fence
    obtain kept | ⟨dropped, paused⟩ := write.change_lease now row
    · exact traced.keep held (kept.trans held) rfl rfl rfl
    · refine traced.drop held dropped rfl fun leasable => ?_
      simp [LeaseCall.givesUp, paused leasable]

end

/-! ### The guarantee -/

/-- In every history of committed calls: a write commits only for the scheduler that acquired
last, which has not released, and whose lease has not expired; no write commits for a scheduler
after another one acquired, until it acquires again; and another scheduler acquires only after the
lease has expired, was released, or was dropped by a settlement that paused the execution. -/
theorem lease_excludes_other_schedulers (start row : ExecutionRow) (history : List Commit)
    (unleased : start.lease = none) (ran : run leaseStep start history = some row) :
    (∀ now owner userId write row', leaseStep row ⟨now, .write owner userId write⟩ = some row' →
        (∃ since, latestAcquire history = some (owner, since) ∧
          ∀ commit ∈ since, commit.call.isRelease = false) ∧
        ∃ expiresAt, row.lease = some ⟨owner, expiresAt⟩ ∧ now < expiresAt) ∧
    (∀ earlier acquired later owner other, history = earlier ++ acquired :: later →
      acquired.call.acquires = some other → owner ≠ other →
      (∀ commit ∈ later, commit.call.acquires ≠ some owner) →
      ∀ now userId write, leaseStep row ⟨now, .write owner userId write⟩ = none) ∧
    ∀ owner since other now expectedVersion expiresAt row',
      latestAcquire history = some (owner, since) → other ≠ owner →
      leaseStep row ⟨now, .acquire expectedVersion other expiresAt⟩ = some row' →
        (∃ expired, row.lease = some ⟨owner, expired⟩ ∧ expired ≤ now) ∨
        ∃ commit ∈ since, commit.call.givesUp owner = true := by
  have traced : Traced history row := by
    refine run_history (fun _ _ _ _ before stepped => leaseStep_traced before stepped) ?_ ran
    exact ⟨fun lease held => absurd (unleased.symm.trans held) nofun, nofun⟩
  refine ⟨?_, ?_, ?_⟩
  · intro now owner userId write row' stepped
    obtain ⟨expiresAt, held, later⟩ := fenceSchedulerWrite_ok (leaseStep_write.mp stepped).1
    exact ⟨traced.held _ held, expiresAt, held, later⟩
  · intro earlier acquired later owner other split acquires different notAgain now userId write
    refine eq_none_iff_forall_ne_some.mpr fun row' stepped => ?_
    obtain ⟨expiresAt, held, -⟩ := fenceSchedulerWrite_ok (leaseStep_write.mp stepped).1
    obtain ⟨since, latest, -⟩ := traced.held _ held
    rw [split] at latest
    exact latestAcquire_superseded acquires different notAgain since latest
  · intro owner since other now expectedVersion expiresAt row' latest different stepped
    obtain ⟨-, open', leasable, -⟩ := tryAcquireLease_ok (join_eq_some.mp stepped)
    cases held : row.lease with
    | none => exact .inr (traced.free held leasable owner since latest)
    | some lease =>
      obtain ⟨since', known, -⟩ := traced.held lease held
      cases known.symm.trans latest
      simp only [held, all_some, Bool.or_eq_true, decide_eq_true_eq] at open'
      exact .inl ⟨lease.expiresAt, rfl, open'.resolve_right different.symm⟩

/-- The lease of the first scheduler, and its row. -/
def firstLease : Commit := ⟨1, .acquire 0 "first" 100⟩

def leasedRow : ExecutionRow := { oneStep.execution with lease := some ⟨"first", 100⟩ }

/-- The second scheduler acquires after the first released. -/
def handover : List Commit := [firstLease, ⟨2, .release "first" 100⟩, ⟨3, .acquire 0 "second" 50⟩]

theorem handover_excludes_the_first :
    run leaseStep oneStep.execution handover =
        some { oneStep.execution with lease := some ⟨"second", 50⟩ } ∧
      leaseStep { oneStep.execution with lease := some ⟨"second", 50⟩ }
        ⟨4, .write "first" "user" .changeAttempt⟩ = none := by
  have ran : run leaseStep oneStep.execution handover =
      some { oneStep.execution with lease := some ⟨"second", 50⟩ } := by decide
  refine ⟨ran, ?_⟩
  exact (lease_excludes_other_schedulers oneStep.execution _ handover rfl ran).2.1
    [firstLease, ⟨2, .release "first" 100⟩] ⟨3, .acquire 0 "second" 50⟩ [] "first" "second" rfl rfl
    (by decide) (fun _ listed => absurd listed not_mem_nil) 4 "user" .changeAttempt

/-- The first scheduler queues the attempt under its lease. -/
def queueLeased : AttemptCall Unit :=
  .create 2 "user" "work" 0 (some "first")
    ⟨some "p", false, "dispatch", "\x7b\x7d", none, none⟩ "a" ()

/-- A settlement that cancels the queued attempt and pauses the execution. -/
def pauseWork : AttemptCall Unit :=
  .settle 3 "user" "work" 1 "a" 0 (some "first") ⟨none, none, .cancelled, .cancelled, some .paused,
    none, none, none, none, none, none, none, none, none, none⟩ ()

/-- The first scheduler neither released nor let its lease expire, and the second one acquires. -/
theorem paused_settlement_passes_the_lease : ∃ queued paused row,
    leaseStep oneStep.execution firstLease = some leasedRow ∧
    queueLeased.Commits openHost { oneStep with execution := leasedRow } queued ∧
    pauseWork.Commits openHost queued paused ∧
    queued.execution.lease = some ⟨"first", 100⟩ ∧
    leaseStep paused.execution ⟨4, .acquire 2 "second" 50⟩ = some row := by
  have queues : queueLeased.Commits openHost { oneStep with execution := leasedRow } _ :=
    AttemptCall.commits_perform (by decide)
  have pauses : pauseWork.Commits openHost
      (queueLeased.perform openHost { oneStep with execution := leasedRow }) _ :=
    AttemptCall.commits_perform (by decide)
  refine ⟨_, _, { leasedRow with
    version := 2, status := .paused, lease := some ⟨"second", 50⟩, updatedAt := 3 },
    by decide, queues, pauses, by decide, by decide⟩

end Nomifun.Guarantees.SchedulerLeases
