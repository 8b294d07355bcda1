import Nomifun.Library.Runs
import Nomifun.Source.AgentExecution.Scheduler
import Nomifun.Guarantees.PlanAdjustment

/-!
# Every pending step is run or skipped

The scheduler tests on its own whether a step may run and whether it must be skipped. In an
acyclic graph in which nothing runs, one of the two applies to some pending step, so the scheduler
is never stuck. Skipping goes on until no step is blocked; whatever the order, it ends after as
many rounds as there are pending steps at most, and it skips exactly the steps that a failure
reaches through pending ones.
-/
namespace Nomifun.Guarantees.StepProgress
open Library Library.Digraph Library.Table Source.AgentExecution Guarantees.PlanAdjustment Relation
  List

variable {detail : AgentExecutionDetail} {step : ExecutionStep} {after : AgentExecutionDetail}
  {call : SkipCall} {calls : List SkipCall}

/-! ### Progress -/

section

variable {blocker : ExecutionStep} {now : Int}

theorem mem_activeEdges : (a, b) ∈ detail.activeEdges ↔
    ∃ dependency ∈ detail.dependencies, dependency.isActive = true ∧
      dependency.blockerStepId = a ∧ dependency.blockedStepId = b := by
  simp [AgentExecutionDetail.activeEdges, and_assoc]

theorem isBlocked_iff : isBlocked detail step = true ↔
    ∃ blocker ∈ detail.activeSteps, (blocker.stepId, step.stepId) ∈ detail.activeEdges ∧
      blocksForever blocker = true := by
  simp only [isBlocked, any_eq_true, Bool.and_eq_true, decide_eq_true_eq, Option.any_eq_true,
    mem_activeEdges, AgentExecutionDetail.activeStep_eq_some]
  constructor
  · rintro ⟨dependency, member, ⟨active, blocked⟩, blocker, ⟨listed, same⟩, forever⟩
    exact ⟨blocker, listed, ⟨dependency, member, active, same.symm, blocked⟩, forever⟩
  · rintro ⟨blocker, listed, ⟨dependency, member, active, same, blocked⟩, forever⟩
    exact ⟨dependency, member, ⟨active, blocked⟩, blocker, ⟨listed, same.symm⟩, forever⟩

theorem isReady_of_completed (pending : step.status = .pending)
    (due : ∀ time, step.dispatchAfter = some time → time ≤ now)
    (completed : ∀ a, (a, step.stepId) ∈ detail.activeEdges →
      ∃ blocker, detail.activeStep a = some blocker ∧ blocker.status = .completed) :
    isReady detail now step = true := by
  simp only [isReady, pending, decide_true, Bool.true_and, Bool.and_eq_true, all_eq_true,
    Option.all_eq_true, decide_eq_true_eq]
  refine ⟨due, fun dependency member => ?_⟩
  obtain ⟨listed, active⟩ := mem_filter.mp member
  rw [Bool.and_eq_true, decide_eq_true_eq] at active
  obtain ⟨blocker, found, done⟩ := completed dependency.blockerStepId
    (mem_activeEdges.mpr ⟨dependency, listed, active.1, rfl, active.2⟩)
  simp [found, done]

/-- In an acyclic graph of active steps of which none is running, some pending step is ready or
blocked for good. -/
theorem pending_step_is_ready_or_blocked (detail : AgentExecutionDetail) (now : Int)
    (acyclic : Acyclic detail.activeEdges)
    (closed : ∀ edge ∈ detail.activeEdges,
      (detail.activeStep edge.1).isSome ∧ (detail.activeStep edge.2).isSome)
    (pending : ∃ step ∈ detail.activeSteps, step.status = .pending)
    (settled : ∀ step ∈ detail.activeSteps, step.status ≠ .pending → step.status.isTerminal)
    (due : ∀ step ∈ detail.activeSteps, step.status = .pending →
      ∀ time, step.dispatchAfter = some time → time ≤ now) :
    readySteps detail now ≠ [] ∨
      ∃ step ∈ detail.activeSteps, step.status = .pending ∧ isBlocked detail step = true := by
  -- a pending step none of whose blockers is pending
  obtain ⟨first, listed, waiting⟩ := pending
  obtain ⟨_, ⟨step, member, open', rfl⟩, least⟩ := acyclic.wellFounded.has_min
    {id | ∃ step ∈ detail.activeSteps, step.status = .pending ∧ step.stepId = id}
    ⟨first.stepId, first, listed, waiting, rfl⟩
  by_cases blocked : isBlocked detail step = true
  · exact .inr ⟨step, member, open', blocked⟩
  · have ready : isReady detail now step = true := by
      refine isReady_of_completed open' (due step member open') fun a edge => ?_
      obtain ⟨blocker, found⟩ := Option.isSome_iff_exists.mp (closed _ edge).1
      obtain ⟨active, rfl⟩ := AgentExecutionDetail.activeStep_eq_some.mp found
      have notPending : blocker.status ≠ .pending := fun same =>
        least _ ⟨blocker, active, same, rfl⟩ edge
      have terminal := settled blocker active notPending
      have notForever : blocksForever blocker ≠ true := fun forever =>
        blocked (isBlocked_iff.mpr ⟨blocker, active, edge, forever⟩)
      cases status : blocker.status <;>
        simp_all [blocksForever, ExecutionStepStatus.isTerminal]
    refine .inl (ne_nil_of_mem (?_ : step ∈ readySteps detail now))
    rw [readySteps, mem_insertionSort]
    exact mem_filter.mpr ⟨member, ready⟩

/-- A step that failed and one that waits for it. -/
def failedDetail : AgentExecutionDetail :=
  loopDetail.updateSteps (·.stepId = "body") (withStatus .failed 1) fun _ => rfl

theorem failedDetail_edges : failedDetail.activeEdges = [("body", "loop")] := rfl

theorem waiting_step_is_blocked : readySteps failedDetail 1 ≠ [] ∨
    ∃ step ∈ failedDetail.activeSteps, step.status = .pending ∧
      isBlocked failedDetail step = true := by
  refine pending_step_is_ready_or_blocked failedDetail 1 ?_ ?_ ?_ ?_ ?_
  · rw [failedDetail_edges]
    intro node cycle
    obtain ⟨_, first, -⟩ := TransGen.head'_iff.mp cycle
    obtain ⟨_, -, last⟩ := TransGen.tail'_iff.mp cycle
    simp_all [Edge]
  all_goals decide

end

/-! ### One skip -/

theorem mem_arranged : step ∈ (call.order.arrange detail.activeSteps).filter (·.status = .pending) ↔
    step ∈ detail.activeSteps ∧ step.status = .pending := by
  rw [mem_filter, (call.order.perm _).mem_iff, decide_eq_true_eq]

/-- A call that skips nothing: no pending step is blocked. -/
theorem skipOneBlockedStep_idle (ok : skipOneBlockedStep call detail = .ok (false, after)) :
    after = detail ∧ ∀ step ∈ detail.activeSteps, step.status = .pending →
      isBlocked detail step = false := by
  unfold skipOneBlockedStep at ok
  split at ok
  next none =>
    obtain ⟨-, rfl⟩ := Prod.mk.inj (Except.ok.inj ok)
    refine ⟨rfl, fun step member pending => ?_⟩
    simpa using find?_eq_none.mp none step (mem_arranged.mpr ⟨member, pending⟩)
  next =>
    obtain ⟨_, -, done⟩ := bind_eq_ok.mp ok
    cases (Prod.mk.inj (Except.ok.inj done)).1

theorem transitionStepStatus_ok {now expectedExecution expectedStep : Int}
    {status : ExecutionStepStatus}
    (ok : transitionStepStatus leaseValid now detail stepId expectedExecution expectedStep status =
      .ok after) :
    ∃ selects : ExecutionStep → Bool,
      (∀ row, selects row = true → row.stepId = stepId ∧ row.isActive = true) ∧
      rowsAffected selects detail.steps = 1 ∧
      after.steps = updateWhere selects (withStatus status now) detail.steps ∧
      after.dependencies = detail.dependencies ∧ after.attempts = detail.attempts := by
  simp only [transitionStepStatus, dbConflict, changedConcurrently, guard_eq_ok, not_not] at ok
  obtain ⟨-, -, affected, done⟩ := ok
  cases done
  refine ⟨_, fun row selected => ?_, affected, rfl, rfl, rfl⟩
  simp only [Bool.and_eq_true, decide_eq_true_eq] at selected
  exact ⟨selected.1.1.1, selected.1.2⟩

/-- A call that skips: one blocked pending step, and that step alone. -/
theorem skipOneBlockedStep_skips (ok : skipOneBlockedStep call detail = .ok (true, after)) :
    ∃ step ∈ detail.activeSteps, step.status = .pending ∧ isBlocked detail step = true ∧
      (∃ selects : ExecutionStep → Bool, rowsAffected selects detail.steps = 1 ∧
        (∀ row ∈ detail.steps, selects row = true ↔ row = step) ∧
        after.steps = updateWhere selects (withStatus .skipped call.now) detail.steps) ∧
      after.dependencies = detail.dependencies ∧ after.attempts = detail.attempts := by
  unfold skipOneBlockedStep at ok
  split at ok
  next => cases (Prod.mk.inj (Except.ok.inj ok)).1
  next step found =>
    obtain ⟨_, transition, done⟩ := bind_eq_ok.mp ok
    obtain ⟨-, rfl⟩ := Prod.mk.inj (Except.ok.inj done)
    obtain ⟨selects, selected, affected, steps, others⟩ := transitionStepStatus_ok transition
    obtain ⟨member, pending⟩ := mem_arranged.mp (mem_of_find?_eq_some found)
    have only (row : ExecutionStep) (listed : row ∈ detail.steps) (hit : selects row = true) :
        row = step :=
      inj_on_of_nodup_map detail.distinctSteps listed (mem_filter.mp member).1
        (selected row hit).1
    refine ⟨step, member, pending, find?_some found, ⟨selects, affected, ?_, steps⟩, others⟩
    refine fun row listed => ⟨only row listed, ?_⟩
    rintro rfl
    obtain ⟨other, otherListed, hit⟩ := exists_of_rowsAffected affected
    exact only other otherListed hit ▸ hit

/-- A call fails only for a lost lease or an attempt that is still active. -/
theorem skipOneBlockedStep_answers (leased : call.leaseValid = true)
    (unattempted : ∀ step ∈ detail.activeSteps, step.status = .pending →
      detail.hasActiveAttempt step.stepId = false) :
    ∃ result, skipOneBlockedStep call detail = .ok result := by
  unfold skipOneBlockedStep
  split
  next => exact ⟨_, rfl⟩
  next step found =>
    obtain ⟨member, pending⟩ := mem_arranged.mp (mem_of_find?_eq_some found)
    obtain ⟨listed, active⟩ := mem_filter.mp member
    have affected : rowsAffected (fun row => row.stepId = step.stepId &&
        row.version = step.version && row.isActive && !detail.hasActiveAttempt row.stepId)
        detail.steps = 1 := by
      refine rowsAffected_eq_one detail.distinctSteps listed ?_ fun row selected => ?_
      · simp [active, unattempted step member pending]
      · simp only [Bool.and_eq_true, decide_eq_true_eq] at selected
        exact selected.1.1.1
    have moved : ∃ after, transitionStepStatus call.leaseValid call.now detail step.stepId
        detail.execution.version step.version .skipped = .ok after := by
      simp only [transitionStepStatus, dbConflict, changedConcurrently, guard_eq_ok]
      exact ⟨_, by simp [leased], by simp, by simp [affected], rfl⟩
    obtain ⟨after, moved⟩ := moved
    exact ⟨(true, after), bind_eq_ok.mpr ⟨after, moved, rfl⟩⟩

/-! ### Skipping to the end -/

section

variable (detail : AgentExecutionDetail)

/-- A blocked step passes its fate on to the pending steps that wait for it. -/
def Passes (blocker step : ExecutionStep) : Prop :=
  (blocker.stepId, step.stepId) ∈ detail.activeEdges ∧ step ∈ detail.activeSteps ∧
    step.status = .pending

/-- Reached, through pending steps, from a step that failed, was skipped or was cancelled. -/
def Doomed (step : ExecutionStep) : Prop :=
  ∃ source ∈ detail.activeSteps, blocksForever source = true ∧ TransGen (Passes detail) source step

/-- A call that skips a step. -/
def skipStep (call : SkipCall) : Option AgentExecutionDetail :=
  match skipOneBlockedStep call detail with
  | .ok (true, after) => some after
  | .ok (false, _) | .error _ => none

def pendingCount : Nat :=
  detail.activeSteps.countP (·.status = .pending)

end

/-- A step of `start` and the same step later. -/
structure Evolves (start : AgentExecutionDetail) (before now : ExecutionStep) : Prop where
  id : now.stepId = before.stepId
  current : now.isActive = before.isActive
  fate : now = before ∨ Doomed start before ∧ now.status = .skipped

/-- What any number of skips may have done. -/
structure Skipping (start detail : AgentExecutionDetail) : Prop where
  steps : ∃ now : ExecutionStep → ExecutionStep, detail.steps = start.steps.map now ∧
    ∀ step ∈ start.steps, Evolves start step (now step)
  dependencies : detail.dependencies = start.dependencies
  attempts : detail.attempts = start.attempts

/-- A map that happens to be iterated in the order of its insertions. -/
def inOrder : HashOrder := ⟨id, List.Perm.refl⟩

variable {start : AgentExecutionDetail}

theorem skipStep_eq_some :
    skipStep detail call = some after ↔ skipOneBlockedStep call detail = .ok (true, after) := by
  unfold skipStep
  split <;> simp [*]

theorem Skipping.refl (start : AgentExecutionDetail) : Skipping start start where
  steps := ⟨id, (List.map_id _).symm, fun _ _ => ⟨rfl, rfl, .inl rfl⟩⟩
  dependencies := rfl
  attempts := rfl

theorem Skipping.edges (skipping : Skipping start detail) :
    detail.activeEdges = start.activeEdges := by
  rw [AgentExecutionDetail.activeEdges, AgentExecutionDetail.activeEdges, skipping.dependencies]

/-- The step that a current step was at the start. -/
theorem Skipping.origin (skipping : Skipping start detail) (member : step ∈ detail.activeSteps) :
    ∃ before ∈ start.activeSteps, Evolves start before step := by
  obtain ⟨now, steps, evolves⟩ := skipping.steps
  obtain ⟨listed, active⟩ := mem_filter.mp member
  rw [steps] at listed
  obtain ⟨before, origin, rfl⟩ := mem_map.mp listed
  refine ⟨before, mem_filter.mpr ⟨origin, ?_⟩, evolves before origin⟩
  rw [← (evolves before origin).current, active]

/-- Only a doomed step is blocked. -/
theorem Skipping.doomed (skipping : Skipping start detail) (member : step ∈ start.activeSteps)
    (pending : step.status = .pending) (blocked : isBlocked detail step = true) :
    Doomed start step := by
  obtain ⟨blocker, active, edge, forever⟩ := isBlocked_iff.mp blocked
  obtain ⟨origin, listed, evolves⟩ := skipping.origin active
  rw [skipping.edges, evolves.id] at edge
  have passes : Passes start origin step := ⟨edge, member, pending⟩
  obtain rfl | ⟨⟨source, sourceListed, sourceForever, reached⟩, -⟩ := evolves.fate
  · exact ⟨blocker, listed, forever, .single passes⟩
  · exact ⟨source, sourceListed, sourceForever, reached.tail passes⟩

theorem Skipping.keeps (skipping : Skipping start detail)
    (skipped : skipStep detail call = some after) : Skipping start after := by
  obtain ⟨step, member, pending, blocked, ⟨selects, -, selected, written⟩, dependencies,
      attempts⟩ :=
    skipOneBlockedStep_skips (skipStep_eq_some.mp skipped)
  refine ⟨?_, dependencies.trans skipping.dependencies, attempts.trans skipping.attempts⟩
  obtain ⟨now, steps, evolves⟩ := skipping.steps
  refine ⟨fun before => if selects (now before) then withStatus .skipped call.now (now before)
    else now before, ?_, fun before listed => ?_⟩
  · rw [written, updateWhere, steps, List.map_map]
    rfl
  · have image : now before ∈ detail.steps := steps ▸ mem_map_of_mem listed
    have old := evolves before listed
    dsimp only
    split
    next hit =>
      obtain rfl := (selected _ image).mp hit
      have same : now before = before := old.fate.resolve_right fun fate => by
        rw [fate.2] at pending
        cases pending
      refine ⟨old.id, old.current, .inr ⟨?_, rfl⟩⟩
      rw [same] at pending blocked member
      refine skipping.doomed (mem_filter.mpr ⟨listed, ?_⟩) pending blocked
      exact (mem_filter.mp member).2
    next => exact old

theorem skipStep_pendingCount (skipped : skipStep detail call = some after) :
    pendingCount after + 1 = pendingCount detail := by
  obtain ⟨step, member, pending, -, ⟨selects, affected, selected, written⟩, -⟩ :=
    skipOneBlockedStep_skips (skipStep_eq_some.mp skipped)
  let waits (row : ExecutionStep) : Bool := row.status = .pending && row.isActive
  have waiting (row : ExecutionStep) (listed : row ∈ detail.steps) (hit : selects row = true) :
      waits row = true := by
    obtain rfl := (selected row listed).mp hit
    simp [waits, pending, (mem_filter.mp member).2]
  have done (row : ExecutionStep) : waits (withStatus .skipped call.now row) = false := rfl
  have count := countP_updateWhere waiting done
  rw [affected, ← written] at count
  simpa only [pendingCount, AgentExecutionDetail.activeSteps, countP_filter] using count

theorem run_pendingCount (ran : run skipStep detail calls = some after) :
    pendingCount after + calls.length = pendingCount detail := by
  induction calls generalizing detail with
  | nil =>
    cases ran
    rfl
  | cons call calls ih =>
    rw [run_cons, Option.bind_eq_some_iff] at ran
    obtain ⟨next, skipped, rest⟩ := ran
    rw [← skipStep_pendingCount skipped, ← ih rest, length_cons]
    omega

theorem Skipping.of_run (ran : run skipStep start calls = some after) : Skipping start after :=
  @run_invariant _ _ _ (Skipping start) _ _ _ (fun _ _ _ before => before.keeps) (.refl start) ran

/-- When no step is blocked any more, every doomed step has been skipped. -/
theorem Skipping.settled (skipping : Skipping start after)
    (idle : ∀ step ∈ after.activeSteps, step.status = .pending → isBlocked after step = false) :
    List.Forall₂ (fun before now => now.stepId = before.stepId ∧
      (Doomed start before → now.status = .skipped) ∧ (¬ Doomed start before → now = before))
      start.steps after.steps := by
  obtain ⟨now, steps, evolves⟩ := skipping.steps
  -- a pending step is skipped as soon as one that it waits for will not complete
  have follows {blocker step : ExecutionStep} (listed : blocker ∈ start.activeSteps)
      (passes : Passes start blocker step) (forever : blocksForever (now blocker) = true) :
      (now step).status = .skipped := by
    obtain ⟨edge, member, pending⟩ := passes
    have image {row : ExecutionStep} (origin : row ∈ start.activeSteps) :
        now row ∈ after.activeSteps := by
      obtain ⟨original, active⟩ := mem_filter.mp origin
      refine mem_filter.mpr ⟨steps ▸ mem_map_of_mem original, ?_⟩
      rw [(evolves row original).current, active]
    have old := evolves step (mem_filter.mp member).1
    refine old.fate.elim (fun same => ?_) (·.2)
    have blocked : isBlocked after (now step) = true := by
      refine isBlocked_iff.mpr ⟨now blocker, image listed, ?_, forever⟩
      rw [skipping.edges, (evolves blocker (mem_filter.mp listed).1).id, old.id]
      exact edge
    rw [idle (now step) (image member) (by rw [same, pending])] at blocked
    cases blocked
  have skipped (step : ExecutionStep) (doomed : Doomed start step) :
      (now step).status = .skipped := by
    obtain ⟨source, listed, forever, reached⟩ := doomed
    have unchanged : now source = source := by
      refine (evolves source (mem_filter.mp listed).1).fate.resolve_right ?_
      rintro ⟨⟨_, _, _, path⟩, -⟩
      obtain ⟨_, _, -, -, pending⟩ := TransGen.tail'_iff.mp path
      simp [blocksForever, pending] at forever
    induction reached with
    | single passes => exact follows listed passes (by rw [unchanged, forever])
    | @tail middle step reached passes ih =>
      obtain ⟨_, _, -, member, -⟩ := TransGen.tail'_iff.mp reached
      exact follows member passes (by simp [blocksForever, ih])
  rw [steps, List.forall₂_map_right_iff]
  refine List.forall₂_same.mpr fun step listed => ⟨(evolves step listed).id, skipped step, ?_⟩
  exact fun safe => (evolves step listed).fate.resolve_right fun fate => safe fate.1

/-- However the steps are chosen, skipping ends after at most as many calls as there are pending
steps. Once a call finds nothing to skip, the steps that a failure reaches through pending ones are
skipped, and no other step has changed. Before that, a call under a valid lease fails only where a
pending step has an active attempt. -/
theorem skipping_ends_at_the_closure (start : AgentExecutionDetail) (calls : List SkipCall)
    (after : AgentExecutionDetail) (ran : run skipStep start calls = some after) :
    calls.length ≤ pendingCount start ∧
    (∀ call final, skipOneBlockedStep call after = .ok (false, final) →
      List.Forall₂ (fun before now => now.stepId = before.stepId ∧
        (Doomed start before → now.status = .skipped) ∧ (¬ Doomed start before → now = before))
        start.steps final.steps) ∧
    ((∀ step ∈ start.activeSteps, step.status = .pending →
        start.hasActiveAttempt step.stepId = false) →
      ∀ call, call.leaseValid = true → ∃ result, skipOneBlockedStep call after = .ok result) := by
  have skipping : Skipping start after := .of_run ran
  refine ⟨?_, fun call final idle => ?_, fun unattempted call leased => ?_⟩
  · have count := run_pendingCount ran
    omega
  · obtain ⟨rfl, unblocked⟩ := skipOneBlockedStep_idle idle
    exact skipping.settled unblocked
  · refine skipOneBlockedStep_answers leased fun step member pending => ?_
    obtain ⟨before, listed, evolves⟩ := skipping.origin member
    obtain rfl | ⟨-, skipped⟩ := evolves.fate
    · have none := unattempted step listed pending
      rwa [AgentExecutionDetail.hasActiveAttempt, skipping.attempts]
    · rw [skipped] at pending
      cases pending

theorem one_call_ends_the_skipping : ∃ after, run skipStep failedDetail [⟨inOrder, true, 2⟩] =
    some after ∧ List.Forall₂ (fun before now => now.stepId = before.stepId ∧
        (Doomed failedDetail before → now.status = .skipped) ∧
          (¬ Doomed failedDetail before → now = before)) failedDetail.steps after.steps := by
  refine ⟨_, rfl, ?_⟩
  have := (skipping_ends_at_the_closure failedDetail [⟨inOrder, true, 2⟩] _ rfl).2.1
    ⟨inOrder, true, 3⟩
  exact this _ rfl

end Nomifun.Guarantees.StepProgress
