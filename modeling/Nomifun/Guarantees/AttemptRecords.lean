import Nomifun.Guarantees.LoopRepeats
import Nomifun.Source.AgentExecution.Attempts

/-!
# What a committed call on attempts leaves

Each of the three calls is read once: which rows of the tables it changed, and what it found in
them before. A call that fails leaves the tables as they were.
-/
namespace Nomifun.Guarantees.AttemptRecords
open Library Library.Table Source.AgentExecution List

variable {σ ε : Type} {now : Int} {tables after : ExecutionTables σ}
  {userId stepId attemptId : String} {expectedStepVersion expectedAttemptVersion : Int}
  {token : Option String} {attempts : List ExecutionAttemptRow} {step : ExecutionStep}

/-! ### The updates -/

theorem isDispatchable_key (dispatchable : isDispatchable stepId expectedStepVersion step = true) :
    step.stepId = stepId ∧ step.version = expectedStepVersion := by
  simp only [isDispatchable, Bool.and_eq_true, decide_eq_true_eq] at dispatchable
  exact dispatchable.1.1

theorem isCurrent_key (current : isCurrent stepId expectedStepVersion step = true) :
    step.stepId = stepId ∧ step.version = expectedStepVersion := by
  simp only [isCurrent, Bool.and_eq_true, decide_eq_true_eq] at current
  exact current.1

theorem changeStep_ok (ok : changeStep entity selects change keeps tables = .ok after) :
    rowsAffected selects tables.steps = 1 ∧ after = tables.updateSteps selects change keeps := by
  simp only [changeStep, changedConcurrently, dbConflict, last_guard_eq_ok, not_not,
    Except.ok.injEq] at ok
  exact ⟨ok.1, ok.2.symm⟩

theorem changeAttempt_ok (ok : changeAttempt selects change keeps tables = .ok after) :
    rowsAffected selects tables.attempts = 1 ∧
      after = tables.updateAttempts selects change keeps := by
  simp only [changeAttempt, changedConcurrently, dbConflict, last_guard_eq_ok, not_not,
    Except.ok.injEq] at ok
  exact ⟨ok.1, ok.2.symm⟩

theorem writeExecution_ok (ok : writeExecution now userId write tables = .ok after) :
    write.selects userId tables.execution = true ∧
      after = { tables with execution := write.change now tables.execution } := by
  unfold writeExecution at ok
  split at ok
  next selected => exact ⟨selected, (Except.ok.inj ok).symm⟩
  next => cases ok

theorem insertAttempt_ok (ok : insertAttempt row tables = .ok after) :
    after.attempts = tables.attempts ++ [row] ∧ after.steps = tables.steps ∧
      after.execution = tables.execution := by
  unfold insertAttempt at ok
  split at ok
  next =>
    simp only [last_guard_eq_ok] at ok
    obtain ⟨-, done⟩ := ok
    cases done
    exact ⟨rfl, rfl, rfl⟩
  next => cases ok

/-- The event is written to other tables. -/
theorem finishAttemptCall_ok
    (ok : finishAttemptCall host now userId stepId attemptId event tables = .ok (after, result)) :
    ∃ other, after = { tables with other := other } := by
  simp only [finishAttemptCall, bind_eq_ok] at ok
  obtain ⟨other, -, ok⟩ := ok
  split at ok
  next => cases ok
  next =>
    cases ok
    exact ⟨other, rfl⟩

/-! ### Creating and starting -/

/-- What `createAttempt` found and left. -/
structure Created {σ : Type} (now : Int) (userId stepId : String) (expectedStepVersion : Int)
    (token : Option String) (params : CreateAgentExecutionAttemptParams) (attemptId : String)
    (tables after : ExecutionTables σ) : Prop where
  fence : fenceSchedulerWrite token now tables.execution = .ok ()
  kind : ∃ step ∈ tables.steps, isDispatchable stepId expectedStepVersion step = true ∧
    (params.startImmediately = true ↔ step.kind ≠ .agent)
  affected : rowsAffected (isDispatchable stepId expectedStepVersion) tables.steps = 1
  steps : after.steps = updateWhere (isDispatchable stepId expectedStepVersion)
    (if params.startImmediately then startedStep now else queuedStep now) tables.steps
  attempts : after.attempts = tables.attempts ++
    [newAttempt now stepId attemptId (nextAttemptNo (tables.attemptsOf stepId)) params]
  selected : SchedulerWrite.selects userId .changeAttempt tables.execution = true
  execution : after.execution = SchedulerWrite.change now .changeAttempt tables.execution

/-- What `startAttempt` found and left. -/
structure Started {σ : Type} (now : Int) (userId stepId : String) (expectedStepVersion : Int)
    (attemptId : String) (expectedAttemptVersion : Int) (token : Option String)
    (tables after : ExecutionTables σ) : Prop where
  fence : fenceSchedulerWrite token now tables.execution = .ok ()
  affectedStep : rowsAffected (isDispatchable stepId expectedStepVersion) tables.steps = 1
  affectedAttempt : rowsAffected (isQueuedAttempt stepId attemptId expectedAttemptVersion)
    tables.attempts = 1
  steps : after.steps = updateWhere (isDispatchable stepId expectedStepVersion) (startedStep now)
    tables.steps
  attempts : ∃ runtimeState, after.attempts = updateWhere
    (isQueuedAttempt stepId attemptId expectedAttemptVersion) (startedAttempt now runtimeState)
    tables.attempts
  selected : SchedulerWrite.selects userId .changeAttempt tables.execution = true
  execution : after.execution = SchedulerWrite.change now .changeAttempt tables.execution

theorem dispatchStep_ok (ok : dispatchStep now step expectedStepVersion params tables = .ok after) :
    (params.startImmediately = true ↔ step.kind ≠ .agent) ∧
      rowsAffected (isDispatchable step.stepId expectedStepVersion) tables.steps = 1 ∧
      after.steps = updateWhere (isDispatchable step.stepId expectedStepVersion)
        (if params.startImmediately then startedStep now else queuedStep now) tables.steps ∧
      after.attempts = tables.attempts ∧ after.execution = tables.execution := by
  unfold dispatchStep at ok
  cases immediate : params.startImmediately with
  | true =>
    simp only [immediate, if_true, dbConflict, last_guard_eq_ok, Bool.or_eq_true, not_or,
      decide_eq_true_eq] at ok
    obtain ⟨⟨control, -⟩, changed⟩ := ok
    obtain ⟨affected, rfl⟩ := changeStep_ok changed
    exact ⟨by simp [control], affected, rfl, rfl, rfl⟩
  | false =>
    simp only [immediate, Bool.false_eq_true, if_false, dbConflict, last_guard_eq_ok,
      Bool.or_eq_true, not_or, decide_eq_true_eq] at ok
    obtain ⟨⟨agent, -⟩, changed⟩ := ok
    obtain ⟨affected, rfl⟩ := changeStep_ok changed
    exact ⟨by simp [agent], affected, rfl, rfl, rfl⟩

theorem createAttempt_ok
    (ok : createAttempt host now userId stepId expectedStepVersion token params attemptId event
      tables = .ok (after, result)) :
    Created now userId stepId expectedStepVersion token params attemptId tables after := by
  simp only [createAttempt, bind_eq_ok] at ok
  obtain ⟨_, fence, _, -, _, -, ok⟩ := ok
  split at ok
  next => cases ok
  next step found =>
    simp only [bind_eq_ok, changedConcurrently, dbConflict, guard_eq_ok] at ok
    obtain ⟨_, -, -, dispatched, dispatches, _, -, inserted, inserts, written, writes, finished⟩ :=
      ok
    have listed : tables.steps.find? (isDispatchable stepId expectedStepVersion) = some step := by
      split at found
      · exact found
      · cases found
    have dispatchable := find?_some listed
    have own : step.stepId = stepId := (isDispatchable_key dispatchable).1
    obtain ⟨kind, affected, steps, attempts, execution⟩ := dispatchStep_ok dispatches
    obtain ⟨added, sameSteps, sameExecution⟩ := insertAttempt_ok inserts
    obtain ⟨selected, rfl⟩ := writeExecution_ok writes
    obtain ⟨other, rfl⟩ := finishAttemptCall_ok finished
    rw [own] at affected steps
    refine ⟨fence, ⟨step, mem_of_find?_eq_some listed, dispatchable, kind⟩, affected,
      sameSteps.trans steps, ?_, ?_, ?_⟩
    · rw [ExecutionTables.attemptsOf, ← attempts]
      exact added
    · rw [← execution, ← sameExecution]
      exact selected
    · rw [sameExecution, execution]

theorem startAttempt_ok
    (ok : startAttempt host now userId stepId expectedStepVersion attemptId expectedAttemptVersion
      conversationId sessionKind token initialInput event tables = .ok (after, result)) :
    Started now userId stepId expectedStepVersion attemptId expectedAttemptVersion token tables
      after := by
  simp only [startAttempt, bind_eq_ok] at ok
  obtain ⟨_, fence, _, -, _, -, ok⟩ := ok
  split at ok
  next => cases ok
  next attempt found =>
    simp only [bind_eq_ok] at ok
    obtain ⟨runtimeState, -, dispatched, dispatches, started, starts, other, -, written, writes,
      finished⟩ := ok
    obtain ⟨affectedStep, rfl⟩ := changeStep_ok dispatches
    obtain ⟨affectedAttempt, rfl⟩ := changeAttempt_ok starts
    obtain ⟨selected, rfl⟩ := writeExecution_ok writes
    obtain ⟨other, rfl⟩ := finishAttemptCall_ok finished
    have dispatching := selects_of_rowsAffected affectedStep
    rw [dispatching] at affectedStep
    have owned := selects_of_rowsAffected affectedStep
    rw [owned] at affectedStep
    exact ⟨fence, affectedStep, affectedAttempt, congrArg
      (fun selects => updateWhere selects (startedStep now) tables.steps) (dispatching.trans owned),
      ⟨runtimeState, rfl⟩, selected, rfl⟩

/-! ### Settling -/

/-- What a loop repeat does to a step: nothing, or it resets one that nothing is attempting. -/
structure LoopReset (attempts : List ExecutionAttemptRow) (before after : ExecutionStep) :
    Prop where
  stepId : after.stepId = before.stepId
  kind : after.kind = before.kind
  reset : after = before ∨ before.version < after.version ∧
    ∀ attempt ∈ attempts, attempt.stepId = before.stepId → attempt.status.isActive = false

theorem LoopReset.refl (attempts : List ExecutionAttemptRow) (step : ExecutionStep) :
    LoopReset attempts step step :=
  ⟨rfl, rfl, .inl rfl⟩

theorem LoopReset.trans (before : LoopReset attempts first second)
    (after : LoopReset attempts second third) : LoopReset attempts first third := by
  refine ⟨after.stepId.trans before.stepId, after.kind.trans before.kind, ?_⟩
  obtain same | ⟨later, idle⟩ := after.reset
  · rw [same]
    exact before.reset
  · refine .inr ⟨?_, ?_⟩
    · obtain same | ⟨earlier, -⟩ := before.reset
      · rwa [← same]
      · exact earlier.trans later
    · rw [← before.stepId]
      exact idle

/-- What it does to the steps. -/
def LoopResets (attempts : List ExecutionAttemptRow) (before after : List ExecutionStep) : Prop :=
  ∃ change : ExecutionStep → ExecutionStep, (∀ step, LoopReset attempts step (change step)) ∧
    after = before.map change

theorem LoopResets.refl (attempts : List ExecutionAttemptRow) (steps : List ExecutionStep) :
    LoopResets attempts steps steps :=
  ⟨id, LoopReset.refl attempts, (map_id _).symm⟩

/-- The cancellation of what is unfinished, where a settlement cancels the execution. -/
def cancelSteps (now : Int) (status : Option AgentExecutionStatus) (steps : List ExecutionStep) :
    List ExecutionStep :=
  if status = some .cancelled then
    updateWhere (fun step => step.isActive && !step.status.isTerminal) (cancelledStep now) steps
  else steps

def cancelAttempts (now : Int) (status : Option AgentExecutionStatus)
    (attempts : List ExecutionAttemptRow) : List ExecutionAttemptRow :=
  if status = some .cancelled then
    updateWhere (·.status.isActive) (cancelledAttempt none now) attempts
  else attempts

/-- What `settleAttempt` found and left. -/
structure Settled {σ : Type} (now : Int) (userId stepId : String) (expectedStepVersion : Int)
    (attemptId : String) (expectedAttemptVersion : Int) (token : Option String)
    (params : SettleAgentExecutionAttemptParams) (tables after : ExecutionTables σ) : Prop where
  fence : fenceSchedulerWrite token now tables.execution = .ok ()
  unqueued : params.attemptStatus ≠ .queued
  affectedAttempt : rowsAffected
    (isSettleable stepId attemptId expectedAttemptVersion params.attemptStatus) tables.attempts = 1
  affectedStep : rowsAffected (isCurrent stepId expectedStepVersion) tables.steps = 1
  attempts : after.attempts = cancelAttempts now params.executionStatus (updateWhere
    (isSettleable stepId attemptId expectedAttemptVersion params.attemptStatus)
    (settledAttempt params now) tables.attempts)
  steps : ∃ reset : ExecutionStep → ExecutionStep, (∀ step, LoopReset (updateWhere
      (isSettleable stepId attemptId expectedAttemptVersion params.attemptStatus)
      (settledAttempt params now) tables.attempts) step (reset step)) ∧
    after.steps = cancelSteps now params.executionStatus ((updateWhere
      (isCurrent stepId expectedStepVersion) (settledStep params now) tables.steps).map reset)
  expected : ∀ reset, params.loopRepeatReset = some reset → ∀ entry ∈ reset.expectedSteps,
    ∃ step ∈ tables.steps, step.stepId = entry.stepId ∧ step.version = entry.expectedStepVersion
  selected : SchedulerWrite.selects userId (.settleAttempt params.executionStatus)
    tables.execution = true
  execution : after.execution =
    SchedulerWrite.change now (.settleAttempt params.executionStatus) tables.execution

variable {reset : LoopRepeatResetParams} {rows rows' : ExecutionRows} {read : AgentExecutionDetail}

theorem closeSettled_rows (host : AttemptHost σ ε) (now : Int) (stepId attemptId : String)
    (params : SettleAgentExecutionAttemptParams) (tables : ExecutionTables σ) :
    (closeSettled host now stepId attemptId params tables).steps =
        cancelSteps now params.executionStatus tables.steps ∧
      (closeSettled host now stepId attemptId params tables).attempts =
        cancelAttempts now params.executionStatus tables.attempts ∧
      (closeSettled host now stepId attemptId params tables).execution = tables.execution := by
  unfold closeSettled cancelSteps cancelAttempts
  by_cases cancelled : params.executionStatus = some .cancelled <;>
    simp only [cancelled, if_true] <;> cases params.stepStatus.isTerminal <;>
    cases params.attemptStatus.isActive <;> exact ⟨rfl, rfl, rfl⟩

section

variable (same : rows.detail.attempts = attempts.map fun attempt =>
  ⟨attempt.attemptId, attempt.stepId, attempt.status⟩)
include same

/-- One step of the closure. -/
theorem resetStep_resets (ok : resetStep read reset now rows target = .ok rows') :
    rows'.detail.attempts = rows.detail.attempts ∧
      LoopResets attempts rows.detail.steps rows'.detail.steps := by
  simp only [resetStep, dbConflict, changedConcurrently, guard_eq_ok] at ok
  obtain ⟨-, ok⟩ := ok
  split at ok
  next => cases ok
  next current found =>
    simp only [guard_eq_ok, Bool.not_eq_true] at ok
    obtain ⟨-, -, idle, ok⟩ := ok
    have unattempted (attempt : ExecutionAttemptRow) (listed : attempt ∈ attempts)
        (own : attempt.stepId = target) : attempt.status.isActive = false := by
      rw [AgentExecutionDetail.hasActiveAttempt, same, any_map, any_eq_false] at idle
      simpa [own] using idle attempt listed
    split at ok
    next =>
      cases ok
      exact ⟨rfl, .refl attempts _⟩
    next =>
      rw [guard_eq_ok] at ok
      obtain ⟨-, ok⟩ := ok
      cases ok
      refine ⟨rfl, _, fun step => ?_, rfl⟩
      split
      next selected =>
        simp only [Bool.and_eq_true, decide_eq_true_eq] at selected
        obtain ⟨⟨⟨own, -⟩, -⟩, -⟩ := selected
        exact ⟨rfl, rfl, .inr ⟨Int.lt_succ step.version, own ▸ unattempted⟩⟩
      next => exact .refl attempts step

theorem resetSteps_reset {targets : List String}
    (ok : targets.foldlM (resetStep read reset now) rows = .ok rows') :
    LoopResets attempts rows.detail.steps rows'.detail.steps := by
  have both := foldlM_invariant (fun current => current.detail.attempts = rows.detail.attempts ∧
    LoopResets attempts rows.detail.steps current.detail.steps) ?_ ⟨rfl, .refl attempts _⟩ ok
  · exact both.2
  rintro current target next - ⟨kept, before, resets, written⟩ stepped
  obtain ⟨keeps, after, resetsNow, writes⟩ := resetStep_resets (kept.trans same) stepped
  refine ⟨keeps.trans kept, after ∘ before, fun step => (resets step).trans (resetsNow _), ?_⟩
  rw [writes, written, map_map]

end

/-- The entries of the reset are not the controller, and they carry the versions of their steps. -/
theorem applyLoopRepeatReset_expects
    (ok : applyLoopRepeatReset fetch rows stepId reset now = .ok rows') :
    ∀ entry ∈ reset.expectedSteps, entry.stepId ≠ stepId ∧ ∃ step ∈ rows.detail.steps,
      step.stepId = entry.stepId ∧ step.version = entry.expectedStepVersion := by
  intro entry listed
  have named : entry.stepId ∈ reset.expectedSteps.map (·.stepId) := mem_map_of_mem listed
  obtain ⟨step, found, version⟩ := LoopRepeats.applyLoopRepeatReset_ok ok _ named
  obtain ⟨closure, searched, distinct, covered, -⟩ := LoopRepeats.applyLoopRepeatReset_inv ok
  obtain ⟨member, own⟩ := AgentExecutionDetail.activeStep_eq_some.mp found
  refine ⟨?_, step, mem_of_mem_filter member, own, ?_⟩
  · obtain ⟨reached, -, rfl⟩ := Option.map_eq_some_iff.mp searched
    simpa using (mem_filter.mp (covered _ named)).2
  · rw [expectedVersion, (find_key_eq_some distinct).mpr ⟨listed, rfl⟩] at version
    exact (Option.some.inj version).symm

theorem repeatLoop_ok {reset : Option LoopRepeatResetParams}
    (ok : repeatLoop host now stepId reset tables = .ok after) :
    after.attempts = tables.attempts ∧ after.execution = tables.execution ∧
      LoopResets tables.attempts tables.steps after.steps ∧
      ∀ params, reset = some params → ∀ entry ∈ params.expectedSteps, entry.stepId ≠ stepId ∧
        ∃ step ∈ tables.steps, step.stepId = entry.stepId ∧
          step.version = entry.expectedStepVersion := by
  cases reset with
  | none =>
    cases ok
    exact ⟨rfl, rfl, .refl _ _, nofun⟩
  | some params =>
    simp only [repeatLoop, bind_eq_ok] at ok
    obtain ⟨rows, applied, ok⟩ := ok
    cases ok
    refine ⟨rfl, rfl, ?_, ?_⟩
    · obtain ⟨closure, -, -, -, done⟩ := LoopRepeats.applyLoopRepeatReset_inv applied
      exact resetSteps_reset rfl done
    · intro given same
      cases same
      exact applyLoopRepeatReset_expects applied

theorem mem_of_mem_settled
    (member : step ∈ updateWhere (isCurrent stepId expectedStepVersion) (settledStep params now)
      steps) (apart : step.stepId ≠ stepId) : step ∈ steps := by
  obtain ⟨before, known, rfl⟩ := mem_map.mp member
  cases current : isCurrent stepId expectedStepVersion before with
  | false => simpa [current] using known
  | true =>
    rw [if_pos current] at apart
    exact absurd (isCurrent_key current).1 apart

theorem settleAttempt_ok (ok : settleAttempt host now userId stepId expectedStepVersion attemptId
      expectedAttemptVersion token params event tables = .ok (after, result)) :
    Settled now userId stepId expectedStepVersion attemptId expectedAttemptVersion token params
      tables after := by
  simp only [settleAttempt, dbConflict, bind_eq_ok, guard_eq_ok] at ok
  obtain ⟨unqueued, -, _, fence, _, -, settled, settles, stepped, steps, reset, resets, written,
    writes, finished⟩ := ok
  obtain ⟨affectedAttempt, rfl⟩ := changeAttempt_ok settles
  obtain ⟨affectedStep, rfl⟩ := changeStep_ok steps
  obtain ⟨sameAttempts, sameExecution, ⟨change, each, changed⟩, expected⟩ := repeatLoop_ok resets
  obtain ⟨selected, rfl⟩ := writeExecution_ok writes
  obtain ⟨other, rfl⟩ := finishAttemptCall_ok finished
  have owned := selects_of_rowsAffected affectedStep
  rw [owned] at affectedStep
  let written : ExecutionTables σ := { reset with
    execution := SchedulerWrite.change now (.settleAttempt params.executionStatus) reset.execution }
  obtain ⟨closedSteps, closedAttempts, closedExecution⟩ :=
    closeSettled_rows host now stepId attemptId params written
  refine ⟨fence, unqueued, affectedAttempt, affectedStep, ?_, ⟨change, each, ?_⟩, ?_, ?_, ?_⟩
  · exact closedAttempts.trans (congrArg _ sameAttempts)
  · refine closedSteps.trans (congrArg _ ?_)
    rw [← owned]
    exact changed
  · intro loop given entry listed
    obtain ⟨apart, step, member, own, version⟩ := expected loop given entry listed
    have updated : step ∈ updateWhere (isCurrent stepId expectedStepVersion)
        (settledStep params now) tables.steps := by
      rw [← owned]
      exact member
    exact ⟨step, mem_of_mem_settled updated (own ▸ apart), own, version⟩
  · rw [sameExecution] at selected
    exact selected
  · refine closedExecution.trans ?_
    show SchedulerWrite.change now (.settleAttempt params.executionStatus) reset.execution = _
    rw [sameExecution]
    rfl

end Nomifun.Guarantees.AttemptRecords
