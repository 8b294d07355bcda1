import Nomifun.Guarantees.AttemptVersions

/-!
# Active attempts

An attempt that is queued, running or waiting for input occupies its step. A control step starts
its attempt in the transaction that creates it and is no longer pending. An Agent step stays pending
while its attempt is queued, and the repository does not ask whether it has one: a second attempt
can be created at the version that the first one left. The scheduler passes over the steps that it
has in flight, which after a restart are not all that have a queued attempt. Where each call finds
the step free, a step has at most one active attempt.
-/
namespace Nomifun.Guarantees.ActiveAttempts
open Library.Table Source.AgentExecution Guarantees.AttemptRecords Guarantees.AttemptVersions List

variable {σ : Type} {tables after : ExecutionTables σ} {stepId : String}

section

variable {ε : Type}

/-- The attempt is queued, running or waiting for input. -/
def occupies (stepId : String) (attempt : ExecutionAttemptRow) : Bool :=
  attempt.stepId = stepId && attempt.status.isActive

def activeAt (tables : ExecutionTables σ) (stepId : String) : Nat :=
  tables.attempts.countP (occupies stepId)

theorem occupies_iff :
    occupies stepId attempt = true ↔ attempt.stepId = stepId ∧ attempt.status.isActive = true := by
  rw [occupies, Bool.and_eq_true, decide_eq_true_eq]

/-- The tables after committed calls, each of them `allowed` where it was made. -/
inductive Reaches (host : AttemptHost σ ε) (allowed : ExecutionTables σ → AttemptCall ε → Prop)
    (start : ExecutionTables σ) : ExecutionTables σ → Prop where
  | start : Reaches host allowed start start
  | call {tables after : ExecutionTables σ} {call : AttemptCall ε} :
    Reaches host allowed start tables → allowed tables call → call.Commits host tables after →
    Reaches host allowed start after

/-- The state before the call: an attempt at an Agent step is created where the step has no active
one, and a settlement that leaves the attempt of a control step active does not make the step
pending again. -/
def Disciplined (tables : ExecutionTables σ) : AttemptCall ε → Prop
  | .create _ _ stepId .. => ∀ step ∈ tables.steps, step.stepId = stepId → step.kind = .agent →
    activeAt tables stepId = 0
  | .start .. => True
  | .settle _ _ stepId _ _ _ _ params _ => params.attemptStatus.isActive = true →
    params.stepStatus = .pending → ∀ step ∈ tables.steps, step.stepId = stepId →
    step.kind = .agent

/-- A step has at most one active attempt, and a control step that is pending has none. -/
structure SingleAttempts (tables : ExecutionTables σ) : Prop where
  single : ∀ stepId, activeAt tables stepId ≤ 1
  control : ∀ step ∈ tables.steps, step.kind ≠ .agent → step.status = .pending →
    activeAt tables step.stepId = 0

end

/-! ### One call -/

section

variable {now : Int} {userId attemptId : String} {expectedStepVersion expectedAttemptVersion : Int}
  {token : Option String} {params : SettleAgentExecutionAttemptParams}

section

variable {params : CreateAgentExecutionAttemptParams}
  (created : Created now userId stepId expectedStepVersion token params attemptId tables after)
include created

theorem activeAt_created (id : String) :
    activeAt after id = activeAt tables id + if id = stepId then 1 else 0 := by
  rw [activeAt, created.attempts, countP_append, countP_singleton]
  refine congrArg _ (if_congr ?_ rfl rfl)
  have active : (if params.startImmediately then ExecutionAttemptStatus.running
      else .queued).isActive = true := by
    cases params.startImmediately <;> rfl
  rw [occupies_iff]
  exact ⟨fun counted => counted.1.symm, fun same => ⟨same.symm, active⟩⟩

theorem createAttempt_single
    (free : ∀ step ∈ tables.steps, step.stepId = stepId → step.kind = .agent →
      activeAt tables stepId = 0)
    (single : SingleAttempts tables) : SingleAttempts after := by
  obtain ⟨dispatched, listed, dispatchable, immediate⟩ := created.kind
  have parts := dispatchable
  simp only [isDispatchable, Bool.and_eq_true, decide_eq_true_eq] at parts
  obtain ⟨⟨⟨own, -⟩, -⟩, pending⟩ := parts
  have unoccupied : activeAt tables stepId = 0 := by
    by_cases agent : dispatched.kind = .agent
    · exact free dispatched listed own agent
    · exact own ▸ single.control dispatched listed agent pending
  refine ⟨fun id => ?_, fun step member control waiting => ?_⟩
  · rw [activeAt_created created]
    have before := single.single id
    split
    next same => rw [same, unoccupied]
    next => exact before
  · rw [created.steps] at member
    obtain ⟨row, known, rfl⟩ := mem_map.mp member
    cases selected : isDispatchable stepId expectedStepVersion row with
    | true =>
      -- The step that was dispatched: it started, as it is a control step.
      have same : row = dispatched := by
        have here := (isDispatchable_key selected).1
        exact inj_on_of_nodup_map tables.distinctSteps known listed (here.trans own.symm)
      subst same
      rw [if_pos selected] at control waiting
      cases started : params.startImmediately with
      | true => simp [started, startedStep] at waiting
      | false =>
        rw [started] at control immediate
        exact absurd (immediate.mpr control) Bool.false_ne_true
    | false =>
      simp only [selected, Bool.false_eq_true, if_false] at control waiting ⊢
      rw [activeAt_created created, single.control row known control waiting]
      rw [Nat.zero_add]
      refine if_neg fun same => ?_
      have row_eq : row = dispatched :=
        inj_on_of_nodup_map tables.distinctSteps known listed (same.trans own.symm)
      rw [row_eq, dispatchable] at selected
      cases selected

end

theorem startAttempt_single
    (started : Started now userId stepId expectedStepVersion attemptId expectedAttemptVersion token
      tables after) (single : SingleAttempts tables) : SingleAttempts after := by
  obtain ⟨runtimeState, attempts⟩ := started.attempts
  have fewer (id : String) : activeAt after id ≤ activeAt tables id := by
    rw [activeAt, attempts]
    refine countP_updateWhere_le fun attempt queued counted => ?_
    simp only [isQueuedAttempt, Bool.and_eq_true, decide_eq_true_eq] at queued
    rw [occupies_iff] at counted ⊢
    exact ⟨counted.1, queued.2 ▸ rfl⟩
  refine ⟨fun id => (fewer id).trans (single.single id), fun step member control waiting => ?_⟩
  rw [started.steps] at member
  obtain ⟨row, known, rfl⟩ := mem_map.mp member
  split at control
  next selected =>
    rw [if_pos selected] at waiting
    cases waiting
  next unselected =>
    rw [if_neg unselected] at waiting ⊢
    have before := single.control row known control waiting
    exact Nat.le_zero.mp (before ▸ fewer row.stepId)

theorem cancelAttempts_occupies (id : String) :
    (cancelAttempts now (some .cancelled) attempts).countP (occupies id) = 0 := by
  rw [countP_eq_zero]
  intro attempt listed occupied
  obtain ⟨row, known, rfl⟩ := mem_map.mp listed
  have active := (occupies_iff.mp occupied).2
  split at active
  next => cases active
  next inactive => exact inactive active

/-- What the settlement of an attempt does to the counts. -/
theorem settled_occupies (id : String) :
    (updateWhere (isSettleable stepId attemptId expectedAttemptVersion params.attemptStatus)
        (settledAttempt params now) attempts).countP (occupies id) ≤
      attempts.countP (occupies id) := by
  refine countP_updateWhere_le fun attempt settleable counted => ?_
  simp only [isSettleable, Bool.and_eq_true] at settleable
  rw [occupies_iff] at counted ⊢
  exact ⟨counted.1, settleable.1.2⟩

theorem ended_occupies (now : Int) (ended : params.attemptStatus.isActive = false)
    (affected : rowsAffected
      (isSettleable stepId attemptId expectedAttemptVersion params.attemptStatus) attempts = 1) :
    (updateWhere (isSettleable stepId attemptId expectedAttemptVersion params.attemptStatus)
        (settledAttempt params now) attempts).countP (occupies stepId) + 1 =
      attempts.countP (occupies stepId) := by
  rw [← affected]
  refine countP_updateWhere (fun attempt _ settleable => ?_) fun attempt => ?_
  · simp only [isSettleable, Bool.and_eq_true, decide_eq_true_eq] at settleable
    rw [occupies_iff]
    exact ⟨settleable.1.1.1.1, settleable.1.2⟩
  · rw [Bool.eq_false_iff, ne_eq, occupies_iff]
    rintro ⟨-, active⟩
    exact Bool.false_ne_true (ended.symm.trans active)

theorem settleAttempt_single
    (settled : Settled now userId stepId expectedStepVersion attemptId expectedAttemptVersion token
      params tables after)
    (proper : params.attemptStatus.isActive = true → params.stepStatus = .pending →
      ∀ step ∈ tables.steps, step.stepId = stepId → step.kind = .agent)
    (single : SingleAttempts tables) : SingleAttempts after := by
  by_cases cancelled : params.executionStatus = some .cancelled
  · have none (id : String) : activeAt after id = 0 := by
      rw [activeAt, settled.attempts, cancelled]
      exact cancelAttempts_occupies id
    exact ⟨fun id => (none id).le.trans (Nat.zero_le 1), fun step _ _ _ => none step.stepId⟩
  have attempts := settled.attempts
  rw [cancelAttempts, if_neg cancelled] at attempts
  have fewer (id : String) : activeAt after id ≤ activeAt tables id := by
    rw [activeAt, attempts]
    exact settled_occupies id
  refine ⟨fun id => (fewer id).trans (single.single id), fun step member control waiting => ?_⟩
  obtain ⟨reset, resets, steps⟩ := settled.steps
  rw [steps, cancelSteps, if_neg cancelled] at member
  obtain ⟨written, moved, rfl⟩ := mem_map.mp member
  obtain ⟨sameId, -, unchanged | ⟨-, idle⟩⟩ := resets written
  · rw [unchanged] at control waiting ⊢
    obtain ⟨row, known, rfl⟩ := mem_map.mp moved
    split at control
    next current =>
      -- The step of the settlement: it is pending, so its attempt has ended.
      rw [if_pos current] at waiting ⊢
      have own : row.stepId = stepId := (isCurrent_key current).1
      cases ended : params.attemptStatus.isActive with
      | true => exact absurd (proper ended waiting row known own) control
      | false =>
        have count := ended_occupies now ended settled.affectedAttempt
        have before := single.single stepId
        show activeAt after row.stepId = 0
        rw [own, activeAt, attempts]
        rw [activeAt] at before
        omega
    next other =>
      rw [if_neg other] at waiting ⊢
      have before := single.control row known control waiting
      exact Nat.le_zero.mp (before ▸ fewer row.stepId)
  · rw [sameId, activeAt, attempts, countP_eq_zero]
    intro attempt listed occupied
    obtain ⟨own, active⟩ := occupies_iff.mp occupied
    rw [idle attempt listed own] at active
    cases active

end

/-! ### Runs -/

section

variable {host : AttemptHost σ ε} {call : AttemptCall ε}

theorem commits_single (commits : call.Commits host tables after)
    (disciplined : Disciplined tables call) (single : SingleAttempts tables) :
    SingleAttempts after := by
  obtain ⟨result, ok⟩ := commits
  cases call with
  | create => exact createAttempt_single (createAttempt_ok ok) disciplined single
  | start => exact startAttempt_single (startAttempt_ok ok) single
  | settle => exact settleAttempt_single (settleAttempt_ok ok) disciplined single

theorem reaches_single (single : SingleAttempts start)
    (reaches : Reaches host Disciplined start tables) : SingleAttempts tables := by
  induction reaches with
  | start => exact single
  | call _ disciplined commits ih => exact commits_single commits disciplined ih

end

/-! ### The guarantee -/

/-- Where every call finds the step free, no step ever has two active attempts. -/
theorem steps_have_one_active_attempt {σ ε : Type} (host : AttemptHost σ ε)
    (start tables : ExecutionTables σ) (unattempted : start.attempts = [])
    (reaches : Reaches host Disciplined start tables) (stepId : String) :
    activeAt tables stepId ≤ 1 := by
  refine (reaches_single ⟨fun id => ?_, fun step _ _ _ => ?_⟩ reaches).single stepId
  all_goals simp [activeAt, unattempted]

/-- A host that has no objections. -/
def openHost : AttemptHost Unit Unit where
  fetch := LoopRepeats.byInsertion
  decodeEffects _ := .ok ⟨[], none⟩
  encodeEffects _ := .ok ""
  requireAutoworkAdmitted _ := .ok ()
  continuationInputAvailable _ _ := .ok true
  capacityHeld _ _ := .ok true
  linkSession _ _ _ _ _ _ := .ok ()
  verifyTerminalTurn _ _ _ _ := .ok ()
  activeTurn _ _ _ _ := .ok true
  closeLinks _ _ _ := ()
  requeueTerminalAttemptCleanup _ _ _ := ()
  appendEvent _ _ _ _ _ := .ok ()

/-- A running execution with one Agent step. -/
def oneStep : ExecutionTables Unit where
  execution := ⟨⟨2, 0, by decide⟩, "user", .running, none, none, 0⟩
  participants := [⟨"p", none, none, none⟩]
  steps := [⟨"work", .agent, .pending, none, some "p", none, none, 0, 0, 0⟩]
  dependencies := []
  attempts := []
  stoppedStepIds := []
  other := ()
  distinctParticipants := by decide
  distinctSteps := by decide
  named := by decide
  proper := fun _ (listed : List.Mem _ []) => nomatch listed
  distinctAttempts := List.nodup_nil

/-- An attempt at the step, at the version that was read. -/
def queueWork (attemptId : String) (version : Int) : AttemptCall Unit :=
  .create 1 "user" "work" version none ⟨some "p", false, "dispatch", "\x7b\x7d", none, none⟩
    attemptId ()

/-- The tables after one attempt was queued. -/
def queuedOnce : ExecutionTables Unit := (queueWork "a" 0).perform openHost oneStep

theorem queueWork_commits : (queueWork "a" 0).Commits openHost oneStep queuedOnce :=
  AttemptCall.commits_perform (by decide)

theorem queuedWork_is_single : queuedOnce.attempts.map (·.status) = [.queued] ∧
    activeAt queuedOnce "work" ≤ 1 := by
  refine ⟨by decide, ?_⟩
  refine steps_have_one_active_attempt openHost oneStep queuedOnce rfl ?_ "work"
  refine .call .start ?_ queueWork_commits
  intro step listed own agent
  rfl

/-- The step is still pending, so a second attempt is queued at the version that the first left. -/
theorem queuedWork_is_queued_again : ∃ tables,
    Reaches openHost (fun _ _ => True) oneStep tables ∧ oneStep.attempts = [] ∧
      tables.steps.map (·.version) = [2] ∧ activeAt tables "work" = 2 := by
  have again : (queueWork "b" 1).Commits openHost queuedOnce
      ((queueWork "b" 1).perform openHost queuedOnce) :=
    AttemptCall.commits_perform (by decide)
  refine ⟨_, .call (.call .start trivial queueWork_commits) trivial again, rfl, ?_⟩
  decide

end Nomifun.Guarantees.ActiveAttempts
