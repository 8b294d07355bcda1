import Nomifun.Guarantees.AttemptRecords
import Nomifun.Library.Versioned

/-!
# Versions of steps and attempts

Transactions that create, start and settle attempts come in any order, and some of them fail. A
row that changes gets a larger version, so a version that a call expected and that is gone does not
come back. The numbers of the attempts at a step count from zero, and an attempt that has ended
stays as it is.
-/
namespace Nomifun.Guarantees.AttemptVersions
open Library Library.Table Source.AgentExecution Guarantees.AttemptRecords List Bool

variable {σ : Type} {tables after : ExecutionTables σ} {attemptId : String}
  {expectedAttemptVersion : Int} {params : CreateAgentExecutionAttemptParams}

/-! ### The calls -/

/-- A call with the time at which it was made. -/
inductive AttemptCall (ε : Type) where
  | create (now : Int) (userId stepId : String) (expectedStepVersion : Int)
      (token : Option String) (params : CreateAgentExecutionAttemptParams) (attemptId : String)
      (event : ε)
  | start (now : Int) (userId stepId : String) (expectedStepVersion : Int) (attemptId : String)
      (expectedAttemptVersion : Int) (conversationId : String)
      (sessionKind : AgentExecutionAttemptSessionKind) (token : Option String)
      (initialInput : Option PendingConversationEffect) (event : ε)
  | settle (now : Int) (userId stepId : String) (expectedStepVersion : Int) (attemptId : String)
      (expectedAttemptVersion : Int) (token : Option String)
      (params : SettleAgentExecutionAttemptParams) (event : ε)

namespace AttemptCall

variable {ε : Type}

section

variable (host : AttemptHost σ ε) (call : AttemptCall ε) (tables : ExecutionTables σ)

def attempt :
    Except (Fault DbError) (ExecutionTables σ × ExecutionStep × Option ExecutionAttemptRow) :=
  match call with
  | .create now userId stepId expectedStepVersion token params attemptId event =>
    createAttempt host now userId stepId expectedStepVersion token params attemptId event tables
  | .start now userId stepId expectedStepVersion attemptId expectedAttemptVersion conversationId
      sessionKind token initialInput event =>
    startAttempt host now userId stepId expectedStepVersion attemptId expectedAttemptVersion
      conversationId sessionKind token initialInput event tables
  | .settle now userId stepId expectedStepVersion attemptId expectedAttemptVersion token params
      event =>
    settleAttempt host now userId stepId expectedStepVersion attemptId expectedAttemptVersion token
      params event tables

/-- The call commits and leaves `after`. -/
def Commits (tables after : ExecutionTables σ) : Prop :=
  ∃ result, call.attempt host tables = .ok (after, result)

/-- A transaction that fails is rolled back. -/
def perform (call : AttemptCall ε) : ExecutionTables σ :=
  match call.attempt host tables with
  | .ok (after, _) => after
  | .error _ => tables

def stepId : AttemptCall ε → String
  | .create _ _ stepId .. | .start _ _ stepId .. | .settle _ _ stepId .. => stepId

def expectedStepVersion : AttemptCall ε → Int
  | .create _ _ _ version .. | .start _ _ _ version .. | .settle _ _ _ version .. => version

def now : AttemptCall ε → Int
  | .create now .. | .start now .. | .settle now .. => now

def userId : AttemptCall ε → String
  | .create _ userId .. | .start _ userId .. | .settle _ userId .. => userId

/-- The lease under which the scheduler calls. -/
def token : AttemptCall ε → Option String
  | .create _ _ _ _ token .. | .start _ _ _ _ _ _ _ _ token .. | .settle _ _ _ _ _ _ token .. =>
    token

/-- What the call does to the row of the execution. -/
def write : AttemptCall ε → SchedulerWrite
  | .create .. | .start .. => .changeAttempt
  | .settle _ _ _ _ _ _ _ params _ => .settleAttempt params.executionStatus

/-- The versions of steps that the call carries; a loop repeat carries those of its closure. -/
def expectedSteps (call : AttemptCall ε) : List (String × Int) :=
  (call.stepId, call.expectedStepVersion) :: match call with
    | .settle _ _ _ _ _ _ _ params _ => (params.loopRepeatReset.elim [] (·.expectedSteps)).map
        fun entry => (entry.stepId, entry.expectedStepVersion)
    | .create .. | .start .. => []

/-- The version of the attempt that the call carries. -/
def expectedAttempts : AttemptCall ε → List (String × Int)
  | .create .. => []
  | .start _ _ _ _ attemptId version .. | .settle _ _ _ _ attemptId version .. =>
    [(attemptId, version)]

/-- One of the versions that the call carries is not the version of its row. -/
def Stale : Prop :=
  (∃ expected ∈ call.expectedSteps, ∀ step ∈ tables.steps, step.stepId = expected.1 →
      step.version ≠ expected.2) ∨
    ∃ expected ∈ call.expectedAttempts, ∀ attempt ∈ tables.attempts,
      attempt.attemptId = expected.1 → attempt.version ≠ expected.2

end

theorem perform_eq (host : AttemptHost σ ε) (tables : ExecutionTables σ) (call : AttemptCall ε) :
    perform host tables call = tables ∨ call.Commits host tables (perform host tables call) := by
  unfold perform Commits
  cases attempted : call.attempt host tables with
  | ok done => exact .inr ⟨done.2, rfl⟩
  | error fault => exact .inl rfl

theorem commits_perform {call : AttemptCall ε}
    (succeeds : (call.attempt host tables).toOption.isSome = true) :
    call.Commits host tables (call.perform host tables) := by
  unfold perform Commits
  cases attempted : call.attempt host tables with
  | ok done => exact ⟨done.2, rfl⟩
  | error fault => simp [attempted, Except.toOption] at succeeds

end AttemptCall

/-! ### One call -/

def stepVersions : Versioning ExecutionStep String where
  key := (·.stepId)
  version := (·.version)
  settled _ := false

def attemptVersions : Versioning ExecutionAttemptRow String where
  key := (·.attemptId)
  version := (·.version)
  settled attempt := !attempt.status.isActive

/-- The numbers of the attempts at a step, in the order in which they were made. -/
def Numbered {σ : Type} (tables : ExecutionTables σ) : Prop :=
  ∀ stepId, (tables.attemptsOf stepId).map (·.attemptNo) =
    (List.range (tables.attemptsOf stepId).length).map Int.ofNat

/-- What every committed call does to the rows. -/
structure Advances {σ : Type} (tables after : ExecutionTables σ) : Prop where
  steps : stepVersions.Evolves tables.steps after.steps
  attempts : attemptVersions.Evolves tables.attempts after.attempts
  execution : after.execution = tables.execution ∨
    tables.execution.version < after.execution.version
  numbers : Numbered tables → Numbered after

theorem Advances.refl (tables : ExecutionTables σ) : Advances tables tables :=
  ⟨.refl _, .refl _, .inl rfl, id⟩

theorem Advances.trans (before : Advances first second) (after : Advances second third) :
    Advances first third := by
  refine ⟨before.steps.trans after.steps, before.attempts.trans after.attempts, ?_,
    after.numbers ∘ before.numbers⟩
  obtain same | grown := before.execution
  · rw [← same]
    exact after.execution
  · obtain same | grows := after.execution
    · rw [same]
      exact .inr grown
    · exact .inr (grown.trans grows)

section

variable {userId stepId : String}

/-! #### Numbers -/

/-- What the numbering reads of an attempt. -/
def numbering (attempt : ExecutionAttemptRow) : String × Int := (attempt.stepId, attempt.attemptNo)

theorem numbers_eq (stepId : String) (tables : ExecutionTables σ) :
    (tables.attemptsOf stepId).map (·.attemptNo) =
      ((tables.attempts.map numbering).filter (·.1 = stepId)).map (·.2) := by
  rw [filter_map, map_map]
  rfl

theorem numbered_of_kept (kept : after.attempts.map numbering = tables.attempts.map numbering)
    (numbered : Numbered tables) : Numbered after := by
  intro stepId
  have same : (after.attemptsOf stepId).map (·.attemptNo) =
      (tables.attemptsOf stepId).map (·.attemptNo) := by
    rw [numbers_eq, numbers_eq, kept]
  have length : (after.attemptsOf stepId).length = (tables.attemptsOf stepId).length := by
    simpa using congrArg length same
  rw [same, length]
  exact numbered stepId

theorem nextAttemptNo_range
    (numbered : attempts.map (·.attemptNo) = (range attempts.length).map Int.ofNat) :
    nextAttemptNo attempts = attempts.length := by
  have highest (count : Nat) :
      ((range count).map Int.ofNat).foldl max (-1) = (count : Int) - 1 := by
    induction count with
    | zero => rfl
    | succ count ih =>
      rw [range_succ, map_append, foldl_append]
      simp only [map_cons, map_nil, foldl_cons, foldl_nil, Int.ofNat_eq_natCast]
      omega
  have folded : attempts.foldl (fun last attempt => max last attempt.attemptNo) (-1) =
      (attempts.map (·.attemptNo)).foldl max (-1) := foldl_map.symm
  rw [nextAttemptNo, folded, numbered, highest]
  omega

theorem numbered_of_created
    (created : Created now userId stepId expectedStepVersion token params attemptId tables after)
    (numbered : Numbered tables) : Numbered after := by
  intro id
  have listed := created.attempts
  by_cases own : id = stepId
  · subst own
    have grown : after.attemptsOf id = tables.attemptsOf id ++
        [newAttempt now id attemptId (nextAttemptNo (tables.attemptsOf id)) params] := by
      simp [ExecutionTables.attemptsOf, listed, newAttempt]
    rw [grown, map_append, numbered id, length_append, length_singleton, range_succ]
    simp [newAttempt, nextAttemptNo_range (numbered id)]
  · have same : after.attemptsOf id = tables.attemptsOf id := by
      simp [ExecutionTables.attemptsOf, listed, newAttempt, Ne.symm own]
    rw [same]
    exact numbered id

/-! #### Rows -/

/-- The step of the call had the version that the call expected, and it has a larger one now. -/
def Passes (stepId : String) (version : Int) (tables after : ExecutionTables σ) : Prop :=
  ∃ step ∈ tables.steps, step.stepId = stepId ∧ step.version = version ∧
    ∃ next ∈ after.steps, next.stepId = stepId ∧ version < next.version

theorem createAttempt_advances
    (created : Created now userId stepId expectedStepVersion token params attemptId tables after) :
    Advances tables after ∧ tables.execution.version < after.execution.version ∧
      Passes stepId expectedStepVersion tables after := by
  have grown : tables.execution.version < after.execution.version := by
    rw [created.execution]
    exact Int.lt_succ _
  refine ⟨⟨?_, ?_, .inr grown, numbered_of_created created⟩, grown, ?_⟩
  · rw [created.steps]
    refine .updateWhere fun step _ => ?_
    cases params.startImmediately <;> exact Versioning.Keeps.of_succ rfl rfl rfl
  · rw [created.attempts]
    exact .append _ _
  · refine Versioning.Evolves.leaves stepVersions
      (if params.startImmediately then startedStep now else queuedStep now) created.affected
      (fun step => isDispatchable_key) (fun step => ?_) ?_
    · cases params.startImmediately <;> exact ⟨rfl, Int.lt_succ _⟩
    · rw [created.steps]
      exact .refl _

theorem startAttempt_advances
    (started : Started now userId stepId expectedStepVersion attemptId expectedAttemptVersion token
      tables after) : Advances tables after ∧ tables.execution.version < after.execution.version ∧
      Passes stepId expectedStepVersion tables after := by
  obtain ⟨runtimeState, attempts⟩ := started.attempts
  have grown : tables.execution.version < after.execution.version := by
    rw [started.execution]
    exact Int.lt_succ _
  refine ⟨⟨?_, ?_, .inr grown, numbered_of_kept ?_⟩, grown, ?_⟩
  · rw [started.steps]
    exact .updateWhere fun step _ => Versioning.Keeps.of_succ rfl rfl rfl
  · rw [attempts]
    refine .updateWhere fun attempt queued => Versioning.Keeps.of_succ rfl ?_ rfl
    simp only [isQueuedAttempt, and_eq_true, decide_eq_true_eq] at queued
    simp [attemptVersions, queued.2, ExecutionAttemptStatus.isActive]
  · rw [attempts]
    exact map_updateWhere fun _ _ => rfl
  · refine Versioning.Evolves.leaves stepVersions (startedStep now) started.affectedStep
      (fun step => isDispatchable_key) (fun step => ⟨rfl, Int.lt_succ _⟩) ?_
    rw [started.steps]
    exact .refl _

section

variable (status : Option AgentExecutionStatus)
include status

theorem cancelSteps_evolves (steps : List ExecutionStep) :
    stepVersions.Evolves steps (cancelSteps now status steps) := by
  unfold cancelSteps
  split
  · exact .updateWhere fun step _ => Versioning.Keeps.of_succ rfl rfl rfl
  · exact .refl steps

theorem cancelAttempts_evolves (attempts : List ExecutionAttemptRow) :
    attemptVersions.Evolves attempts (cancelAttempts now status attempts) := by
  unfold cancelAttempts
  split
  · refine .updateWhere fun attempt active => Versioning.Keeps.of_succ rfl ?_ rfl
    simp [attemptVersions, active]
  · exact .refl attempts

theorem cancelAttempts_numbering (attempts : List ExecutionAttemptRow) :
    (cancelAttempts now status attempts).map numbering = attempts.map numbering := by
  unfold cancelAttempts
  split
  · exact map_updateWhere fun _ _ => rfl
  · rfl

end

theorem LoopReset.keeps {before after : ExecutionStep} (reset : LoopReset attempts before after) :
    stepVersions.Keeps before after :=
  ⟨reset.stepId, reset.reset.imp id fun grown => ⟨rfl, grown.1⟩⟩

theorem settleAttempt_advances {params : SettleAgentExecutionAttemptParams}
    (settled : Settled now userId stepId expectedStepVersion attemptId expectedAttemptVersion token
      params tables after) :
    Advances tables after ∧ tables.execution.version < after.execution.version ∧
      Passes stepId expectedStepVersion tables after := by
  obtain ⟨reset, resets, steps⟩ := settled.steps
  have grown : tables.execution.version < after.execution.version := by
    rw [settled.execution]
    exact Int.lt_succ _
  refine ⟨⟨?_, ?_, .inr grown, numbered_of_kept ?_⟩, grown, ?_⟩
  · rw [steps]
    refine .trans ?_ (cancelSteps_evolves _ _)
    refine .trans ?_ (.map fun step => LoopReset.keeps (resets step))
    exact .updateWhere fun step _ => Versioning.Keeps.of_succ rfl rfl rfl
  · rw [settled.attempts]
    refine .trans (.updateWhere fun attempt settleable => ?_) (cancelAttempts_evolves _ _)
    simp only [isSettleable, and_eq_true] at settleable
    refine Versioning.Keeps.of_succ rfl ?_ rfl
    simp [attemptVersions, settleable.1.2]
  · rw [settled.attempts, cancelAttempts_numbering]
    exact map_updateWhere fun _ _ => rfl
  · refine Versioning.Evolves.leaves stepVersions (settledStep params now)
      settled.affectedStep (fun step => isCurrent_key) (fun step => ⟨rfl, Int.lt_succ _⟩) ?_
    rw [steps]
    exact .trans (.map fun step => LoopReset.keeps (resets step)) (cancelSteps_evolves _ _)

end

/-! ### Commits -/

section

variable {host : AttemptHost σ ε} {call : AttemptCall ε}

section

variable (commits : call.Commits host tables after)
include commits

theorem commits_advances :
    Advances tables after ∧ tables.execution.version < after.execution.version ∧
      Passes call.stepId call.expectedStepVersion tables after := by
  obtain ⟨result, ok⟩ := commits
  cases call with
  | create => exact createAttempt_advances (createAttempt_ok ok)
  | start => exact startAttempt_advances (startAttempt_ok ok)
  | settle => exact settleAttempt_advances (settleAttempt_ok ok)

theorem commits_attempts :
    ∀ expected ∈ call.expectedAttempts, ∃ attempt ∈ tables.attempts,
      attempt.attemptId = expected.1 ∧ attempt.version = expected.2 := by
  obtain ⟨result, ok⟩ := commits
  cases call with
  | create => exact fun _ listed => absurd listed not_mem_nil
  | start =>
    obtain ⟨attempt, listed, queued⟩ := exists_of_rowsAffected (startAttempt_ok ok).affectedAttempt
    simp only [isQueuedAttempt, and_eq_true, decide_eq_true_eq] at queued
    simp only [AttemptCall.expectedAttempts, forall_mem_singleton]
    exact ⟨attempt, listed, queued.1.1.2, queued.1.2⟩
  | settle =>
    obtain ⟨attempt, listed, open'⟩ := exists_of_rowsAffected (settleAttempt_ok ok).affectedAttempt
    simp only [isSettleable, and_eq_true, decide_eq_true_eq] at open'
    simp only [AttemptCall.expectedAttempts, forall_mem_singleton]
    exact ⟨attempt, listed, open'.1.1.1.2, open'.1.1.2⟩

theorem commits_steps :
    ∀ expected ∈ call.expectedSteps, ∃ step ∈ tables.steps,
      step.stepId = expected.1 ∧ step.version = expected.2 := by
  have own := (commits_advances commits).2.2
  obtain ⟨step, listed, id, version, -⟩ := own
  unfold AttemptCall.expectedSteps
  rw [forall_mem_cons]
  refine ⟨⟨step, listed, id, version⟩, ?_⟩
  obtain ⟨result, ok⟩ := commits
  cases call with
  | create | start => exact fun _ listed => absurd listed not_mem_nil
  | settle _ _ _ _ _ _ _ params _ =>
    cases reset : params.loopRepeatReset with
    | none => simp [reset]
    | some loop =>
      simp only [reset, forall_mem_map]
      exact (settleAttempt_ok ok).expected loop reset

theorem commits_current : ¬ call.Stale tables := by
  rintro (⟨expected, carried, gone⟩ | ⟨expected, carried, gone⟩)
  · obtain ⟨step, listed, id, version⟩ := commits_steps commits expected carried
    exact gone step listed id version
  · obtain ⟨attempt, listed, id, version⟩ := commits_attempts commits expected carried
    exact gone attempt listed id version

end

/-! ### Runs -/

theorem perform_advances (host : AttemptHost σ ε) (tables : ExecutionTables σ)
    (call : AttemptCall ε) : Advances tables (call.perform host tables) := by
  obtain same | commits := AttemptCall.perform_eq host tables call
  · rw [same]
    exact .refl tables
  · exact (commits_advances commits).1

theorem performAll_advances (host : AttemptHost σ ε) (calls : List (AttemptCall ε))
    (tables : ExecutionTables σ) :
    Advances tables (calls.foldl (AttemptCall.perform host) tables) := by
  induction calls generalizing tables with
  | nil => exact .refl tables
  | cons call calls ih => exact (perform_advances host tables call).trans (ih _)

theorem perform_of_stale (stale : call.Stale tables) : call.perform host tables = tables := by
  obtain same | commits := AttemptCall.perform_eq host tables call
  · exact same
  · exact absurd stale (commits_current commits)

/-- After a commit its version is stale in every later state. -/
theorem stale_after {next : AttemptCall ε} (commits : call.Commits host tables after)
    (sameStep : next.stepId = call.stepId)
    (sameVersion : next.expectedStepVersion = call.expectedStepVersion)
    (advances : Advances after later) : next.Stale later := by
  obtain ⟨-, -, step, listed, own, version, moved, found, id, grown⟩ := commits_advances commits
  refine .inl ⟨(next.stepId, next.expectedStepVersion), mem_cons_self, fun row member same => ?_⟩
  rw [sameVersion]
  exact advances.steps.stale later.distinctSteps found grown member
    (same.trans (sameStep.trans id.symm))

end

/-! ### The guarantee -/

/-- Calls that create, start and settle attempts, in any order: versions only grow, and they grow
with every change of their row; a call with a stale version commits nothing; of two calls with the
same version of a step at most one commits; attempts are numbered from zero in their order; and an
attempt that has ended does not change. -/
theorem attempt_calls_respect_versions {σ ε : Type} (host : AttemptHost σ ε)
    (start : ExecutionTables σ) (calls : List (AttemptCall ε)) :
    let tables := calls.foldl (AttemptCall.perform host) start
    stepVersions.Evolves start.steps tables.steps ∧
    attemptVersions.Evolves start.attempts tables.attempts ∧
    (tables.execution = start.execution ∨
      start.execution.version < tables.execution.version) ∧
    (∀ (call : AttemptCall ε) (after : ExecutionTables σ), call.Commits host tables after →
      tables.execution.version < after.execution.version) ∧
    (∀ call : AttemptCall ε, call.Stale tables → call.perform host tables = tables ∧
      ∀ after, ¬ call.Commits host tables after) ∧
    (∀ (first second : AttemptCall ε) (between : List (AttemptCall ε)) (after : ExecutionTables σ),
      second.stepId = first.stepId → second.expectedStepVersion = first.expectedStepVersion →
      first.Commits host tables after → ∀ final,
      ¬ second.Commits host (between.foldl (AttemptCall.perform host) after) final) ∧
    (Numbered start → Numbered tables) ∧
    ∀ attempt ∈ start.attempts, attempt.status.isActive = false → attempt ∈ tables.attempts := by
  have advances := performAll_advances host calls start
  refine ⟨advances.steps, advances.attempts, advances.execution, ?_, ?_, ?_, advances.numbers, ?_⟩
  · exact fun call after commits => (commits_advances commits).2.1
  · exact fun call stale =>
      ⟨perform_of_stale stale, fun after commits => commits_current commits stale⟩
  · intro first second between after sameStep sameVersion commits final again
    have later := performAll_advances host between after
    exact commits_current again (stale_after commits sameStep sameVersion later)
  · intro attempt listed ended
    exact advances.attempts.settled listed (by simp [attemptVersions, ended])

end Nomifun.Guarantees.AttemptVersions
