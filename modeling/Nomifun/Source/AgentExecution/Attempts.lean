import Nomifun.Library.Json
import Nomifun.Source.AgentExecution.Leases

/-!
# Attempts at a step

nomifun-db, sqlite_agent_execution.rs:400-413, 1082-1148, 1732-1759, 4272-4570 and 4732-4957,
agent_execution_admission.rs:60-118 and 195-231, models/agent_execution_effect.rs:10-60 and
124-142; 001_canonical_baseline.sql:93-136. A step is worked on in attempts, numbered from zero.
`create_attempt` queues one for an Agent step or starts one for a control step, `start_attempt`
binds a queued one to a session, and `settle_attempt` records an outcome. Each is one transaction:
it commits as a whole or changes nothing.

The tables are those of one execution; ids of other executions never match. What lies in the
tables of sessions, links, requirements and events is `other`, and `AttemptHost` says what the
transactions ask of it.
-/
namespace Nomifun.Source.AgentExecution
open Library.Json Library.RustText Library.Table

/-! ### The tables -/

structure ExecutionAttemptRow where
  attemptId : String
  stepId : String
  attemptNo : Int
  participantId : Option String
  status : ExecutionAttemptStatus
  triggerReason : String
  effectiveConfig : String
  (question error outputSummary : Option String)
  outputFiles : String
  (tokens retryAfter : Option Int)
  runtimeState : Option String
  (startedAt finishedAt : Option Int)
  (version createdAt updatedAt : Int)

/-- The tables keep ids unique, ids are not blank, and no step depends on itself. -/
structure ExecutionTables (σ : Type) where
  execution : ExecutionRow
  participants : List ExecutionParticipant
  steps : List ExecutionStep
  dependencies : List ExecutionStepDependency
  attempts : List ExecutionAttemptRow
  stoppedStepIds : List String
  other : σ
  distinctParticipants : (participants.map (·.participantId)).Nodup
  distinctSteps : (steps.map (·.stepId)).Nodup
  named : ∀ step ∈ steps, (trim step.stepId).isEmpty = false
  proper : ∀ dependency ∈ dependencies, dependency.blockerStepId ≠ dependency.blockedStepId
  distinctAttempts : (attempts.map (·.attemptId)).Nodup

namespace ExecutionTables

variable {σ : Type} (tables : ExecutionTables σ)

/-- What the scheduler reads of the tables. -/
def detail : AgentExecutionDetail where
  execution := tables.execution.toAgentExecution
  participants := tables.participants
  steps := tables.steps
  dependencies := tables.dependencies
  attempts := tables.attempts.map fun attempt => ⟨attempt.attemptId, attempt.stepId, attempt.status⟩
  distinctParticipants := tables.distinctParticipants
  distinctSteps := tables.distinctSteps
  named := tables.named
  proper := tables.proper

def withSteps (detail : AgentExecutionDetail) : ExecutionTables σ :=
  { tables with
    steps := detail.steps
    distinctSteps := detail.distinctSteps
    named := detail.named }

def updateSteps (selects : ExecutionStep → Bool) (change : ExecutionStep → ExecutionStep)
    (keeps : ∀ step, (change step).stepId = step.stepId) : ExecutionTables σ :=
  tables.withSteps (tables.detail.updateSteps selects change keeps)

def updateAttempts (selects : ExecutionAttemptRow → Bool)
    (change : ExecutionAttemptRow → ExecutionAttemptRow)
    (keeps : ∀ attempt, (change attempt).attemptId = attempt.attemptId) : ExecutionTables σ :=
  { tables with
    attempts := updateWhere selects change tables.attempts
    distinctAttempts := by
      rw [map_updateWhere fun attempt _ => keeps attempt]
      exact tables.distinctAttempts }

def attemptsOf (stepId : String) : List ExecutionAttemptRow :=
  tables.attempts.filter (·.stepId = stepId)

/-- `load_step_detail_tx`: a current step and the last of its attempts. -/
def stepDetail (userId stepId : String) : Option (ExecutionStep × Option ExecutionAttemptRow) :=
  if tables.execution.ownedBy userId then
    (tables.detail.activeStep stepId).map fun step =>
      (step, ((tables.attemptsOf stepId).insertionSort fun first second =>
        first.attemptNo ≤ second.attemptNo).getLast?)
  else none

end ExecutionTables

/-! ### Effects on the conversation of an attempt -/

inductive PendingConversationEffect where
  | initialInput (request : Value)
  | stopTurn (operationId targetOperationId : String)
  | decisionInput (operationId content : String) (parentReply : Option Value)
  | steer (operationId targetOperationId content : String)

structure RecoveryReviewBlock where
  (kind operationId receiptState reason : String)

structure AttemptConversationEffects where
  pendingConversationEffects : List PendingConversationEffect
  reviewBlocked : Option RecoveryReviewBlock

/-- The prepared input asks for the same work: the task is unchanged and no selection is lost. -/
def sameInitialInput (original prepared : Value) : Bool :=
  ["content", "origin", "hidden", "channel_platform"].all (fun field =>
      original.member field = prepared.member field) &&
    ["files", "inject_skills"].all fun field =>
      ((original.member field).bind Value.asArray).all fun prior =>
        prior.all fun value =>
          ((prepared.member field).bind Value.asArray).any fun next => value ∈ next

/-! ### The rest of the host -/

structure AgentExecutionActiveTurnGuard where
  conversationId : String
  canonicalOperationId : String

inductive AgentExecutionTerminalTurnGuard where
  | inputRequired (conversationId canonicalOperationId terminalEventId question : String)
  | cancelled (conversationId canonicalOperationId terminalEventId : String)

inductive AgentExecutionAttemptSessionKind where
  | childAttempt | automationLead

structure AttemptHost (σ ε : Type) where
  fetch : FetchOrder
  /-- `AttemptConversationEffects::decode` of a column that is not NULL. -/
  decodeEffects : String → Except (Fault DbError) AttemptConversationEffects
  encodeEffects : AttemptConversationEffects → Except (Fault DbError) String
  /-- `require_autowork_admitted_tx`. -/
  requireAutoworkAdmitted : ExecutionTables σ → Except (Fault DbError) Unit
  /-- `continuation_input_available_tx`. -/
  continuationInputAvailable : ExecutionTables σ → String → Except (Fault DbError) Bool
  /-- Whether an active attempt still holds its share of the capacity. -/
  capacityHeld : ExecutionTables σ → ExecutionAttemptRow → Except (Fault DbError) Bool
  /-- The checks of the session and the link to it. -/
  linkSession : ExecutionTables σ → (stepId attemptId conversationId : String) →
    AgentExecutionAttemptSessionKind → Int → Except (Fault DbError) σ
  verifyTerminalTurn : ExecutionTables σ → (stepId attemptId : String) →
    AgentExecutionTerminalTurnGuard → Except (Fault DbError) Unit
  /-- Whether the turn still owns its session and attempt. -/
  activeTurn : ExecutionTables σ → (stepId attemptId : String) →
    AgentExecutionActiveTurnGuard → Except (Fault DbError) Bool
  /-- The link of an attempt, or of every attempt, becomes inactive. -/
  closeLinks : ExecutionTables σ → Option (String × String) → Int → σ
  /-- `requeue_terminal_attempt_cleanup_tx`. -/
  requeueTerminalAttemptCleanup : ExecutionTables σ → String → Int → σ
  /-- `append_event_tx` of the event of a step and an attempt. -/
  appendEvent : ExecutionTables σ → (stepId attemptId : String) → ε → Int → Except (Fault DbError) σ

/-! ### Updates -/

section

variable {σ ε : Type} (host : AttemptHost σ ε) (now : Int)

/-- An update that must change one step. -/
def changeStep (entity : String) (selects : ExecutionStep → Bool)
    (change : ExecutionStep → ExecutionStep) (keeps : ∀ step, (change step).stepId = step.stepId)
    (tables : ExecutionTables σ) : Except (Fault DbError) (ExecutionTables σ) :=
  if rowsAffected selects tables.steps ≠ 1 then changedConcurrently entity
  else .ok (tables.updateSteps selects change keeps)

/-- An update that must change one attempt. -/
def changeAttempt (selects : ExecutionAttemptRow → Bool)
    (change : ExecutionAttemptRow → ExecutionAttemptRow)
    (keeps : ∀ attempt, (change attempt).attemptId = attempt.attemptId)
    (tables : ExecutionTables σ) : Except (Fault DbError) (ExecutionTables σ) :=
  if rowsAffected selects tables.attempts ≠ 1 then
    changedConcurrently "agent execution attempt"
  else .ok (tables.updateAttempts selects change keeps)

variable (stepId : String) (userId : String) (tables : ExecutionTables σ)

/-- The update of the execution at the end of a transaction. -/
def writeExecution (write : SchedulerWrite) (tables : ExecutionTables σ) :
    Except (Fault DbError) (ExecutionTables σ) :=
  if write.selects userId tables.execution then
    .ok { tables with execution := write.change now tables.execution }
  else changedConcurrently "agent execution"

/-- An INSERT; the table refuses an id that is in use and a reason of blanks. -/
def insertAttempt (row : ExecutionAttemptRow) (tables : ExecutionTables σ) :
    Except (Fault DbError) (ExecutionTables σ) :=
  if fresh : row.attemptId ∉ tables.attempts.map (·.attemptId) then
    if row.triggerReason.toList.all (· = ' ') then .error (.error .query)
    else .ok { tables with
      attempts := tables.attempts ++ [row]
      distinctAttempts := by
        rw [List.map_append]
        refine List.nodup_append.mpr ⟨tables.distinctAttempts, by simp, ?_⟩
        rintro id listed other new rfl
        obtain rfl : id = row.attemptId := by simpa using new
        exact fresh listed }
  else .error (.error .query)

/-- The event of the transaction, and the detail that it returns. -/
def finishAttemptCall (userId stepId attemptId : String) (event : ε)
    (tables : ExecutionTables σ) :
    Except (Fault DbError) (ExecutionTables σ × ExecutionStep × Option ExecutionAttemptRow) := do
  let other ← host.appendEvent tables stepId attemptId event now
  let recorded := { tables with other := other }
  match recorded.stepDetail userId stepId with
  | none => changedConcurrently "agent execution step"
  | some detail => return (recorded, detail)

def requireExistingAutoworkAdmitted : Except (Fault DbError) Unit := do
  if !tables.execution.ownedBy userId then changedConcurrently "Agent Execution admission owner"
  host.requireAutoworkAdmitted tables

def ensureNotStopped : Except (Fault DbError) Unit :=
  if stepId ∈ tables.stoppedStepIds then changedConcurrently "persistently stopped Step" else .ok ()

/-! ### Capacity -/

/-- The active attempts at current Agent steps, with the participant of the step and whether the
attempt holds capacity. -/
def executionReservations :
    Except (Fault DbError) (List (ExecutionAttemptRow × Option String × Bool)) :=
  (tables.attempts.filter (·.status.isActive)).filterMapM fun attempt =>
    match (tables.detail.activeStep attempt.stepId).filter (·.kind = .agent) with
    | none => .ok none
    | some step => do
      let held ← host.capacityHeld tables attempt
      return some (attempt, step.assignedParticipantId, held)

def executionCapacityAvailable (stepId : String) (excludingAttemptId : Option String)
    : Except (Fault DbError) Bool := do
  if !(← host.continuationInputAvailable tables stepId) then return false
  else
    let admitted := (tables.detail.activeStep stepId).bind fun step =>
      if tables.execution.deletedAt.isNone && step.kind = .agent then
        participantFor tables.detail step
      else none
    match admitted with
    | none => dbConflict "exact Agent Execution admission target is missing"
    | some participant =>
      if tables.execution.status = .paused then return false
      else if !tables.execution.status.isDispatching then
        dbConflict "Agent Execution is no longer active for admission"
      else
        let reservations ← executionReservations host tables
        let held := reservations.filter fun reservation =>
          some reservation.1.attemptId ≠ excludingAttemptId && reservation.2.2
        let own := held.filter (·.2.1 = some participant.participantId)
        return held.length < tables.execution.maxParallel &&
          (own.length : Int) < concurrencyLimit participant

end

/-! ### Creating an attempt -/

structure CreateAgentExecutionAttemptParams where
  participantId : Option String
  startImmediately : Bool
  triggerReason : String
  effectiveConfig : String
  retryAfter : Option Int
  runtimeState : Option String

/-- `step_id = ? AND version = ? AND superseded_in_revision IS NULL AND status = 'pending'`. -/
def isDispatchable (stepId : String) (expectedStepVersion : Int) (step : ExecutionStep) : Bool :=
  step.stepId = stepId && step.version = expectedStepVersion && step.isActive &&
    step.status = .pending

def queuedStep (now : Int) (step : ExecutionStep) : ExecutionStep :=
  { step with dispatchAfter := none, version := step.version + 1, updatedAt := now }

def startedStep (now : Int) (step : ExecutionStep) : ExecutionStep :=
  { queuedStep now step with status := .running }

/-- `COALESCE(MAX(attempt_no), -1) + 1`. -/
def nextAttemptNo (attempts : List ExecutionAttemptRow) : Int :=
  attempts.foldl (fun last attempt => max last attempt.attemptNo) (-1) + 1

def newAttempt (now : Int) (stepId attemptId : String) (attemptNo : Int)
    (params : CreateAgentExecutionAttemptParams) : ExecutionAttemptRow where
  attemptId := attemptId
  stepId := stepId
  attemptNo := attemptNo
  participantId := params.participantId
  status := if params.startImmediately then .running else .queued
  triggerReason := params.triggerReason
  effectiveConfig := params.effectiveConfig
  question := none
  error := none
  outputSummary := none
  outputFiles := "[]"
  tokens := none
  retryAfter := params.retryAfter
  runtimeState := params.runtimeState
  startedAt := if params.startImmediately then some now else none
  finishedAt := none
  version := 0
  createdAt := now
  updatedAt := now

section

variable {σ ε : Type} (host : AttemptHost σ ε) (now : Int)

/-- A control step starts at once; an Agent step stays pending while its attempt is queued. -/
def dispatchStep (step : ExecutionStep) (expectedStepVersion : Int)
    (params : CreateAgentExecutionAttemptParams) (tables : ExecutionTables σ) :
    Except (Fault DbError) (ExecutionTables σ) :=
  let selects := isDispatchable step.stepId expectedStepVersion
  if params.startImmediately then
    if step.kind = .agent || params.participantId.isSome then
      dbConflict "only a control step without a participant may start immediately"
    else changeStep "agent execution step" selects (startedStep now) (fun _ => rfl) tables
  else if step.kind ≠ .agent || params.participantId ≠ step.assignedParticipantId then
    dbConflict "an Agent step attempt must queue with its active assigned participant"
  else changeStep "agent execution step" selects (queuedStep now) (fun _ => rfl) tables

def requireParticipant (participantId : Option String) (tables : ExecutionTables σ) :
    Except (Fault DbError) Unit :=
  match participantId with
  | none => .ok ()
  | some id =>
    if tables.detail.activeParticipants.all (·.participantId ≠ id) then
      dbConflict ("Agent Execution participant '" ++ id ++ "' does not exist")
    else .ok ()

/-- `attemptId` is the id that is drawn for the attempt. -/
def createAttempt (userId stepId : String) (expectedStepVersion : Int) (token : Option String)
    (params : CreateAgentExecutionAttemptParams) (attemptId : String) (event : ε)
    (tables : ExecutionTables σ) :
    Except (Fault DbError) (ExecutionTables σ × ExecutionStep × Option ExecutionAttemptRow) := do
  fenceSchedulerWrite token now tables.execution
  requireExistingAutoworkAdmitted host userId tables
  ensureNotStopped stepId tables
  let current := if tables.execution.ownedBy userId && tables.execution.status.isDispatching
    then tables.steps.find? (isDispatchable stepId expectedStepVersion) else none
  match current with
  | none => changedConcurrently "agent execution step"
  | some step =>
    let available ← (if step.kind = .agent
      then executionCapacityAvailable host tables stepId none else .ok true)
    if !available then
      changedConcurrently "Agent Execution admission is waiting for its existing reservations"
    let dispatched ← dispatchStep now step expectedStepVersion params tables
    let attemptNo := nextAttemptNo (dispatched.attemptsOf stepId)
    requireParticipant params.participantId dispatched
    let inserted ← insertAttempt (newAttempt now stepId attemptId attemptNo params) dispatched
    let written ← writeExecution now userId .changeAttempt inserted
    finishAttemptCall host now userId stepId attemptId event written

/-! ### Starting an attempt -/

def isQueuedAttempt (stepId attemptId : String) (expectedVersion : Int)
    (attempt : ExecutionAttemptRow) : Bool :=
  attempt.stepId = stepId && attempt.attemptId = attemptId && attempt.version = expectedVersion &&
    attempt.status = .queued

def startedAttempt (now : Int) (runtimeState : Option String) (attempt : ExecutionAttemptRow) :
    ExecutionAttemptRow :=
  { attempt with
    status := .running
    startedAt := some now
    runtimeState := runtimeState
    version := attempt.version + 1
    updatedAt := now }

/-- The input that the attempt was queued with is replaced by its prepared form. -/
def prepareInitialInput (effects : AttemptConversationEffects)
    (input : PendingConversationEffect) :
    Except (Fault DbError) AttemptConversationEffects := do
  let invalid := "exact initial Attempt input outbox"
  match input with
  | .initialInput prepared =>
    if prepared.asObject.isNone || effects.pendingConversationEffects.any (fun prior =>
          !(prior matches .initialInput _)) ||
        effects.pendingConversationEffects.length > 1 || effects.reviewBlocked.isSome then
      changedConcurrently invalid
    match effects.pendingConversationEffects with
    | [.initialInput original] =>
      if !sameInitialInput original prepared then
        changedConcurrently "prepared input changed the original task or removed frozen selections"
      return { effects with pendingConversationEffects := [input] }
    | _ => changedConcurrently "original queued input is required before preparing its Session"
  | .stopTurn .. | .decisionInput .. | .steer .. => changedConcurrently invalid

/-- The runtime state that the attempt starts with. -/
def initialRuntimeState (attempt : ExecutionAttemptRow)
    (initialInput : Option PendingConversationEffect) :
    Except (Fault DbError) (Option String) := do
  let effects ← match attempt.runtimeState with
    | none => .ok ⟨[], none⟩
    | some raw => host.decodeEffects raw
  match initialInput with
  | none => return attempt.runtimeState
  | some input =>
    let prepared ← prepareInitialInput effects input
    return some (← host.encodeEffects prepared)

def startAttempt (userId stepId : String) (expectedStepVersion : Int) (attemptId : String)
    (expectedAttemptVersion : Int) (conversationId : String)
    (sessionKind : AgentExecutionAttemptSessionKind) (token : Option String)
    (initialInput : Option PendingConversationEffect) (event : ε) (tables : ExecutionTables σ) :
    Except (Fault DbError) (ExecutionTables σ × ExecutionStep × Option ExecutionAttemptRow) := do
  fenceSchedulerWrite token now tables.execution
  requireExistingAutoworkAdmitted host userId tables
  ensureNotStopped stepId tables
  let queued := isQueuedAttempt stepId attemptId expectedAttemptVersion
  match tables.attempts.find? queued with
  | none => changedConcurrently "queued Attempt initial input"
  | some attempt =>
    let runtimeState ← initialRuntimeState host attempt initialInput
    let dispatches (step : ExecutionStep) : Bool :=
      isDispatchable stepId expectedStepVersion step &&
      tables.execution.ownedBy userId && tables.execution.status.isDispatching
    let dispatched ← changeStep "agent execution step" dispatches (startedStep now) (fun _ => rfl)
      tables
    let started ← changeAttempt queued (startedAttempt now runtimeState) (fun _ => rfl) dispatched
    let other ← host.linkSession started stepId attemptId conversationId sessionKind now
    let written ← writeExecution now userId .changeAttempt { started with other := other }
    finishAttemptCall host now userId stepId attemptId event written

end

/-! ### Settling an attempt -/

/-- An outer `none` leaves a column alone. -/
structure SettleAgentExecutionAttemptParams where
  expectedActiveSessionTurn : Option AgentExecutionActiveTurnGuard
  expectedTerminalTurn : Option AgentExecutionTerminalTurnGuard
  attemptStatus : ExecutionAttemptStatus
  stepStatus : ExecutionStepStatus
  executionStatus : Option AgentExecutionStatus
  (question error outputSummary : Option (Option String))
  outputFiles : Option String
  (tokens retryAfter : Option (Option Int))
  runtimeState : Option (Option String)
  (startedAt finishedAt : Option (Option Int))
  loopRepeatReset : Option LoopRepeatResetParams

/-- The WHERE clause: a queued attempt can only be cancelled. -/
def isSettleable (stepId attemptId : String) (expectedVersion : Int)
    (status : ExecutionAttemptStatus) (attempt : ExecutionAttemptRow) : Bool :=
  attempt.stepId = stepId && attempt.attemptId = attemptId && attempt.version = expectedVersion &&
    attempt.status.isActive && (attempt.status ≠ .queued || status = .cancelled)

/-- `step_id = ? AND version = ? AND superseded_in_revision IS NULL`. -/
def isCurrent (stepId : String) (expectedStepVersion : Int) (step : ExecutionStep) : Bool :=
  step.stepId = stepId && step.version = expectedStepVersion && step.isActive

section

variable (params : SettleAgentExecutionAttemptParams) (now : Int) (step : ExecutionStep)

def settledAttempt (attempt : ExecutionAttemptRow) : ExecutionAttemptRow :=
  let waiting : Bool := params.attemptStatus = .waitingInput
  let terminal := !params.attemptStatus.isActive
  { attempt with
    status := params.attemptStatus
    question := if params.question.isSome || !waiting
      then (if waiting then params.question.join else none) else attempt.question
    error := params.error.getD attempt.error
    outputSummary := params.outputSummary.getD attempt.outputSummary
    outputFiles := params.outputFiles.getD attempt.outputFiles
    tokens := params.tokens.getD attempt.tokens
    retryAfter := params.retryAfter.getD attempt.retryAfter
    runtimeState := params.runtimeState.getD attempt.runtimeState
    startedAt := params.startedAt.getD attempt.startedAt
    finishedAt := if params.finishedAt.isSome || terminal
      then params.finishedAt.join.or (if terminal then some now else none) else attempt.finishedAt
    version := attempt.version + 1
    updatedAt := now }

def settledStep : ExecutionStep :=
  { step with
    status := params.stepStatus
    dispatchAfter := params.retryAfter.getD step.dispatchAfter
    version := step.version + 1
    updatedAt := now }

def cancelledStep : ExecutionStep :=
  { step with
    status := .cancelled
    dispatchAfter := none
    version := step.version + 1
    updatedAt := now }

end

def cancelledAttempt (attemptError : Option String) (now : Int) (attempt : ExecutionAttemptRow) :
    ExecutionAttemptRow :=
  { attempt with
    status := .cancelled
    question := none
    error := attempt.error.or attemptError
    finishedAt := some now
    version := attempt.version + 1
    updatedAt := now }

variable {σ ε : Type} (host : AttemptHost σ ε) (now : Int)

def terminateUnfinishedExecutionChildren (attemptError : Option String)
    (tables : ExecutionTables σ) : ExecutionTables σ :=
  let unfinished (step : ExecutionStep) : Bool := step.isActive && !step.status.isTerminal
  let stopped := (tables.steps.filter unfinished).map (·.stepId)
  let cancelled := tables.updateSteps unfinished (cancelledStep now) fun _ => rfl
  let other := stopped.foldl (fun other stepId =>
    host.requeueTerminalAttemptCleanup { cancelled with other := other } stepId now) cancelled.other
  let settled := { cancelled with other := other }.updateAttempts (·.status.isActive)
    (cancelledAttempt attemptError now) fun _ => rfl
  { settled with other := host.closeLinks settled none now }

section

variable (stepId attemptId : String) (params : SettleAgentExecutionAttemptParams)
  (tables : ExecutionTables σ)

/-- What a settlement asks of the turn that it settles. -/
def checkSourceTurn : Except (Fault DbError) Unit := do
  if params.expectedActiveSessionTurn.isSome && params.expectedTerminalTurn.isSome then
    changedConcurrently "mutually exclusive canonical source Turn guards"
  match params.expectedTerminalTurn with
  | none => .ok ()
  | some source =>
    match source with
    | .inputRequired _ _ _ question =>
      if params.attemptStatus ≠ .waitingInput || params.stepStatus ≠ .waitingInput ||
          params.executionStatus ≠ some .waitingInput || params.question.join ≠ some question then
        changedConcurrently "canonical user input settlement"
    | .cancelled _ _ _ =>
      if params.attemptStatus ≠ .cancelled || params.stepStatus ≠ .cancelled ||
          params.executionStatus.isSome then
        changedConcurrently "canonical cancellation settlement"
    host.verifyTerminalTurn tables stepId attemptId source
  match params.expectedActiveSessionTurn with
  | none => .ok ()
  | some source =>
    let invalid := "Native Agent decision source Turn"
    if params.attemptStatus ≠ .waitingInput || params.stepStatus ≠ .waitingInput ||
        (trim source.conversationId).isEmpty || (trim source.canonicalOperationId).isEmpty then
      changedConcurrently invalid
    if !(← host.activeTurn tables stepId attemptId source) then changedConcurrently invalid

/-- The links and the cleanup of what a settlement finished. -/
def closeSettled : ExecutionTables σ :=
  let ended := if params.executionStatus = some .cancelled
    then terminateUnfinishedExecutionChildren host now none tables else tables
  let unlinked := if params.attemptStatus.isActive then ended
    else { ended with other := host.closeLinks ended (some (stepId, attemptId)) now }
  if params.stepStatus.isTerminal
    then { unlinked with other := host.requeueTerminalAttemptCleanup unlinked stepId now }
    else unlinked

end

def repeatLoop (stepId : String) (reset : Option LoopRepeatResetParams)
    (tables : ExecutionTables σ) : Except (Fault DbError) (ExecutionTables σ) :=
  match reset with
  | none => .ok tables
  | some reset => do
    let rows ← applyLoopRepeatReset host.fetch ⟨tables.detail, tables.stoppedStepIds⟩ stepId reset
      now
    return tables.withSteps rows.detail

def settleAttempt (userId stepId : String) (expectedStepVersion : Int) (attemptId : String)
    (expectedAttemptVersion : Int) (token : Option String)
    (params : SettleAgentExecutionAttemptParams) (event : ε) (tables : ExecutionTables σ) :
    Except (Fault DbError) (ExecutionTables σ × ExecutionStep × Option ExecutionAttemptRow) := do
  if params.attemptStatus = .queued then
    dbConflict "a settled attempt cannot transition back to queued"
  if params.loopRepeatReset.isSome && (params.attemptStatus ≠ .completed ||
      params.stepStatus ≠ .pending || params.executionStatus.isSome) then
    dbConflict ("a Loop repeat must complete its control attempt, reset the controller to pending, "
      ++ "and keep the execution running")
  fenceSchedulerWrite token now tables.execution
  checkSourceTurn host stepId attemptId params tables
  let settled ← changeAttempt
    (isSettleable stepId attemptId expectedAttemptVersion params.attemptStatus)
    (settledAttempt params now) (fun _ => rfl) tables
  let current (step : ExecutionStep) : Bool :=
    isCurrent stepId expectedStepVersion step && tables.execution.ownedBy userId
  let stepped ← changeStep "agent execution step" current (settledStep params now) (fun _ => rfl)
    settled
  let reset ← repeatLoop host now stepId params.loopRepeatReset stepped
  let written ← writeExecution now userId (.settleAttempt params.executionStatus) reset
  finishAttemptCall host now userId stepId attemptId event
    (closeSettled host now stepId attemptId params written)

end Nomifun.Source.AgentExecution
