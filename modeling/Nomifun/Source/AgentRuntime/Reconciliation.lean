import Nomifun.Source.AgentRuntime.Events

/-!
# Reconciliation of an interrupted tail

nomifun-agent-runtime, reconciliation.rs:21-397, with the contracts given. The events after
a checkpoint are replayed over it; then every call that the last kept batch left without a
result is settled from the owners' outcomes, and the checkpoint to resume from is the state
reached. The request of a recorded input handoff is kept by its identity only.
-/
namespace Nomifun.Source.AgentRuntime
open Library Library.MachineInt Library.Json Source.AgentContracts

structure AgentReconciledOutcome where
  result : AgentToolResult
  source : AgentReconciliationSource
  evidenceEventId : Option String
  ownerOperationId : Option OperationId

structure AgentReconciledResume where
  checkpoint : AgentExecutionCheckpoint
  observations : List AgentEngineEvent

abbrev AgentReconciliationContracts := List ((CapabilityId × ActionId) × AgentEffectClass)

/-- The arguments of a reconciliation. -/
structure ReconciliationInput where
  checkpoint : AgentExecutionCheckpoint
  checkpointRevision : Nat
  tail : List AgentEngineEvent
  externallyDispatched : StringSet
  outcomes : StringMap AgentReconciledOutcome
  grant : NativeBudgetIncrease
  contracts : AgentReconciliationContracts

/-- What the loop knows of calls and batches. -/
structure CallTrack where
  step : Nat
  proposed : StringSet
  (order journal : List ToolCallId)
  calls : StringMap (Nat × ChatToolCall)
  (completed admitted currentResults : StringSet)
  discarded : Bool
  inputRequests : StringSet

namespace CallTrack

def start (modelSteps : Nat) (externallyDispatched : StringSet) : CallTrack :=
  ⟨modelSteps, ∅, [], [], ∅, ∅, externallyDispatched, ∅, false, ∅⟩

variable (t : CallTrack) (current : Nat) (outcomes : StringMap AgentReconciledOutcome)
  (id : ToolCallId)

/-- A new batch. -/
def startStep : CallTrack :=
  { t with step := current, proposed := ∅, order := [], currentResults := ∅, discarded := false }

/-- A call joins the batch once. -/
def propose : CallTrack :=
  if id ∈ t.proposed then t
  else { t with
    proposed := insert id t.proposed, order := t.order ++ [id], journal := t.journal ++ [id] }

/-- A completed call. Step 0 stands for a control of the host, outside any batch. -/
def complete (call : ChatToolCall) : CallTrack :=
  let t := { t with calls := t.calls.insert call.callId (current, call) }
  if current = 0 then { t with journal := t.journal ++ [call.callId] } else t.propose call.callId

def admitCall : CallTrack :=
  { t with admitted := insert id t.admitted }

def settle : CallTrack :=
  { t with
    completed := insert id t.completed
    currentResults := if current > 0 then insert id t.currentResults else t.currentResults }

def discard : CallTrack := { t with discarded := true }

def requestInput : CallTrack :=
  { t with inputRequests := insert id t.inputRequests }

/-- A child message of the last batch that has neither a result nor an outcome. -/
def hasUnpairedMessage : Bool :=
  !t.discarded && t.calls.toList.any fun entry =>
    entry.2.1 = t.step && entry.2.2.name = messageTool && entry.1 ∉ t.completed &&
      entry.1 ∉ outcomes

/-- The call is known to an owner. -/
def isHeld : Bool :=
  id ∈ t.admitted || id ∈ t.inputRequests ||
    ((t.calls[id]?).any (·.2.name = messageTool) && id ∈ outcomes)

/-- The last batch has had an effect, and stays in the history. -/
def keepsBatch : Bool :=
  t.currentResults ≠ ∅ || decide (∃ id ∈ t.proposed, t.isHeld outcomes id = true)

def hasIncompleteCall : Bool := decide (∃ id ∈ t.proposed, id ∉ t.calls)

end CallTrack

structure Reconciling where
  next : AgentExecutionCheckpoint
  track : CallTrack
  newResults : Nat
  inputs : Finset OperationId
  planRevisionAtStep : Nat
  (protocolVerdicts correctionSources : Finset Nat)
  liveWaitUnresolved : Bool
  phaseCorrectionSteps : Finset Nat
  delegationCalls : StringSet
  identities : StringMap (CapabilityId × ActionId)
  commands : CommandTracker
  lastPlan : AgentPlan
  lastWork : AgentWorkStatus

namespace Reconciling

variable (platform : Platform) (input : ReconciliationInput)

def start : Reconciling where
  next := input.checkpoint
  track := .start input.checkpoint.modelSteps input.externallyDispatched
  newResults := 0
  inputs := input.checkpoint.appliedSteeringReceipts.toFinset
  planRevisionAtStep := input.checkpoint.plan.revision
  protocolVerdicts := ∅
  correctionSources := ∅
  liveWaitUnresolved := false
  phaseCorrectionSteps := ∅
  delegationCalls := ∅
  identities := ∅
  commands := ∅
  lastPlan := input.checkpoint.plan
  lastWork := input.checkpoint.work

def invalid {α : Type} (message : String) : EngineResult α :=
  replayContract ("resume reconciliation: " ++ message)

def orInvalid {α : Type} (value : Option α) (message : String) : EngineResult α :=
  match value with
  | some a => .ok a
  | none => invalid message

/-! ### Model batches -/

variable (s : Reconciling) (keepBatch : Bool) (work : AgentWorkStatus)
  (next : AgentExecutionCheckpoint) (current : Nat) (id : ToolCallId) (call : ChatToolCall)
  (result : AgentToolResult)

def modelStepStarted (correctionSource : Option Nat) : EngineResult Reconciling := do
  if s.next.pendingUserInput.isSome then
    invalid "pending input handoff crossed a model boundary without accepted input"
  if s.next.awaitingChildren.isSome then
    invalid "pending child wait crossed a model boundary without its exact owner wake"
  let expected ← orInvalid (checkedAdd u16Max s.track.step 1) "model counter exhausted"
  if current ≠ expected || (!s.track.discarded && s.track.proposed ≠ ∅ &&
      s.track.proposed ≠ s.track.currentResults) then
    invalid "a model step crossed an unresolved previous batch"
  if correctionSource.any fun source => source ≥ current ||
      (source > input.checkpoint.modelSteps && source ∉ s.correctionSources) then
    invalid "correction source has no committed continuing rejection"
  return { s with
    track := s.track.startStep current, planRevisionAtStep := s.next.plan.revision }

def modelResponseValidated : EngineResult Reconciling := do
  if current ≠ s.track.step || s.track.discarded || s.track.currentResults ≠ ∅ ||
      decide (∃ id ∈ s.track.proposed, id ∈ s.track.admitted ∨ id ∉ s.track.calls) ||
      current ∈ s.protocolVerdicts then
    invalid "response validation contradicts its unadmitted proposals"
  return { s with protocolVerdicts := insert current s.protocolVerdicts, correctionSources := ∅ }

def toolCallDelta : EngineResult Reconciling := do
  if current ≠ s.track.step || s.track.discarded then
    invalid "proposal is outside its model batch"
  return { s with track := s.track.propose id }

def toolCallCompleted : EngineResult Reconciling := do
  if current > 0 && (current ≠ s.track.step || s.track.discarded) then
    invalid "completed proposal has no model batch"
  if call.callId ∈ s.track.calls then invalid "duplicate completed call identity"
  return { s with track := s.track.complete current call }

section

variable (capabilityId : CapabilityId) (actionId : ActionId) (request : AgentUserInputRequest)
  (outcome : AgentReconciledOutcome) (applied : List AgentSteeringInput)

/-- The actions that delegate work. -/
def isDelegation : Bool :=
  capabilityId = "agent.collaboration" && (actionId = "agent/delegate" || actionId = "agent/fork")

def toolStarted : EngineResult Reconciling := do
  if (s.track.calls[id]?).map Prod.fst ≠ some current then
    invalid "tool admission has no exact completed proposal"
  if (input.contracts.lookup (capabilityId, actionId)).isNone then
    invalid "admitted tool has no exact frozen observation contract"
  return { s with
    track := s.track.admitCall id
    identities := s.identities.insert id (capabilityId, actionId)
    delegationCalls := if isDelegation capabilityId actionId then insert id s.delegationCalls
      else s.delegationCalls }

/-- A batch withdrawn before any of its calls was admitted. -/
def discardBatch (ids : List ToolCallId) : EngineResult Reconciling := do
  if current ≠ s.track.step || s.track.currentResults ≠ ∅ ||
      decide (∃ id ∈ s.track.proposed, id ∈ s.track.admitted) ||
      s.track.proposed ≠ ids.toFinset then
    invalid "discard would hide an admitted effect"
  return { s with track := s.track.discard, correctionSources := ∅ }

def modelResponseRejected (rejected : ModelResponseRejection) : EngineResult Reconciling := do
  let s ← s.discardBatch rejected.step rejected.discardedToolCallIds
  rejected.validate
  if rejected.step ∈ s.protocolVerdicts then invalid "duplicate response verdict"
  return { s with
    protocolVerdicts := insert rejected.step s.protocolVerdicts
    correctionSources := if rejected.continuation then {rejected.step} else ∅ }

/-! ### Results -/

/-- The call a result answers, if it was completed at that step and has no result yet. -/
def answered (refused : Bool) (missing mismatch : String)
    : EngineResult ChatToolCall := do
  let recorded ← orInvalid s.track.calls[result.callId]? missing
  if recorded.1 ≠ current || refused || result.callId ∈ s.track.completed then invalid mismatch
  result.validateFor platform result.callId
  return recorded.2

/-- Feedback that a phase restriction held the call back. One correction is spent per
rejected batch. -/
def phaseCorrected : EngineResult Reconciling := do
  let _ ← s.answered platform current result (!result.isError || result.callId ∈ s.track.admitted)
    "phase correction has no proposal" "phase correction differs from its unadmitted feedback"
  let s := { s with track := s.track.settle current result.callId }
  if current = 0 then return s
  return { s with
    newResults := saturatingAdd u32Max s.newResults 1
    phaseCorrectionSteps := insert current s.phaseCorrectionSteps
    next := if current ∈ s.phaseCorrectionSteps then s.next
      else { s.next with
        controlRejections := s.next.controlRejections.observePhaseCorrection } }

/-- What a successful wait leaves the turn waiting for. -/
def awaited : EngineResult (Option AgentChildrenWait) :=
  if call.name = waitTool && !result.isError then do
    let wait ← fromWaitCall platform call
    return some (← s.next.collaboration.normalizeWait platform wait)
  else .ok s.next.awaitingChildren

/-- `observe_work`. -/
def observeWork (attempted : Bool) : EngineResult (AgentWorkStatus × CommandTracker) :=
  if attempted then do
    let identity ← orReplay s.identities[call.callId]?
      "dispatched result has no canonical tool identity"
    let effect ← orReplay (input.contracts.lookup identity)
      "dispatched result lacks its frozen effect contract"
    return work.observeContract platform identity.1 identity.2 effect call result s.commands
  else .ok (if result.isError then work.observeDeferred else work, s.commands)

/-- An attested outcome may have changed the workspace in any way. -/
def attested : AgentWorkStatus :=
  if result.isError then work.observeChildWorkspaceChange.observeDeferred
  else work.observeChildWorkspaceChange

/-- What a result says about the children and about the work done so far. An `accounted`
result was counted before. -/
def observeResult (current : Nat) (call : ChatToolCall) (result : AgentToolResult)
    (source : Option AgentReconciliationSource) (accounted : Bool) :
    EngineResult (AgentExecutionCheckpoint × CommandTracker) := do
  let observed ← s.next.collaboration.observeToolResult platform call result
    (id ∈ s.delegationCalls)
  let work := if observed.2 then s.next.work.observeChildWorkspaceChange else s.next.work
  let next := { s.next with collaboration := observed.1, work := work }
  if current = 0 then return (next, s.commands)
  if source = some .ownerAttestation then
    return ({ next with work := attested work result }, s.commands)
  if accounted then return (next, s.commands)
  let tracked ← s.observeWork platform input work call result
    (id ∈ s.track.admitted && source ≠ some .notDispatched)
  return ({ next with work := tracked.1 }, tracked.2)

def onSegments
    (update : AgentExecutionSegmentState → EngineResult AgentExecutionSegmentState) :
    Option AgentExecutionSegmentState → EngineResult (Option AgentExecutionSegmentState)
  | none => .ok none
  | some segments => (update segments).map some

/-- The plan, and for a call that ran at a model step the segments and the review. -/
def applyResult (notApplied ran : Bool) : EngineResult AgentExecutionCheckpoint := do
  let next := { next with plan := (next.plan.applyExactOutcome platform call result notApplied).1 }
  if !ran then return next
  let segments ← onSegments (·.observe platform call result) next.segments
  return { next with
    segments := segments, completionReview := next.completionReview.resumeExecution }

/-- A repeated plan is no progress. -/
def observeControl : AgentExecutionCheckpoint :=
  let changed := if call.name = updatePlanTool then next.plan.revision ≠ s.planRevisionAtStep
    else true
  { next with controlRejections := next.controlRejections.observe call.name result changed }

/-- A recorded result. One that an earlier reconciliation recorded has a source. -/
def resultObserved (source : Option AgentReconciliationSource)
    : EngineResult Reconciling := do
  let id := result.callId
  let call ← s.answered platform current result false "result has no proposal"
    "duplicate or mismatched result"
  let awaiting ← s.awaited platform call result
  let observed ← observeResult platform input
    { s with next := { s.next with awaitingChildren := awaiting } } id current call result source
    false
  if id ∈ s.track.inputRequests && result.isError then
    invalid "accepted native input request has a contradicting failed result"
  let next ← applyResult platform observed.1 call result
    (id ∉ s.track.admitted || provenNonstart platform call result)
    (current > 0 && id ∈ s.track.admitted)
  return { s with
    next := if current > 0 then s.observeControl next call result else next
    commands := observed.2
    newResults := if current > 0 then saturatingAdd u32Max s.newResults 1 else s.newResults
    track := s.track.settle current id }

/-! ### Inputs, waits and reviews -/

def applyInput (steering : AgentSteeringInput) : EngineResult Reconciling := do
  steering.validate platform
  let id : OperationId := steering.receiptOperationId
  if id ∈ s.inputs then invalid "accepted input was applied twice"
  return { s with
    inputs := insert id s.inputs
    next := { s.next with appliedSteeringReceipts := s.next.appliedSteeringReceipts ++ [id] } }

/-- Accepted input answers a pending question and renews the correction budget. -/
def acceptInputs : Reconciling :=
  if applied = [] then { s with correctionSources := ∅ }
  else { s with
    correctionSources := ∅
    next := { s.next with
      pendingUserInput := none, controlRejections := s.next.controlRejections.reset } }

/-- One for the original input of the turn. -/
def inputRevision : Nat :=
  1 + next.appliedSteeringReceipts.length

def steeringInputs : EngineResult Reconciling := do
  let s ← applied.foldlM (applyInput platform) (s.acceptInputs applied)
  return { s with next := { s.next with
    completionReview := s.next.completionReview.alignInputs (inputRevision s.next) } }

def userInputRequested : EngineResult Reconciling := do
  let id := request.requestId
  let recorded ← orInvalid s.track.calls[id]? "input handoff has no exact proposal"
  if s.next.pendingUserInput.isSome || current ≠ s.track.step || recorded.1 ≠ current ||
      AgentUserInputRequest.fromCall recorded.2 ≠ .ok request || s.track.proposed.card ≠ 1 ||
      id ∈ s.track.admitted then
    invalid "input handoff differs from its native source question"
  return { s with
    track := s.track.requestInput id, next := { s.next with pendingUserInput := some request } }

def turnWaiting : EngineResult Reconciling := do
  if s.next.work.runningProcesses = ∅ then invalid "live wait has no original owned processes"
  return { s with liveWaitUnresolved := true }

/-- The wait is the accepted one, or the one that the progress implies. -/
def isAcceptedWait (request : AgentChildrenWait) : EngineResult Bool :=
  if s.next.awaitingChildren = some request then .ok true
  else do return (← s.next.collaboration.wait platform) = some request

def awaitingChildren (s : Reconciling) (modelSteps : Nat) (request : AgentChildrenWait) :
    EngineResult Reconciling := do
  request.validate
  if modelSteps ≠ s.track.step then invalid "child wait differs from its exact accepted control"
  let accepted ← s.isAcceptedWait platform request
  if !accepted then invalid "child wait differs from its exact accepted control"
  return { s with next := { s.next with awaitingChildren := some request } }

def childrenWaitResolved (modelSteps : Nat) (cursor : String) : EngineResult Reconciling := do
  if modelSteps ≠ s.track.step then invalid "child wake has no exact pending child wait"
  let wait ← orInvalid s.next.awaitingChildren "child wake has no exact pending child wait"
  wait.validateWake platform cursor
  validateWakeCursor cursor
  let collaboration ← s.next.collaboration.recordWake platform cursor
  return { s with
    next := { s.next with collaboration := collaboration, awaitingChildren := none } }

def ownedProcessObserved (observation : AgentOwnedProcessObservation) :
    EngineResult Reconciling := do
  observation.validate platform
  let work ← s.next.work.observeOwnedProcess platform observation
  let segments ← onSegments (·.observeOwner platform observation) s.next.segments
  return { s with next := { s.next with work := work, segments := segments } }

def endIntentReview (s : Reconciling) : EngineResult Reconciling := do
  if s.next.completionReview.isReportOnly then
    invalid "ending intent cannot reopen a locked completion review"
  return { s with next := { s.next with
    completionReview := ⟨.endIntentReview, inputRevision s.next⟩ } }

def turnInputRequired : EngineResult Reconciling := do
  if s.next.pendingUserInput ≠ some request then
    invalid "terminal input disposition has no pending source question"
  return s

/-- One event of the tail. -/
def step : AgentEngineEvent → EngineResult Reconciling
  | .collaborationInherited _ =>
    invalid "collaboration inheritance must precede the original Turn entry checkpoint"
  | .modelStepStarted current _ correctionSource =>
    s.modelStepStarted input current correctionSource
  | .modelResponseValidated current => s.modelResponseValidated current
  | .toolCallDelta current id _ _ => if current > 0 then s.toolCallDelta current id else .ok s
  | .toolCallCompleted current call => s.toolCallCompleted current call
  | .toolStarted current id capabilityId actionId =>
    s.toolStarted input current id capabilityId actionId
  | .toolCompleted current result (some .phaseRestricted) =>
    s.phaseCorrected platform current result
  | .toolCompleted current result _ => s.resultObserved platform input current result none
  | .toolOutcomeReconciled current result source _ _ =>
    s.resultObserved platform input current result (some source)
  | .modelOutputTruncated current ids _ => s.discardBatch current ids
  | .modelResponseRejected rejected => s.modelResponseRejected rejected
  | .voiceModelStepSuperseded current ids => s.discardBatch current ids
  | .steeringInputs applied => s.steeringInputs platform applied
  | .userInputRequested current request => s.userInputRequested current request
  | .turnWaiting _ => s.turnWaiting
  | .turnWaitResolved _ => .ok { s with liveWaitUnresolved := false }
  | .awaitingChildren modelSteps request => s.awaitingChildren platform modelSteps request
  | .childrenWaitResolved modelSteps cursor => s.childrenWaitResolved platform modelSteps cursor
  | .ownedProcessObserved _ observation => s.ownedProcessObserved platform observation
  | .endIntentReview _ => s.endIntentReview
  | .completionReview _ => .ok { s with next := { s.next with
      completionReview := s.next.completionReview.enterReportOnly (inputRevision s.next) } }
  | .turnInputRequired _ request => s.turnInputRequired request
  | .planUpdated plan => .ok { s with next := { s.next with plan := plan }, lastPlan := plan }
  | .workStatus status => .ok { s with next := { s.next with work := status }, lastWork := status }
  | .patchRecoveryUpdated state => .ok { s with next := { s.next with patchRecovery := state } }
  -- The host proves separately that the turn is not terminal: a terminal proposal can
  -- precede a failed terminal commit.
  | .turnCompleted _ | .turnCancelled _ | .turnFailed _ => .ok s
  | .turnStarted _ _ | .executionCheckpointSaved _ _ _ =>
    invalid "a different root or checkpoint cannot be resumed"
  | .executionTailReconciled _ _ _ _ _ _ | .other => .ok s

/-! ### Outcomes of the calls left open -/

/-- `user_input_request::ACK`. -/
def inputRequestAck : String :=
  "Input request recorded. This is a pending input handoff, not a user answer or " ++
    "task-completion receipt."

/-- The outcome of an open call: an accepted question is acknowledged, an owner speaks for
its call, and what was never admitted was not dispatched. -/
def outcomeFor : EngineResult AgentReconciledOutcome :=
  if id ∈ s.track.inputRequests then
    .ok ⟨.text id inputRequestAck false, .nativeControlReceipt, none, none⟩
  else match input.outcomes[id]? with
  | some outcome => .ok outcome
  | none =>
    if call.name = messageTool then
      invalid ("the original child-message owner has no reconciled command receipt; absence of " ++
        "a Kernel admission cannot prove this internal control was not applied")
    else if id ∉ s.track.admitted then
      .ok ⟨.text id ("Not dispatched: the paused execution never admitted this proposal. " ++
        "Reconsider under the current task before any new call.") true, .notDispatched, none, none⟩
    else invalid "admitted invocation has no owner-backed reconciliation outcome"

/-- The command owner stands behind the outcome of a child message. -/
def hasMessageReceipt : Bool :=
  outcome.source ∈ [.nativeControlReceipt, .ownerReceipt, .ownerAttestation] &&
    outcome.evidenceEventId.any (!·.isEmpty) && outcome.ownerOperationId.any (!·.isEmpty)

def isNotCommitted (proof : Value) : Bool :=
  proof.get "state" == .string "not_executed" && proof.get "control_applied" == .bool false &&
    proof.get "code" == .string "CHILD_MESSAGE_NOT_COMMITTED"

/-- The checks of a child message's outcome. -/
def validateMessageOutcome : EngineResult Unit :=
  if call.name ≠ messageTool then .ok ()
  else do
    if !hasMessageReceipt outcome then
      invalid ("a child message requires the exact command owner's receipt or fenced " ++
        "attestation; NotDispatched is not an internal-control outcome proof")
    if !outcome.result.isError then return ()
    let proof ← orInvalid (outcome.result.json platform)
      "child message non-application needs a typed owner proof"
    if !isNotCommitted proof then
      invalid "unknown child guidance is not proof that no command was committed"

end

/-- An open call of an earlier or withdrawn batch. Its reserved action is released if no
owner admitted it. -/
def withhold : Reconciling :=
  if id ∈ s.track.admitted then s
  else
    let held := AgentToolResult.text id ("Not dispatched: the fenced journal has no owner " ++
      "admission for this reserved exact action.") true
    { s with next := { s.next with
      plan := (s.next.plan.applyExactOutcome platform call held true).1 } }

/-- An open call is settled by its outcome. -/
def settleCall (callStep : Nat) (call : ChatToolCall) :
    EngineResult (Reconciling × AgentEngineEvent) := do
  let outcome ← s.outcomeFor input id call
  let result := outcome.result
  result.validateFor platform id
  validateMessageOutcome platform call outcome
  let failed : Bool := call.name = messageTool && result.isError
  let deferred := if failed then { s.next with work := s.next.work.observeDeferred } else s.next
  let observed ← observeResult platform input { s with next := deferred } id callStep call result
    (some outcome.source) failed
  if id ∈ s.track.admitted && outcome.source = .notDispatched && outcome.evidenceEventId.isNone then
    invalid "missing dispatch needs a fenced journal witness"
  let next ← applyResult platform observed.1 call result
    (outcome.source = .notDispatched || provenNonstart platform call result)
    (callStep > 0 && id ∈ s.track.admitted)
  return ({ s with
    next := next
    commands := observed.2
    newResults := if callStep > 0 then saturatingAdd u32Max s.newResults 1 else s.newResults },
    .toolOutcomeReconciled callStep result outcome.source outcome.evidenceEventId
      outcome.ownerOperationId)

/-- One call of the journal. What the loop settles is not added to the completed calls. -/
def reconcileCall (acc : Reconciling × List AgentEngineEvent) (id : ToolCallId)
    : EngineResult (Reconciling × List AgentEngineEvent) :=
  let s := acc.1
  match s.track.calls[id]? with
  | none => .ok acc
  | some (callStep, call) =>
    if id ∈ s.track.completed then .ok acc
    else if callStep > 0 && (!keepBatch || callStep ≠ s.track.step) then
      .ok (s.withhold platform id call, acc.2)
    else do
      let settled ← s.settleCall platform input id callStep call
      return (settled.1, acc.2 ++ [settled.2])

/-! ### The resumed checkpoint -/

def resumeSegments : EngineResult (Option AgentExecutionSegmentState) :=
  match s.next.segments with
  | some segments => (segments.authorizeResume input.grant s.track.step).map some
  | none =>
    if input.grant.additionalSegments ≠ 0 then
      invalid "no segmented model budget exists at this checkpoint"
    else .ok none

/-- The plan after the resume. -/
def resumedPlan : AgentPlan :=
  { next.plan with
    needsReplan := !next.completionReview.isReportOnly
    exactActions := closeReceivers next.plan.exactActions }

/-- No command provenance survives the resume. -/
def resumedWork : AgentWorkStatus :=
  { work with
    runningProcesses := ∅, recentCommands := [], commandObservedAfterLatestMutation := false }

/-- `ExecutionTailReconciled`. -/
def tailReconciled : AgentEngineEvent :=
  .executionTailReconciled s.track.step input.checkpointRevision
    (if keepBatch then [] else s.track.proposed.sort (· ≤ ·))
    (if keepBatch then s.track.order else []) (!keepBatch) input.grant.retryStallGuards

def finish (observations : List AgentEngineEvent) : EngineResult AgentReconciledResume := do
  if s.liveWaitUnresolved && s.next.work.runningProcesses ≠ ∅ then
    invalid ("the original live wait owner has no reaped terminal observation; keep this Turn " ++
      "paused for reconciliation instead of republishing its old user-input request")
  let plan := resumedPlan s.next
  let work := resumedWork s.next.work
  let toolCallCount ← orInvalid (checkedAdd u32Max s.next.toolCallCount s.newResults)
    "tool count exhausted"
  let segments ← s.resumeSegments input
  let next := { s.next with
    modelSteps := s.track.step
    toolCallCount := toolCallCount
    acceptedInputCount := inputRevision s.next
    plan := plan
    work := work
    controlRejections := if input.grant.retryStallGuards then s.next.controlRejections.reset
      else s.next.controlRejections
    segments := segments }
  next.validate platform
  return ⟨next, observations ++
    (if s.liveWaitUnresolved then [.turnWaitResolved s.track.step] else []) ++
    (if plan = s.lastPlan then [] else [.planUpdated plan]) ++ [s.tailReconciled input keepBatch] ++
    (if work = s.lastWork then [] else [.workStatus work])⟩

end Reconciling

open Reconciling in
/-- The checkpoint and the observations to resume from. -/
def reconcileExecutionTailWithContracts (platform : Platform) (input : ReconciliationInput) :
    EngineResult AgentReconciledResume := do
  input.checkpoint.validate platform
  let s ← input.tail.foldlM (Reconciling.step platform input) (Reconciling.start input)
  if s.track.hasUnpairedMessage input.outcomes then
    invalid ("an unpaired child message requires its exact original command owner " ++
      "reconciliation before any proposal can be discarded")
  let keepBatch := s.track.keepsBatch input.outcomes
  if keepBatch && s.track.hasIncompleteCall then
    invalid "admitted batch contains incomplete arguments"
  let reconciled ← s.track.journal.foldlM (reconcileCall platform input keepBatch) (s, [])
  reconciled.1.finish platform input keepBatch reconciled.2

end Nomifun.Source.AgentRuntime
