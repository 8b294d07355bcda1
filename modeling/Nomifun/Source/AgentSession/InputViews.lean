import Nomifun.Source.AgentSession.AcceptedInputs

/-!
# Views of session inputs

nomifun-agent-session, session_input.rs:153-304, session_input_queue.rs:11-23 and 345-377. A view
says where an input stands: claimed by a turn, delivered to one, cancelled, blocked or still in the
queue. It is read from the log of the session and never stored.
-/
namespace Nomifun.Source.AgentSession
open Library.Json Library.JsonPointer Library.RustText Source.AgentContracts

/-- `fetch_one` of a column that must not be NULL. -/
def orSqlite {α : Type} (value : Option α) : StoreResult α :=
  match value with
  | some a => .ok a
  | none => .error .sqlite

/-- The largest number of the events that a test accepts, or zero. -/
def maxSeq (test : SessionEventRecord → Bool) (events : List SessionEventRecord) : Nat :=
  (events.filter test).foldl (fun last event => max last event.seq) 0

/-- What the log says of the delivery of an input. -/
structure DeliveryFacts where
  state : SessionInputState
  reason : Option String
  steering : Bool
  turnId : Option EventId
  orderSeq : Option Nat
  seq : Nat

/-- The facts of an input that is the root of a turn or of none. -/
def rootFacts (state : SessionInputState) (reason : Option String) (seq : Nat) : DeliveryFacts :=
  ⟨state, reason, false, none, none, seq⟩

structure InputViewContext where
  queue : QueueState
  observedSeq : Nat
  status : HeadStatus
  (activeSource first : Option EventId)
  unsettled : Bool

structure SessionInputQueueItem where
  messageId : EventId
  input : Value
  delivery : SessionInputDeliveryIntent
  held : Bool
  inputDelivery : SessionInputView

structure SessionInputQueueSnapshot where
  version : Nat
  items : List SessionInputQueueItem

variable {σ : Type} (platform : Platform) (outer : Outer σ)

/-! ### Claims and deliveries -/

variable (store : Store (Records σ)) (session : AgentSessionId) (context : InputViewContext)
  (input : EventId) (accepted : PendingSessionInput)

/-- A turn started from the input, or a steering event names it. -/
def isConsumptionClaim (event : SessionEventRecord) : Bool :=
  (event.agentSessionId = session && event.kind = "turn/started" &&
      event.causationEventId = some input) ||
    steeringClaims platform store session input event

def consumptionClaims : List SessionEventRecord :=
  store.events.filter (isConsumptionClaim platform store session input)

/-- The source message of the turn of an operation. -/
def turnSource (operation : OperationId) : StoreResult EventId :=
  orSqlite (((store.turnsOf session).find? (·.operationId = operation)).bind (·.sourceMessageId))

inductive DeliveryScan where
  | delivered (seq : Nat)
  | waiting (deferred : Option Nat)

/-- The records of a turn after a claim, up to the one that delivers it. -/
def scanDeliveries (store : Store (Records σ)) (claim : SessionEventRecord) (input : EventId)
    (accepted : PendingSessionInput) : Option Nat → List SessionEventRecord →
    StoreResult DeliveryScan
  | deferred, [] => .ok (.waiting deferred)
  | deferred, record :: rest => do
    let payload ← payloadValueForEvent platform outer store record
    if record.kindVersion ≠ 1 || record.producerId ≠ "runtime_supervisor" then
      invalidEvent "input delivery has no native Runtime provenance"
    let inputs ← orInvalidPayload ((pointer payload "/event/inputs").bind Value.asArray)
      "input delivery has no typed input records"
    if inputs.length > 16 then
      invalidPayload "input delivery exceeds its bounded input records"
    match inputs.find? fun delivered =>
        (delivered.member "receipt_operation_id").bind Value.asStr = some claim.eventId with
    | none => scanDeliveries store claim input accepted deferred rest
    | some delivered =>
      if (delivered.member "message_id").bind Value.asStr ≠ some input ||
          delivered.member "text" ≠ accepted.input.member "content" then
        invalidPayload "input delivery differs from its exact accepted source"
      if textAt payload "/event/event" = some "steering_inputs" then
        return .delivered record.seq
      else scanDeliveries store claim input accepted (some record.seq) rest

/-- The number of the event that ended the turn of an operation. -/
def turnTerminalSeq (operation : OperationId) : Option Nat :=
  ((store.turnsOf session).find? (·.operationId = operation)).bind fun turn =>
    ((store.eventsOf session).find? fun event =>
      turn.terminalEventId = some event.eventId).map (·.seq)

def steeringFacts (claim : SessionEventRecord) : StoreResult DeliveryFacts := do
  let payload ← payloadValueForEvent platform outer store claim
  if claim.producerId ≠ "session_api" || claim.causationEventId ≠ some input ||
      (payload.member "target_operation_id").bind Value.asStr ≠ some claim.correlationId ||
      (payload.member "input").isSome then
    invalidEvent "input consumption claim differs from its original source and target"
  let source ← turnSource store session claim.correlationId
  let steering (state : SessionInputState) (reason : Option String) (seq : Nat) : DeliveryFacts :=
    ⟨state, reason, true, some source, some claim.seq, seq⟩
  let records := (store.eventsOf session).filter fun event =>
    event.kind = "runtime/progress-recorded" && event.correlationId = claim.correlationId &&
      claim.seq < event.seq && (extractedIs platform store event ["event", "event"]
        "steering_inputs" || extractedIs platform store event ["event", "event"]
        "steering_deferred")
  match ← scanDeliveries platform outer store claim input accepted none records with
  | .delivered seq => return steering .claimed none seq
  | .waiting deferred =>
    match (turnTerminalSeq store session claim.correlationId).or deferred with
    | some seq => return steering .blocked (some "TURN_ENDED_BEFORE_INPUT_DELIVERY") seq
    | none => return steering .pending none claim.seq

/-- The last event that blocked the input, if any. -/
def blockedFacts : StoreResult DeliveryFacts :=
  match ((store.eventsOf session).filter (blockedBy platform store input)).getLast? with
  | none => .ok (rootFacts .pending none accepted.event.seq)
  | some event => do
    let payload ← payloadValueForEvent platform outer store event
    let reason ← orInvalidPayload (payload.member "reason") "input blocked reason is missing"
    let reason ← fromValue SessionInputBlockedReason.codec.decode reason
    if event.kindVersion ≠ 1 || event.producerId ≠ "runtime_supervisor" ||
        event.causationEventId ≠ some input || event.correlationId ≠ input then
      invalidEvent "input blocked fact lost its accepted source"
    return rootFacts .blocked (some reason.nameOf) event.seq

def unclaimedFacts : StoreResult DeliveryFacts := do
  let floor := contextFloor store session
  if accepted.event.seq ≤ floor then
    return rootFacts .discarded (some "CONTEXT_CLEARED") floor
  else
    match ← cancelledInput platform outer store accepted.event with
    | some cancelled =>
      return rootFacts .cancelled (some SessionInputBlockedReason.cancelledByOwner.nameOf)
        cancelled.seq
    | none => blockedFacts platform outer store session input accepted

/-- `delivery_state_facts_tx`. -/
def deliveryStateFacts : StoreResult DeliveryFacts :=
  match consumptionClaims platform store session input with
  | [] => unclaimedFacts platform outer store session input accepted
  | [claim] =>
    if claim.kind = "turn/started" then
      .ok ⟨.claimed, none, false, some input, some claim.seq, claim.seq⟩
    else steeringFacts platform outer store session input accepted claim
  | _ => invalidEvent "Session input has more than one consumption claim"

/-! ### The view of an input -/

/-- The kinds after which a session may place its inputs anew. -/
def placementKinds : List String :=
  ["turn/started", "turn/completed", "turn/failed", "turn/cancelled", "turn/paused",
    "turn/resume-authorized", "message/input-blocked"]

def unsettledEffect : Bool :=
  store.rest.effects.any fun row => row.sessionId = session &&
    (row.state = .pending || row.state = .unknown)

def InputViewContext.load : StoreResult InputViewContext := do
  let queue ← queueState platform outer store session
  let head ← store.headById session
  let active := (store.turnsOf session).find? fun turn =>
    head.activeTurnId = some turn.operationId
  let activeSource ← match active with
    | none => .ok none
    | some turn => (orSqlite turn.sourceMessageId).map some
  let first ← if activeSource.isNone && head.status = .ready
    then firstEligibleRoot platform outer store session queue else .ok none
  let observed := maxSeq (fun event => event.kind ∈ placementKinds ||
    event.kind = queueChanged || event.kind = "context/cleared") (store.eventsOf session)
  return ⟨queue, observed, head.status, activeSource, first, unsettledEffect store session⟩

/-- A pause of the whole queue, caused by the input, that holds it after its cancellation. -/
def stoppedAfter (accepted cancelled : Nat) : Bool :=
  (store.eventsOf session).any fun event => event.kind = queueChanged && event.kindVersion = 1 &&
    event.producerId = "session_api" && event.causationEventId = some input &&
    cancelled < event.seq && event.correlationId = event.agentSessionId &&
    ((extracted store event ["except_message_ids"]).bind Value.asArray).all (·.isEmpty) &&
    extractedIs platform store event ["action", "kind"] "pause" &&
    (match extracted store event ["through_seq"] with
      | some (.number (.posInt seq)) => accepted ≤ seq
      -- A text or a JSON text compares as larger than any number.
      | some (.string _) | some (.array _) | some (.object _) => true
      | _ => false)

/-- The view of an input that nothing settled yet and that the composer wrote. -/
def queuedView (intent : SessionInputDeliveryIntent) (view : SessionInputView) : SessionInputView :=
  if context.status = .running &&
      context.activeSource.map SessionInputDeliveryIntent.preferCurrent = some intent then
    { view with placement := .steering, kind := .steering, turnId := context.activeSource
                orderSeq := context.queue.intentSequences[input]?.getD accepted.event.seq }
  else
    let view := match intent with
      | .preferCurrent _ => { view with reason := some "TARGET_TURN_ENDED" }
      | .queue => view
    if context.activeSource.isNone && context.status = .ready && context.first = some input then
      { view with placement := .transcript, orderSeq := max view.orderSeq context.observedSeq
                  reason := if context.unsettled then some "WAITING_FOR_EFFECT_SETTLEMENT"
                    else view.reason }
    else if context.status = .paused then { view with reason := some "SESSION_PAUSED" }
    else view

/-- The view of an input that was cancelled or discarded before it was claimed. -/
def withdrawnView (seq : Nat) (view : SessionInputView) : StoreResult SessionInputView := do
  if (← desktopDeliveryIntent accepted.input).isNone then return view
  else if stoppedAfter platform store session input accepted.event.seq seq &&
      view.state = .cancelled then
    return { view with placement := .transcript, orderSeq := seq }
  else return { view with placement := .queued }

/-- `input_view_tx`. -/
def inputView (context : InputViewContext) : StoreResult SessionInputView := do
  let accepted ← acceptedInput platform outer store session input
  validateSelectedReplacement platform outer store session input
  let facts ← deliveryStateFacts platform outer store session input accepted
  let view : SessionInputView :=
    { state := facts.state, reason := facts.reason, eventSeq := facts.seq
      placement := .transcript, kind := .root, turnId := facts.turnId
      orderSeq := facts.orderSeq.getD accepted.event.seq }
  if facts.steering then
    let placement := if facts.state = .pending then .steering else view.placement
    return { view with kind := .steering, placement := placement }
  else
    match facts.state with
    | .claimed => return view
    | .cancelled | .discarded =>
      withdrawnView platform store session input accepted facts.seq view
    | .blocked =>
      match ← context.queue.intent accepted with
      | none => return view
      | some _ => return { view with placement := .queued }
    | .pending =>
      match ← context.queue.intent accepted with
      | none => return view
      | some intent =>
        let view := { view with placement := .queued
                                eventSeq := max facts.seq context.observedSeq }
        if ← context.queue.held accepted then return view
        else return queuedView context input accepted intent view

/-! ### The queue -/

/-- The accepted inputs of the composer. -/
def composerInputs (owner : PrincipalRef) : List EventId :=
  ((store.eventsOf session).filter fun input => input.kind = "message/user-accepted" &&
    input.producerId = "session_api" && input.kindVersion = 1 &&
    contextFloor store session < input.seq &&
    (stripStart (sessionInputNamespace owner session) input.idempotencyKey).isSome &&
    (extracted store input ["delivery_intent"]).isSome).map (·.eventId)

/-- An event that changed what the queue shows of one of the inputs. -/
def changesInputs (inputs : List EventId) (event : SessionEventRecord) : Bool :=
  event.eventId ∈ inputs ||
    (event.kind = "turn/started" && event.causationEventId.any (· ∈ inputs)) ||
    ((event.kind = "message/input-blocked" || event.kind = "turn/steer-accepted") &&
      inputs.any fun input => extractedIs platform store event ["input_event_id"] input)

def queueItem (original : PendingSessionInput)
    : StoreResult (Option SessionInputQueueItem) := do
  match ← context.queue.intent original with
  | none => return none
  | some delivery =>
    let view ← inputView platform outer store session original.event.eventId context
    return some {
      messageId := original.event.eventId
      input := original.input
      delivery := delivery
      held := ← context.queue.held original
      inputDelivery := view }

/-- `queue_snapshot_tx`. -/
def queueSnapshot : StoreResult SessionInputQueueSnapshot := do
  let owner ← requireLiveSession outer store session
  let context ← InputViewContext.load platform outer store session
  let log := store.eventsOf session
  let changed := maxSeq (changesInputs platform store (composerInputs store session owner)) log
  let boundary := maxSeq (fun event => event.kind ∈ placementKinds) log
  let originals ← pendingInputs platform outer store session none true
  let sorted ← context.queue.sort originals
  let items ← sorted.filterMapM (queueItem platform outer store session context)
  return ⟨max context.queue.version (max changed boundary), items⟩

end Nomifun.Source.AgentSession
