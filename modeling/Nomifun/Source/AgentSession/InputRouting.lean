import Nomifun.Source.AgentSession.InputContracts

/-!
# Routing of queued inputs

nomifun-agent-session, session_input_queue.rs:25-63, 65-138, 165-242 and 571-586;
store.rs:7292-7317 and 7461-7474. The state of the queue is folded from the queue changes in the
log of the session. Queries read single JSON fields of an event with `json_extract`, from its
inline column or from the stored body that it refers to.
-/
namespace Nomifun.Source.AgentSession
open Library Library.Json Library.MachineInt Library.RustText Source.AgentContracts

def queueChanged : String := "message/input-queue-changed"

/-- The event that records that the owner of an input cancelled it. -/
def cancellationId (input : EventId) : EventId :=
  "session-input-blocked:" ++ input ++ ":cancelled_by_owner"

structure PendingSessionInput where
  event : SessionEventRecord
  input : Value

variable {σ : Type} (platform : Platform) (outer : Outer σ)

/-! ### Queries -/

/-- The `value` member of a stored body. -/
def SessionPayloadBody.content : SessionPayloadBody → Value
  | .utf8 text | .base64 text => .string text
  | .json value => value
  | .artifactRef reference => reference.toValue

section

variable (store : Store (Records σ)) (session : AgentSessionId) (event : SessionEventRecord)

/-- The JSON of an event that the queries look into. -/
def columnJson : Option Value :=
  match event.payload with
  | .empty => none
  | .inlineJson value => some value
  | .stored id =>
    (store.rest.payloads[id]?.filter (·.agentSessionId = event.agentSessionId)).map
      (·.body.content)

/-- `json_extract`: JSON null is NULL. -/
def extracted (path : List String) : Option Value :=
  ((columnJson store event).bind fun value =>
    path.foldl (fun found key => found.bind (·.member key)) (some value)).filter (· ≠ .null)

/-- `json_type … IS NOT NULL`. -/
def present (key : String) : Bool :=
  ((columnJson store event).bind (·.member key)).isSome

/-- Comparison with a text: an array or an object is extracted as its text, and a number equals
no text. -/
def equalsText (value : Value) (text : String) : Bool :=
  match value with
  | .string s => s = text
  | .array _ | .object _ => String.ofList (compact platform.floatText value) = text
  | .null | .bool _ | .number _ => false

def extractedIs (path : List String) (text : String) : Bool :=
  (extracted store event path).any (equalsText platform · text)

/-- `serde_json::from_str` of an extracted column of type text. -/
def parseExtracted (value : Value) : StoreResult Value :=
  match value with
  | .string s =>
    match platform.parseJson s with
    | some parsed => .ok parsed
    | none => .error .json
  | .array _ | .object _ => .ok value
  | .null | .bool _ | .number _ => .error .sqlite

def eventByEventId (id : EventId) : Option SessionEventRecord :=
  store.events.find? (·.eventId = id)

def eventByProducerKey (producer key : String) : Option SessionEventRecord :=
  store.events.find? fun event => event.producerId = producer && event.idempotencyKey = key

/-- `require_live_session_tx`, of whose record only the owner is read. -/
def requireLiveSession : StoreResult PrincipalRef := do
  let row ← store.sessionRowById session
  match row.state with
  | .deleting | .deleted => .error (.deleted session)
  | .live =>
    outer.liveFromRow store session
    match store.rest.owners[session]? with
    | some owner => return owner
    | none => .error .json

/-- The last `context/cleared` of the session: inputs up to it are discarded. -/
def contextFloor : Nat :=
  ((store.eventsOf session).filter (·.kind = "context/cleared")).foldl
    (fun floor event => max floor event.seq) 0

/-! ### Delivery -/

def desktopDeliveryIntent (input : Value) : StoreResult (Option SessionInputDeliveryIntent) :=
  match input.member "delivery_intent" with
  | none => .ok none
  | some value => do
    if (input.member "channel_source").isSome || (input.member "input_source").isSome then
      invalidPayload "composer delivery cannot author a domain input source"
    return some (← fromValue SessionInputDeliveryIntent.codec.decode value)

def validateDeliveryTarget (intent : SessionInputDeliveryIntent) : StoreResult Unit :=
  match intent with
  | .queue => .ok ()
  | .preferCurrent turnId => do
    validateUuidv7 turnId "observed Turn source"
    if !(store.turnsOf session).any (·.sourceMessageId = some turnId) then
      invalidEvent "observed Turn does not belong to this Session"

def validateDeliveryEnvelope (input : Value) : StoreResult Unit := do
  match ← desktopDeliveryIntent input with
  | none => return ()
  | some delivery => validateDeliveryTarget store session delivery

/-! ### Queue changes -/

def validateQueueEvent (payload : Value) : StoreResult Unit := do
  if event.kind ≠ queueChanged then return ()
  else do
    let change ← fromValue SessionInputQueueChanged.codec.decode payload
    let pauses : Bool := change.action = .control .pause
    if event.kindVersion ≠ 1 || event.producerId ≠ "session_api" ||
        event.correlationId ≠ event.agentSessionId || pauses ≠ change.throughSeq.isSome ||
        change.throughSeq.any (event.seq ≤ ·) then
      invalidEvent "queue change has invalid original authority or cutoff"
    if !change.exceptMessageIds.isEmpty && !pauses then
      invalidEvent "only explicit queue pause may exempt visible input"

/-- The inputs that a queue change refers to. -/
def SessionInputQueueChanged.references (change : SessionInputQueueChanged) : List EventId :=
  let named := match change.action with
    | .replace messageId replacementMessageId => [messageId, replacementMessageId]
    | .control (.remove messageId) | .control (.promote messageId _) => [messageId]
    | .control (.reorder messageIds) => messageIds
    | .control .pause | .control .resume | .control .clear => []
  named ++ change.exceptMessageIds

structure AcceptedRouting where
  seq : Nat
  intent : SessionInputDeliveryIntent

def AcceptedRouting.value (routing : AcceptedRouting) : Value :=
  .object [("delivery_intent", SessionInputDeliveryIntent.codec.encode routing.intent)]

/-- The provenance and the routing fields of an input, without its body. -/
def acceptedRouting (input : EventId) (owner : PrincipalRef)
    : StoreResult AcceptedRouting := do
  let event ← orInvalidEvent
    (store.events.find? fun event => event.agentSessionId = session && event.eventId = input)
    "queue routing source is missing"
  let intent := extracted store event ["delivery_intent"]
  if intent.any fun value => value matches .bool _ | .number _ then .error .sqlite
  let validKey := (stripStart (sessionInputNamespace owner session) event.idempotencyKey).any
    isLowerHexDigest
  if event.kind ≠ "message/user-accepted" || event.kindVersion ≠ 1 ||
      event.producerId ≠ "session_api" || event.correlationId ≠ input || !validKey ||
      present store event "channel_source" || present store event "input_source" then
    invalidEvent "queue routing source lost its ordinary accepted provenance"
  validateUuidv7 input "queue routing source"
  let intent ← orInvalidPayload intent "queue routing source lost its delivery intent"
  let intent ← fromValue SessionInputDeliveryIntent.codec.decode (← parseExtracted platform intent)
  validateDeliveryTarget store session intent
  return ⟨event.seq, intent⟩

/-- A replacement comes after the cancellation of the original and keeps its intent. -/
def checkReplacedRouting (messageId : EventId) (original replacement : AcceptedRouting) :
    StoreResult Unit := do
  let identity := cancellationId messageId
  let cancellation ← orInvalidEvent (eventByEventId store identity)
    "replacement lost original cancellation"
  let payload ← payloadValueForEvent platform outer store cancellation
  if cancellation.agentSessionId ≠ event.agentSessionId || cancellation.seq ≤ original.seq ||
      replacement.seq ≤ cancellation.seq || cancellation.kind ≠ "message/input-blocked" ||
      cancellation.kindVersion ≠ 1 || cancellation.producerId ≠ "runtime_supervisor" ||
      cancellation.idempotencyKey ≠ identity ||
      cancellation.causationEventId ≠ some messageId || cancellation.correlationId ≠ messageId ||
      (payload.get "input_event_id").asStr ≠ some messageId ||
      payload.get "reason" ≠ .string "CANCELLED_BY_OWNER" ||
      original.intent ≠ replacement.intent then
    invalidEvent "replacement lost its original routing or writer order"

/-- The routing of each input that the change refers to. -/
def validateRoutingReferences (change : SessionInputQueueChanged) (owner : PrincipalRef) :
    StoreResult (List (EventId × AcceptedRouting)) := do
  if !decide change.references.Nodup then
    invalidPayload "queue change duplicates an input identity"
  let routing ← change.references.mapM fun id => do
    let input ← acceptedRouting platform store event.agentSessionId id owner
    if event.seq ≤ input.seq then
      invalidEvent "queue routing reference is not prior to its change"
    return (id, input)
  match change.action with
  | .replace messageId replacementMessageId =>
    match routing.lookup messageId, routing.lookup replacementMessageId with
    | some original, some replacement =>
      checkReplacedRouting platform outer store event messageId original replacement
    -- Both are among the references.
    | _, _ => invalidEvent "queue routing source is missing"
  | .control (.promote _ turnId) =>
    validateDeliveryTarget store event.agentSessionId (.preferCurrent turnId)
  | .control .pause | .control .resume | .control (.remove _) | .control .clear
  | .control (.reorder _) => .ok ()
  return routing

end

/-! ### The state of the queue -/

structure QueueState where
  version : Nat
  heldThrough : Option Nat
  released : StringSet
  order : List EventId
  deliveryOverrides : StringMap SessionInputDeliveryIntent
  intentSequences : StringMap Nat
  replacementHolds : StringSet
  replacementOrder : StringMap Nat

namespace QueueState

variable (state : QueueState) (id : EventId)

def heldMetadata (seq : Nat) (routing : Value) : StoreResult Bool := do
  let intent ← desktopDeliveryIntent routing
  return intent.isSome && id ∉ state.released &&
    (id ∈ state.replacementHolds || state.heldThrough.any (seq ≤ ·))

def held (input : PendingSessionInput) : StoreResult Bool :=
  state.heldMetadata input.event.eventId input.event.seq input.input

def intentMetadata (routing : Value) : StoreResult (Option SessionInputDeliveryIntent) := do
  let own ← desktopDeliveryIntent routing
  return state.deliveryOverrides[id]?.or own

def intent (input : PendingSessionInput) : StoreResult (Option SessionInputDeliveryIntent) :=
  state.intentMetadata input.event.eventId input.input

/-- The place of an input before the owner reorders the queue. -/
def originalPlace (seq : Nat) : Nat :=
  state.replacementOrder[id]?.getD seq

/-- The place the owner gave an input; of a repeated id the last one counts. -/
def rank : Nat :=
  ((state.order.zipIdx.filter (·.1 = id)).getLast?.map (·.2)).getD u64Max

/-- Whether one input of the composer stands before another. -/
def precedes (first second : EventId × Nat) : Bool :=
  state.rank first.1 < state.rank second.1 || (state.rank first.1 = state.rank second.1 &&
    state.originalPlace first.1 first.2 ≤ state.originalPlace second.1 second.2)

/-- The inputs in their original places, with those of the composer permuted among themselves. -/
def sort (inputs : List PendingSessionInput) : StoreResult (List PendingSessionInput) := do
  let placed := inputs.insertionSort fun first second =>
    state.originalPlace first.event.eventId first.event.seq ≤
      state.originalPlace second.event.eventId second.event.seq
  let marked ← placed.mapM fun input => do
    return (input, (← desktopDeliveryIntent input.input).isSome)
  let composer := ((marked.filter (·.2)).map (·.1)).insertionSort fun first second =>
    state.precedes (first.event.eventId, first.event.seq)
      (second.event.eventId, second.event.seq)
  let slots := (marked.zipIdx.filter (·.1.2)).map (·.2)
  return (slots.zip composer).foldl (fun inputs entry => inputs.set entry.1 entry.2) placed

end QueueState

namespace QueueState

/-- A replacement takes the place, the hold, the release and the override of the original. -/
def replace (state : QueueState) (messageId replacementMessageId : EventId)
    (original : AcceptedRouting) (seq : Nat) : StoreResult QueueState := do
  let order := match state.order.idxOf? messageId with
    | some index => state.order.set index replacementMessageId
    | none => state.order
  let held ← state.heldMetadata messageId original.seq original.value
  return { state with
    order := order
    replacementOrder := state.replacementOrder.insert replacementMessageId
      (state.originalPlace messageId original.seq)
    replacementHolds := if held then insert replacementMessageId state.replacementHolds
      else state.replacementHolds
    released := if messageId ∈ state.released
      then insert replacementMessageId (state.released.erase messageId) else state.released
    deliveryOverrides := match state.deliveryOverrides[messageId]? with
      | some intent =>
        (state.deliveryOverrides.erase messageId).insert replacementMessageId intent
      | none => state.deliveryOverrides
    intentSequences := state.intentSequences.insert replacementMessageId seq }

def control (state : QueueState) (change : SessionInputQueueChanged) (seq : Nat)
    (action : SessionInputQueueAction) : StoreResult QueueState :=
  match action with
  | .pause => do
    let cutoff ← orInvalidPayload (change.throughSeq.filter (· < seq))
      "queue hold has no prior input cutoff"
    return { state with
      heldThrough := some (max (state.heldThrough.getD 0) cutoff)
      released := change.exceptMessageIds.toFinset }
  | .resume => .ok { state with heldThrough := none, replacementHolds := ∅ }
  | .reorder messageIds => .ok { state with order := messageIds }
  | .promote messageId turnId => .ok { state with
      released := insert messageId state.released
      replacementHolds := state.replacementHolds.erase messageId
      intentSequences := state.intentSequences.insert messageId seq
      deliveryOverrides := state.deliveryOverrides.insert messageId (.preferCurrent turnId) }
  | .remove _ | .clear => .ok state

end QueueState

/-- One queue change of the log. -/
def applyQueueChange (store : Store (Records σ)) (owner : PrincipalRef) (state : QueueState)
    (event : SessionEventRecord) : StoreResult QueueState := do
  let payload ← payloadValueForEvent platform outer store event
  validateQueueEvent event payload
  let change ← fromValue SessionInputQueueChanged.codec.decode payload
  let routing ← validateRoutingReferences platform outer store event change owner
  let state ← match change.action with
    | .replace messageId replacementMessageId => do
      let original ← orInvalidEvent (routing.lookup messageId) "queue routing source is missing"
      state.replace messageId replacementMessageId original event.seq
    | .control action => state.control change event.seq action
  return { state with version := event.seq }

/-- `queue_state_tx`; the events of a session are in the order of their numbers. -/
def queueState (store : Store (Records σ)) (session : AgentSessionId) : StoreResult QueueState := do
  let owner ← requireLiveSession outer store session
  let floor := contextFloor store session
  let changes := (store.eventsOf session).filter fun event =>
    event.kind = queueChanged && floor < event.seq
  changes.foldlM (applyQueueChange platform outer store owner) ⟨floor, none, ∅, [], ∅, ∅, ∅, ∅⟩

end Nomifun.Source.AgentSession
