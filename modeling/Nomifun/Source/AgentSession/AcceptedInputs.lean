import Nomifun.Source.AgentSession.InputRouting

/-!
# Accepted inputs

nomifun-agent-session, session_input.rs:6-14, 86-143 and 366-404, session_input_queue.rs:139-163,
270-292 and 554-630; store.rs:2885-2932 and 7582-7606. `InputChecks` holds what stays open: the
shape of a question's request and the tables of the channels.
-/
namespace Nomifun.Source.AgentSession
open Library Library.Json Library.JsonPointer Library.RustText Source.AgentContracts

structure InputChecks (σ : Type) where
  /-- Decodes and validates an `AgentUserInputRequest`. -/
  questionRequest : Value → StoreResult Unit
  /-- Whether the channel tables admit the source for the session. -/
  channelAuthorized : Store (Records σ) → AgentSessionId → ChannelInputSource → Bool

def orConflict {α : Type} (value : Option α) (message : String) : StoreResult α :=
  match value with
  | some a => .ok a
  | none => .error (.conflict message)

/-! ### Keys of commands -/

section

variable (platform : Platform) (owner : PrincipalRef) (session : AgentSessionId) (key : String)

def PrincipalRef.toValue : Value :=
  .object [("principal_id", .string owner.principalId),
    ("principal_kind", .string owner.principalKind)]

def digestOf (value : Value) : StoreResult DigestHex :=
  match digestPayload platform value with
  | .ok digest => .ok digest
  | .error problem => .error (.digest problem)

def commandKey : StoreResult String := do
  if (trim key).isEmpty || key.utf8ByteSize > 1024 then
    invalidEvent "Session input requires a bounded command identity"
  let digest ← digestOf platform (.array [owner.toValue, .string key])
  return sessionInputNamespace owner session ++ digest

def queueCommandKey : StoreResult String := do
  if (trim key).isEmpty || key.utf8ByteSize > 1024 then
    invalidEvent "queue command requires a bounded identity"
  let digest ← digestOf platform (.string key)
  return "session-input-queue:" ++ owner.principalId ++ ":" ++ session ++ ":" ++ digest

end

section

variable {σ : Type} (platform : Platform) (outer : Outer σ)

variable (checks : InputChecks σ) (store : Store (Records σ)) (session : AgentSessionId)
  (state : QueueState) (input : EventId) (event : SessionEventRecord)

/-- The event after which the session last had no active turn. -/
def latestTurnBoundaryEvent : StoreResult EventId := do
  let boundary ← orConflict
    ((store.eventsOf session).filter fun event => event.kind ∈ idleKinds).getLast?
    "AgentSession has no committed turn admission boundary"
  return boundary.eventId

/-! ### One input -/

def acceptedInput : StoreResult PendingSessionInput := do
  match eventByEventId store input with
  | none => .error (.notFound "accepted Session input")
  | some event =>
    let owner ← requireLiveSession outer store session
    if event.agentSessionId ≠ session || !isSessionInputEvent event owner then
      invalidEvent "Session input identity differs from its accepted fact"
    let value ← payloadValueForEvent platform outer store event
    validateDeliveryEnvelope store session value
    return ⟨event, value⟩

/-- The cancellation of an accepted input, if its owner cancelled it. -/
def cancelledInput (accepted : SessionEventRecord) : StoreResult (Option SessionEventRecord) :=
  let identity := cancellationId accepted.eventId
  match eventByEventId store identity with
  | none => .ok none
  | some event => do
    let payload ← payloadValueForEvent platform outer store event
    let reason ← orInvalidPayload (payload.member "reason") "cancelled input reason is missing"
    let reason ← fromValue SessionInputBlockedReason.codec.decode reason
    if event.agentSessionId ≠ accepted.agentSessionId || event.seq ≤ accepted.seq ||
        event.kind ≠ "message/input-blocked" || event.kindVersion ≠ 1 ||
        event.producerId ≠ "runtime_supervisor" || event.idempotencyKey ≠ identity ||
        event.causationEventId ≠ some accepted.eventId ||
        event.correlationId ≠ accepted.eventId ||
        (payload.member "input_event_id").bind Value.asStr ≠ some accepted.eventId ||
        reason ≠ .cancelledByOwner then
      invalidEvent "input cancellation lost its exact accepted source"
    return some event

/-- A turn of the session whose start the input is the message or the cause of. -/
def turnClaims (turn : TurnRow) : Bool :=
  turn.sessionId = session && store.events.any fun started =>
    turn.startedEventId = some started.eventId && started.agentSessionId = turn.sessionId &&
      started.kind = "turn/started" && started.correlationId = turn.operationId &&
      (turn.sourceMessageId = some input || started.causationEventId = some input)

/-- A steering event of the session that names the input. -/
def steeringClaims : Bool :=
  event.agentSessionId = session && event.kind = "turn/steer-accepted" &&
    event.kindVersion = 2 && extractedIs platform store event ["input_event_id"] input

def inputClaimed : Bool :=
  store.turns.any (turnClaims store session input) ||
    store.events.any (steeringClaims platform store session input)

/-! ### Pending inputs -/

def blockedBy : Bool :=
  event.kind = "message/input-blocked" && extractedIs platform store event ["input_event_id"] input

/-- `PENDING_INPUT_PREDICATE`. -/
def isPending (start : String) (includeBlocked : Option EventId) (allBlocked : Bool)
    (input : SessionEventRecord) : Bool :=
  input.kind = "message/user-accepted" && input.producerId = "session_api" &&
    input.kindVersion = 1 && (stripStart start input.idempotencyKey).isSome &&
    contextFloor store session < input.seq &&
    !inputClaimed platform store session input.eventId &&
    (allBlocked || includeBlocked = some input.eventId ||
      !(store.eventsOf session).any (blockedBy platform store input.eventId))

def pendingInputs (includeBlocked : Option EventId) (allBlocked : Bool) :
    StoreResult (List PendingSessionInput) := do
  let owner ← requireLiveSession outer store session
  let rows := (store.eventsOf session).filter
    (isPending platform store session (sessionInputNamespace owner session) includeBlocked
      allBlocked)
  rows.filterMapM fun event => do
    if !isSessionInputEvent event owner then
      invalidEvent "pending input lost its original Session provenance"
    let cancelled ← if allBlocked || includeBlocked = some event.eventId
      then cancelledInput platform outer store event else .ok none
    if cancelled.isSome then return none
    else do
      let value ← payloadValueForEvent platform outer store event
      validateDeliveryEnvelope store session value
      return some ⟨event, value⟩

/-! ### Replies and channels -/

def questionSource (source : EventId) (seq : Nat) : StoreResult Unit := do
  validateUuidv7 source "question Turn source"
  let turn ← orInvalidEvent
    ((store.turnsOf session).find? (·.sourceMessageId = some source))
    "reply association has no original Turn"
  let _ ← asI64 seq "question source sequence"
  let event ← orInvalidEvent ((store.eventsOf session).find? (·.seq = seq))
    "reply association has no committed question"
  let payload ← payloadValueForEvent platform outer store event
  if event.kind ≠ "runtime/progress-recorded" || event.kindVersion ≠ 1 ||
      event.producerId ≠ "runtime_supervisor" || event.correlationId ≠ turn.operationId ||
      textAt payload "/event/event" ≠ some "user_input_requested" then
    invalidEvent "reply association differs from its exact question source"
  let request ← orInvalidPayload (pointer payload "/event/request")
    "referenced question body is missing"
  checks.questionRequest request

/-- The association of a reply names a turn and a question of it, and nothing else. -/
def checkReply (input : Value) : StoreResult Unit :=
  match input.member "reply_to" with
  | none => .ok ()
  | some reply => do
    let source ← orInvalidPayload ((reply.member "turn_id").bind Value.asStr)
      "reply association requires its original Turn source"
    let seq ← orInvalidPayload (((reply.member "question_seq").bind Value.asU64).filter (0 < ·))
      "reply association requires its original question sequence"
    if reply.asObject.all (·.length ≠ 2) then
      invalidPayload "reply association contains unknown fields"
    questionSource platform outer checks store session source seq

/-- `channel_input_observation::validate_input_source_tx`. -/
def validateInputSource (input : Value) : StoreResult Unit :=
  match input.member "channel_source" with
  | none => .ok ()
  | some value => do
    let source ← fromValue ChannelInputSource.decode value
    match source.validate with
    | .error problem => invalidPayload problem
    | .ok () =>
      if !checks.channelAuthorized store session source then .error .executionFenced else .ok ()

/-! ### Replaced inputs -/

/-- `value["content"] = content` on an object. -/
def withContent (value content : Value) : Value :=
  match value with
  | .object entries => .object (insertEntry "content" content entries)
  | other => other

/-- A replacement differs from the original in its text only, and comes after its cancellation. -/
def checkReplacement (messageId replacementMessageId : EventId)
    : StoreResult Unit := do
  let original ← acceptedInput platform outer store session messageId
  let replacement ← acceptedInput platform outer store session replacementMessageId
  match ← cancelledInput platform outer store original.event with
  | none => invalidEvent "replacement lost original cancellation"
  | some cancelled =>
    if replacement.event.seq ≤ cancelled.seq ||
        withContent replacement.input (original.input.get "content") ≠ original.input ||
        replacement.event.seq ≤ original.event.seq then
      invalidEvent "replacement lost its original envelope or writer order"

def validateReferences (payload : Value) : StoreResult Unit := do
  if event.kind ≠ queueChanged then return ()
  else do
    let change ← fromValue SessionInputQueueChanged.codec.decode payload
    if !decide change.references.Nodup then
      invalidPayload "queue change duplicates an input identity"
    change.references.forM fun id => do
      let original ← acceptedInput platform outer store event.agentSessionId id
      if event.seq ≤ original.event.seq || (← desktopDeliveryIntent original.input).isNone then
        invalidEvent "queue change lost its prior ordinary input source"
    match change.action with
    | .replace messageId replacementMessageId =>
      checkReplacement platform outer store event.agentSessionId messageId replacementMessageId
    | .control (.promote _ turnId) =>
      validateDeliveryTarget store event.agentSessionId (.preferCurrent turnId)
    | .control .pause | .control .resume | .control (.remove _) | .control .clear
    | .control (.reorder _) => .ok ()

/-- The queue changes that made an input the replacement of another. -/
def replacementChanges (selected : EventId) : List SessionEventRecord :=
  (store.eventsOf session).filter fun event => event.kind = queueChanged &&
    extractedIs platform store event ["action", "replacement_message_id"] selected

/-- The input that `selected` replaced, if it replaced one. -/
def replacedInput (selected : EventId) : StoreResult (Option EventId) :=
  match replacementChanges platform store session selected with
  | [] => .ok none
  | [event] => do
    let payload ← payloadValueForEvent platform outer store event
    validateQueueEvent event payload
    validateReferences platform outer store event payload
    let change ← fromValue SessionInputQueueChanged.codec.decode payload
    match change.action with
    | .control _ => invalidEvent "replacement source has a different queue action"
    | .replace messageId replacementMessageId =>
      if replacementMessageId ≠ selected then
        invalidEvent "replacement lineage changed its selected input"
      else .ok (some messageId)
  | _ => invalidEvent "replacement has multiple queue owners"

/-- The loop over the inputs that were replaced one after the other. -/
def validateReplacements (store : Store (Records σ)) (session : AgentSessionId) :
    Nat → EventId → StoreResult Unit
  | 0, _ => .error .sqlite
  | fuel + 1, selected => do
    match ← replacedInput platform outer store session selected with
    | none => return ()
    | some messageId => validateReplacements store session fuel messageId

/-- The number of an event bounds how many inputs were replaced before it. -/
def eventSeq (id : EventId) : Nat :=
  ((eventByEventId store id).map (·.seq)).getD 0

/-- `validate_selected_replacement_tx`. -/
def validateSelectedReplacement : StoreResult Unit :=
  validateReplacements platform outer store session (eventSeq store input + 1) input

/-! ### The target of an input -/

/-- The input that a turn started from. -/
def turnAcceptedInput (operation : OperationId)
    : StoreResult (SessionEventRecord × Value) := do
  let _ ← requireLiveSession outer store session
  match (store.turnsOf session).find? (·.operationId = operation) with
  | none => .error (.notFound operation)
  | some turn =>
    let invalid := "Turn accepted input identity is inconsistent"
    let startedId ← orInvalidEvent turn.startedEventId invalid
    let started ← orInvalidEvent (eventByEventId store startedId) invalid
    if turn.turnId ≠ operation || started.agentSessionId ≠ session ||
        started.kind ≠ "turn/started" || started.kindVersion ≠ 1 ||
        started.producerId ≠ "session_api" || started.correlationId ≠ operation then
      invalidEvent invalid
    let rootId ← orInvalidEvent started.causationEventId invalid
    let root ← orInvalidEvent (eventByEventId store rootId) invalid
    let payload ← payloadValueForEvent platform outer store started
    if root.agentSessionId ≠ session || started.seq ≤ root.seq ||
        root.kind ≠ "message/user-accepted" || root.kindVersion ≠ 1 ||
        root.producerId ≠ started.producerId || root.correlationId ≠ root.eventId ||
        turn.sourceMessageId ≠ some root.eventId ||
        (payload.member "source_message_id").bind Value.asStr ≠ some root.eventId ||
        (payload.member "operation_id").bind Value.asStr ≠ some operation then
      invalidEvent invalid
    return (root, ← payloadValueForEvent platform outer store root)

def channelSource (input : Value) : StoreResult (Option ChannelInputSource) :=
  match ChannelInputSource.fromInput platform input with
  | .ok source => .ok source
  | .error problem => invalidPayload problem

def checkObservedTurn (intent : Option SessionInputDeliveryIntent) : StoreResult Unit :=
  match intent with
  | some (.preferCurrent turnId) => validateUuidv7 turnId "observed Turn source"
  | some .queue | none => .ok ()

def steeringMetadataEligible (id : EventId) (seq : Nat) (routing : Value) (targetSource : EventId)
    (receiver : Option ChannelInputSource) (state : QueueState) :
    StoreResult Bool := do
  let intent ← state.intentMetadata id routing
  checkObservedTurn intent
  if (← state.heldMetadata id seq routing) || (routing.member "reply_to").isSome then return false
  else if intent = some .queue || intent.any (fun intent => intent matches .preferCurrent _ &&
        intent ≠ .preferCurrent targetSource) then return false
  else return ChannelInputSource.sameDestination receiver (← channelSource platform routing)

def steeringEligible (input : PendingSessionInput) (target : OperationId) (state : QueueState) :
    StoreResult Bool := do
  let root ← turnAcceptedInput platform outer store session target
  let receiver ← channelSource platform root.2
  steeringMetadataEligible platform input.event.eventId input.event.seq input.input root.1.eventId
    receiver state

/-- An input with its number and whether the composer wrote it. -/
structure EligibleRoot where
  id : EventId
  seq : Nat
  composer : Bool

def eligibleRoot : StoreResult (Option EligibleRoot) := do
  let routing ← match extracted store event ["delivery_intent"] with
    | none => .ok (Value.object [])
    | some value =>
      (parseExtracted platform value).map fun intent => .object [("delivery_intent", intent)]
  match ← desktopDeliveryIntent routing with
  | none => .ok ()
  | some intent => validateDeliveryTarget store session intent
  if ← state.heldMetadata event.eventId event.seq routing then return none
  else return some ⟨event.eventId, event.seq, (routing.member "delivery_intent").isSome⟩

/-- The input that would start the next turn. -/
def firstEligibleRoot : StoreResult (Option EventId) := do
  let owner ← requireLiveSession outer store session
  let rows := (store.eventsOf session).filter
    (isPending platform store session (sessionInputNamespace owner session) none false)
  let eligible ← rows.filterMapM (eligibleRoot platform store session state)
  let placed := eligible.insertionSort fun first second =>
    state.originalPlace first.id first.seq ≤ state.originalPlace second.id second.seq
  match placed with
  | [] => return none
  | first :: _ =>
    if !first.composer then return some first.id
    else
      let composer := (placed.filter (·.composer)).insertionSort fun first second =>
        state.precedes (first.id, first.seq) (second.id, second.seq)
      return composer.head?.map (·.id)

end

/-! ### What the readers found -/

variable {σ : Type} {store : Store (Records σ)} {session : AgentSessionId} {input : EventId}
  {accepted : PendingSessionInput}

/-- What an accepted input is. -/
structure Accepted (store : Store (Records σ)) (session : AgentSessionId) (input : EventId)
    (accepted : PendingSessionInput) : Prop where
  found : eventByEventId store input = some accepted.event
  session : accepted.event.agentSessionId = session

theorem Accepted.member (is : Accepted store session input accepted) :
    accepted.event ∈ store.events :=
  List.mem_of_find?_eq_some is.found

theorem Accepted.eventId (is : Accepted store session input accepted) :
    accepted.event.eventId = input := by
  have found : store.events.find? (·.eventId = input) = some accepted.event := is.found
  simpa using List.find?_some found

theorem acceptedInput_ok (ok : acceptedInput platform outer store session input = .ok accepted) :
    Accepted store session input accepted := by
  unfold acceptedInput at ok
  cases found : eventByEventId store input with
  | none => simp [found] at ok
  | some event =>
    simp only [found, invalidEvent, bind_eq_ok, guard_eq_ok] at ok
    obtain ⟨owner, -, exact', value, -, _, -, done⟩ := ok
    cases done
    simp only [Bool.or_eq_true, decide_eq_true_eq, not_or, not_not] at exact'
    exact ⟨found, exact'.1⟩

theorem cancelledInput_none {accepted : SessionEventRecord}
    (ok : cancelledInput platform outer store accepted = .ok none) :
    ∀ event ∈ store.events, event.eventId ≠ cancellationId accepted.eventId := by
  unfold cancelledInput at ok
  cases found : eventByEventId store (cancellationId accepted.eventId) with
  | none => simpa [eventByEventId] using found
  | some event =>
    simp only [found, invalidEvent, bind_eq_ok, guard_eq_ok] at ok
    obtain ⟨_, -, _, -, _, -, -, impossible⟩ := ok
    cases impossible

end Nomifun.Source.AgentSession
