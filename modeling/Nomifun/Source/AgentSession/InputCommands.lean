import Nomifun.Source.AgentSession.Canonical
import Nomifun.Source.AgentSession.InputViews

/-!
# Commands on session inputs

nomifun-agent-session, session_input.rs:484-535 and 563-641, session_input_queue.rs:380-506 and
532-570; store.rs:8759-8761. Each command is one transaction: it reads the store, appends events
and commits, or fails and leaves the store as it was. Commands that commit without an append
return the store they were given.
-/
namespace Nomifun.Source.AgentSession
open Library.Json Library.RustText Source.AgentContracts

/-- The result of `new_event_id`: the canonical text of a version 7 UUID. -/
structure NewEventId where
  text : EventId
  uuid : validateUuidv7 text "event_id" = .ok ()

/-! ### The events that commands append -/

section

variable (session : AgentSessionId) (input : EventId)

def acceptedAppend (id producer key cause : String) (input : Value) : SessionEventAppend :=
  ⟨session, id, producer, key, ⟨"message/user-accepted", 1, id, some cause, .inlineJson input⟩⟩

def claimKey : String := "session-input-claim:" ++ input

section

variable (id input : EventId) (operation : OperationId) (admission : Value)
  (reason : SessionInputBlockedReason)

/-- The payload of a turn's start, with what the admission says of the route. -/
def turnClaimPayload : Value :=
  let fields := ["route_identity", "resolved_snapshot_ref"].filterMap fun field =>
    (admission.member field).map fun value => (field, value)
  .object (fields.foldl (fun entries field => insertEntry field.1 field.2 entries)
    [("admission", admission), ("operation_id", .string operation),
      ("source_message_id", .string input)])

def turnClaimAppend : SessionEventAppend :=
  ⟨session, id, "session_api", claimKey input, ⟨"turn/started", 1, operation, some input,
    .inlineJson (turnClaimPayload input operation admission)⟩⟩

def steeringClaimAppend (target : OperationId) : SessionEventAppend :=
  ⟨session, id, "session_api", claimKey input, ⟨"turn/steer-accepted", 2, target, some input,
    .inlineJson (.object [("input_event_id", .string input),
      ("target_operation_id", .string target)])⟩⟩

def blockedId : EventId :=
  "session-input-blocked:" ++ input ++ ":" ++ reason.identity

def blockedAppend : SessionEventAppend :=
  ⟨session, blockedId input reason, "runtime_supervisor", blockedId input reason,
    ⟨"message/input-blocked", 1, input, some input,
      .inlineJson (.object [("input_event_id", .string input),
        ("reason", SessionInputBlockedReason.codec.encode reason)])⟩⟩

end

def queueChangeAppend (id identity cause : String) (change : SessionInputQueueChanged)
    : SessionEventAppend :=
  ⟨session, id, "session_api", identity, ⟨queueChanged, 1, session, some cause,
    .inlineJson (SessionInputQueueChanged.codec.encode change)⟩⟩

end

variable {σ : Type} (platform : Platform) (outer : Outer σ) (now : Int)

/-- `append_event_tx` without a payload record. -/
def appendInline (append : SessionEventAppend) (store : Store (Records σ)) :
    StoreResult (Store (Records σ) × SessionEventAppendResult) :=
  appendEvent platform (canonical platform outer) now append none store

/-! ### Accepting an input -/

def maxInputBytes : Nat := 16 * 1024

def checkInputEnvelope (input : Value) : StoreResult Unit := do
  let invalid := "invalid permanent Session input envelope"
  if ((input.member "content").bind Value.asStr).all fun content =>
      (trim content).isEmpty || content.utf8ByteSize > maxInputBytes then invalidPayload invalid
  let bytes ← canonicalBytes platform input
  if bytes.length > maxInlineJsonBytes || (input.member "admission").isSome then
    invalidPayload invalid

variable (owner : PrincipalRef) (store : Store (Records σ)) (session : AgentSessionId)
  (key : String) (identity : String) (input : EventId) (snapshot : SessionInputQueueSnapshot)
  (action : SessionInputQueueAction) (expectedVersion : Option Nat)

/-- The session has a turn or a message. -/
def occupied : Bool :=
  !(store.turnsOf session).isEmpty ||
    (store.eventsOf session).any fun event => (stripStart "message/" event.kind).isSome

def acceptSessionInputInner (checks : InputChecks σ) (owner : PrincipalRef)
    (session : AgentSessionId) (producer key : String) (input : Value) (initialOnly : Bool)
    (id : NewEventId) (store : Store (Records σ)) :
    StoreResult (Store (Records σ) × SessionEventAppendResult) := do
  checkInputEnvelope platform input
  let key ← commandKey platform owner session key
  if (← requireLiveSession outer store session) ≠ owner then .error .executionFenced
  match eventByProducerKey store producer key with
  | some record =>
    let accepted ← acceptedInput platform outer store session record.eventId
    if accepted.input ≠ input then
      .error (.idempotencyConflict "Session input key was reused with different content")
    return (store, persistedResult record true)
  | none =>
    validateDeliveryEnvelope store session input
    if initialOnly && occupied store session then
      .error (.conflict "initial-only Session input requires an empty message and Turn history")
    checkReply platform outer checks store session input
    validateInputSource checks store session input
    let cause ← latestTurnBoundaryEvent store session
    appendInline platform outer now (acceptedAppend session id.text producer key cause input) store

def acceptSessionInput (checks : InputChecks σ) (owner : PrincipalRef) (session : AgentSessionId)
    (producer key : String) (input : Value) (id : NewEventId) (store : Store (Records σ)) :
    StoreResult (Store (Records σ) × SessionEventAppendResult) :=
  acceptSessionInputInner platform outer now checks owner session producer key input false id store

/-! ### Claiming an input -/

/-- The input is the first that may start a turn; inputs that the composer did not write do not
wait for others. -/
def isFirstEligible (accepted : PendingSessionInput) (queue : QueueState)
    : StoreResult Bool := do
  if (← desktopDeliveryIntent accepted.input).isNone then return true
  else do
    let candidates ← pendingInputs platform outer store session (some input) false
    let eligible ← candidates.filterMapM fun candidate => do
      if ← queue.held candidate then return none else return some candidate
    let sorted ← queue.sort eligible
    return sorted.head?.any (·.event.eventId = input)

/-- Whether the input can start a turn now. -/
def turnClaimable : StoreResult Bool := do
  let accepted ← acceptedInput platform outer store session input
  validateSelectedReplacement platform outer store session input
  if (← cancelledInput platform outer store accepted.event).isSome then return false
  else do
    let queue ← queueState platform outer store session
    if (← queue.held accepted) || accepted.event.seq ≤ contextFloor store session ||
        inputClaimed platform store session input then return false
    else do
      let head ← store.headById session
      if head.status ≠ .ready || head.activeTurnId.isSome then return false
      else if unsettledEffect store session then .error .recoveryRequiresReconciliation
      else isFirstEligible platform outer store session input accepted queue

def tryClaimSessionInputAsTurn (operation : OperationId) (admission : Value) (id : NewEventId)
    (store : Store (Records σ)) :
    StoreResult (Store (Records σ) × Option SessionEventAppendResult) := do
  if (← requireLiveSession outer store session) ≠ owner then .error .executionFenced
  if ← turnClaimable platform outer store session input then
    let appended ← appendInline platform outer now
      (turnClaimAppend session id.text input operation admission) store
    return (appended.1, some appended.2)
  else return (store, none)

/-- Whether the running turn can take the input as steering now. -/
def steeringClaimable (target : OperationId) : StoreResult Bool := do
  let accepted ← acceptedInput platform outer store session input
  validateSelectedReplacement platform outer store session input
  if (← cancelledInput platform outer store accepted.event).isSome then return false
  else do
    let head ← store.headById session
    if head.status ≠ .running || head.activeTurnId ≠ some target then return false
    else do
      let queue ← queueState platform outer store session
      let eligible ← steeringEligible platform outer store session accepted target queue
      if !eligible || accepted.event.seq ≤ contextFloor store session ||
          inputClaimed platform store session input then return false
      else if store.rest.effects.any fun row => row.sessionId = session && row.state = .unknown then
        .error .recoveryRequiresReconciliation
      else return true

def tryClaimSessionInputAsSteering (target : OperationId) (id : NewEventId)
    (store : Store (Records σ)) :
    StoreResult (Store (Records σ) × Option SessionEventAppendResult) := do
  if (← requireLiveSession outer store session) ≠ owner then .error .executionFenced
  if ← steeringClaimable platform outer store session input target then
    let appended ← appendInline platform outer now
      (steeringClaimAppend session id.text input target) store
    return (appended.1, some appended.2)
  else return (store, none)

/-! ### Blocking and cancelling an input -/

def markSessionInputBlocked (reason : SessionInputBlockedReason) (store : Store (Records σ)) :
    StoreResult (Store (Records σ)) := do
  let accepted ← acceptedInput platform outer store session input
  if (← cancelledInput platform outer store accepted.event).isSome ||
      inputClaimed platform store session input then return store
  else do
    let appended ← appendInline platform outer now (blockedAppend session input reason) store
    return appended.1

def cancelPendingInput (store : Store (Records σ)) (input : EventId) :
    StoreResult (Store (Records σ)) := do
  if inputClaimed platform store session input then
    .error (.conflict "input has already been claimed")
  let appended ← appendInline platform outer now
    (blockedAppend session input .cancelledByOwner) store
  return appended.1

def appendQueueChange (change : SessionInputQueueChanged) (id : NewEventId)
    (store : Store (Records σ)) : StoreResult (Store (Records σ)) := do
  let cause ← latestTurnBoundaryEvent store session
  let appended ← appendInline platform outer now
    (queueChangeAppend session id.text identity cause change) store
  return appended.1

/-! ### Receipts of queue commands -/

def queueReceiptMatches : StoreResult Bool :=
  match eventByProducerKey store "session_api" identity with
  | none => .ok false
  | some event => do
    if event.agentSessionId ≠ session || event.kind ≠ queueChanged || event.kindVersion ≠ 1 then
      .error (.idempotencyConflict "queue key belongs to a different original fact")
    let payload ← payloadValueForEvent platform outer store event
    validateQueueEvent event payload
    let original ← fromValue SessionInputQueueChanged.codec.decode payload
    if original.action ≠ .control action || original.expectedVersion ≠ expectedVersion then
      .error (.idempotencyConflict "queue key was reused for another command")
    return true

def replacementReceipt (messageId : EventId) (content : String) (expectedVersion : Option Nat) :
    StoreResult Bool :=
  match eventByProducerKey store "session_api" identity with
  | none => .ok false
  | some event => do
    let payload ← payloadValueForEvent platform outer store event
    if event.agentSessionId ≠ session || event.kind ≠ queueChanged then
      .error (.idempotencyConflict "queue key belongs to another fact")
    validateQueueEvent event payload
    validateReferences platform outer store event payload
    let change ← fromValue SessionInputQueueChanged.codec.decode payload
    let reused := SessionStoreError.idempotencyConflict
      "queue key was reused for another replacement"
    match change.action with
    | .control _ => .error reused
    | .replace old replacementMessageId =>
      if change.expectedVersion ≠ expectedVersion then .error reused
      let replacement ← acceptedInput platform outer store session replacementMessageId
      if old ≠ messageId || (replacement.input.get "content").asStr ≠ some content then
        .error reused
      return true

/-! ### Queue commands -/

/-- What an action asks of the inputs it names. -/
def checkPending : StoreResult Unit :=
  let pending := snapshot.items.map (·.messageId)
  match action with
  | .remove messageId | .promote messageId _ =>
    if messageId ∉ pending then .error (.conflict "input is no longer pending") else .ok ()
  | .reorder messageIds =>
    if messageIds.length ≠ pending.toFinset.card || messageIds.toFinset ≠ pending.toFinset then
      .error (.conflict "reorder must name every exact pending input once")
    else .ok ()
  | .pause | .resume | .clear => .ok ()

def checkPromotion : StoreResult Unit :=
  match action with
  | .promote messageId turnId => do
    if snapshot.items.any fun item =>
        item.messageId = messageId && item.inputDelivery.state = .blocked then
      .error (.conflict "blocked input must be edited or removed before another submission")
    validateDeliveryTarget store session (.preferCurrent turnId)
    let active := store.heads[session]?.bind fun head =>
      if head.status = .running then head.activeTurnId else none
    let turn := active.bind fun operation =>
      (store.turnsOf session).find? (·.operationId = operation)
    let source ← match turn with
      | none => .ok none
      | some turn => (orSqlite turn.sourceMessageId).map some
    if source ≠ some turnId then .error (.conflict "observed Turn is no longer active")
  | .pause | .resume | .remove _ | .clear | .reorder _ => .ok ()

/-- The inputs that an action cancels. -/
def cancelledBy : SessionInputQueueAction → List EventId
  | .remove messageId => [messageId]
  | .clear => (snapshot.items.filter (·.inputDelivery.placement = .queued)).map (·.messageId)
  | .pause | .resume | .reorder _ | .promote _ _ => []

def queueChangeFor (lastSeq : Nat) : SessionInputQueueChanged :=
  { action := .control action
    expectedVersion := expectedVersion
    throughSeq := if action = .pause then some lastSeq else none
    exceptMessageIds := if action = .pause
      then (snapshot.items.filter (·.inputDelivery.placement ≠ .queued)).map (·.messageId)
      else [] }

def updateSessionInputQueue (id : NewEventId) (store : Store (Records σ)) :
    StoreResult (Store (Records σ) × SessionInputQueueSnapshot) := do
  if (← requireLiveSession outer store session) ≠ owner then .error .executionFenced
  let identity ← queueCommandKey platform owner session key
  if ← queueReceiptMatches platform outer store session identity action expectedVersion then
    return (store, ← queueSnapshot platform outer store session)
  else do
    let snapshot ← queueSnapshot platform outer store session
    if expectedVersion.any (· ≠ snapshot.version) then
      .error (.conflict "input queue changed; refresh before applying this command")
    checkPending snapshot action
    checkPromotion store session snapshot action
    let head ← store.headById session
    let cancelled ← (cancelledBy snapshot action).foldlM
      (cancelPendingInput platform outer now session) store
    let changed ← appendQueueChange platform outer now session identity
      (queueChangeFor snapshot action expectedVersion head.lastSeq) id cancelled
    return (changed, ← queueSnapshot platform outer changed session)

/-- An edit of a pending input: it is cancelled and accepted anew with the new text. -/
def replaceSessionInput (messageId : EventId) (content : String) (expectedVersion : Option Nat)
    (replacementId id : NewEventId) (store : Store (Records σ)) :
    StoreResult (Store (Records σ) × SessionInputQueueSnapshot) := do
  if (trim content).isEmpty || content.utf8ByteSize > maxInputBytes then
    invalidPayload "replacement text requires non-empty content within 16 KiB"
  if (← requireLiveSession outer store session) ≠ owner then .error .executionFenced
  let identity ← queueCommandKey platform owner session key
  if ← replacementReceipt platform outer store session identity messageId content
      expectedVersion then
    return (store, ← queueSnapshot platform outer store session)
  else do
    let snapshot ← queueSnapshot platform outer store session
    if expectedVersion.any (· ≠ snapshot.version) then
      .error (.conflict "input queue changed; refresh before editing")
    if messageId ∉ snapshot.items.map (·.messageId) then
      .error (.conflict "input is no longer pending")
    let original ← acceptedInput platform outer store session messageId
    let replacement := withContent original.input (.string content)
    let bytes ← canonicalBytes platform replacement
    if bytes.length > maxInlineJsonBytes then
      invalidPayload "replacement input envelope exceeds its bound"
    let cause ← latestTurnBoundaryEvent store session
    let acceptedKey ← commandKey platform owner session ("queue-replacement:" ++ identity)
    let cancelled ← cancelPendingInput platform outer now session store messageId
    let accepted ← appendInline platform outer now
      (acceptedAppend session replacementId.text "session_api" acceptedKey cause replacement)
      cancelled
    let changed ← appendQueueChange platform outer now session identity
      ⟨.replace messageId replacementId.text, expectedVersion, none, []⟩ id accepted.1
    return (changed, ← queueSnapshot platform outer changed session)

def updateSessionInputQueueCommand (command : SessionInputQueueCommand)
    (expectedVersion : Option Nat) (replacementId id : NewEventId) (store : Store (Records σ)) :
    StoreResult (Store (Records σ) × SessionInputQueueSnapshot) :=
  match command with
  | .control action =>
    updateSessionInputQueue platform outer now owner session key action expectedVersion id store
  | .replace messageId content =>
    replaceSessionInput platform outer now owner session key messageId content expectedVersion
      replacementId id store

end Nomifun.Source.AgentSession
