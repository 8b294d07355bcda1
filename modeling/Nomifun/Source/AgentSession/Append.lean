import Nomifun.Source.AgentSession.Projections

/-!
# Appending an event

nomifun-agent-session, store.rs:355-363 and 5068-5354. The steps of the append that do not write
the four tables of `Store` (payload storage, content sharing, domain admission, the effect rules,
the semantic checks of single kinds, the message projection) are the fields of `Surroundings`:
an append is modelled, and proved about, for every choice of them.
-/
namespace Nomifun.Source.AgentSession
open Library Library.Json Library.MachineInt Source.AgentContracts

inductive AppendSessionStatePolicy where
  | liveOnly | effectSettlement | knowledgeWritebackSettlement | processOwnerRelease | sshLinkClose
  | deleteCleanupUncertainty

structure SessionEventCursor where
  agentSessionId : AgentSessionId
  seq : Nat

structure SessionEventAck where
  agentSessionId : AgentSessionId
  eventId : EventId
  seq : Nat
  cursor : SessionEventCursor

structure SessionEventAppendResult where
  record : Option SessionEventRecord
  ack : Option SessionEventAck
  cursor : SessionEventCursor
  persisted : Bool
  duplicate : Bool

def eventAck (event : SessionEventRecord) : SessionEventAck where
  agentSessionId := event.agentSessionId
  eventId := event.eventId
  seq := event.seq
  cursor := ⟨event.agentSessionId, event.seq⟩

def persistedResult (record : SessionEventRecord) (duplicate : Bool) :
    SessionEventAppendResult where
  record := some record
  ack := some (eventAck record)
  cursor := (eventAck record).cursor
  persisted := true
  duplicate := duplicate

/-- What `shared_content::prepare` makes of an append: of the event it changes the payload only. -/
structure Prepared (ρ : Type) where
  payload : SessionEventPayloadRef
  envelope : Option ρ
  contents : List ρ

/-- The steps of an append on other tables. `ρ` is the type of stored payloads. -/
structure Surroundings (σ ρ : Type) where
  prepare : Store σ → SessionEventAppend → Option ρ → StoreResult (Prepared ρ)
  liveFromRow : Store σ → AgentSessionId → StoreResult Unit
  duplicateContent : Store σ → SessionEventAppend → Option ρ →
    StoreResult (Option SessionEventRecord)
  insertPayloads : Store σ → SessionEventAppend → Prepared ρ → StoreResult σ
  ensureRemoteSessionAdmitted : Store σ → AgentSessionId → StoreResult Unit
  checkDomainWorkAdmission : Store σ → AgentSessionId → OperationId → StoreResult Unit
  validateEffectTransition : Store σ → SessionEventAppend → StoreResult Unit
  validatePayloadReference : Store σ → SessionEventAppend → StoreResult (Option Value)
  hydrate : Store σ → SessionEventRecord → Value → StoreResult Value
  validateSemanticEvent : Store σ → SessionEventRecord → Value → StoreResult Unit
  projectEffectFact : Store σ → SessionEventRecord → Value → StoreResult σ
  projectMessages : Store σ → SessionEventRecord → Value → StoreResult σ

variable {σ ρ : Type} (platform : Platform) (around : Surroundings σ ρ)

/-! ### Which sessions an append may write -/

/-- The policies that also write to a session being deleted. -/
def settlementStates (session : AgentSessionId) (row : SessionRow) :
    StoreResult (List SessionState) :=
  match row.state with
  | .live | .deleting => .ok [.live, .deleting]
  | .deleted => .error (.deleted session)

section

variable (now : Int) (store : Store σ) (append : SessionEventAppend)
  (entry : SessionEventRegistryEntry) (permitted : List SessionState)

def liveStates (row : SessionRow) : StoreResult (List SessionState) := do
  let session := append.agentSessionId
  if row.state ≠ .live then .error (.deleted session)
  -- The transaction that creates a session has no opening fact to read yet.
  else if append.semanticEvent.kind = "session/opening" && row.nextSeq = some 1 &&
      (store.openingJson session).isNone then .ok [.live]
  else do
    around.liveFromRow store session
    .ok [.live]

def permittedStates (policy : AppendSessionStatePolicy) (store : Store σ)
    (append : SessionEventAppend) (row : SessionRow) : StoreResult (List SessionState) :=
  let kind := append.semanticEvent.kind
  match policy with
  | .liveOnly => liveStates around store append row
  | .effectSettlement =>
    if kind ∈ ["effect/succeeded", "effect/failed", "effect/uncertain", "effect/reconciled"] then
      settlementStates append.agentSessionId row
    else invalidEvent "deleting Session append authority is limited to effect settlement"
  | .knowledgeWritebackSettlement =>
    if kind = "turn/knowledge-writeback-settled" then settlementStates append.agentSessionId row
    else .error .executionFenced
  | .processOwnerRelease =>
    if kind ∈ ["session/process-owner-released", "session/process-reaped"] then
      settlementStates append.agentSessionId row
    else .error .executionFenced
  | .sshLinkClose =>
    if kind ∈ ["session/ssh-link-close-requested", "session/ssh-link-closed"] then
      settlementStates append.agentSessionId row
    else .error .executionFenced
  | .deleteCleanupUncertainty =>
    if kind ∈ ["resource/cleanup-started", "resource/cleanup-succeeded",
        "resource/cleanup-uncertain", "resource/cleanup-reconciled", "resource/cleanup-override",
        "deletion/effect-override"] then
      match row.state with
      | .deleting => .ok [.deleting]
      | .live => .error (.conflict "resource cleanup uncertainty requires a committed delete fence")
      | .deleted => .error (.deleted append.agentSessionId)
    else invalidEvent "delete cleanup append authority is limited to cleanup reconciliation"

/-! ### Admission of a new event -/

/-- A tool call is admitted for the turn whose start caused it. A missing cause selects no turn,
as NULL does in the query. -/
def checkToolAdmission : StoreResult Unit := do
  let row ← orInvalidEvent (append.semanticEvent.causationEventId.bind fun cause =>
    (store.turnsOf append.agentSessionId).find? (·.startedEventId = some cause))
    "tool admission has no original Turn"
  around.checkDomainWorkAdmission store append.agentSessionId row.operationId

/-- The gates of the domain that owns the session, and the head that the next checks use. -/
def checkAdmission : StoreResult SessionHeadProjection := do
  let session := append.agentSessionId
  let kind := append.semanticEvent.kind
  onlyIf (kind ∈ ["message/user-accepted", "turn/started", "turn/steer-accepted"])
    (around.ensureRemoteSessionAdmitted store session)
  let head ← store.headById session
  onlyIf (kind = "context/model-visible-applied")
    (around.checkDomainWorkAdmission store session append.semanticEvent.correlationId)
  onlyIf (kind = "tool/call-started") (checkToolAdmission around store append)
  return head

def checkEvent : StoreResult (Option Value) := do
  let log := store.eventsOf append.agentSessionId
  let head ← checkAdmission around store append
  validateSessionEventTransition head append
  validateTurnLifecycle log head append
  validatePredecessor store.events log append entry
  around.validateEffectTransition store append
  around.validatePayloadReference store append

/-! ### Writing it -/

/-- `UPDATE agent_sessions SET next_seq = next_seq + 1 … RETURNING next_seq - 1`. The column takes
no number beyond the range of a 64-bit integer. -/
def takeSeq (session : AgentSessionId) (permitted : List SessionState) :
    StoreResult (Nat × Store σ) :=
  match store.sessions[session]? with
  | none => .error (.deleted session)
  | some row =>
    if row.state ∉ permitted then .error (.deleted session)
    else
      match row.nextSeq with
      | none => .error .sqlite
      | some seq =>
        if i64Max < seq + 1 then .error .sqlite
        else .ok (seq, { store with
          sessions := store.sessions.insert session { row with nextSeq := some (seq + 1) } })

/-- The unique keys of the event table. -/
def insertEvent (record : SessionEventRecord) : StoreResult (Store σ) :=
  if store.events.any fun event =>
      (event.agentSessionId = record.agentSessionId && event.seq = record.seq) ||
        event.eventId = record.eventId || (event.producerId = record.producerId &&
          event.idempotencyKey = record.idempotencyKey) then .error .sqlite
  else .ok { store with events := store.events ++ [record] }

def payloadValue (event : SessionEventRecord) (storedBody : Option Value) : Value :=
  match event.payload with
  | .empty => .null
  | .inlineJson value => value
  | .stored _ => storedBody.getD .null

def eventUsesAgentMessages : Bool :=
  "message-projection" ∈ entry.reducers

def projectHead (record : SessionEventRecord) (payload : Value) : StoreResult (Store σ) := do
  let head ← store.headById record.agentSessionId
  let reduced ← reduceHead platform head record payload
  storableHead reduced
  return { store with heads := store.heads.insert record.agentSessionId reduced }

def writeEvent (storedBody : Option Value)
    : StoreResult (Store σ × SessionEventRecord) := do
  let taken ← takeSeq store append.agentSessionId permitted
  let record := recordFromAppend append taken.1
  let store ← insertEvent taken.2 record
  let payload ← around.hydrate store record (payloadValue record storedBody)
  around.validateSemanticEvent store record payload
  let turns ← projectTurnFact now record payload store.turns
  let store := { store with turns := turns }
  let rest ← around.projectEffectFact store record payload
  let store ← projectHead platform { store with rest := rest } record payload
  if eventUsesAgentMessages entry then
    let rest ← around.projectMessages store record payload
    return ({ store with rest := rest }, record)
  else return (store, record)

def transientResult (prepared : Prepared ρ) : StoreResult SessionEventAppendResult := do
  if prepared.envelope.isSome || prepared.payload matches .stored _ then
    .error (.invalidPayload "transient diagnostics cannot create stored payload facts")
  let head ← store.headById append.agentSessionId
  return { record := none
           ack := none
           cursor := ⟨append.agentSessionId, head.lastSeq⟩
           persisted := false
           duplicate := false }

/-- An event that is persistent and not the duplicate of a shared one. -/
def appendPersistent (prepared : Prepared ρ) (store : Store σ)
    : StoreResult (Store σ × SessionEventAppendResult) := do
  let store := { store with rest := ← around.insertPayloads store append prepared }
  match ← duplicateEvent store.events append with
  | some record => return (store, persistedResult record true)
  | none =>
    let storedBody ← checkEvent around store append entry
    let written ← writeEvent platform around now store append entry permitted storedBody
    return (written.1, persistedResult written.2 false)

end

def appendEventWithPolicy (policy : AppendSessionStatePolicy) (now : Int)
    (semanticAppend : SessionEventAppend) (payload : Option ρ) (store : Store σ) :
    StoreResult (Store σ × SessionEventAppendResult) := do
  validateEventAppend platform semanticAppend
  let prepared ← around.prepare store semanticAppend payload
  let append := { semanticAppend with
    semanticEvent := { semanticAppend.semanticEvent with payload := prepared.payload } }
  let entry ← registryEntry append.semanticEvent.kind append.semanticEvent.kindVersion
  let row ← store.sessionRowById append.agentSessionId
  let permitted ← permittedStates around policy store append row
  match entry.persistence with
  | .transientDiagnostic =>
    let result ← transientResult store append prepared
    return (store, result)
  | .persistent =>
    match ← around.duplicateContent store semanticAppend payload with
    | some record => return (store, persistedResult record true)
    | none => appendPersistent platform around now append entry permitted prepared store

/-- `append_event_tx`. -/
def appendEvent : Int → SessionEventAppend → Option ρ → Store σ →
    StoreResult (Store σ × SessionEventAppendResult) :=
  appendEventWithPolicy platform around .liveOnly

end Nomifun.Source.AgentSession
