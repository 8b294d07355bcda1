import Nomifun.Library.Table
import Nomifun.Source.AgentSession.Events

/-!
# The tables of a session

nomifun-db, 001_canonical_baseline.sql:70-91, 541-550, 571-606 and 608-651; the checks of an
append that read them, nomifun-agent-session, store.rs:5357-5421, 5519-5571, 6511-6620 and
8742-8746. Each table has the columns that an append reads or writes; the other tables are
behind the type `σ`. A JSON column holds the value instead of its text.
-/
namespace Nomifun.Source.AgentSession
open Library Library.Json Library.MachineInt Source.AgentContracts

inductive SessionState where
  | live | deleting | deleted
  deriving DecidableEq

inductive HeadStatus where
  | opening | ready | openFailed | running | paused | reconciliation | failed
  deriving DecidableEq

def HeadStatus.text : HeadStatus → String
  | .opening => "opening"
  | .ready => "ready"
  | .openFailed => "open_failed"
  | .running => "running"
  | .paused => "paused"
  | .reconciliation => "reconciliation"
  | .failed => "failed"

inductive TurnState where
  | accepted | running | completed | failed | cancelled | interrupted
  deriving DecidableEq

structure SessionRow where
  state : SessionState
  nextSeq : Option Nat

structure SessionHeadProjection where
  sessionId : AgentSessionId
  status : HeadStatus
  activeTurnId : Option OperationId
  (activeSetGeneration lastSeq unreadCount : Nat)

def initialHead (sessionId : AgentSessionId) : SessionHeadProjection where
  sessionId := sessionId
  status := .opening
  activeTurnId := none
  activeSetGeneration := 0
  lastSeq := 0
  unreadCount := 0

structure NativePauseState where
  revision : Nat
  reason : String
  checkpointRevision : Nat
  checkpointDigest : Option DigestHex
  executionFence : Nat
  cleanupProven : Bool
  pausedAtMs : Int

structure NativeExecutionBudget where
  (revision journalBytes journalRecords sessionPayloadBytes : Nat)

structure TurnRow where
  sessionId : AgentSessionId
  turnId : String
  operationId : OperationId
  idempotencyKey : String
  sourceMessageId : Option String
  admission : Option Value
  state : TurnState
  (startedEventId terminalEventId : Option EventId)
  acceptedAt : Nat
  (startedAt finishedAt : Option Nat)
  nativeCheckpoint : Option Value
  nativeCheckpointDigest : Option DigestHex
  nativeCheckpointSeq : Option Nat
  executionFence : Nat
  executionGeneration : Nat
  executionLeaseUntil : Int
  nativePauseRevision : Nat
  nativePause : Option NativePauseState
  nativePauseRequested : Option Value
  nativeBudget : Option NativeExecutionBudget

/-- The database. `events` and `turns` are in the order in which the rows were inserted. -/
structure Store (σ : Type) where
  sessions : StringMap SessionRow
  heads : StringMap SessionHeadProjection
  events : List SessionEventRecord
  turns : List TurnRow
  rest : σ

namespace Store

variable {σ : Type}

variable (store : Store σ) (session : AgentSessionId)

def eventsOf : List SessionEventRecord :=
  store.events.filter (·.agentSessionId = session)

def turnsOf : List TurnRow :=
  store.turns.filter (·.sessionId = session)

def headById : StoreResult SessionHeadProjection :=
  match store.heads[session]? with
  | some head => .ok head
  | none => .error .sqlite

def sessionRowById : StoreResult SessionRow :=
  match store.sessions[session]? with
  | some row => .ok row
  | none => .error (.notFound session)

/-- The `opening_json` column that a session row is read with. -/
def openingJson : Option Value :=
  ((store.eventsOf session).find? fun event =>
    event.seq = 1 && event.kind = "session/opening" && event.kindVersion = 1).bind fun event =>
      match event.payload with
      | .inlineJson value => some value
      | .empty | .stored _ => none

end Store

def asI64 (value : Nat) (field : String) : StoreResult Nat :=
  if value ≤ i64Max then .ok value
  else .error (.invalidSession (field ++ " exceeds SQLite INTEGER range"))

/-! ### Lifecycle checks -/

def isTurnTerminalKind (kind : String) : Bool :=
  kind = "turn/completed" || kind = "turn/failed" || kind = "turn/cancelled"

def validateSessionEventTransition (head : SessionHeadProjection) (append : SessionEventAppend) :
    StoreResult Unit :=
  let kind := append.semanticEvent.kind
  if (kind = "session/ready" || kind = "session/open-failed") && head.status ≠ .opening then
    .error (.conflict (kind ++ " requires an opening Session, found " ++ head.status.text))
  else .ok ()

section

variable (log : List SessionEventRecord) (operationId : OperationId)

/-- The first kind among the events of an operation that `selected` picks. -/
def firstKind (selected : String → Bool) : Option String :=
  (log.find? fun event => event.correlationId = operationId && selected event.kind).map (·.kind)

def firstTurnLifecycleKind : Option String :=
  firstKind log operationId fun kind => kind = "turn/started" || isTurnTerminalKind kind

def firstTurnTerminalKind : Option String :=
  firstKind log operationId isTurnTerminalKind

def turnStartedExists : Bool :=
  log.any fun event => event.correlationId = operationId && event.kind = "turn/started"

/-- `log` holds the events of the session, in order. -/
def validateTurnLifecycle (head : SessionHeadProjection) (append : SessionEventAppend)
    : StoreResult Unit :=
  let kind := append.semanticEvent.kind
  let operationId := append.semanticEvent.correlationId
  if kind = "turn/started" then
    if head.status ≠ .ready || head.activeTurnId.isSome then
      .error (.conflict "turn start requires a ready Session with no active turn")
    else
      match firstTurnLifecycleKind log operationId with
      | some existing => .error (.conflict
          ("turn operation " ++ operationId ++ " already has a committed " ++ existing ++ " fact"))
      | none => .ok ()
  else if !isTurnTerminalKind kind then .ok ()
  else
    match firstTurnTerminalKind log operationId with
    | some existing => .error (.conflict ("turn operation " ++ operationId ++
        " already crossed the terminal fence with " ++ existing))
    | none =>
      if head.status ∉ [.running, .paused, .reconciliation] ||
          head.activeTurnId ≠ some operationId then
        .error (.conflict "turn terminal requires the exact active turn boundary")
      else if !turnStartedExists log operationId then
        .error (.conflict "turn terminal requires a committed turn/started event")
      else .ok ()

end

/-- `events` holds the events of all sessions, of which the append's session has `log`. -/
def validatePredecessor (events log : List SessionEventRecord) (append : SessionEventAppend)
    (entry : SessionEventRegistryEntry) : StoreResult Unit := do
  let kind := append.semanticEvent.kind
  match entry.predecessor.mode with
  | .none =>
    if log.length ≠ 0 then
      .error (.invalidEvent (kind ++ " must be the first committed event"))
  | .anyCommitted =>
    if log.length = 0 then
      .error (.invalidEvent (kind ++ " requires a committed predecessor"))
  | .anyOf =>
    if entry.predecessor.kinds.isEmpty then
      .error (.invalidEvent (kind ++ " registry predecessor set is empty"))
    if !log.any fun event => event.kind ∈ entry.predecessor.kinds then
      .error (.invalidEvent (kind ++ " has no allowed predecessor"))
  match append.semanticEvent.causationEventId with
  | none => .ok ()
  | some cause =>
    match events.find? (·.eventId = cause) with
    | none => .error (.invalidEvent "causation event does not exist")
    | some event =>
      if event.agentSessionId = append.agentSessionId then .ok ()
      else .error (.invalidEvent "causation event belongs to another AgentSession")

def compareDuplicate (append : SessionEventAppend) (existing : SessionEventRecord) :
    StoreResult SessionEventRecord :=
  if recordFromAppend append existing.seq = existing then .ok existing
  else .error (.idempotencyConflict ("event identity/idempotency already committed at " ++
    existing.agentSessionId ++ "/" ++ toString existing.seq))

def duplicateEvent (events : List SessionEventRecord) (append : SessionEventAppend) :
    StoreResult (Option SessionEventRecord) :=
  match events.find? (·.eventId = append.eventId) with
  | some existing => (compareDuplicate append existing).map some
  | none =>
    match events.find? fun event => event.producerId = append.producerId &&
        event.idempotencyKey = append.idempotencyKey with
    | some existing => (compareDuplicate append existing).map some
    | none => .ok none

end Nomifun.Source.AgentSession
