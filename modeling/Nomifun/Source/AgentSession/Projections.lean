import Nomifun.Source.AgentSession.Tables

/-!
# What an event writes to the turn table and the session head

nomifun-agent-session, store.rs:5423-5517 and 6218-6238, projector.rs:50-119 and 565-614;
nomifun-agent-contracts, native_execution.rs:7-22 and 77-116.
-/
namespace Nomifun.Source.AgentSession
open Library.Json Library.MachineInt Library.Serde Library.Table Source.AgentContracts

def invalidEvent {α : Type} (message : String) : StoreResult α :=
  .error (.invalidEvent message)

def orInvalidEvent {α : Type} (value : Option α) (message : String) : StoreResult α :=
  match value with
  | some a => .ok a
  | none => invalidEvent message

/-- `serde_json::from_value`. -/
def fromValue {α : Type} (decode : Value → Except DecodeError α) (value : Value) : StoreResult α :=
  match decode value with
  | .ok a => .ok a
  | .error _ => .error .json

/-! ### Pause state and execution budget -/

def nativePauseStateSpec : StructSpec where
  fields := [(unsigned u64Max).field "revision", text.field "reason",
    (unsigned u64Max).field "checkpoint_revision", (nullable text).field "checkpoint_digest",
    (unsigned u64Max).field "execution_fence", boolean.field "cleanup_proven",
    (signed i64Max).field "paused_at_ms"]
  denyUnknown := true

variable (value : Value) (platform : Platform) (head : SessionHeadProjection)
  (event : SessionEventRecord) (payload : Value) (turns : List TurnRow)

def NativePauseState.decode : Except DecodeError NativePauseState := do
  let entries ← structEntries nativePauseStateSpec value
  return {
    revision := ← required entries "revision" (unsigned u64Max)
    reason := ← required entries "reason" text
    checkpointRevision := ← required entries "checkpoint_revision" (unsigned u64Max)
    checkpointDigest := ← requiredOr entries "checkpoint_digest" (nullable text) none
    executionFence := ← required entries "execution_fence" (unsigned u64Max)
    cleanupProven := ← required entries "cleanup_proven" boolean
    pausedAtMs := ← required entries "paused_at_ms" (signed i64Max) }

def nativeExecutionBudgetSpec : StructSpec where
  fields := [(unsigned u64Max).field "revision", (unsigned u64Max).field "journal_bytes",
    (unsigned u64Max).field "journal_records", (unsigned u64Max).field "session_payload_bytes"]
  denyUnknown := true

def NativeExecutionBudget.decode : Except DecodeError NativeExecutionBudget := do
  let entries ← structEntries nativeExecutionBudgetSpec value
  return {
    revision := ← required entries "revision" (unsigned u64Max)
    journalBytes := ← required entries "journal_bytes" (unsigned u64Max)
    journalRecords := ← required entries "journal_records" (unsigned u64Max)
    sessionPayloadBytes := ← required entries "session_payload_bytes" (unsigned u64Max) }

def maxNativeApprovedJournalBytes : Nat := 64 * 1024 * 1024
def maxNativeApprovedJournalRecords : Nat := 240000
def maxNativeApprovedPayloadBytes : Nat := 128 * 1024 * 1024

def NativeExecutionBudget.validate (budget : NativeExecutionBudget) : StoreResult Unit :=
  let within (low high n : Nat) : Bool := low ≤ n && n ≤ high
  if !within (16 * 1024 * 1024) maxNativeApprovedJournalBytes budget.journalBytes ||
      !within 60000 maxNativeApprovedJournalRecords budget.journalRecords ||
      !within (16 * 1024 * 1024) maxNativeApprovedPayloadBytes budget.sessionPayloadBytes then
    invalidEvent "execution allowance exceeds the compiled host safety ceiling"
  else .ok ()

/-! ### The turn table -/

def nativeExecutionLeaseMs : Int := 90000

/-- The row of an operation while its turn is running. -/
def runningTurn (row : TurnRow) : Bool :=
  row.sessionId = event.agentSessionId && row.operationId = event.correlationId &&
    row.state = .running

def projectPauseRequested : List TurnRow :=
  updateWhere (runningTurn event) (fun row => { row with nativePauseRequested := some payload })
    turns

def projectPaused : StoreResult (List TurnRow) := do
  let pause ← orInvalidEvent (payload.member "pause") "pause state missing"
  let state ← fromValue NativePauseState.decode pause
  let priorRevision ← orInvalidEvent (checkedSub state.revision 1) "pause revision must advance"
  let priorFence ← orInvalidEvent (checkedSub state.executionFence 1) "pause fence must advance"
  let revision ← asI64 state.revision "pause revision"
  let fence ← asI64 state.executionFence "execution fence"
  let priorRevision ← asI64 priorRevision "pause revision"
  let priorFence ← asI64 priorFence "execution fence"
  let selects := fun row : TurnRow => runningTurn event row && row.terminalEventId.isNone &&
    row.nativePauseRevision = priorRevision && row.executionFence = priorFence
  if rowsAffected selects turns ≠ 1 then .error .executionFenced
  else .ok (updateWhere selects (fun row =>
    { row with nativePauseRevision := revision
               nativePause := some state
               nativePauseRequested := none
               executionFence := fence
               executionLeaseUntil := 0 }) turns)

def projectResumeAuthorized : StoreResult (List TurnRow) := do
  let value ← orInvalidEvent (payload.member "budget") "resume budget missing"
  let budget ← fromValue NativeExecutionBudget.decode value
  budget.validate
  let pauseRevision ← orInvalidEvent ((payload.member "pause_revision").bind Value.asU64)
    "resume pause revision missing"
  let generation ← asI64 event.seq "resume generation"
  let pauseRevision ← asI64 pauseRevision "pause revision"
  let selects := fun row : TurnRow => runningTurn event row && row.terminalEventId.isNone &&
    row.nativePause.isSome && row.nativePauseRevision = pauseRevision
  if rowsAffected selects turns ≠ 1 then .error .executionFenced
  else .ok (updateWhere selects (fun row =>
    { row with nativePause := none
               nativePauseRequested := none
               nativeBudget := some budget
               executionLeaseUntil := 0
               executionGeneration := generation }) turns)

/-- A new row clashes with one that shares any of the table's unique keys. -/
def clashes (new row : TurnRow) : Bool :=
  row.sessionId = new.sessionId && (row.turnId = new.turnId ||
    row.operationId = new.operationId || row.idempotencyKey = new.idempotencyKey)

/-- `now` is the wall clock in milliseconds. -/
def startedTurn (now : Int) (event : SessionEventRecord) (payload : Value) : TurnRow where
  sessionId := event.agentSessionId
  turnId := event.correlationId
  operationId := event.correlationId
  idempotencyKey := event.idempotencyKey
  sourceMessageId := ((payload.member "source_message_id").or (payload.member "message_id")).bind
    Value.asStr
  admission := payload.member "admission"
  state := .running
  startedEventId := some event.eventId
  terminalEventId := none
  acceptedAt := event.seq
  startedAt := some event.seq
  finishedAt := none
  nativeCheckpoint := none
  nativeCheckpointDigest := none
  nativeCheckpointSeq := none
  executionFence := 0
  executionGeneration := 0
  executionLeaseUntil := min (now + nativeExecutionLeaseMs) i64Max
  nativePauseRevision := 0
  nativePause := none
  nativePauseRequested := none
  nativeBudget := none

section

variable (now : Int) (state : TurnState) (event : SessionEventRecord) (payload : Value)
  (turns : List TurnRow)

def projectStarted : StoreResult (List TurnRow) := do
  let _ ← asI64 event.seq "turn accepted sequence"
  let row := startedTurn now event payload
  -- The lease column does not take a negative number.
  if turns.any (clashes row) || row.executionLeaseUntil < 0 then .error .sqlite
  else .ok (turns ++ [row])

def finishedTurn (finishedAt : Nat) (row : TurnRow) : TurnRow :=
  { row with state := state
             terminalEventId := some event.eventId
             finishedAt := some finishedAt
             nativePause := none
             nativePauseRequested := none }

def projectTerminal : StoreResult (List TurnRow) := do
  let finishedAt ← asI64 event.seq "turn finished sequence"
  if rowsAffected (runningTurn event) turns ≠ 1 then
    .error (.conflict ("canonical Agent Turn " ++ event.correlationId ++ " was not running"))
  else
    let finished := updateWhere (runningTurn event) (finishedTurn state event finishedAt) turns
    -- A failed turn keeps its checkpoint for recovery.
    if state = .completed || state = .cancelled then
      .ok (updateWhere (fun row => row.sessionId = event.agentSessionId &&
          row.operationId = event.correlationId) (fun row =>
        { row with nativeCheckpoint := none
                   nativeCheckpointDigest := none
                   nativeCheckpointSeq := none }) finished)
    else .ok finished

def projectTurnFact : StoreResult (List TurnRow) :=
  match event.kind with
  | "turn/pause-requested" => .ok (projectPauseRequested event payload turns)
  | "turn/paused" => projectPaused event payload turns
  | "turn/resume-authorized" => projectResumeAuthorized event payload turns
  | "turn/started" => projectStarted now event payload turns
  | "turn/completed" => projectTerminal .completed event turns
  | "turn/failed" => projectTerminal .failed event turns
  | "turn/cancelled" => projectTerminal .cancelled event turns
  | _ => .ok turns

end

/-! ### The session head -/

/-- `windows(2).any(|pair| pair[0] >= pair[1])`. -/
def strictlySorted : List String → Bool
  | a :: b :: rest => a < b && strictlySorted (b :: rest)
  | _ => true

def validateActiveSetPayload : StoreResult Unit := do
  let items ← orInvalidEvent ((payload.member "active_capability_ids").bind Value.asArray)
    "active-set event requires active_capability_ids"
  let active ← items.mapM fun item =>
    orInvalidEvent item.asStr "active_capability_ids must contain strings"
  if !strictlySorted active then invalidEvent "active_capability_ids must be sorted and unique"
  let expected ← match digestPayload platform (.array (active.map .string)) with
    | .ok digest => .ok digest
    | .error problem => .error (.digest problem)
  let actual ← orInvalidEvent ((payload.member "active_set_digest").bind Value.asStr)
    "active-set event requires active_set_digest"
  if actual ≠ expected then
    invalidEvent "active_set_digest does not match active_capability_ids"
  else .ok ()

/-- The status after an uncertain effect. -/
def uncertainStatus : HeadStatus :=
  if (payload.member "recovery").bind Value.asStr =
      some "native_owner_verified_reconciliation" then head.status
  else if head.status ≠ .paused &&
      head.activeTurnId = (payload.member "turn_id").bind Value.asStr then .reconciliation
  else if head.activeTurnId.isNone then .failed
  else head.status

def commitActiveSet : StoreResult SessionHeadProjection := do
  let generation ← orInvalidEvent ((payload.member "generation").bind Value.asU64)
    "event payload requires integer generation"
  validateActiveSetPayload platform payload
  let next := saturatingAdd u64Max head.activeSetGeneration 1
  if 2 < event.seq ∧ generation ≠ next then
    invalidEvent ("active-set generation must advance from " ++
      toString head.activeSetGeneration ++ " to " ++ toString next ++ ", got " ++
      toString generation)
  if event.seq ≤ 2 ∧ generation ≠ 0 then
    invalidEvent "opening active-set generation must be zero"
  else .ok { head with activeSetGeneration := generation }

/-- The match of `reduce_head` on the event's kind. -/
def reduceKind : StoreResult SessionHeadProjection :=
  match event.kind with
  | "session/opening" => .ok { head with status := .opening, activeTurnId := none }
  | "session/ready" => .ok { head with status := .ready, activeTurnId := none }
  | "session/open-failed" => .ok { head with status := .openFailed, activeTurnId := none }
  | "turn/started" =>
    .ok { head with status := .running, activeTurnId := some event.correlationId }
  | "turn/paused" =>
    .ok { head with status := .paused, activeTurnId := some event.correlationId }
  | "turn/resume-authorized" =>
    .ok { head with status := .running, activeTurnId := some event.correlationId }
  | "turn/completed" | "turn/failed" | "turn/cancelled" =>
    .ok { head with status := .ready, activeTurnId := none }
  | "effect/uncertain" => .ok { head with status := uncertainStatus head payload }
  | "message/completed" =>
    .ok { head with unreadCount := saturatingAdd u64Max head.unreadCount 1 }
  | "capability/active-set-committed" => commitActiveSet platform head event payload
  | _ => .ok head

def reduceHead : StoreResult SessionHeadProjection := do
  let reduced ← reduceKind platform head event payload
  return { reduced with lastSeq := event.seq }

/-- The check of `persist_head_tx`. -/
def storableHead : StoreResult Unit := do
  let _ ← asI64 head.activeSetGeneration "active_set_generation"
  let _ ← asI64 head.lastSeq "last_seq"
  let _ ← asI64 head.unreadCount "unread_count"

end Nomifun.Source.AgentSession
