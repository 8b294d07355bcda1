import Nomifun.Library.RustText
import Nomifun.Source.AgentContracts.Digest

/-!
# Session events

nomifun-agent-contracts, event.rs:22-118 and 201-245, contracts/events/session-event-registry.json;
nomifun-agent-session, error.rs, registry.rs:39-63, store.rs:5908-5952 and 7212-7225. Of a
registry entry only what an append reads is kept.
-/
namespace Nomifun.Source.AgentSession
open Library.Json Library.RustText Source.AgentContracts

abbrev AgentSessionId := String
abbrev EventId := String
abbrev OperationId := String

/-- The errors of the store; those of the database and of JSON have no text here. -/
inductive SessionStoreError where
  | sqlite
  | json
  | digest (error : CanonicalDigestError)
  | contract (code message : String)
  | notFound (message : String)
  | deleted (message : String)
  | idempotencyConflict (message : String)
  | invalidEvent (message : String)
  | invalidPayload (message : String)
  | invalidSession (message : String)
  | conflict (message : String)
  | nativeMutationTargetUnsettled (effectId state : String)
  | checkpointNotQuiescent
  | executionFenced
  | executionLeaseActive
  | executionCapacityPending
  | recoveryRequiresReconciliation
  | registry (message : String)
  deriving DecidableEq

abbrev StoreResult := Except SessionStoreError

inductive SessionEventPayloadRef where
  | empty
  | inlineJson (value : Value)
  | stored (id : String)
  deriving DecidableEq

structure SemanticSessionEventDraft where
  kind : String
  kindVersion : Nat
  correlationId : String
  causationEventId : Option EventId
  payload : SessionEventPayloadRef

structure SessionEventAppend where
  agentSessionId : AgentSessionId
  eventId : EventId
  producerId : String
  idempotencyKey : String
  semanticEvent : SemanticSessionEventDraft

structure SessionEventRecord where
  agentSessionId : AgentSessionId
  seq : Nat
  eventId : EventId
  (producerId idempotencyKey kind : String)
  kindVersion : Nat
  correlationId : String
  causationEventId : Option EventId
  payload : SessionEventPayloadRef
  deriving DecidableEq

def recordFromAppend (append : SessionEventAppend) (seq : Nat) : SessionEventRecord where
  agentSessionId := append.agentSessionId
  seq := seq
  eventId := append.eventId
  producerId := append.producerId
  idempotencyKey := append.idempotencyKey
  kind := append.semanticEvent.kind
  kindVersion := append.semanticEvent.kindVersion
  correlationId := append.semanticEvent.correlationId
  causationEventId := append.semanticEvent.causationEventId
  payload := append.semanticEvent.payload

theorem recordFromAppend_kind (append : SessionEventAppend) (seq : Nat) :
    (recordFromAppend append seq).kind = append.semanticEvent.kind := rfl

/-! ### The registry -/

inductive SessionEventPersistence where
  | persistent | transientDiagnostic

inductive SessionEventPredecessorMode where
  | none | anyCommitted | anyOf
  deriving DecidableEq

structure SessionEventPredecessorRule where
  mode : SessionEventPredecessorMode
  kinds : List String

structure SessionEventRegistryEntry where
  kind : String
  version : Nat
  persistence : SessionEventPersistence
  predecessor : SessionEventPredecessorRule
  reducers : List String

def anyOf (kinds : List String) : SessionEventPredecessorRule := ⟨.anyOf, kinds⟩

/-- The kinds after which a session has no active turn. -/
def idleKinds : List String := ["session/ready", "turn/completed", "turn/failed", "turn/cancelled"]

def canonicalRegistry : List SessionEventRegistryEntry :=
  [⟨"session/opening", 1, .persistent, ⟨.none, []⟩, ["session-head", "message-projection"]⟩,
    ⟨"session/ready", 1, .persistent, anyOf ["session/opening"], ["session-head"]⟩,
    ⟨"session/open-failed", 1, .persistent, anyOf ["session/opening"], ["session-head"]⟩,
    ⟨"session/agent-binding-changed", 1, .persistent,
      anyOf ["session/ready", "turn/completed", "turn/failed", "turn/cancelled",
        "session/agent-binding-changed"],
      ["session-head", "message-projection"]⟩,
    ⟨"turn/started", 1, .persistent, anyOf idleKinds, ["session-head"]⟩,
    ⟨"turn/completed", 1, .persistent, anyOf ["turn/started"], ["session-head"]⟩,
    ⟨"turn/failed", 1, .persistent, anyOf ["turn/started"], ["session-head"]⟩,
    ⟨"turn/cancelled", 1, .persistent, anyOf ["turn/started"], ["session-head"]⟩,
    ⟨"turn/steer-accepted", 1, .persistent, anyOf ["turn/started"], ["message-projection"]⟩,
    ⟨"turn/steer-accepted", 2, .persistent, anyOf ["message/user-accepted"], []⟩,
    ⟨"turn/follow-up-accepted", 1, .persistent,
      anyOf ["turn/completed", "turn/failed", "turn/cancelled"], []⟩,
    ⟨"idmm/notice-recorded", 1, .persistent,
      anyOf ["message/completed", "message/assistant-projected", "turn/completed"],
      ["message-projection"]⟩,
    ⟨"message/user-accepted", 1, .persistent,
      anyOf ["session/ready", "turn/started"], ["message-projection"]⟩,
    ⟨"message/input-queue-changed", 1, .persistent, ⟨.anyCommitted, []⟩, []⟩,
    ⟨"message/input-blocked", 1, .persistent, anyOf ["message/user-accepted"], []⟩,
    ⟨"message/content-part", 1, .persistent,
      anyOf ["turn/started", "message/content-part"], ["message-projection"]⟩,
    ⟨"thinking/content-part", 1, .persistent, anyOf ["turn/started"], ["message-projection"]⟩,
    ⟨"message/completed", 1, .persistent,
      anyOf ["message/content-part", "turn/started"], ["message-projection"]⟩,
    ⟨"message/assistant-projected", 1, .persistent,
      anyOf ["session/ready", "turn/completed", "turn/failed", "turn/cancelled",
        "message/assistant-projected"],
      ["message-projection"]⟩,
    ⟨"context/model-visible-applied", 1, .persistent,
      anyOf ["turn/started", "capability/active-set-committed"], []⟩,
    ⟨"capability/active-set-committed", 1, .persistent,
      anyOf ["session/opening", "turn/completed", "turn/failed", "turn/cancelled"],
      ["session-head"]⟩,
    ⟨"context/cleared", 1, .persistent,
      anyOf ["session/ready", "turn/completed", "turn/failed", "turn/cancelled", "context/cleared"],
      []⟩,
    ⟨"capability/activation-requested", 1, .transientDiagnostic, ⟨.anyCommitted, []⟩, []⟩,
    ⟨"capability/activation-failed", 1, .transientDiagnostic, ⟨.anyCommitted, []⟩, []⟩,
    ⟨"tool/call-started", 1, .persistent, anyOf ["turn/started"], ["message-projection"]⟩,
    ⟨"tool/result-recorded", 1, .persistent, anyOf ["tool/call-started"], ["message-projection"]⟩,
    ⟨"effect/started", 1, .persistent, anyOf ["tool/call-started"], ["message-projection"]⟩,
    ⟨"effect/succeeded", 1, .persistent, anyOf ["effect/started"], ["message-projection"]⟩,
    ⟨"effect/failed", 1, .persistent, anyOf ["effect/started"], ["message-projection"]⟩,
    ⟨"effect/uncertain", 1, .persistent, anyOf ["effect/started"], ["message-projection"]⟩,
    ⟨"effect/reconciled", 1, .persistent, anyOf ["effect/uncertain"], ["message-projection"]⟩,
    ⟨"automation/config-committed", 1, .persistent, ⟨.anyCommitted, []⟩, []⟩,
    ⟨"resource/cleanup-started", 1, .persistent, ⟨.anyCommitted, []⟩, []⟩,
    ⟨"resource/cleanup-uncertain", 1, .persistent, anyOf ["resource/cleanup-started"], []⟩,
    ⟨"resource/cleanup-succeeded", 1, .persistent, anyOf ["resource/cleanup-started"], []⟩,
    ⟨"resource/cleanup-reconciled", 1, .persistent, anyOf ["resource/cleanup-uncertain"], []⟩,
    ⟨"resource/cleanup-override", 1, .persistent, anyOf ["resource/cleanup-uncertain"], []⟩,
    ⟨"deletion/effect-override", 1, .persistent, anyOf ["effect/uncertain"], []⟩,
    ⟨"runtime/execution-claimed", 1, .persistent, anyOf ["turn/started"], []⟩,
    ⟨"runtime/execution-recovery-blocked", 1, .persistent, anyOf ["turn/started"], []⟩,
    ⟨"runtime/effect-reconciliation-attested", 1, .persistent,
      anyOf ["turn/paused", "turn/failed", "turn/cancelled"], []⟩,
    ⟨"turn/pause-requested", 1, .persistent, anyOf ["turn/started"], []⟩,
    ⟨"turn/paused", 1, .persistent, anyOf ["turn/started"], ["session-head", "message-projection"]⟩,
    ⟨"turn/resume-requested", 1, .persistent, anyOf ["turn/paused"], []⟩,
    ⟨"turn/resume-blocked", 1, .persistent, anyOf ["turn/resume-requested"], []⟩,
    ⟨"turn/resume-authorized", 1, .persistent,
      anyOf ["turn/paused"], ["session-head", "message-projection"]⟩,
    ⟨"runtime/native-settlement-requested", 1, .persistent, anyOf ["turn/started"], []⟩,
    ⟨"runtime/native-settlement-settled", 1, .persistent,
      anyOf ["runtime/native-settlement-requested"], []⟩,
    ⟨"runtime/progress-recorded", 1, .persistent, anyOf ["turn/started"], []⟩,
    ⟨"turn/workspace-files-observed", 1, .persistent, anyOf ["turn/started"], []⟩,
    ⟨"turn/knowledge-writeback-started", 1, .persistent, anyOf ["turn/completed"], []⟩,
    ⟨"turn/knowledge-writeback-settled", 1, .persistent,
      anyOf ["turn/knowledge-writeback-started"], []⟩,
    ⟨"compaction/completed", 1, .persistent, anyOf ["turn/completed"], []⟩,
    ⟨"session/forked", 1, .persistent, anyOf idleKinds, ["session-head"]⟩,
    ⟨"robot/question-playback-accepted", 1, .persistent,
      anyOf ["message/assistant-projected", "runtime/progress-recorded"], []⟩,
    ⟨"channel/input-question-delivered", 1, .persistent, anyOf ["runtime/progress-recorded"], []⟩,
    ⟨"channel/input-delivery-state", 1, .persistent, anyOf ["message/user-accepted"], []⟩,
    ⟨"session/ssh-link-close-requested", 1, .persistent, anyOf ["session/opening"], []⟩,
    ⟨"session/ssh-link-closed", 1, .persistent, anyOf ["session/ssh-link-close-requested"], []⟩,
    ⟨"session/process-reaped", 1, .persistent, anyOf ["runtime/progress-recorded"], []⟩,
    ⟨"session/process-owner-released", 1, .persistent, anyOf ["runtime/progress-recorded"], []⟩]

def registryEntry (kind : String) (version : Nat) : StoreResult SessionEventRegistryEntry :=
  match canonicalRegistry.find? fun entry => entry.kind = kind && entry.version = version with
  | some entry => .ok entry
  | none => .error (.invalidEvent
      ("unregistered event kind/version " ++ kind ++ "/" ++ toString version))

/-! ### Validation of an append -/

def isHex (c : Char) : Bool :=
  ('0' ≤ c && c ≤ '9') || ('a' ≤ c && c ≤ 'f') || ('A' ≤ c && c ≤ 'F')

def hyphenPositions : List Nat := [8, 13, 18, 23]

/-- The digits of the hyphenated form: groups of 8, 4, 4, 4 and 12. -/
def parseHyphenated (chars : List Char) : Option (List Char) :=
  let digits := (chars.zipIdx.filter fun entry => entry.2 ∉ hyphenPositions).map (·.1)
  if hyphenPositions.all (fun i => chars[i]? = some '-') && digits.all isHex then some digits
  else none

/-- `Uuid::parse_str`: the simple, hyphenated, braced and URN forms, in either case of the
digits. -/
def parseUuid (value : String) : Option (List Char) :=
  let chars := value.toList
  if chars.length = 32 then if chars.all isHex then some chars else none
  else if chars.length = 36 then parseHyphenated chars
  else if chars.length = 38 && chars.head? = some '\x7b' && chars.getLast? = some '\x7d' then
    parseHyphenated (chars.tail.dropLast)
  else if chars.length = 45 && chars.take 9 = "urn:uuid:".toList then
    parseHyphenated (chars.drop 9)
  else none

def hyphenated (digits : List Char) : List Char :=
  let lower := digits.map Char.toLower
  lower.take 8 ++ '-' :: (lower.drop 8).take 4 ++ '-' :: (lower.drop 12).take 4 ++
    '-' :: (lower.drop 16).take 4 ++ '-' :: lower.drop 20

def validateUuidv7 (value field : String) : StoreResult Unit :=
  match parseUuid value with
  | none => .error (.invalidSession (field ++ " must be UUIDv7"))
  | some digits =>
    if digits[12]? ≠ some '7' || value.toList ≠ hyphenated digits then
      .error (.invalidSession (field ++ " must be lowercase canonical UUIDv7"))
    else .ok ()

def maxInlineJsonBytes : Nat := 64 * 1024

def validateIdentity (entry : String × String) : StoreResult Unit :=
  if (trim entry.2).isEmpty || trim entry.2 ≠ entry.2 then
    .error (.invalidEvent (entry.1 ++ " must be canonical and non-empty"))
  else .ok ()

def validateInlinePayload (platform : Platform) (payload : SessionEventPayloadRef) :
    StoreResult Unit :=
  match payload with
  | .inlineJson value =>
    match canonicalJsonBytes platform value with
    | .error problem => .error (.digest problem)
    | .ok bytes =>
      if bytes.length > maxInlineJsonBytes then
        .error (.invalidPayload ("inline JSON exceeds " ++ toString maxInlineJsonBytes ++ " bytes"))
      else .ok ()
  | .empty | .stored _ => .ok ()

def validateEventAppend (platform : Platform) (append : SessionEventAppend) : StoreResult Unit := do
  validateUuidv7 append.agentSessionId "agent_session_id"
  [("event_id", append.eventId), ("producer_id", append.producerId),
    ("idempotency_key", append.idempotencyKey),
    ("correlation_id", append.semanticEvent.correlationId),
    ("kind", append.semanticEvent.kind)].forM validateIdentity
  if append.semanticEvent.kindVersion = 0 then
    .error (.invalidEvent "event kind_version must be at least one")
  validateInlinePayload platform append.semanticEvent.payload

end Nomifun.Source.AgentSession
