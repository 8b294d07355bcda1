import Nomifun.Library.RustText
import Nomifun.Source.AgentRuntime.Basic

/-!
# Delegated work: progress, cursors and waits

nomifun-agent-runtime, collaboration.rs:15-213 and 413-503, collaboration_cursor.rs. The
parent turn keeps references to the executions it delegated to: which of them are still
pending, and for each what it has read. The reading of a status snapshot is in
`CollaborationStatus`.

An `expect` of the source is an error here as well: in both cases no value is returned.
-/
namespace Nomifun.Source.AgentRuntime
open Library Library.MachineInt Library.Json Library.Serde Library.RustText Source.AgentContracts

variable {α : Type} {value : Option α} {message : String} {a : α}

def statusTool : String := "agent_status"

def waitTool : String := "agent_wait"

def messageTool : String := "agent_message"

inductive AgentChildrenWaitMode where
  | any | all
  deriving DecidableEq

structure AgentChildrenWait where
  executionIds : List String
  afterCursor : Option String
  mode : AgentChildrenWaitMode
  deriving DecidableEq

structure AgentCollaborationSnapshot where
  cursor : String
  result : Value

structure AgentCollaborationObservation where
  state : String
  ready : String

/-- Continuous delivered bytes of one immutable result. -/
structure AgentChildResultCoverage where
  sourceDigest : String
  sha256 : String
  totalBytes : Nat
  contiguousBytes : Nat
  deriving DecidableEq

structure AgentChildResultConsumption where
  sequence : Nat
  observationCursor : Option AgentCollaborationObservation
  (readySourceDigests sourceDigests : StringMap String)
  resultPages : StringMap AgentChildResultCoverage
  allTerminalObserved : Bool

structure AgentCollaborationProgress where
  pendingChildExecutions : StringSet
  results : StringMap AgentChildResultConsumption
  unreadWakes : StringSet
  workspaceObservations : StringMap (StringMap String)

def AgentChildResultCoverage.empty : AgentChildResultCoverage := ⟨"", "", 0, 0⟩

def AgentChildResultConsumption.empty : AgentChildResultConsumption := ⟨0, none, ∅, ∅, ∅, false⟩

def AgentCollaborationProgress.empty : AgentCollaborationProgress := ⟨∅, ∅, ∅, ∅⟩

def invalidContract {α : Type} (message : String) : EngineResult α :=
  .error (.invalidContract message)

def replayContract {α : Type} (message : String) : EngineResult α :=
  .error (.replayContract message)

/-- `ok_or_else`. -/
def orInvalid {α : Type} (value : Option α) (message : String) : EngineResult α :=
  match value with
  | some a => .ok a
  | none => invalidContract message

/-- The same for a result of a replayed journal. -/
def orReplay {α : Type} (value : Option α) (message : String) : EngineResult α :=
  match value with
  | some a => .ok a
  | none => replayContract message

/-- `map_err` of a decoding error, whose text follows the caller's. -/
def decodedOr {α : Type} (platform : Platform) (failure : String)
    (decoded : Except DecodeError α) : EngineResult α :=
  match decoded with
  | .ok a => .ok a
  | .error e => invalidContract (failure ++ platform.describe e)

theorem orInvalid_eq_ok : orInvalid value message = .ok a ↔ value = some a := by
  cases value <;> simp [orInvalid, invalidContract]

theorem orReplay_eq_ok : orReplay value message = .ok a ↔ value = some a := by
  cases value <;> simp [orReplay, replayContract]

theorem decodedOr_eq_ok {failure : String} :
    decodedOr platform failure decoded = .ok a ↔ decoded = .ok a := by
  cases decoded <;> simp [decodedOr, invalidContract]

def validId (value : String) : Bool :=
  !value.isEmpty && value.utf8ByteSize ≤ 256 && trim value == value && !value.toList.any isControl

def validDigest (value : String) : Bool :=
  value.utf8ByteSize == 64 && value.toByteArray.data.toList.all fun byte =>
    (48 ≤ byte && byte ≤ 57) || (97 ≤ byte && byte ≤ 102)

namespace AgentCollaborationObservation

def valid (o : AgentCollaborationObservation) : Bool := validDigest o.state && validDigest o.ready

/-- `serde_json::to_value`, whose objects are ordered by key. -/
def toValue (o : AgentCollaborationObservation) : Value :=
  .object [("ready", .string o.ready), ("state", .string o.state)]

def spec : StructSpec where
  fields := [text.field "state", text.field "ready"]
  denyUnknown := true

/-- Written directly, in declaration order. -/
def codec : Codec AgentCollaborationObservation where
  encode o := .object [("state", text.encode o.state), ("ready", text.encode o.ready)]
  decode v := do
    let entries ← structEntries spec v
    return { state := ← required entries "state" text, ready := ← required entries "ready" text }

end AgentCollaborationObservation

namespace AgentChildResultConsumption

/-- The per-execution part of `validate`. -/
def valid (r : AgentChildResultConsumption) : Bool :=
  r.sourceDigests.size ≤ 128 &&
    r.sourceDigests.toList.all (fun entry => validId entry.1 && validDigest entry.2) &&
    r.resultPages.size ≤ 128 &&
    r.resultPages.toList.all (fun entry => validId entry.1 && validDigest entry.2.sourceDigest &&
      validDigest entry.2.sha256 && entry.2.contiguousBytes ≤ entry.2.totalBytes) &&
    r.readySourceDigests.size ≤ 129 &&
    r.readySourceDigests.toList.all fun entry =>
      (entry.1 == "@execution" || (stripStart "step:" entry.1).any validId) && validDigest entry.2

end AgentChildResultConsumption

namespace AgentCollaborationProgress

/-- The execution is accepted work of this turn. -/
def knows (p : AgentCollaborationProgress) (id : String) : Bool :=
  id ∈ p.pendingChildExecutions || id ∈ p.results

def validate (p : AgentCollaborationProgress) : EngineResult Unit := do
  if p.pendingChildExecutions.card > 64 || p.results.size > 64 ||
      decide (∃ id ∈ p.pendingChildExecutions, validId id = false) ||
      p.results.toList.any (fun entry => !validId entry.1) ||
      p.results.toList.any (fun entry => !entry.2.valid) then
    invalidContract "invalid bounded collaboration progress references"
  if p.workspaceObservations.size > 64 || p.workspaceObservations.toList.any (fun entry =>
        !validId entry.1 || !p.knows entry.1 || entry.2.size > 128 ||
        entry.2.toList.any fun step =>
          (step.1 != "@deleted" && !(stripStart "step:" step.1).any validId) ||
            !validDigest step.2) then
    invalidContract "invalid bounded child workspace observation references"
  if p.unreadWakes.card > 64 || decide (∃ id ∈ p.unreadWakes, (validId id && p.knows id) = false) ||
      p.results.toList.any (fun entry => entry.2.observationCursor.any (!·.valid)) then
    invalidContract "invalid child consumption cursor"

end AgentCollaborationProgress

/-! ### Cursors -/

def maxCursorBytes : Nat := 16384

structure Cursor where
  version : Nat
  executions : StringMap AgentCollaborationObservation

namespace Cursor

def spec : StructSpec where
  fields := [(unsigned u8Max).field "version",
    (stringMap AgentCollaborationObservation.codec).field "executions"]
  denyUnknown := true

def codec : Codec Cursor where
  encode c := .object [("version", (unsigned u8Max).encode c.version),
    ("executions", (stringMap AgentCollaborationObservation.codec).encode c.executions)]
  decode v := do
    let entries ← structEntries spec v
    return {
      version := ← required entries "version" (unsigned u8Max)
      executions := ← required entries "executions"
        (stringMap AgentCollaborationObservation.codec) }

end Cursor

section

variable (platform : Platform)

def observationCursor (executions : StringMap AgentCollaborationObservation) :
    EngineResult String := do
  if executions.size > 64 ||
      executions.toList.any (fun entry => !validId entry.1 || !entry.2.valid) then
    invalidContract "invalid exact Execution observation references"
  let encoded := String.ofList (compact platform.floatText (Cursor.codec.encode ⟨1, executions⟩))
  if encoded.utf8ByteSize > maxCursorBytes then
    invalidContract "Execution observation scope exceeds its bound"
  return encoded

/-- The bound every reader of a cursor checks first. -/
def cursorOutOfBounds (cursor : String) : Bool :=
  cursor.isEmpty || cursor.utf8ByteSize > maxCursorBytes || cursor.toList.any (·.toNat = 0)

/-- `serde_json::from_str`. -/
def fromText {α : Type} (decode : Value → Except DecodeError α) (source : String) : Option α :=
  (platform.parseJson source).bind fun v => (decode v).toOption

def observationReferences (cursor : String) :
    EngineResult (StringMap AgentCollaborationObservation) := do
  if cursorOutOfBounds cursor then
    invalidContract "child observation cursor exceeds its bound"
  let decoded ← orInvalid (fromText platform Cursor.codec.decode cursor)
    "child observation cursor has no exact Execution scope"
  if decoded.version ≠ 1 then invalidContract "child observation cursor version differs"
  let encoded ← observationCursor platform decoded.executions
  if encoded ≠ cursor then invalidContract "child observation cursor is not canonical"
  return decoded.executions

end

/-! ### Waits -/

/-- `AgentCollaborationSelection::validate` for a selection of whole executions. -/
def validateExecutionIds (ids : List String) : EngineResult Unit :=
  if ids = [] || ids.length > 64 || !decide ids.Nodup || ids.any (!validId ·) then
    invalidContract "collaboration selection must contain bounded distinct execution identities"
  else .ok ()

def AgentChildrenWaitMode.name : AgentChildrenWaitMode → String
  | .any => "any"
  | .all => "all"

def waitMode : Codec AgentChildrenWaitMode :=
  unitVariants [("any", .any), ("all", .all)] AgentChildrenWaitMode.name

namespace AgentChildrenWait

def validate (w : AgentChildrenWait) : EngineResult Unit := do
  validateExecutionIds w.executionIds
  if w.afterCursor.any cursorOutOfBounds then
    invalidContract "collaboration wait cursor is invalid"

def validateWake (platform : Platform) (w : AgentChildrenWait) (cursor : String) :
    EngineResult Unit := do
  let references ← observationReferences platform cursor
  if references.keys.toFinset ≠ w.executionIds.toFinset then
    replayContract "child wake differs from the original selected Execution scope"

def spec : StructSpec where
  fields := [(list text).field "execution_ids", (nullable text).defaultedField "after_cursor",
    waitMode.defaultedField "mode"]
  denyUnknown := true

def decode (v : Value) : Except DecodeError AgentChildrenWait := do
  let entries ← structEntries spec v
  return {
    executionIds := ← required entries "execution_ids" (list text)
    afterCursor := ← requiredOr entries "after_cursor" (nullable text) none
    mode := ← requiredOr entries "mode" waitMode .all }

end AgentChildrenWait

def fromWaitCall (platform : Platform) (call : ChatToolCall) : EngineResult AgentChildrenWait := do
  let wait ← decodedOr platform "invalid child wait request: "
    (AgentChildrenWait.decode call.arguments)
  wait.validate
  return wait

/-- The check of `wake_message`; the message itself is context for the model. -/
def validateWakeCursor (cursor : String) : EngineResult Unit :=
  if cursorOutOfBounds cursor then
    replayContract "child wait resolved without an exact owner cursor"
  else .ok ()

/-! ### Updates of the progress that read no status -/

inductive AgentExecutionStatus where
  | planning | running | paused | waitingInput | completed | completedWithFailures | failed
  | cancelled
  deriving DecidableEq

def AgentExecutionStatus.asStr : AgentExecutionStatus → String
  | .planning => "planning"
  | .running => "running"
  | .paused => "paused"
  | .waitingInput => "waiting_input"
  | .completed => "completed"
  | .completedWithFailures => "completed_with_failures"
  | .failed => "failed"
  | .cancelled => "cancelled"

def executionStatus : Codec AgentExecutionStatus :=
  unitVariants ([.planning, .running, .paused, .waitingInput, .completed, .completedWithFailures,
    .failed, .cancelled].map fun status => (status.asStr, status)) AgentExecutionStatus.asStr

structure AgentExecutionReceipt where
  executionId : String
  status : AgentExecutionStatus
  message : String
  stepIds : List String

namespace AgentExecutionReceipt

def spec : StructSpec where
  fields := [text.field "execution_id", executionStatus.field "status", text.field "message",
    (list text).defaultedField "step_ids"]
  denyUnknown := true

def decode (v : Value) : Except DecodeError AgentExecutionReceipt := do
  let entries ← structEntries spec v
  return {
    executionId := ← required entries "execution_id" text
    status := ← required entries "status" executionStatus
    message := ← required entries "message" text
    stepIds := ← requiredOr entries "step_ids" (list text) [] }

end AgentExecutionReceipt

/-- The receipt `accept_message` reads; other fields are ignored. -/
structure GuidanceReceipt where
  executionId : String
  sequence : Option Nat

namespace GuidanceReceipt

def spec : StructSpec where
  fields := [text.field "execution_id", (nullable (unsigned u64Max)).field "sequence"]
  denyUnknown := false

def decode (v : Value) : Except DecodeError GuidanceReceipt := do
  let entries ← structEntries spec v
  return {
    executionId := ← required entries "execution_id" text
    sequence := ← requiredOr entries "sequence" (nullable (unsigned u64Max)) none }

end GuidanceReceipt

namespace AgentCollaborationProgress

variable (platform : Platform)

/-- The references a wait names itself. -/
def waitReferences (wait : AgentChildrenWait) :
    EngineResult (StringMap AgentCollaborationObservation) :=
  match wait.afterCursor with
  | some cursor => observationReferences platform cursor
  | none => .ok ∅

def normalizeWait (p : AgentCollaborationProgress) (wait : AgentChildrenWait) :
    EngineResult AgentChildrenWait := do
  wait.validate
  let ids := wait.executionIds.insertionSort (· ≤ ·)
  let references ← waitReferences platform wait
  if references.keys.any (· ∉ ids) then
    invalidContract "wait cursor belongs to another Execution scope"
  let references := ids.foldl (fun references id =>
    match p.results[id]?.bind (·.observationCursor) with
    | some cursor => references.insert id cursor
    | none => references) references
  let cursor ← if references.isEmpty then pure none
    else (observationCursor platform references).map some
  return { wait with executionIds := ids, afterCursor := cursor }

/-- The wait for everything pending; `expect` turns a failed normalization into a panic. -/
def wait (p : AgentCollaborationProgress) : EngineResult (Option AgentChildrenWait) :=
  if p.pendingChildExecutions = ∅ then .ok none
  else (p.normalizeWait platform
    ⟨p.pendingChildExecutions.sort (· ≤ ·), none, .all⟩).map some

/-- One reference of `record_wake`. -/
def wake (p : AgentCollaborationProgress) (entry : String × AgentCollaborationObservation) :
    EngineResult AgentCollaborationProgress := do
  let (id, reference) := entry
  if !p.knows id then replayContract "child wake is outside accepted original work"
  let read := p.results[id]?.getD .empty
  return { p with
    results := p.results.insert id { read with observationCursor := some reference }
    unreadWakes := insert id p.unreadWakes }

def recordWake (p : AgentCollaborationProgress) (cursor : String) :
    EngineResult AgentCollaborationProgress := do
  let references ← observationReferences platform cursor
  let next ← references.toList.foldlM wake p
  next.validate
  return next

def accept (p : AgentCollaborationProgress) (result : AgentToolResult) :
    EngineResult AgentCollaborationProgress := do
  let receipt ← orInvalid (fromText platform AgentExecutionReceipt.decode result.outputText)
    "accepted delegation has no typed Execution receipt"
  if !validId receipt.executionId || receipt.stepIds.any (!validId ·) then
    invalidContract "delegation receipt identities are invalid"
  let alreadyRead := p.results[receipt.executionId]?.any fun consumption =>
    !consumption.sourceDigests.isEmpty &&
      (receipt.stepIds = [] || receipt.stepIds.all (· ∈ consumption.sourceDigests))
  let next := if alreadyRead then p else
    { p with pendingChildExecutions := insert receipt.executionId p.pendingChildExecutions }
  next.validate
  return next

def acceptMessage (p : AgentCollaborationProgress) (result : AgentToolResult) :
    EngineResult AgentCollaborationProgress := do
  let receipt ← orInvalid (fromText platform GuidanceReceipt.decode result.outputText)
    "accepted child guidance has no exact Execution receipt"
  let id := receipt.executionId
  if !validId id then invalidContract "child guidance Execution identity is invalid"
  let alreadyConsumed := id ∉ p.pendingChildExecutions &&
    p.results[id]?.any fun read => receipt.sequence.any (· ≤ read.sequence)
  let next := if alreadyConsumed then p else
    { p with
      results := match p.results[id]? with
        | some read => p.results.insert id { read with allTerminalObserved := false }
        | none => p.results
      pendingChildExecutions := insert id p.pendingChildExecutions
      unreadWakes := p.unreadWakes.erase id }
  next.validate
  return next

def acceptWait (p : AgentCollaborationProgress) (call : ChatToolCall) (result : AgentToolResult) :
    EngineResult AgentCollaborationProgress := do
  let ack ← orReplay (fromText platform verbatim.decode result.outputText)
    "accepted wait has no original acknowledgement"
  if ack.get "state" ≠ .string "awaiting_children" then
    replayContract "accepted wait acknowledgement differs"
  let wait ← p.normalizeWait platform (← fromWaitCall platform call)
  let cursor ← orReplay (ack.get "cursor").asStr
    "accepted wait has no scoped owner acknowledgement"
  let references ← observationReferences platform cursor
  if references.keys.toFinset ≠ wait.executionIds.toFinset then
    replayContract "accepted wait acknowledgement belongs to another source scope"
  let next := { p with
    pendingChildExecutions := p.pendingChildExecutions ∪ wait.executionIds.toFinset }
  next.validate
  return next

end AgentCollaborationProgress

/-! ### Snapshots as tool results -/

namespace AgentCollaborationSnapshot

def spec : StructSpec where
  fields := [text.field "cursor", verbatim.field "result"]
  denyUnknown := true

def codec : Codec AgentCollaborationSnapshot where
  encode s := .object [("cursor", text.encode s.cursor), ("result", verbatim.encode s.result)]
  decode v := do
    let entries ← structEntries spec v
    return { cursor := ← required entries "cursor" text
             result := ← required entries "result" verbatim }

end AgentCollaborationSnapshot

def validateSnapshot (platform : Platform) (snapshot : AgentCollaborationSnapshot) :
    EngineResult Unit := do
  let _ ← observationReferences platform snapshot.cursor
  let _ ← serializedSize platform (AgentCollaborationSnapshot.codec.encode snapshot) (512 * 1024)

def snapshotFromResult (platform : Platform) (result : AgentToolResult) :
    EngineResult AgentCollaborationSnapshot := do
  let snapshot ← orReplay (fromText platform AgentCollaborationSnapshot.codec.decode
    result.outputText) "child status result is not a typed owner snapshot"
  validateSnapshot platform snapshot
  return snapshot

end Nomifun.Source.AgentRuntime
