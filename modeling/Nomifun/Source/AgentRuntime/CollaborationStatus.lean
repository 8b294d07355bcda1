import Nomifun.Source.AgentRuntime.Collaboration

/-!
# Reading a status snapshot

nomifun-agent-runtime, collaboration.rs:175-186 and 215-411, collaboration_cursor.rs:14-70.
A snapshot has one row for each execution it reports. Reading it updates, row by row, what
the parent has consumed of that execution, and takes the execution off the pending set when
nothing of it is left to read.
-/
namespace Nomifun.Source.AgentRuntime
open Library Library.MachineInt Library.Json Library.Serde Library.RustText Source.AgentContracts

/-- The key under which a whole execution is consumed, next to those of its steps. -/
def executionKey : String := "@execution"

def deletedKey : String := "@deleted"

def stepKey (step : String) : String := "step:" ++ step

def digestOf (platform : Platform) (v : Value) : EngineResult DigestHex :=
  match digestPayload platform v with
  | .ok digest => .ok digest
  | .error e => invalidContract e.message

/-! ### Source headers of the steps -/

structure StepObservation where
  (terminalDigest pageSourceDigest readyDigest : Option String)

namespace StepObservation

def spec : StructSpec where
  fields := [(nullable text).field "terminal_digest", (nullable text).field "page_source_digest",
    (nullable text).field "ready_digest"]
  denyUnknown := false

/-- An optional field of a struct may be missing. It is only read. -/
def codec : Codec StepObservation where
  encode o := .object [("terminal_digest", (nullable text).encode o.terminalDigest),
    ("page_source_digest", (nullable text).encode o.pageSourceDigest),
    ("ready_digest", (nullable text).encode o.readyDigest)]
  decode v := do
    let entries ← structEntries spec v
    return {
      terminalDigest := ← requiredOr entries "terminal_digest" (nullable text) none
      pageSourceDigest := ← requiredOr entries "page_source_digest" (nullable text) none
      readyDigest := ← requiredOr entries "ready_digest" (nullable text) none }

def validate (o : StepObservation) : EngineResult Unit :=
  if [o.terminalDigest, o.pageSourceDigest, o.readyDigest].any (·.any (!validDigest ·)) then
    invalidContract "Step source header digest is invalid"
  else .ok ()

end StepObservation

/-- The headers of a row, with the caller's wording of a failure. -/
def stepHeads (platform : Platform) (row : Value) (failure : String) :
    EngineResult (StringMap StepObservation) :=
  decodedOr platform failure ((stringMap StepObservation.codec).decode
    (row.get "step_observations"))

/-! ### Ready sources -/

structure ReadyScan where
  references : StringMap AgentCollaborationObservation
  sources : StringMap (StringMap String)

/-- The ready digest of one header. -/
def readyHead (sources : StringMap String) (head : String × StepObservation) :
    EngineResult (StringMap String) := do
  head.2.validate
  return match head.2.readyDigest with
    | some digest => sources.insert (stepKey head.1) digest
    | none => sources

def readyRow (platform : Platform) (scan : ReadyScan) (row : Value) : EngineResult ReadyScan := do
  let id ← orInvalid (row.get "execution_id").asStr "ready observation lacks Execution identity"
  let reference ← orInvalid scan.references[id]?
    "ready observation duplicates or exceeds cursor scope"
  if row.get "observation_cursor" ≠ reference.toValue then
    invalidContract "ready source heads differ from their scoped observation"
  let heads ← stepHeads platform row "ready observation lacks full Step source heads: "
  let owned ← orInvalid (row.get "owned_step_ids").asArray "ready observation lacks owned Steps"
  if heads.size ≠ owned.length || (owned.filterMap Value.asStr).toFinset.card ≠ owned.length ||
      owned.length > 128 ||
      owned.any (fun step => !step.asStr.any fun step => validId step && step ∈ heads) then
    invalidContract "ready source heads differ from owned Step scope"
  let sources ← heads.toList.foldlM readyHead ∅
  let terminal := row.get "execution_terminal_receipt"
  let attention := row.get "execution_attention"
  let sources ← if terminal ≠ .null || attention ≠ .null then do
      let digest ← digestOf platform (.object [("attention", attention), ("terminal", terminal)])
      pure (sources.insert executionKey digest)
    else pure sources
  return ⟨scan.references.erase id, scan.sources.insert id sources⟩

/-- The loop over the rows; every reference of the cursor has to have one. -/
def readyRows (platform : Platform) (references : StringMap AgentCollaborationObservation)
    (rows : List Value) : EngineResult (StringMap (StringMap String)) := do
  let scan ← rows.foldlM (readyRow platform) ⟨references, ∅⟩
  if !scan.references.isEmpty then
    invalidContract "ready cursor contains unreturned Execution scope"
  return scan.sources

def readySources (platform : Platform) (snapshot : AgentCollaborationSnapshot) :
    EngineResult (StringMap (StringMap String)) := do
  let references ← observationReferences platform snapshot.cursor
  let rows ← orInvalid (snapshot.result.get "executions").asArray
    "ready observation lacks Execution scope"
  readyRows platform references rows

/-! ### The parts of a row -/

/-- An array of distinct step identities. -/
def stepIds (row : Value) (key : String) : EngineResult StringSet := do
  let items ← orInvalid (row.get key).asArray
    "collaboration status lacks its complete owned Step identities"
  let ids ← items.mapM fun v => orInvalid (v.asStr.filter validId) "invalid owned child identity"
  if ids.toFinset.card ≠ items.length || ids.toFinset.card > 128 then
    invalidContract "duplicate or excessive owned child identities"
  return ids.toFinset

structure NativeSource where
  (agentSessionId turnOperationId terminalEventId : String)

structure WorkspaceSource where
  attemptId : String
  source : NativeSource

namespace NativeSource

def spec : StructSpec where
  fields := [text.field "agent_session_id", text.field "turn_operation_id",
    text.field "terminal_event_id"]
  denyUnknown := true

def codec : Codec NativeSource where
  encode s := .object [("agent_session_id", text.encode s.agentSessionId),
    ("turn_operation_id", text.encode s.turnOperationId),
    ("terminal_event_id", text.encode s.terminalEventId)]
  decode v := do
    let entries ← structEntries spec v
    return {
      agentSessionId := ← required entries "agent_session_id" text
      turnOperationId := ← required entries "turn_operation_id" text
      terminalEventId := ← required entries "terminal_event_id" text }

/-- The bound of a native identity, wider than `validId`. -/
def invalidIdentity (value : String) : Bool :=
  value.isEmpty || value.utf8ByteSize > 1024 || trim value != value || value.toList.any isControl

end NativeSource

def WorkspaceSource.spec : StructSpec where
  fields := [text.field "attempt_id", NativeSource.codec.field "source"]
  denyUnknown := true

def WorkspaceSource.decode (v : Value) : Except DecodeError WorkspaceSource := do
  let entries ← structEntries spec v
  return { attemptId := ← required entries "attempt_id" text
           source := ← required entries "source" NativeSource.codec }

def validateWorkspaceSource (platform : Platform) (v : Value) : EngineResult Unit := do
  let source ← decodedOr platform
    "child workspace change has no exact original native source: " (WorkspaceSource.decode v)
  if !validId source.attemptId || [source.source.agentSessionId, source.source.turnOperationId,
        source.source.terminalEventId].any NativeSource.invalidIdentity then
    invalidContract "child workspace change native identities are invalid"

/-- The digests of the workspace changes a child reports; none if it reports none. -/
def workspaceDigests (platform : Platform) (child : Value) : EngineResult StringSet :=
  match child.member "workspace_change_sources" with
  | none => .ok ∅
  | some sources => do
    let sources ← orInvalid sources.asArray
      "child workspace change sources are not an exact source array"
    sources.foldlM (fun digests source => do
      validateWorkspaceSource platform source
      return insert (← digestOf platform source) digests) ∅

/-! ### Result pages -/

structure ResultPage where
  sourceDigest : String
  sha256 : String
  totalBytes : Nat
  offset : Nat
  nextOffset : Option Nat

namespace ResultPage

def spec : StructSpec where
  fields := [text.field "source_digest", text.field "sha256", (unsigned u64Max).field "total_bytes",
    (unsigned u64Max).field "offset", (nullable (unsigned u64Max)).field "next_offset"]
  denyUnknown := true

def decode (v : Value) : Except DecodeError ResultPage := do
  let entries ← structEntries spec v
  return {
    sourceDigest := ← required entries "source_digest" text
    sha256 := ← required entries "sha256" text
    totalBytes := ← required entries "total_bytes" (unsigned u64Max)
    offset := ← required entries "offset" (unsigned u64Max)
    nextOffset := ← requiredOr entries "next_offset" (nullable (unsigned u64Max)) none }

/-- The coverage counts bytes of this very result. -/
def sameResult (page : ResultPage) (coverage : AgentChildResultCoverage) : Bool :=
  coverage.sourceDigest == page.sourceDigest && coverage.sha256 == page.sha256 &&
    coverage.totalBytes == page.totalBytes

/-- A page of another result starts the count anew. -/
def restart (page : ResultPage) (coverage : AgentChildResultCoverage) : AgentChildResultCoverage :=
  if page.sameResult coverage then coverage
  else ⟨page.sourceDigest, page.sha256, page.totalBytes, 0⟩

/-- The coverage after a page whose body ends at byte `stop`; a page that leaves a gap adds
nothing. -/
def cover (page : ResultPage) (stop : Nat) (coverage : AgentChildResultCoverage) :
    AgentChildResultCoverage :=
  if page.offset ≤ (page.restart coverage).contiguousBytes then
    { page.restart coverage with
      contiguousBytes := max (page.restart coverage).contiguousBytes stop }
  else page.restart coverage

end ResultPage

section

variable (platform : Platform) (id : String) (sequence : Nat) (row : Value)
  (consumed : AgentChildResultConsumption)

/-- Whether the child's result has been delivered completely, and the pages after it. -/
def resultDelivered (step : String) (child : Value)
    : EngineResult (Bool × AgentChildResultConsumption) :=
  match child.member "result_page" with
  | none => .ok (true, consumed)
  | some v => do
    let page ← decodedOr platform "invalid exact result page metadata: " (ResultPage.decode v)
    let body ← orInvalid (child.get "result").asStr "result page has no UTF-8 body"
    let source ← digestOf platform (if (child.member "source").isSome then
        .object [("attempt_id", child.get "attempt_id"), ("source", child.get "source")]
      else .object [("attempt_id", child.get "attempt_id"),
        ("terminal_receipt", child.get "terminal_receipt")])
    let stop ← orInvalid (checkedAdd u64Max page.offset body.utf8ByteSize)
      "result page byte range overflow"
    if !validDigest page.sha256 || page.sourceDigest ≠ source || stop > page.totalBytes ||
        (stop < page.totalBytes && page.nextOffset ≠ some stop) ||
        (stop = page.totalBytes && page.nextOffset.isSome) then
      invalidContract "result page does not match its immutable source or exact byte range"
    let coverage := page.cover stop (consumed.resultPages[step]?.getD .empty)
    return (coverage.contiguousBytes = coverage.totalBytes,
      { consumed with resultPages := consumed.resultPages.insert step coverage })

/-! ### Rows -/

/-- The reading of the children of one row: what has been consumed of the execution, the
watermarks of its steps, and whether some child's workspace changed. -/
structure ChildScan where
  consumed : AgentChildResultConsumption
  observations : StringMap String
  workspaceChanged : Bool

/-- What a row says about the execution as a whole. -/
structure RowScope where
  id : String
  sequence : Nat
  owned : StringSet
  terminal : StringSet
  heads : StringMap StepObservation

def terminalReceiptRefused (scope : RowScope) (step : String) (receipt : Value) : Bool :=
  (receipt.get "execution_id").asStr != some scope.id ||
    (receipt.get "step_id").asStr != some step ||
    !(receipt.get "execution_event_sequence").asU64.any (· ≤ scope.sequence) ||
    !(receipt.get "status").asStr.any (· ∈ ["completed", "failed", "cancelled", "skipped"])

/-- A child of a terminal step: its result is consumed once it has been delivered. -/
def observeTerminal (scope : RowScope) (consumed : AgentChildResultConsumption) (step : String)
    (child : Value) : EngineResult AgentChildResultConsumption := do
  let receipt := child.get "terminal_receipt"
  if terminalReceiptRefused scope step receipt then
    invalidContract "terminal child has no exact domain settlement receipt"
  let digest ← digestOf platform (.object [("attempt_id", child.get "attempt_id"),
    ("source", child.get "source"), ("terminal_receipt", receipt)])
  if scope.heads[step]?.bind (·.terminalDigest) ≠ some digest then
    invalidContract "returned result differs from its full-scope source header"
  let (delivered, consumed) ← resultDelivered platform consumed step child
  return { consumed with
    sourceDigests := if delivered then consumed.sourceDigests.insert step digest
      else consumed.sourceDigests.erase step }

def observeChild (scope : RowScope) (scan : ChildScan) (child : Value) :
    EngineResult ChildScan := do
  let step ← orInvalid (child.get "step_id").asStr "returned child has no identity"
  if step ∉ scope.owned then
    invalidContract "returned child is outside the original delegation"
  let digests ← workspaceDigests platform child
  let digest ← digestOf platform (.array ((digests.sort (· ≤ ·)).map .string))
  let changed := match scan.observations[stepKey step]? with
    | none => decide (digests ≠ ∅)
    | some old => old != digest
  let consumed ← if step ∈ scope.terminal then
      observeTerminal platform scope scan.consumed step child
    else pure scan.consumed
  return {
    consumed := consumed
    observations := scan.observations.insert (stepKey step) digest
    workspaceChanged := scan.workspaceChanged || changed }

/-- The state of a reading between two rows. -/
structure StatusScan where
  progress : AgentCollaborationProgress
  references : StringMap AgentCollaborationObservation
  ready : StringMap (StringMap String)
  workspaceChanged : Bool

def deletionReceiptRefused (row receipt : Value) : Bool :=
  (receipt.get "execution_id").asStr != some id ||
    (receipt.get "event_type").asStr != some "deleted" || receipt.get "deleted" != .bool true ||
    receipt.get "status" != row.get "status" ||
    !(receipt.get "status").asStr.any (!·.isEmpty) ||
    !(receipt.get "execution_event_sequence").asU64.any fun n => n ≠ 0 && n ≤ sequence

/-- A deleted execution: its receipt replaces everything read so far. -/
def observeDeleted (scan : StatusScan) (id : String) (sequence : Nat)
    (reference : AgentCollaborationObservation) (row : Value) :
    EngineResult StatusScan := do
  let receipt := row.get "execution_terminal_receipt"
  if deletionReceiptRefused id sequence row receipt then
    invalidContract "deleted delegated work has no exact owner deletion receipt"
  let digest ← digestOf platform receipt
  let invalidation ← digestOf platform
    (.object [("kind", .string "execution_deleted"), ("receipt", receipt)])
  let observed := scan.progress.workspaceObservations[id]?.getD ∅
  return { scan with
    progress := { scan.progress with
      pendingChildExecutions := scan.progress.pendingChildExecutions.erase id
      workspaceObservations := scan.progress.workspaceObservations.insert id
        ((∅ : StringMap String).insert deletedKey invalidation)
      results := scan.progress.results.insert id {
        sequence := sequence
        observationCursor := some reference
        readySourceDigests := scan.ready[id]?.getD ∅
        sourceDigests := (∅ : StringMap String).insert executionKey digest
        resultPages := ∅
        allTerminalObserved := true } }
    ready := scan.ready.erase id
    workspaceChanged := scan.workspaceChanged || observed[deletedKey]? != some invalidation }

def settlementReceiptRefused (row receipt : Value) : Bool :=
  (receipt.get "execution_id").asStr != some id ||
    !(receipt.get "execution_event_sequence").asU64.any (fun n => n ≠ 0 && n ≤ sequence) ||
    (receipt.get "event_type").asStr != some "status_changed" ||
    receipt.get "status" != row.get "status" ||
    !(receipt.get "status").asStr.any (· ∈ ["failed", "cancelled", "completed_with_failures"])

/-- An execution without steps: consumed when it has failed or was cancelled. -/
def observeEmpty : EngineResult (AgentChildResultConsumption × Bool) := do
  let receipt := row.get "execution_terminal_receipt"
  if receipt = .null then return (consumed, false)
  if settlementReceiptRefused id sequence row receipt then
    invalidContract "empty delegated group has no exact failure or cancellation settlement"
  let digest ← digestOf platform receipt
  return ({ consumed with sourceDigests := consumed.sourceDigests.insert executionKey digest },
    true)

/-- The steps of a row and their headers. -/
def rowScope : EngineResult RowScope := do
  let owned ← stepIds row "owned_step_ids"
  let terminal ← stepIds row "owned_terminal_step_ids"
  if ¬ terminal ⊆ owned then
    invalidContract "terminal child is outside the original delegation"
  let heads ← stepHeads platform row "status has no complete Step source headers: "
  if heads.keys.toFinset ≠ owned then
    invalidContract "Step source headers differ from the full owned scope"
  heads.toList.forM fun head => head.2.validate
  return ⟨id, sequence, owned, terminal, heads⟩

/-- What survives of an earlier reading: only what the headers still confirm. -/
def refreshed (scope : RowScope) (reference : AgentCollaborationObservation)
    (ready : StringMap String) (consumed : AgentChildResultConsumption) :
    AgentChildResultConsumption where
  sequence := max consumed.sequence scope.sequence
  observationCursor := some reference
  readySourceDigests := ready
  sourceDigests := consumed.sourceDigests.filter fun step digest =>
    scope.heads[step]?.any (·.terminalDigest == some digest)
  resultPages := consumed.resultPages.filter fun step page =>
    scope.heads[step]?.any (·.pageSourceDigest == some page.sourceDigest)
  allTerminalObserved := scope.owned ≠ ∅ && scope.owned = scope.terminal

/-- Whether every step of the row has ended and its result is consumed. -/
def fullyConsumed (scope : RowScope) (consumed : AgentChildResultConsumption) : Bool :=
  scope.owned ≠ ∅ && scope.terminal = scope.owned &&
    decide (∀ step ∈ scope.owned, step ∈ consumed.sourceDigests)

/-- The children of a row with steps, and whether nothing is left to read of it. -/
def observeChildren (scope : RowScope) (row : Value) (scan : ChildScan) :
    EngineResult (ChildScan × Bool) := do
  let children ← orInvalid (row.get "children").asArray
    "collaboration status has no returned children"
  let scan ← children.foldlM (observeChild platform scope) scan
  let consumed := { scan.consumed with
    readySourceDigests := scan.consumed.readySourceDigests.filter fun key digest =>
      !(stripStart "step:" key).any fun step => scan.consumed.sourceDigests[step]? == some digest }
  return ({ scan with consumed := consumed }, fullyConsumed scope consumed)

def observeSteps (scope : RowScope) (row : Value) (scan : ChildScan) :
    EngineResult (ChildScan × Bool) :=
  if scope.owned = ∅ then do
    let (consumed, finished) ← observeEmpty platform scope.id scope.sequence row scan.consumed
    return ({ scan with consumed := consumed }, finished)
  else observeChildren platform scope row scan

/-- A row that is no deletion. -/
def observeOwned (scan : StatusScan) (id : String) (sequence : Nat)
    (reference : AgentCollaborationObservation) (row : Value) :
    EngineResult StatusScan := do
  let scope ← rowScope platform id sequence row
  let observations := (scan.progress.workspaceObservations[id]?.getD ∅).filter fun key _ =>
    (stripStart "step:" key).any (· ∈ scope.owned)
  let consumed := refreshed scope reference (scan.ready[id]?.getD ∅)
    (scan.progress.results[id]?.getD .empty)
  let (children, finished) ←
    observeSteps platform scope row ⟨consumed, observations, scan.workspaceChanged⟩
  return { scan with
    progress := { scan.progress with
      pendingChildExecutions := if finished then scan.progress.pendingChildExecutions.erase id
        else scan.progress.pendingChildExecutions
      workspaceObservations :=
        scan.progress.workspaceObservations.insert id children.observations
      results := scan.progress.results.insert id children.consumed }
    ready := scan.ready.erase id
    workspaceChanged := children.workspaceChanged }

def observeRow (scan : StatusScan) (row : Value) : EngineResult StatusScan := do
  let id ← orInvalid (row.get "execution_id").asStr
    "collaboration status has no Execution identity"
  let reference ← orInvalid scan.references[id]? "status cursor omits its exact Execution"
  if row.get "observation_cursor" ≠ reference.toValue then
    invalidContract "status observation differs from its scoped cursor"
  let scan := { scan with references := scan.references.erase id }
  if !scan.progress.knows id then return scan
  let sequence ← orInvalid ((row.get "sequence").asU64.filter (0 < ·))
    "collaboration status has no canonical sequence"
  let scan := { scan with progress := { scan.progress with
    pendingChildExecutions := insert id scan.progress.pendingChildExecutions
    unreadWakes := scan.progress.unreadWakes.erase id } }
  if row.get "deleted" = .bool true then observeDeleted platform scan id sequence reference row
  else observeOwned platform scan id sequence reference row

end

namespace AgentCollaborationProgress

variable (platform : Platform)

/-- The loop over the rows and the checks after it. -/
def observeRows (p : AgentCollaborationProgress)
    (references : StringMap AgentCollaborationObservation) (ready : StringMap (StringMap String))
    (rows : List Value) : EngineResult (AgentCollaborationProgress × Bool) := do
  let scan ← rows.foldlM (observeRow platform) ⟨p, references, ready, false⟩
  if !scan.references.isEmpty then
    invalidContract "status cursor contains observations outside returned Executions"
  scan.progress.validate
  return (scan.progress, scan.workspaceChanged)

/-- The progress after a snapshot, and whether a child changed its workspace. -/
def observeStatus (p : AgentCollaborationProgress) (snapshot : AgentCollaborationSnapshot) :
    EngineResult (AgentCollaborationProgress × Bool) := do
  let ready ← readySources platform snapshot
  let references ← observationReferences platform snapshot.cursor
  let rows ← orInvalid ((snapshot.result.member "executions").bind Value.asArray)
    "collaboration status has no exact Execution observations"
  p.observeRows platform references ready rows

/-- One settled tool result, in live execution and in reconstruction alike. -/
def observeToolResult (p : AgentCollaborationProgress) (call : ChatToolCall)
    (result : AgentToolResult) (admittedDelegation : Bool) :
    EngineResult (AgentCollaborationProgress × Bool) := do
  result.validateFor platform call.callId
  if result.isError then return (p, false)
  if call.name = waitTool then return (← p.acceptWait platform call result, false)
  if call.name = statusTool then p.observeStatus platform (← snapshotFromResult platform result)
  else if call.name = messageTool then return (← p.acceptMessage platform result, false)
  else if admittedDelegation then return (← p.accept platform result, false)
  else return (p, false)

end AgentCollaborationProgress
end Nomifun.Source.AgentRuntime
