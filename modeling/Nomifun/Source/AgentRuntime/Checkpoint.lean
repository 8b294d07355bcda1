import Nomifun.Source.AgentRuntime.CollaborationStatus
import Nomifun.Source.AgentRuntime.Segments
import Nomifun.Source.AgentRuntime.WorkStatus

/-!
# The execution checkpoint

nomifun-agent-runtime, checkpoint.rs:11-113, completion_review.rs, turn.rs:2488-2560,
engine.rs:71-137 and 307-313, user_input.rs:42-52, steering.rs:11-75; nomifun-agent-contracts,
user_input.rs:11-31 and patch_recovery.rs:6-46. A checkpoint is a bounded, quiescent progress
boundary: everything it holds is checked when it is saved and when it is resumed.
-/
namespace Nomifun.Source.AgentRuntime
open Library Library.MachineInt Library.Json Library.Serde Library.RustText Source.AgentContracts

def updatePlanTool : String := "update_plan"

def reportCompletionTool : String := "report_completion"

def requestUserInputTool : String := "request_user_input"

def finishWithoutReplyTool : String := "finish_without_reply"

/-- `map_err(AgentEngineError::InvalidContract)`. -/
def orContract (check : Except String Unit) : EngineResult Unit :=
  match check with
  | .ok () => .ok ()
  | .error message => invalidContract message

/-! ### Binding -/

structure ResolvedSnapshotRef where
  snapshotId : String
  snapshotDigest : DigestHex

structure EngineBinding where
  (agentSessionId runtimeBindingId buildId : String)
  buildDigest : DigestHex
  resolvedSnapshotRef : ResolvedSnapshotRef

def isTrimmedNonEmpty (value : String) : Bool := !value.isEmpty && trim value == value

namespace EngineBinding

def validate (b : EngineBinding) : EngineResult Unit :=
  if !isTrimmedNonEmpty b.agentSessionId || !isTrimmedNonEmpty b.runtimeBindingId ||
      !isTrimmedNonEmpty b.buildId || !isHexDigest b.buildDigest ||
      !isTrimmedNonEmpty b.resolvedSnapshotRef.snapshotId ||
      !isHexDigest b.resolvedSnapshotRef.snapshotDigest then
    invalidContract "engine binding contains an empty or malformed identity"
  else .ok ()

def toValue (b : EngineBinding) : Value :=
  .object [("agent_session_id", .string b.agentSessionId),
    ("runtime_binding_id", .string b.runtimeBindingId), ("build_id", .string b.buildId),
    ("build_digest", .string b.buildDigest),
    ("resolved_snapshot_ref", .object [("snapshot_id", .string b.resolvedSnapshotRef.snapshotId),
      ("snapshot_digest", .string b.resolvedSnapshotRef.snapshotDigest)])]

end EngineBinding

/-! ### Patch recovery -/

structure AgentPatchRecoveryState where
  version : Nat
  (targets unresolvedTargets : List String)
  unresolvedBeforeInput : Option Nat
  targetBudgetExceeded : Bool

namespace AgentPatchRecoveryState

def empty : AgentPatchRecoveryState := ⟨2, [], [], none, false⟩

def validLocalPath (path : String) : Bool :=
  !path.isEmpty && path.utf8ByteSize ≤ 4096 && !path.toList.any (·.toNat = 0)

def validate (s : AgentPatchRecoveryState) : Except String Unit :=
  let paths := s.targets ++ s.unresolvedTargets
  if (s.version ≠ 1 && s.version ≠ 2) || (s.version = 1 && s.unresolvedTargets ≠ []) ||
      s.targets.length > 64 || s.unresolvedTargets.length > 64 ||
      (paths.map String.utf8ByteSize).sum > 32 * 1024 ||
      s.unresolvedBeforeInput.any (fun count => count = 0 || count > 32) ||
      (s.unresolvedTargets = [] && s.unresolvedBeforeInput.isSome) ||
      !decide s.targets.Nodup || !decide s.unresolvedTargets.Nodup ||
      paths.any (!validLocalPath ·) then
    .error "Invalid bounded patch recovery state"
  else .ok ()

def toValue (s : AgentPatchRecoveryState) : Value :=
  .object [("version", .nat s.version), ("targets", .array (s.targets.map .string)),
    ("unresolved_targets", .array (s.unresolvedTargets.map .string)),
    ("unresolved_before_input", .option .nat s.unresolvedBeforeInput),
    ("target_budget_exceeded", .bool s.targetBudgetExceeded)]

end AgentPatchRecoveryState

/-! ### Control rejections -/

structure AgentControlRejectionState where
  name : String
  (consecutive total noProgress phaseCorrections : Nat)

namespace AgentControlRejectionState

def empty : AgentControlRejectionState := ⟨"", 0, 0, 0, 0⟩

variable (s : AgentControlRejectionState) (name : String)

/-- The controls that end a turn or change its plan. -/
def isEndingControl : Bool :=
  name ∈ [updatePlanTool, reportCompletionTool, requestUserInputTool, finishWithoutReplyTool]

def validate : EngineResult Unit :=
  if !(s.name = "" || isEndingControl s.name) || s.consecutive > 4 || s.total > 8 ||
      s.noProgress > 4 || s.phaseCorrections > 4 then
    invalidContract "invalid persisted control correction budget"
  else .ok ()

def reset (_ : AgentControlRejectionState) : AgentControlRejectionState := empty

/-- The notice it returns is for the live turn. -/
def observePhaseCorrection : AgentControlRejectionState :=
  { s with phaseCorrections := min (saturatingAdd u8Max s.phaseCorrections 1) 4 }

/-- The notice it returns is for the live turn. -/
def observe (result : AgentToolResult) (madeProgress : Bool) : AgentControlRejectionState :=
  if result.isError && isEndingControl name then
    { s with
      consecutive := if s.name = name then min (saturatingAdd u8Max s.consecutive 1) 4 else 1
      total := min (saturatingAdd u8Max s.total 1) 8
      name := name }
  else if result.isError then { s with name := "", consecutive := 0 }
  else if !madeProgress && isEndingControl name then
    { s with
      name := ""
      consecutive := 0
      noProgress := min (saturatingAdd u8Max s.noProgress 1) 4 }
  else s.reset

def toValue : Value :=
  .object [("name", .string s.name), ("consecutive", .nat s.consecutive), ("total", .nat s.total),
    ("no_progress", .nat s.noProgress), ("phase_corrections", .nat s.phaseCorrections)]

end AgentControlRejectionState

/-! ### Completion review -/

inductive AgentExecutionPhase where
  | execution | endIntentReview | completionReview
  deriving DecidableEq

def AgentExecutionPhase.name : AgentExecutionPhase → String
  | .execution => "execution"
  | .endIntentReview => "end_intent_review"
  | .completionReview => "completion_review"

structure AgentCompletionReviewState where
  phase : AgentExecutionPhase
  inputRevision : Nat

namespace AgentCompletionReviewState

def empty : AgentCompletionReviewState := ⟨.execution, 0⟩

variable (s : AgentCompletionReviewState) (revision : Nat)

def alignInputs : AgentCompletionReviewState :=
  if s.inputRevision ≠ revision then ⟨.execution, revision⟩ else s

def enterReportOnly : AgentCompletionReviewState :=
  { s.alignInputs revision with phase := .completionReview }

def isReportOnly : Bool := s.phase == .completionReview

def validFor (inputs : Nat) : Bool :=
  s.inputRevision ≤ inputs && (s.phase = .execution || s.inputRevision > 0)

/-- Work reopens a review that was only intended. -/
def resumeExecution : AgentCompletionReviewState :=
  if s.phase = .endIntentReview then { s with phase := .execution } else s

def toValue : Value :=
  .object [("phase", .string s.phase.name), ("input_revision", .nat s.inputRevision)]

end AgentCompletionReviewState

/-! ### User input -/

structure AgentUserInputRequest where
  requestId : ToolCallId
  question : String
  remainingWork : String
  deriving DecidableEq

namespace AgentUserInputRequest

def invalidText (value : String) : Bool :=
  (trim value).isEmpty || value.utf8ByteSize > 16384 ||
    value.toList.any fun c => isControl c && c ≠ '\n' && c ≠ '\t'

def validate (r : AgentUserInputRequest) : Except String Unit :=
  if (trim r.requestId).isEmpty || r.requestId.utf8ByteSize > 256 ||
      [r.question, r.remainingWork].any invalidText then
    .error "User input request has an empty, invalid or oversized field"
  else .ok ()

def argumentsSpec : StructSpec where
  fields := [text.field "question", text.field "remaining_work"]
  denyUnknown := true

/-- The two fields of the call's arguments. -/
def decodeArguments (v : Value) : Except DecodeError (String × String) := do
  let entries ← structEntries argumentsSpec v
  return (← required entries "question" text, ← required entries "remaining_work" text)

def fromCall (call : ChatToolCall) : Except String AgentUserInputRequest := do
  if call.name ≠ requestUserInputTool then .error "input request has a different tool identity"
  match decodeArguments call.arguments with
  | .error _ => .error "Submit only question and remaining_work as nonempty strings"
  | .ok (question, remainingWork) =>
    let request : AgentUserInputRequest := ⟨call.callId, question, remainingWork⟩
    request.validate
    return request

def toValue (r : AgentUserInputRequest) : Value :=
  .object [("request_id", .string r.requestId), ("question", .string r.question),
    ("remaining_work", .string r.remainingWork)]

end AgentUserInputRequest

/-- An image the host has prepared for the live boundary. -/
structure PreparedImage where
  mediaType : String
  dataBase64 : String

/-- A prepared part that is no image is `none`. -/
structure AgentSteeringInput where
  (receiptOperationId messageId text : String)
  (files injectSkills : List String)
  imageCount : Nat
  preparedImages : List (Option PreparedImage)
  preparedSkillInstructions : List String

namespace AgentSteeringInput

/-- The prepared bodies are never written. -/
def toValue (i : AgentSteeringInput) : Value :=
  .object ([("receipt_operation_id", .string i.receiptOperationId),
      ("message_id", .string i.messageId), ("text", .string i.text)] ++
    (if i.files = [] then [] else [("files", .array (i.files.map .string))]) ++
    (if i.injectSkills = [] then []
      else [("inject_skills", .array (i.injectSkills.map .string))]) ++
    [("image_count", .nat i.imageCount)])

def invalidImage : Option PreparedImage → Bool
  | none => true
  | some image => !(image.mediaType ∈ ["image/png", "image/jpeg", "image/webp"] &&
      !image.dataBase64.isEmpty && image.dataBase64.utf8ByteSize ≤ 2 * 1024 * 1024)

def validate (platform : Platform) (i : AgentSteeringInput) : EngineResult Unit :=
  if (trim i.receiptOperationId).isEmpty || i.receiptOperationId.utf8ByteSize > 1024 ||
      (trim i.messageId).isEmpty || i.messageId.utf8ByteSize > 256 ||
      ((trim i.text).isEmpty && i.files = [] && i.injectSkills = []) ||
      i.text.utf8ByteSize > 16 * 1024 || i.files.length > 64 ||
      i.files.any (fun file => file.isEmpty || file.utf8ByteSize > 4096 ||
        file.toList.any (·.toNat = 0)) ||
      i.injectSkills.length > 128 ||
      i.injectSkills.any (fun id => (trim id).isEmpty || id.utf8ByteSize > 1024 ||
        id.toList.any (·.toNat = 0)) ||
      i.imageCount > 4 || i.imageCount > i.files.length ||
      (i.preparedImages ≠ [] && i.preparedImages.length ≠ i.imageCount) ||
      i.preparedImages.any invalidImage ||
      i.preparedSkillInstructions.length > i.injectSkills.length ||
      i.preparedSkillInstructions.any (·.isEmpty) ||
      (i.preparedSkillInstructions.map String.utf8ByteSize).sum > 24 * 1024 ||
      size platform.floatText i.toValue > 64 * 1024 then
    invalidContract "invalid or oversized steering input"
  else .ok ()

end AgentSteeringInput

/-! ### The checkpoint -/

structure AgentExecutionCheckpoint where
  version : Nat
  binding : EngineBinding
  turnOperationId : OperationId
  (activeSetGeneration modelSteps toolCallCount acceptedInputCount : Nat)
  appliedSteeringReceipts : List OperationId
  plan : AgentPlan
  work : AgentWorkStatus
  patchRecovery : AgentPatchRecoveryState
  segments : Option AgentExecutionSegmentState
  controlRejections : AgentControlRejectionState
  completionReview : AgentCompletionReviewState
  pendingUserInput : Option AgentUserInputRequest
  awaitingChildren : Option AgentChildrenWait
  collaboration : AgentCollaborationProgress

/-! Serialized form of the remaining parts. -/

def AgentExecutionSegmentState.toValue (s : AgentExecutionSegmentState) : Value :=
  .object [("policy", .object [("max_segments", .nat s.policy.maxSegments),
      ("max_no_progress_segments", .nat s.policy.maxNoProgressSegments)]),
    ("model_steps_per_segment", .nat s.modelStepsPerSegment), ("segment", .nat s.segment),
    ("segment_start_step", .nat s.segmentStartStep),
    ("no_progress_segments", .nat s.noProgressSegments),
    ("progress_at_segment_start", .nat s.progressAtSegmentStart),
    ("progress_fingerprints", .array (s.progressFingerprints.map .string))]

def AgentChildrenWait.toValue (w : AgentChildrenWait) : Value :=
  .object ([("execution_ids", .array (w.executionIds.map .string))] ++
    optionalEntry "after_cursor" .string w.afterCursor ++ [("mode", .string w.mode.name)])

def stringMapValue {α : Type} (encode : α → Value) (m : StringMap α) : Value :=
  .object (m.toList.map fun entry => (entry.1, encode entry.2))

/-- A map field with `skip_serializing_if = "BTreeMap::is_empty"`. -/
def mapEntry {α : Type} (name : String) (encode : α → Value) (m : StringMap α) :
    List (String × Value) :=
  if m.isEmpty then [] else [(name, stringMapValue encode m)]

def AgentChildResultCoverage.toValue (c : AgentChildResultCoverage) : Value :=
  .object [("source_digest", .string c.sourceDigest), ("sha256", .string c.sha256),
    ("total_bytes", .nat c.totalBytes), ("contiguous_bytes", .nat c.contiguousBytes)]

def AgentChildResultConsumption.toValue (c : AgentChildResultConsumption) : Value :=
  .object ([("sequence", .nat c.sequence)] ++
    optionalEntry "observation_cursor" AgentCollaborationObservation.codec.encode
      c.observationCursor ++
    mapEntry "ready_source_digests" .string c.readySourceDigests ++
    [("source_digests", stringMapValue .string c.sourceDigests)] ++
    mapEntry "result_pages" AgentChildResultCoverage.toValue c.resultPages ++
    if c.allTerminalObserved then [("all_terminal_observed", .bool true)] else [])

namespace AgentCollaborationProgress

def isEmpty (p : AgentCollaborationProgress) : Bool :=
  p.pendingChildExecutions = ∅ && p.results.isEmpty && p.unreadWakes = ∅ &&
    p.workspaceObservations.isEmpty

def toValue (p : AgentCollaborationProgress) : Value :=
  .object ([("pending_child_executions", stringSetValue p.pendingChildExecutions),
      ("results", stringMapValue AgentChildResultConsumption.toValue p.results)] ++
    (if p.unreadWakes = ∅ then [] else [("unread_wakes", stringSetValue p.unreadWakes)]) ++
    mapEntry "workspace_observations" (stringMapValue .string) p.workspaceObservations)

end AgentCollaborationProgress

namespace AgentExecutionCheckpoint

def toValue (c : AgentExecutionCheckpoint) : Value :=
  .object ([("version", .nat c.version), ("binding", c.binding.toValue),
      ("turn_operation_id", .string c.turnOperationId),
      ("active_set_generation", .nat c.activeSetGeneration), ("model_steps", .nat c.modelSteps),
      ("tool_call_count", .nat c.toolCallCount),
      ("accepted_input_count", .nat c.acceptedInputCount),
      ("applied_steering_receipts", .array (c.appliedSteeringReceipts.map .string)),
      ("plan", c.plan.toValue), ("work", c.work.toValue),
      ("patch_recovery", c.patchRecovery.toValue)] ++
    optionalEntry "segments" AgentExecutionSegmentState.toValue c.segments ++
    [("control_rejections", c.controlRejections.toValue),
      ("completion_review", c.completionReview.toValue),
      ("pending_user_input", .option AgentUserInputRequest.toValue c.pendingUserInput)] ++
    optionalEntry "awaiting_children" AgentChildrenWait.toValue c.awaitingChildren ++
    if c.collaboration.isEmpty then [] else [("collaboration", c.collaboration.toValue)])

def maxBytes : Nat := 256 * 1024

section

variable (inputs : Nat) (c : AgentExecutionCheckpoint)

def validateSegments : EngineResult Unit :=
  match c.segments with
  | some segments => segments.validate c.modelSteps
  | none => .ok ()

def validateWait : EngineResult Unit :=
  match c.awaitingChildren with
  | none => .ok ()
  | some wait => do
    wait.validate
    if c.pendingUserInput.isSome then
      invalidContract "child wait and user input handoff cannot share a checkpoint"

def validatePendingInput : EngineResult Unit :=
  match c.pendingUserInput with
  | none => .ok ()
  | some request => do
    orContract request.validate
    if c.patchRecovery.targets ≠ [] || c.patchRecovery.unresolvedTargets ≠ [] ||
        c.patchRecovery.targetBudgetExceeded then
      invalidContract "unsettled patch recovery cannot close an input handoff"

/-- The metadata of one exact action. -/
def invalidAction (action : AgentExactAction) : Bool :=
  action.source.input ≥ inputs || action.id.isEmpty || action.id.utf8ByteSize > 64 ||
    action.source.quote.length > 512 ||
    (action.fields.map Prod.snd ++ action.stdinSha256.toList ++
      action.receiverDigest.toList).any (!validDigest ·) ||
    (action.succeeded && action.attemptedCallId.isNone)

def validateActions (platform : Platform) (c : AgentExecutionCheckpoint) : EngineResult Unit :=
  if c.plan.exactActions.length > 24 || size platform.floatText
      (.array (c.plan.exactActions.map AgentExactAction.toValue)) > 8192 ||
      !decide (c.plan.exactActions.map (·.id)).Nodup ||
      c.plan.exactActions.any (invalidAction c.acceptedInputCount) then
    invalidContract "checkpoint exact action metadata is invalid"
  else .ok ()

def isIdByte (byte : UInt8) : Bool :=
  (48 ≤ byte && byte ≤ 57) || (65 ≤ byte && byte ≤ 90) || (97 ≤ byte && byte ≤ 122) ||
    byte = 45 || byte = 95

def invalidRequirement (item : AgentTaskRequirement) : Bool :=
  item.id.isEmpty || item.id.utf8ByteSize > 64 ||
    !item.id.toByteArray.data.toList.all isIdByte || (trim item.description).isEmpty ||
    item.description.length > 512 || item.source.quote.length > 512 || item.source.input ≥ inputs

/-- The bounds of the last check. -/
def isUnbounded : Bool :=
  c.version ≠ 1 || (trim c.turnOperationId).isEmpty || c.turnOperationId ≠ trim c.turnOperationId ||
    c.turnOperationId.utf8ByteSize > 1024 || c.acceptedInputCount = 0 ||
    c.acceptedInputCount > 17 || c.appliedSteeringReceipts.length > 16 ||
    c.appliedSteeringReceipts.length + 1 ≠ c.acceptedInputCount ||
    c.appliedSteeringReceipts.any (fun id => (trim id).isEmpty || id.utf8ByteSize > 1024) ||
    !decide c.appliedSteeringReceipts.Nodup || (c.modelSteps = 0 && c.toolCallCount ≠ 0) ||
    c.plan.steps.length > 16 || c.plan.explanation.length > 2048 ||
    c.plan.steps.any (fun step => (trim step.step).isEmpty || step.step.length > 512) ||
    !decide (c.plan.steps.map fun step => trim step.step).Nodup ||
    (c.plan.steps.filter (·.status = .inProgress)).length > 1 ||
    (c.plan.revision = 0 && (c.plan.steps ≠ [] || c.plan.requirements ≠ [])) ||
    c.plan.requirements.any (invalidRequirement c.acceptedInputCount) ||
    !decide (c.plan.requirements.map (·.id)).Nodup || c.work.runningProcesses ≠ ∅

end

def validate (platform : Platform) (c : AgentExecutionCheckpoint) : EngineResult Unit := do
  c.binding.validate
  orContract c.patchRecovery.validate
  c.validateSegments
  c.controlRejections.validate
  c.collaboration.validate
  c.validateWait
  c.validatePendingInput
  if !c.completionReview.validFor c.acceptedInputCount then
    invalidContract "checkpoint completion review state is invalid"
  orContract (validateLedgerBudget platform c.plan.requirements)
  c.validateActions platform
  orContract (validateReceivers c.plan.exactActions)
  if c.isUnbounded then
    invalidContract "checkpoint is not a bounded quiescent progress boundary"
  let _ ← serializedSize platform c.toValue maxBytes

end AgentExecutionCheckpoint
end Nomifun.Source.AgentRuntime
