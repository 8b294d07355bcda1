import Nomifun.Source.AgentRuntime.Checkpoint

/-!
# Events of the canonical journal

nomifun-agent-runtime, events.rs:57-395, reconciliation.rs:11-27, protocol_recovery.rs:163-195,
output_limit.rs:62-78, stream_limits.rs:43-55; nomifun-agent-contracts, chat_model.rs:775-808,
runtime_tool_hold.rs. Events that no modelled function looks at are one constructor.
-/
namespace Nomifun.Source.AgentRuntime
open Library.RustText Source.AgentContracts

inductive AgentReconciliationSource where
  | ownerReceipt | nativeControlReceipt | ownerAttestation | readOutcomeUnavailable | notDispatched
  deriving DecidableEq

inductive RuntimeToolHoldReason where
  | toolNotExposed | argumentsRejected | batchRejected | phaseRestricted | inputSuperseded
  | priorCallFailed | runtimeGate

inductive ToolArgumentDiagnosticCategory where
  | syntaxError | incompleteJson | rootType

structure ToolArgumentDiagnostic where
  category : ToolArgumentDiagnosticCategory
  (line column : Option Nat)
  byteLen : Nat
  digest : DigestHex

/-- Whether `validate` accepts the diagnostic. -/
def ToolArgumentDiagnostic.valid (d : ToolArgumentDiagnostic) : Bool :=
  isHexDigest d.digest && match d.category with
    | .rootType => d.line.isNone && d.column.isNone
    | .syntaxError | .incompleteJson => d.line.any (0 < ·) && d.column.isSome

structure AgentRejectedToolProposal where
  callId : ToolCallId
  name : String
  diagnostic : ToolArgumentDiagnostic

inductive AgentModelResponseRejection where
  | nonNativeMarkup | emptyTaskTerminal | requiredInputHandoff | requiredChildResults
  | requiredDelegation
  | toolArguments (diagnostics : List AgentRejectedToolProposal)
  | unclassified

/-- `ModelResponseRejected`. -/
structure ModelResponseRejection where
  step : Nat
  discardedToolCallIds : List ToolCallId
  continuation : Bool
  toolHint : Option String
  rejection : Option AgentModelResponseRejection
  feedback : Option String

inductive AgentEngineEvent where
  | turnStarted (binding : EngineBinding) (turnOperationId : OperationId)
  | collaborationInherited (progress : AgentCollaborationProgress)
  | modelStepStarted (step : Nat) (operationId : OperationId) (correctionSource : Option Nat)
  | executionCheckpointSaved (step revision : Nat) (digest : DigestHex)
  | modelOutputTruncated (step : Nat) (discardedToolCallIds : List ToolCallId)
      (continuation : Bool)
  | modelResponseRejected (rejected : ModelResponseRejection)
  | modelResponseValidated (step : Nat)
  | voiceModelStepSuperseded (step : Nat) (discardedToolCallIds : List ToolCallId)
  | workStatus (status : AgentWorkStatus)
  | planUpdated (plan : AgentPlan)
  | patchRecoveryUpdated (state : AgentPatchRecoveryState)
  | steeringInputs (inputs : List AgentSteeringInput)
  | completionReview (status : AgentWorkStatus)
  | toolCallDelta (step : Nat) (callId : ToolCallId) (name argumentsDelta : String)
  | toolCallCompleted (step : Nat) (call : ChatToolCall)
  | toolStarted (step : Nat) (callId : ToolCallId) (capabilityId : CapabilityId)
      (actionId : ActionId)
  | toolCompleted (step : Nat) (result : AgentToolResult)
      (runtimeHold : Option RuntimeToolHoldReason)
  | toolOutcomeReconciled (step : Nat) (result : AgentToolResult)
      (source : AgentReconciliationSource) (evidenceEventId : Option String)
      (ownerOperationId : Option OperationId)
  | executionTailReconciled (modelSteps sourceCheckpointRevision : Nat)
      (discardedToolCallIds retainedToolCallIds : List ToolCallId)
      (discardLastModelStep retryStallGuards : Bool)
  | turnCompleted (modelSteps : Nat)
  | userInputRequested (step : Nat) (request : AgentUserInputRequest)
  | endIntentReview (status : AgentWorkStatus)
  | turnWaiting (modelSteps : Nat)
  | turnWaitResolved (modelSteps : Nat)
  | awaitingChildren (modelSteps : Nat) (request : AgentChildrenWait)
  | childrenWaitResolved (modelSteps : Nat) (cursor : String)
  | ownedProcessObserved (modelSteps : Nat) (observation : AgentOwnedProcessObservation)
  | turnInputRequired (modelSteps : Nat) (request : AgentUserInputRequest)
  | turnCancelled (modelSteps : Nat)
  | turnFailed (modelSteps : Nat)
  | other

/-! ### Validation of a rejection -/

def invalidModelEvent {α : Type} (message : String) : EngineResult α :=
  .error (.invalidModelEvent message)

/-- `stream_limits::identity`. -/
def validateIdentity (id : ToolCallId) (name : String) : EngineResult Unit :=
  if (trim id).isEmpty || id.utf8ByteSize > 256 || id.toList.any isControl ||
      (stripStart "agent-instructions:" id).isSome || name.utf8ByteSize > 128 ||
      name.toList.any isControl then
    invalidModelEvent "invalid or oversized model tool identity"
  else .ok ()

/-- `output_limit::validate_discarded`. -/
def validateDiscarded (step : Nat) (calls : List ToolCallId) : EngineResult Unit := do
  if step = 0 || calls.length > 64 then invalidModelEvent "invalid output-limit discard record"
  calls.zipIdx.forM fun entry => do
    validateIdentity entry.1 ""
    if entry.1 ∈ calls.take entry.2 then invalidModelEvent "invalid output-limit discard record"

def maxFeedbackBytes : Nat := 24 * 1024

def safeHint (name : String) : Bool :=
  !name.isEmpty && name.utf8ByteSize ≤ 256 && name.toByteArray.data.toList.all fun byte =>
    AgentExecutionCheckpoint.isIdByte byte || byte = 46

namespace ModelResponseRejection

def invalid {α : Type} (message : String) : EngineResult α :=
  replayContract ("protocol correction: " ++ message)

/-- The diagnostics of rejected arguments, each for one proposal that was discarded. -/
def validateDiagnostics (r : ModelResponseRejection)
    (diagnostics : List AgentRejectedToolProposal) : EngineResult Unit := do
  if diagnostics = [] || diagnostics.length > 64 then invalid "invalid diagnostic count"
  diagnostics.zipIdx.forM fun entry => do
    let proposal := entry.1
    validateIdentity proposal.callId proposal.name
    if !proposal.diagnostic.valid then invalid "invalid safe argument diagnostic"
    if proposal.callId ∉ r.discardedToolCallIds ||
        (diagnostics.take entry.2).any (·.callId = proposal.callId) || proposal.name.isEmpty then
      invalid "diagnostic differs from its rejected proposal"

/-- Reasons that reject a text-only response. -/
def textOnly : AgentModelResponseRejection → Bool
  | .emptyTaskTerminal | .requiredInputHandoff | .requiredChildResults | .requiredDelegation => true
  | .nonNativeMarkup | .toolArguments _ | .unclassified => false

def validate (r : ModelResponseRejection) : EngineResult Unit := do
  validateDiscarded r.step r.discardedToolCallIds
  if r.toolHint.any (!safeHint ·) then invalid "invalid correction hint"
  match r.rejection, r.feedback with
  | none, none => .ok ()
  | some reason, some feedback =>
    if (trim feedback).isEmpty || feedback.utf8ByteSize > maxFeedbackBytes ||
        feedback.toList.any (·.toNat = 0) then
      invalid "typed rejection and safe feedback must be recorded together"
    else do
      match reason with
      | .toolArguments diagnostics => r.validateDiagnostics diagnostics
      | _ => .ok ()
      if textOnly reason && r.discardedToolCallIds ≠ [] then
        invalid "text-only terminal rejection contains native proposals"
  | _, _ => invalid "typed rejection and safe feedback must be recorded together"

end ModelResponseRejection
end Nomifun.Source.AgentRuntime
