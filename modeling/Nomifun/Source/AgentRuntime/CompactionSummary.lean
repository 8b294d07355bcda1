import Nomifun.Library.ByteOffsets
import Nomifun.Source.ChatModelBroker.Contracts

/-!
# The text of a compaction summary

nomifun-agent-runtime, compaction.rs:226-305. The stream is the list of the items that the model
yields. The stream budget and the sink for the usage are parameters.
-/
namespace Nomifun.Source.AgentRuntime
open Library.ByteOffsets Library.RustText Source.ChatModelBroker

inductive SummaryError where
  | modelStreamEndedWithoutTerminal
  | model (message : String)
  | compaction (message : String)
  | contextTooLarge (limit actual : Nat)
  | compactionInvalidSummary
  | compactionOutputLimit
  | cancelled
  deriving DecidableEq

structure SummaryHost (β : Type) where
  admitEvent : β → ChatModelEvent → Except SummaryError β
  emitUsage : ChatUsage → Except SummaryError Unit

/-- `trim_end`. -/
def trimEnd (text : List Char) : List Char := (text.reverse.dropWhile isWhitespace).reverse

/-- One more text delta: only the trimmed summary has to fit, the rest is cut at a boundary. -/
def pushDelta (maxSummaryBytes : Nat) (summary text : List Char) :
    Except SummaryError (List Char) :=
  let next := summary ++ text
  if text = [] then .error (.compaction "compaction emitted an empty text delta")
  else if bytes next > maxSummaryBytes ∧ bytes (trimEnd next) > maxSummaryBytes then
    .error (.contextTooLarge maxSummaryBytes (bytes next))
  else if bytes next > maxSummaryBytes then
    .ok (takeBytes (floorBoundary next maxSummaryBytes) next)
  else .ok next

variable {β : Type} (host : SummaryHost β) (maxSummaryBytes : Nat)

def summaryLoop (budget : β) (summary : List Char) :
    List (Except SummaryError ChatModelEvent) → Except SummaryError (List Char × ChatFinishReason)
  | [] => .error .modelStreamEndedWithoutTerminal
  | item :: stream => do
    let event ← item
    let budget ← host.admitEvent budget event
    match event with
    | .outputTextDelta text _ =>
      summaryLoop budget (← pushDelta maxSummaryBytes summary text.toList) stream
    | .completed finishReason => return (summary, finishReason)
    | .usage usage =>
      host.emitUsage usage
      summaryLoop budget summary stream
    | .responseStarted _ | .reasoningDelta _ | .reasoningSignature _ | .reasoningBlock _ _
    | .providerReasoningBlock _ | .providerRoundId _ => summaryLoop budget summary stream
    | .toolCallDelta .. | .toolCallCompleted _ | .toolCallRejected .. =>
      .error .compactionInvalidSummary
    | .nativeResponsesItem .. | .outputAudioDelta .. =>
      .error (.compaction "compaction route emitted an unsupported modality")

/-- The task summary that is stored. -/
def taskSummary (budget : β) (stream : List (Except SummaryError ChatModelEvent)) :
    Except SummaryError (List Char) := do
  let (summary, finishReason) ← summaryLoop host maxSummaryBytes budget [] stream
  match finishReason with
  | .completed =>
    if trimEnd summary = [] then .error (.compaction "compaction ended with Completed")
    else return trimEnd summary
  | .cancelled => .error .cancelled
  | .maxOutputTokens => .error .compactionOutputLimit
  | .toolCalls => .error (.compaction "compaction ended with ToolCalls")
  | .refusal => .error (.compaction "compaction ended with Refusal")

end Nomifun.Source.AgentRuntime
