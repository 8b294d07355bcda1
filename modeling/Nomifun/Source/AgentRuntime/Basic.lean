import Nomifun.Source.AgentContracts.Digest

/-!
# Shared values of the agent runtime

Messages, tool calls and results (nomifun-agent-contracts, chat_model.rs:273-342 and 763-769,
chat_provider_reasoning.rs:13-32;
nomifun-engine-core, tool.rs:229-305), observations of owned processes
(nomifun-engine-core, process.rs:266-388; nomifun-agent-runtime, wait.rs:32-73) and the
errors the modelled functions raise (nomifun-agent-runtime, error.rs). Identifiers are
strings, as their newtypes are.
-/
namespace Nomifun.Source.AgentRuntime
open Library.Json Source.AgentContracts

abbrev ToolCallId := String
abbrev OperationId := String
abbrev CapabilityId := String
abbrev ActionId := String

inductive AgentEngineError where
  | invalidContract (message : String)
  | invalidModelEvent (message : String)
  | toolResultTooLarge (limit : Nat)
  | contextAssembly (message : String)
  | compaction (message : String)
  | replayContract (message : String)
  | toolInvocation (message : String)
  deriving DecidableEq

abbrev EngineResult := Except AgentEngineError

structure ChatToolCall where
  callId : ToolCallId
  name : String
  arguments : Value
  providerMetadata : Option Value
  deriving DecidableEq

inductive ChatToolResultPart where
  | text (body : String)
  | image (mediaType dataBase64 : String)
  | audio (mediaType dataBase64 : String)
  deriving DecidableEq

inductive ChatRole where
  | system | user | assistant | tool
  deriving DecidableEq

inductive ChatProviderReasoning where
  | anthropicThinking (text signature : String) (routeDigest : Option DigestHex)
  | anthropicRedactedThinking (data : String) (routeDigest : Option DigestHex)
  | openaiResponsesReasoning (item : Value) (routeDigest : Option DigestHex)
  deriving DecidableEq

inductive ChatContentPart where
  | providerReasoning (block : ChatProviderReasoning)
  | text (body : String)
  | image (mediaType dataBase64 : String)
  | audio (mediaType dataBase64 : String)
  | toolCall (call : ChatToolCall)
  | toolResult (callId : ToolCallId) (output : List ChatToolResultPart) (isError : Bool)
  | reasoning (body : String) (signature encryptedContent : Option String)
  deriving DecidableEq

structure ChatMessage where
  role : ChatRole
  content : List ChatContentPart
  providerRoundId : Option String
  deriving DecidableEq

def ChatToolResultPart.toValue : ChatToolResultPart → Value
  | .text body => .object [("text", .string body), ("type", .string "text")]
  | .image mediaType data =>
    .object [("data_base64", .string data), ("media_type", .string mediaType),
      ("type", .string "image")]
  | .audio mediaType data =>
    .object [("data_base64", .string data), ("media_type", .string mediaType),
      ("type", .string "audio")]

/-- `EngineToolResult`, which the runtime calls `AgentToolResult`. -/
structure AgentToolResult where
  callId : ToolCallId
  output : List ChatToolResultPart
  isError : Bool

def maxToolResultBytes : Nat := 4 * 1024 * 1024

namespace AgentToolResult

def text (callId : ToolCallId) (body : String) (isError : Bool) : AgentToolResult :=
  ⟨callId, [.text body], isError⟩

def outputText (r : AgentToolResult) : String :=
  "\n".intercalate (r.output.filterMap fun
    | .text body => some body
    | .image _ _ | .audio _ _ => none)

def outputValue (r : AgentToolResult) : Value := .array (r.output.map ChatToolResultPart.toValue)

/-- The per-part check of `validate_for`. -/
def validatePart : ChatToolResultPart → EngineResult Unit
  | .text body =>
    if body.isEmpty then .error (.toolInvocation "tool result text must not be empty") else .ok ()
  | .image mediaType dataBase64 | .audio mediaType dataBase64 =>
    if mediaType.isEmpty || dataBase64.isEmpty then
      .error (.toolInvocation "tool result media must include a type and payload")
    else .ok ()

def validateFor (platform : Platform) (r : AgentToolResult) (expected : ToolCallId) :
    EngineResult Unit := do
  if r.callId ≠ expected then
    .error (.toolInvocation ("tool result call id " ++ r.callId ++ " does not match " ++ expected))
  if r.output = [] then .error (.toolInvocation "tool result output must not be empty")
  r.output.forM validatePart
  if size platform.floatText r.outputValue > maxToolResultBytes then
    .error (.toolResultTooLarge maxToolResultBytes)

end AgentToolResult

structure EngineProcessOutput where
  text : String
  (nextCursor retainedBytes droppedBytes : Nat)
  sourceEncoding : String
  decodeErrors : Nat

structure EngineCleanupReport where
  (interruptAttempted terminateAttempted forceKillAttempted reaped : Bool)
  elapsedMs : Nat
  errors : List String

inductive EngineProcessPoll where
  | running (pid : Nat) (output : EngineProcessOutput)
  | exited (exitCode signal : Option Int) (output : EngineProcessOutput)
      (cleanup : EngineCleanupReport)
  | cancelled (output : EngineProcessOutput) (cleanup : EngineCleanupReport)
  | timedOut (output : EngineProcessOutput) (cleanup : EngineCleanupReport)
  | lost (pid : Nat) (output : EngineProcessOutput) (cleanup : EngineCleanupReport)
  | spawnFailed (code message : String)

structure AgentOwnedProcessObservation where
  processId : String
  poll : EngineProcessPoll

namespace EngineProcessOutput

def toValue (o : EngineProcessOutput) : Value :=
  .object [("decode_errors", .nat o.decodeErrors), ("dropped_bytes", .nat o.droppedBytes),
    ("next_cursor", .nat o.nextCursor), ("retained_bytes", .nat o.retainedBytes),
    ("source_encoding", .string o.sourceEncoding), ("text", .string o.text)]

end EngineProcessOutput

namespace EngineCleanupReport

def toValue (c : EngineCleanupReport) : Value :=
  .object [("elapsed_ms", .nat c.elapsedMs), ("errors", .array (c.errors.map .string)),
    ("force_kill_attempted", .bool c.forceKillAttempted),
    ("interrupt_attempted", .bool c.interruptAttempted), ("reaped", .bool c.reaped),
    ("terminate_attempted", .bool c.terminateAttempted)]

end EngineCleanupReport

def EngineProcessPoll.toValue : EngineProcessPoll → Value
  | .running pid output =>
    .object [("output", output.toValue), ("pid", .nat pid), ("state", .string "running")]
  | .exited exitCode signal output cleanup =>
    .object [("cleanup", cleanup.toValue), ("exit_code", .option .int exitCode),
      ("output", output.toValue), ("signal", .option .int signal), ("state", .string "exited")]
  | .cancelled output cleanup =>
    .object [("cleanup", cleanup.toValue), ("output", output.toValue),
      ("state", .string "cancelled")]
  | .timedOut output cleanup =>
    .object [("cleanup", cleanup.toValue), ("output", output.toValue),
      ("state", .string "timed_out")]
  | .lost pid output cleanup =>
    .object [("cleanup", cleanup.toValue), ("output", output.toValue), ("pid", .nat pid),
      ("state", .string "lost")]
  | .spawnFailed code message =>
    .object [("code", .string code), ("message", .string message),
      ("state", .string "spawn_failed")]

/-- `stream_limits::serialized_size`: the compact text may not exceed the limit. -/
def serializedSize (platform : Platform) (v : Value) (limit : Nat) : EngineResult Nat :=
  if size platform.floatText v > limit then
    .error (.invalidModelEvent "model stream envelope byte budget exceeded")
  else .ok (size platform.floatText v)

namespace AgentOwnedProcessObservation

def toValue (o : AgentOwnedProcessObservation) : Value :=
  .object [("poll", o.poll.toValue), ("process_id", .string o.processId)]

def reaped (o : AgentOwnedProcessObservation) : Bool :=
  match o.poll with
  | .exited _ _ _ cleanup | .cancelled _ cleanup | .timedOut _ cleanup | .lost _ _ cleanup =>
    cleanup.reaped
  | .running _ _ | .spawnFailed _ _ => false

def validate (platform : Platform) (o : AgentOwnedProcessObservation) : EngineResult Unit := do
  if o.processId.isEmpty || o.processId.utf8ByteSize > 128 || o.poll matches .spawnFailed _ _ then
    .error (.invalidContract "wait observation has no original live process")
  let _ ← serializedSize platform o.toValue (512 * 1024)

end AgentOwnedProcessObservation

/-- The part of a grant the runtime reads; the journal and payload allowances are spent
by the host. -/
structure NativeBudgetIncrease where
  additionalSegments : Nat
  retryStallGuards : Bool

end Nomifun.Source.AgentRuntime
