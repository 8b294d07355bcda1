import Nomifun.Source.ChatModelBroker.Contracts

/-!
# What the wire carries

nomifun-chat-model-broker, wire_budget.rs, tool_arguments.rs:10-71 and adapter.rs:3083-3176. A frame
is an event name and a JSON value; its diagnostic is not read by a decoder. An attempt may take so
many frames and so many bytes. The arguments of a tool call go through a parser, which is a
parameter, and end as a proposal or as a rejection. Token counters are read under the names the
providers use.
-/
namespace Nomifun.Source.ChatModelBroker
open Library Library.Json ChatModelError

structure ProviderWireFrame where
  event : String
  data : Value

/-! ### Members of a frame -/

section

variable (missing invalid : String)

def requireField (v : Value) (key : String) : ModelResult Value :=
  match v.member key with
  | none => .error (protocolViolation missing)
  | some value => .ok value

/-- A member that reads as something. -/
def requireAs {α : Type} (read : Value → Option α) (v : Value) (key : String) : ModelResult α := do
  match read (← requireField missing v key) with
  | none => .error (protocolViolation invalid)
  | some value => .ok value

variable {missing invalid}

theorem requireField_ok (ok : requireField missing v key = .ok value) :
    v.member key = some value := by
  unfold requireField at ok
  split at ok
  · cases ok
  · next found => rw [found, Except.ok.inj ok]

theorem requireAs_ok {read : Value → Option α} {key : String} {value : α}
    (ok : requireAs missing invalid read v key = .ok value) :
    (v.member key).bind read = some value := by
  obtain ⟨member, found, rest⟩ := bind_eq_ok.mp ok
  rw [requireField_ok found, Option.bind_some]
  split at rest
  · cases rest
  · next reads => rw [reads, Except.ok.inj rest]

end

/-! ### The budget -/

structure WireBudget where
  bytes : Nat
  frames : Nat

def WireBudget.default : WireBudget := ⟨0, 0⟩

def encodedSize (float : UInt64 → List Char) (v : Value) (limit : Nat) : ModelResult Nat :=
  if size float v > limit then .error (protocolViolation "provider wire byte limit exceeded")
  else .ok (size float v)

def WireBudget.admit (float : UInt64 → List Char) (v : Value) (budget : WireBudget) :
    ModelResult WireBudget := do
  if budget.frames + 1 > 65536 then
    .error (protocolViolation "provider wire frame limit exceeded")
  let bytes ← encodedSize float v (16 * 1024 * 1024 - budget.bytes)
  return ⟨budget.bytes + bytes, budget.frames + 1⟩

/-! ### Tool arguments -/

inductive ToolArgumentInput where
  | jsonText (text : String)
  | jsonValue (value : Value)

abbrev ToolArgumentParser := ToolArgumentInput → Except ToolArgumentDiagnostic Value

def proposalEvent (parser : ToolArgumentParser) (callId name : String) (input : ToolArgumentInput)
    (providerMetadata : Option Value) : ChatModelEvent :=
  match parser input with
  | .ok arguments => .toolCallCompleted ⟨callId, name, arguments, providerMetadata⟩
  | .error diagnostic => .toolCallRejected callId name diagnostic

/-- What decoders are given from outside. -/
structure DecoderHost where
  float : UInt64 → List Char
  providerError : ChatProtocol → String → Value → Option ChatModelError
  argumentParser : ToolArgumentParser

/-! ### Usage -/

def firstU64? (v : Value) (keys : List String) : Option Nat :=
  keys.findSome? fun key => (v.member key).bind Value.asU64

def firstU64 (v : Value) (keys : List String) : Nat := (firstU64? v keys).getD 0

def nestedU64 (v : Value) (path : List String) : Nat :=
  ((path.foldlM (fun (current : Value) key => current.member key) v).bind Value.asU64).getD 0

/-- Counters that have a field of their own. -/
def canonicalCounters : List String :=
  ["input_tokens", "output_tokens", "reasoning_tokens", "cache_write_tokens", "cache_read_tokens",
    "audio_input_tokens", "audio_output_tokens", "prompt_tokens", "completion_tokens",
    "total_tokens", "input", "output", "promptTokenCount", "candidatesTokenCount",
    "thoughtsTokenCount", "cacheCreationInputTokens", "cacheReadInputTokens",
    "cachedContentTokenCount", "audioInputTokens", "audioOutputTokens"]

def parseUsage (v : Value) : ChatUsage :=
  let source := (v.member "usage").getD v
  { inputTokens := firstU64 source ["input_tokens", "prompt_tokens", "input", "promptTokenCount"]
    outputTokens :=
      firstU64 source ["output_tokens", "completion_tokens", "output", "candidatesTokenCount"]
    reasoningTokens :=
      max (max (firstU64 source ["reasoning_tokens", "reasoning", "thoughtsTokenCount"])
        (nestedU64 source ["completion_tokens_details", "reasoning_tokens"]))
        (nestedU64 source ["output_tokens_details", "reasoning_tokens"])
    cacheWriteTokens := firstU64 source
      ["cache_write_tokens", "cache_creation_input_tokens", "cacheCreationInputTokens"]
    cacheReadTokens :=
      max (max (firstU64 source ["cache_read_tokens", "cache_read_input_tokens",
        "cacheReadInputTokens", "cachedContentTokenCount"])
        (nestedU64 source ["prompt_tokens_details", "cached_tokens"]))
        (nestedU64 source ["input_tokens_details", "cached_tokens"])
    audioInputTokens := firstU64 source ["audio_input_tokens", "audioInputTokens"]
    audioOutputTokens := firstU64 source ["audio_output_tokens", "audioOutputTokens"]
    providerReported := (source.asObject.getD []).filterMap fun (key, counter) =>
      if key ∈ canonicalCounters then none else counter.asU64.map (key, ·) }

end Nomifun.Source.ChatModelBroker
