import Nomifun.Source.ChatModelBroker.Wire

/-!
# Decoding Anthropic messages

nomifun-chat-model-broker, anthropic_decoder.rs:1-664. A frame is a heartbeat, an event to ignore, a
complete message or a native event; a stream that starts with other frames is left to the decoder of
normalized events, for which `decode` returns no events of its own. A complete message is taken as
the native events it stands for. Only one content block is open at a time, under the next index.

An error ends the attempt, so the state is returned only with a result. Whether a frame made
semantic progress is not recorded. How provider errors are recognised is a parameter, as are the
parser of tool arguments and the printing of floating-point numbers.
-/
namespace Nomifun.Source.ChatModelBroker
open Library.Json Library.RustText ChatModelError

namespace Anthropic

def maxArguments : Nat := 256 * 1024

def maxSignature : Nat := maxThinkingOpaqueBytes

inductive Block where
  | text
  | thinking (text signature : String)
  | redactedThinking (data : String)
  | tool (id name : String) (initial : Value) (json : String)

end Anthropic

open Anthropic in
structure AnthropicDecoder where
  native : Option Bool
  started : Bool
  messageId : Option String
  (terminal outputClosed incompleteBlock : Bool)
  nextIndex : Nat
  active : Option Block
  callIds : List String
  finish : Option ChatFinishReason
  usage : List (String × Value)
  budget : WireBudget

namespace Anthropic

def new : AnthropicDecoder :=
  ⟨none, false, none, false, false, false, 0, none, [], none, [], .default⟩

def invalid {α : Type} (message : String) : ModelResult α :=
  .error (protocolViolation message)

def unsupported {α : Type} (message : String) : ModelResult α :=
  .error (.new .unsupportedFeature message .never)

def field : Value → String → ModelResult Value :=
  requireField "Missing native Anthropic field"

def string : Value → String → ModelResult String :=
  requireAs "Missing native Anthropic field" "Invalid native Anthropic string" Value.asStr

def identity (v : Value) (key : String) : ModelResult String := do
  let text ← string v key
  if text.isEmpty || trim text ≠ text || text.utf8ByteSize > 256 || text.toList.any isControl then
    invalid "Invalid native Anthropic identity"
  else .ok text

def index (v : Value) : ModelResult Nat :=
  requireAs "Missing native Anthropic field" "Invalid Anthropic content block index" Value.asU64 v
    "index"

/-! ### Usage -/

def isTokenCount (key : String) : Bool :=
  key ∈ ["input_tokens", "output_tokens", "cache_creation_input_tokens", "cache_read_input_tokens"]

/-- Counts are cumulative snapshots. -/
def mergeCount (usage : List (String × Value)) (entry : String × Value) :
    ModelResult (List (String × Value)) :=
  if isTokenCount entry.1 then
    match entry.2.asU64 with
    | none => invalid "Invalid Anthropic token count"
    | some number =>
      if ((usage.lookup entry.1).bind Value.asU64).any (number < ·) then
        invalid "Anthropic cumulative usage decreased"
      else .ok (insertEntry entry.1 entry.2 usage)
  else .ok (insertEntry entry.1 entry.2 usage)

def mergeUsage (v : Value) (usage : List (String × Value)) : ModelResult (List (String × Value)) :=
  match v.asObject with
  | none => invalid "Invalid Anthropic usage object"
  | some entries => entries.foldlM mergeCount usage

/-! ### Content blocks -/

variable (host : DecoderHost)

abbrev Decoded := ModelResult (List ChatModelEvent × AnthropicDecoder)

/-- The text of a block, if there is any. -/
def textDelta (text : String) (decoder : AnthropicDecoder) : ModelResult (List ChatModelEvent) :=
  if text.isEmpty then .ok []
  else match decoder.messageId with
    | none => invalid "Missing Anthropic message identity"
    | some id => .ok [.outputTextDelta text (some ⟨id, none, decoder.nextIndex⟩)]

section

variable (block : Value) (kind : String) (frame : ProviderWireFrame) (data : Value)
  (decoder : AnthropicDecoder)

def startThinking : ModelResult Block := do
  let text ← string block "thinking"
  if text.utf8ByteSize > maxThinkingTextBytes then invalid "Anthropic thinking text limit exceeded"
  else match block.member "signature" with
    | none => .ok (.thinking text "")
    | some (.string signature) =>
      if signature.utf8ByteSize ≤ maxSignature then .ok (.thinking text signature)
      else invalid "Invalid initial Anthropic thinking signature"
    | some _ => invalid "Invalid initial Anthropic thinking signature"

def startTool : Decoded := do
  let id ← identity block "id"
  let name ← identity block "name"
  if decoder.callIds.length ≥ 64 || id ∈ decoder.callIds then
    invalid "Duplicate or excessive Anthropic tool call"
  else
    let initial ← field block "input"
    let _ ← encodedSize host.float initial maxArguments
    .ok ([.toolCallDelta id name ""], { decoder with
      callIds := id :: decoder.callIds
      active := some (.tool id name initial "") })

def startRedacted : ModelResult Block := do
  let data ← string block "data"
  if data.isEmpty || data.utf8ByteSize > maxThinkingOpaqueBytes then
    invalid "Invalid Anthropic redacted thinking block"
  else .ok (.redactedThinking data)

/-- No block may be opened here. -/
def misplaced : ModelResult Bool :=
  if decoder.active.isSome || decoder.finish.isSome || decoder.outputClosed ||
      decoder.incompleteBlock || decoder.nextIndex ≥ 128 then .ok true
  else (index data).map (· ≠ decoder.nextIndex)

def startBlock : Decoded := do
  if ← misplaced data decoder then
    invalid "Anthropic content block is duplicate, interleaved or excessive"
  else
    let block ← field data "content_block"
    let kind ← string block "type"
    if kind = "text" then
      let text ← string block "text"
      let events ← textDelta text decoder
      .ok (events, { decoder with active := some .text })
    else if kind = "thinking" then
      let thinking ← startThinking block
      .ok ([], { decoder with active := some thinking })
    else if kind = "tool_use" then startTool host block decoder
    else if kind = "redacted_thinking" then
      let redacted ← startRedacted block
      .ok ([], { decoder with active := some redacted })
    else unsupported "Anthropic provider-hosted content block is not a local tool"

/-- A delta for the open block. -/
def deltaFor (block : Block) (kind : String) (delta : Value) (decoder : AnthropicDecoder) :
    ModelResult (List ChatModelEvent × Block) :=
  match block with
  | .text =>
    if kind = "text_delta" then do
      let text ← string delta "text"
      return (← textDelta text decoder, .text)
    else unsupported "Anthropic delta cannot be represented by its active content block"
  | .thinking text signature =>
    if kind = "thinking_delta" then
      if !signature.isEmpty then invalid "Anthropic thinking text after signature"
      else do
        let more ← string delta "thinking"
        if text.utf8ByteSize + more.utf8ByteSize > maxThinkingTextBytes then
          invalid "Anthropic thinking text limit exceeded"
        else .ok ([], .thinking (text ++ more) signature)
    else if kind = "signature_delta" then do
      let more ← string delta "signature"
      if signature.utf8ByteSize + more.utf8ByteSize > maxSignature then
        invalid "Anthropic thinking signature limit exceeded"
      else .ok ([], .thinking text (signature ++ more))
    else unsupported "Anthropic delta cannot be represented by its active content block"
  | .tool id name initial json =>
    if kind = "input_json_delta" then
      if initial ≠ .object [] then
        invalid "Anthropic tool supplied both initial input and JSON deltas"
      else do
        let text ← string delta "partial_json"
        if json.utf8ByteSize + text.utf8ByteSize > maxArguments then
          invalid "Anthropic streamed arguments limit exceeded"
        else
          let events := if text.isEmpty then [] else [.toolCallDelta id name text]
          .ok (events, .tool id name initial (json ++ text))
    else unsupported "Anthropic delta cannot be represented by its active content block"
  | .redactedThinking _ =>
    unsupported "Anthropic delta cannot be represented by its active content block"

def blockDelta : Decoded := do
  let position ← index data
  if position ≠ decoder.nextIndex then invalid "Anthropic delta targets a different content block"
  else
    let delta ← field data "delta"
    let kind ← string delta "type"
    match decoder.active with
    | none => invalid "Anthropic delta has no open block"
    | some block =>
      let (events, block) ← deltaFor block kind delta decoder
      .ok (events, { decoder with active := some block })

/-- What a block leaves when it is closed. -/
def closeBlock : Block → List ChatModelEvent × AnthropicDecoder
  | .text => ([], decoder)
  | .thinking text signature =>
    if signature.isEmpty then ([], { decoder with incompleteBlock := true })
    else ([.providerReasoningBlock (.anthropicThinking text signature none)], decoder)
  | .redactedThinking data =>
    ([.providerReasoningBlock (.anthropicRedactedThinking data none)], decoder)
  | .tool id name initial json =>
    let input := if json.isEmpty then .jsonValue initial else .jsonText json
    ([proposalEvent host.argumentParser id name input none], decoder)

def stopBlock : Decoded := do
  let position ← index data
  if position ≠ decoder.nextIndex then invalid "Anthropic stop targets a different content block"
  else match decoder.active with
    | none => invalid "Anthropic block stopped more than once"
    | some block =>
      .ok (closeBlock host
        { decoder with active := none, nextIndex := decoder.nextIndex + 1 } block)

/-! ### The message -/

/-- The counters of a message that starts; they may be absent. -/
def initialCounts (usage : Value) : ModelResult Unit :=
  if ["input_tokens", "output_tokens"].any fun key => (usage.member key).any (·.asU64.isNone) then
    invalid "Missing initial Anthropic token count"
  else .ok ()

def messageStart : Decoded := do
  if decoder.started then invalid "Duplicate Anthropic message_start"
  else
    let message ← field data "message"
    let kind ← string message "type"
    if kind ≠ "message" then invalid "Invalid initial Anthropic message"
    else
      let role ← string message "role"
      if role ≠ "assistant" then invalid "Invalid initial Anthropic message"
      else
        let content ← field message "content"
        if content ≠ .array [] || (message.member "stop_reason").any (· ≠ .null) then
          invalid "Invalid initial Anthropic message"
        else
          let id ← identity message "id"
          let counts ← field message "usage"
          initialCounts counts
          let usage ← mergeUsage counts decoder.usage
          .ok ([.responseStarted (some id)], { decoder with
            messageId := some id
            usage := usage
            started := true })

def finishReason (callIds : List String) (reason : Value) : ModelResult ChatFinishReason :=
  match reason.asStr with
  | some text =>
    if (text = "end_turn" || text = "stop_sequence") && callIds.isEmpty then .ok .completed
    else if text = "tool_use" && !callIds.isEmpty then .ok .toolCalls
    else if text = "max_tokens" then .ok .maxOutputTokens
    else if text = "refusal" then .ok .refusal
    else if text = "pause_turn" then
      unsupported "Anthropic server-tool pause is not a local tool continuation"
    else invalid "Anthropic stop reason is unknown or contradicts tool output"
  | none => invalid "Anthropic stop reason is unknown or contradicts tool output"

/-- The stop reason of a message delta, if it has one. -/
def stopReason (delta : Value) (decoder : AnthropicDecoder) :
    ModelResult (Option ChatFinishReason) :=
  match (delta.member "stop_reason").filter (· ≠ .null) with
  | none => .ok none
  | some reason => do
    let finish ← finishReason decoder.callIds reason
    if decoder.incompleteBlock && finish ≠ .maxOutputTokens then
      invalid "Anthropic incomplete block without an output-limit terminal"
    else .ok (some finish)

def messageDelta : Decoded := do
  if decoder.active.isSome || decoder.finish.isSome then
    invalid "Anthropic message_delta before block closure or after stop reason"
  else
    let delta ← field data "delta"
    if delta.asObject.isNone then invalid "Invalid Anthropic message delta"
    else
      let finish ← stopReason delta decoder
      let usage ← (match data.member "usage" with
        | none => .ok decoder.usage
        | some counts => mergeUsage counts decoder.usage)
      .ok ([], { decoder with
        outputClosed := true
        finish := finish
        usage := usage })

def messageStop : Decoded :=
  if decoder.active.isSome then invalid "Anthropic message stopped with an open block"
  else match decoder.finish with
    | none => invalid "Anthropic message_stop lacks a stop reason"
    | some finish => .ok ([.usage (parseUsage (.object decoder.usage)), .completed finish],
        { decoder with
          terminal := true
          usage := [] })

def carriesContent : Bool :=
  ["message", "content_block", "delta", "usage"].any fun key => (data.member key).isSome

/-- The events of the lifecycle after `message_start`. -/
def isLifecycle : Bool :=
  kind ∈ ["content_block_start", "content_block_delta", "content_block_stop", "message_delta",
    "message_stop"]

/-- A native event of the message. -/
def lifecycle : Decoded :=
  if kind = "content_block_start" then startBlock host data decoder
  else if kind = "content_block_delta" then blockDelta data decoder
  else if kind = "content_block_stop" then stopBlock host data decoder
  else if kind = "message_delta" then messageDelta data decoder
  else if kind = "message_stop" then messageStop decoder
  else unsupported "Unsupported native Anthropic event"

def decodeNative : Decoded := do
  let budget ← decoder.budget.admit host.float data
  let decoder := { decoder with budget := budget }
  if decoder.terminal then invalid "Anthropic event after message_stop"
  else match host.providerError .anthropic kind data with
    | some error => .error error
    | none =>
      if kind = "message_start" then messageStart data decoder
      -- Unknown kinds without content are tolerated.
      else if !isLifecycle kind && !carriesContent data then .ok ([], decoder)
      else if !decoder.started then invalid "Anthropic content before message_start"
      else lifecycle host kind data decoder

/-- One native event after those before it. -/
def decodeCall (before : List ChatModelEvent × AnthropicDecoder) (call : String × Value) :
    Decoded := do
  let (events, decoder) ← decodeNative host call.1 call.2 before.2
  return (before.1 ++ events, decoder)

/-! ### Frames -/

/-- The native events of a content block that arrives complete. -/
def blockCalls (position : Nat) (block : Value) : List (String × Value) :=
  [("content_block_start", .object [("content_block", block), ("index", .nat position),
      ("type", .string "content_block_start")]),
    ("content_block_stop", .object [("index", .nat position),
      ("type", .string "content_block_stop")])]

/-- The native events that a complete message stands for. -/
def messageCalls (message : Value) : ModelResult (List (String × Value)) := do
  let id ← identity message "id"
  let usage ← field message "usage"
  match (← field message "content").asArray with
  | none => invalid "Complete Anthropic content is not an array"
  | some content =>
    match (← field message "stop_reason").asStr with
    | none => invalid "Complete Anthropic response lacks a stop reason"
    | some stopReason =>
      let start := .object [("content", .array []), ("id", .string id),
        ("role", .string "assistant"), ("stop_reason", .null), ("type", .string "message"),
        ("usage", usage)]
      let delta := .object [("stop_reason", .string stopReason), ("stop_sequence", .null)]
      return [("message_start", .object [("message", start), ("type", .string "message_start")])] ++
        (content.zipIdx.flatMap fun (block, position) => blockCalls position block) ++
        [("message_delta", .object [("delta", delta), ("type", .string "message_delta"),
            ("usage", usage)]),
          ("message_stop", .object [("type", .string "message_stop")])]

def decodeCompleteMessage (message : Value) (decoder : AnthropicDecoder) : Decoded := do
  if decoder.started || decoder.terminal then invalid "Duplicate complete Anthropic response"
  else
    let calls ← messageCalls message
    calls.foldlM (decodeCall host) ([], decoder)

/-- A member that is null counts as absent. -/
def normalized : Value → Value
  | .object entries => .object (entries.filter (·.2 ≠ .null))
  | other => other

def namedEvent : String := toAsciiLowercase (trim frame.event)

def declaredType : Option String := (data.member "type").bind Value.asStr

def frameKind : String :=
  let named := namedEvent frame
  if named = "message" || named = "json" then (declaredType data).getD named else named

def isCompleteMessage : Bool :=
  namedEvent frame = "json" && declaredType data = some "message" &&
    (data.member "role").bind Value.asStr = some "assistant"

/-- The event name contradicts the type of the payload. -/
def contradictsName : Bool :=
  let named := namedEvent frame
  !(named = "message" || named = "json") && (declaredType data).any (· ≠ named)

def ping (frame : ProviderWireFrame) (data : Value) (decoder : AnthropicDecoder) :
    ModelResult AnthropicDecoder := do
  let budget ← decoder.budget.admit host.float frame.data
  let plain := data.asObject.any fun entries =>
    (["message", "content_block", "delta", "usage", "error"].all fun key =>
      (entries.lookup key).isNone) && (entries.lookup "index").all (·.asU64.isSome)
  if decoder.terminal || (data.member "type").any (·.asStr ≠ some "ping") ||
      contradictsName frame data || !plain then
    invalid "Invalid Anthropic heartbeat"
  else .ok { decoder with budget := budget }

def isKnownKind : Bool := kind = "message_start" || isLifecycle kind

def isNativeFrame : Bool :=
  (declaredType data).any isKnownKind || (data.member "content_block").isSome ||
    (data.member "index").isSome ||
    ((data.member "message").bind (·.member "role")).isSome ||
    (!isKnownKind kind && carriesContent data)

/-- The first frame that selects a mode decides whether the stream is native. Without events of its
own the frame is left to the decoder of normalized events. -/
def decode : ModelResult (Option (List ChatModelEvent) × AnthropicDecoder) := do
  let data := normalized frame.data
  if isCompleteMessage frame data then
    let (events, decoder) ← decodeCompleteMessage host data decoder
    .ok (some events, decoder)
  else
    let kind := frameKind frame data
    if kind = "ping" then
      let decoder ← ping host frame data decoder
      .ok (some [], decoder)
    else if !isKnownKind kind && !carriesContent data && (declaredType data).isSome &&
        decoder.native ≠ some true then
      .ok (some [], decoder)
    else
      let native := isNativeFrame kind data
      if decoder.native = some false && native then
        invalid "Anthropic stream mixed native and normalized events"
      else
        let mode := decoder.native.getD native
        let decoder := { decoder with native := some mode }
        if !mode then .ok (none, decoder)
        else if (data.member "type").any (·.asStr.isNone) || contradictsName frame data then
          invalid "Anthropic event name contradicts its payload type"
        else
          let (events, decoder) ← decodeNative host kind data decoder
          .ok (some events, decoder)

end

/-- The events of a stream in which every frame is accepted. -/
def run (frames : List ProviderWireFrame) : ModelResult (List ChatModelEvent × AnthropicDecoder) :=
  frames.foldlM (fun before frame => do
    let (events, decoder) ← decode host frame before.2
    return (before.1 ++ events.getD [], decoder)) ([], new)

end Anthropic

end Nomifun.Source.ChatModelBroker
