import Nomifun.Library.JsonPointer
import Nomifun.Source.ChatModelBroker.Wire

/-!
# Decoding OpenAI responses

nomifun-chat-model-broker, responses_decoder.rs:1-924. Items are added in order and closed by a
snapshot. Text and arguments arrive as deltas, as the whole of a part, or only with the snapshot,
which must agree with what was streamed. The end of the response repeats the snapshots.

The decoder of normalized events gets the frames of a stream that is not native, for which `decode`
returns no events of its own. An error ends the attempt, so the state is returned only with a
result. Item and part indices are below 128, so their conversion to `u32` is exact. Of the parts of
an item the newest entry of a key counts. Whether a frame made semantic progress is not recorded.
-/
namespace Nomifun.Source.ChatModelBroker
open Library Library.Json Library.RustText ChatModelError

namespace Responses

def maxItems : Nat := 128

def maxParts : Nat := 128

def maxArguments : Nat := 256 * 1024

inductive PartKind where
  | outputText
  | reasoningText
  | refusal
  | summaryText
  deriving DecidableEq

abbrev PartKey := PartKind × Nat

structure Item where
  id : String
  kind : String
  (callId name : Option String)
  arguments : String
  argumentsDone : Bool
  parts : List (PartKey × String)
  (finishedParts addedParts closedParts : List PartKey)
  snapshot : Option Value

end Responses

open Responses in
structure ResponsesDecoder where
  native : Option Bool
  preserve : Bool
  responseId : Option String
  sequence : Option Nat
  items : List Item
  calls : List String
  budget : WireBudget
  (terminal refusal incompleteItem : Bool)

namespace Responses

def new (preserve : Bool) : ResponsesDecoder :=
  ⟨none, preserve, none, none, [], [], .default, false, false, false⟩

abbrev Decoded := ModelResult (List ChatModelEvent × ResponsesDecoder)

def invalid {α : Type} (message : String) : ModelResult α :=
  .error (protocolViolation message)

def field : Value → String → ModelResult Value :=
  requireField "Missing native Responses field"

def string : Value → String → ModelResult String :=
  requireAs "Missing native Responses field" "Invalid native Responses string" Value.asStr

def identity (v : Value) (key : String) : ModelResult String := do
  let text ← string v key
  if (trim text).isEmpty || text.utf8ByteSize > 256 || text.toList.any isControl then
    invalid "Invalid native Responses identity"
  else .ok text

def index : Value → String → ModelResult Nat :=
  requireAs "Missing native Responses field" "Invalid native Responses index" Value.asU64

def array : Value → String → ModelResult (List Value) :=
  requireAs "Missing native Responses field" "Invalid native Responses array" Value.asArray

def optionalText (v : Value) (key : String) : ModelResult (Option String) :=
  match v.member key with
  | none | some .null => .ok none
  | some (.string text) =>
    if text.isEmpty then invalid "Invalid opaque Responses continuation" else .ok (some text)
  | some _ => invalid "Invalid opaque Responses continuation"

def partText (part : Value) (reasoning : Bool) : ModelResult (PartKind × String) := do
  let kind ← string part "type"
  if reasoning then
    if kind = "summary_text" then return (.summaryText, ← string part "text")
    else invalid "Unsupported Responses content part"
  else if kind = "output_text" then return (.outputText, ← string part "text")
  else if kind = "refusal" then return (.refusal, ← string part "refusal")
  else invalid "Unsupported Responses content part"

section

variable (done : Bool) (data : Value) (key : String) (decoder : ResponsesDecoder)

/-- `value[key] = member` for an object. -/
def setMember (member : Value) : Value → Value
  | .object entries => .object (insertEntry key member entries)
  | other => other

/-! ### Items -/

def Item.toolDelta (argumentsDelta : String) (item : Item) : ModelResult ChatModelEvent :=
  match item.callId, item.name with
  | none, _ => invalid "Missing call identity"
  | some _, none => invalid "Missing function name"
  | some callId, some name => .ok (.toolCallDelta callId name argumentsDelta)

def Item.part (key : PartKey) (item : Item) : Option String := item.parts.lookup key

def setItem (position : Nat) (item : Item) (decoder : ResponsesDecoder) : ResponsesDecoder :=
  { decoder with items := decoder.items.set position item }

def addFunctionCall (value : Value) (item : Item) (decoder : ResponsesDecoder) : Decoded := do
  let callId ← identity value "call_id"
  if decoder.calls.length ≥ 64 || callId ∈ decoder.calls then
    invalid "Duplicate or excessive Responses tool call"
  else
    let name ← identity value "name"
    let arguments ← string value "arguments"
    if arguments.utf8ByteSize > maxArguments then invalid "Function arguments limit exceeded"
    else
      let item := { item with
        callId := some callId
        name := some name
        arguments := arguments }
      .ok ([.toolCallDelta callId name arguments], { decoder with
        items := decoder.items ++ [item]
        calls := callId :: decoder.calls })

def addItem : Decoded := do
  let excessive ← (if decoder.items.length ≥ maxItems then .ok true
    else (index data "output_index").map (· ≠ decoder.items.length))
  if excessive then invalid "Responses item index is duplicate, missing or excessive"
  else
    let value ← field data "item"
    let id ← identity value "id"
    let kind ← identity value "type"
    if decoder.items.any (·.id = id) then invalid "Duplicate Responses item identity"
    else if !(kind = "message" || kind = "function_call" || kind = "reasoning") &&
        !decoder.preserve then
      invalid "Native provider-hosted item is not admitted by this consumer"
    else
      let item : Item := ⟨id, kind, none, none, "", false, [], [], [], [], none⟩
      let added := { decoder with items := decoder.items ++ [item] }
      if kind = "function_call" then addFunctionCall value item decoder
      else if kind = "message" then
        let role ← string value "role"
        let content ← (if role = "assistant" then array value "content" else .ok [.null])
        if content.isEmpty then .ok ([], added)
        else invalid "Invalid initial Responses assistant message"
      else if kind = "reasoning" && (value.member "summary").any (· ≠ .array []) then
        invalid "Invalid initial Responses reasoning summary"
      else .ok ([], added)

/-- An identity that the event repeats must agree. -/
def repeats (expected : Option String) : ModelResult Unit :=
  if (data.member key).isSome then do
    let found ← identity data key
    if some found ≠ expected then invalid "Responses event contradicts its function identity"
    else .ok ()
  else .ok ()

/-- The open item an event is about, with its position. -/
def openItem : ModelResult (Nat × Item) := do
  let position ← index data "output_index"
  match decoder.items[position]? with
  | none => invalid "Unknown Responses output index"
  | some item =>
    if item.snapshot.isSome then invalid "Responses event targets a closed or different item"
    else
      let id ← identity data "item_id"
      if id ≠ item.id then invalid "Responses event targets a closed or different item"
      else
        repeats data "call_id" item.callId
        repeats data "name" item.name
        .ok (position, item)

/-- What a text adds to the text before it: all of it, or the rest where it is the whole. -/
def addition (before text contradiction : String) : ModelResult String :=
  if done then
    match stripStart before text with
    | none => invalid contradiction
    | some rest => .ok rest
  else .ok text

def argumentsEvent : Decoded := do
  let (position, item) ← openItem data decoder
  if item.kind ≠ "function_call" || item.argumentsDone then
    invalid "Arguments event outside an open function call"
  else
    let value ← string data (if done then "arguments" else "delta")
    let delta ← addition done item.arguments value "Final function arguments contradict deltas"
    if item.arguments.utf8ByteSize + delta.utf8ByteSize > maxArguments then
      invalid "Function arguments limit exceeded"
    else
      let next := { item with
        arguments := item.arguments ++ delta
        argumentsDone := done }
      if delta.isEmpty then .ok ([], setItem position next decoder)
      else
        let event ← next.toolDelta delta
        .ok ([event], setItem position next decoder)

end

def PartKind.isReasoning : PartKind → Bool
  | .summaryText | .reasoningText => true
  | .outputText | .refusal => false

def textEvent (part : PartKind) (done : Bool) (data : Value) (decoder : ResponsesDecoder) :
    Decoded := do
  let outputIndex ← index data "output_index"
  let (position, item) ← openItem data decoder
  if item.kind ≠ (if part.isReasoning then "reasoning" else "message") then
    invalid "Text event has incompatible item type"
  else
    let partIndex ← index data (if part = .summaryText then "summary_index" else "content_index")
    if partIndex ≥ maxParts then invalid "Responses content index limit exceeded"
    else
      let key := (part, partIndex)
      if key ∈ item.finishedParts || key ∈ item.closedParts then
        invalid "Text event after part completion"
      else
        let text ← string data
          (if done then if part = .refusal then "refusal" else "text" else "delta")
        let current := (item.part key).getD ""
        let delta ← addition done current text "Completed text contradicts its deltas"
        let next := { item with
          parts := (key, current ++ delta) :: item.parts
          finishedParts := if done then key :: item.finishedParts else item.finishedParts }
        let source : ChatOutputTextSource := ⟨item.id, some outputIndex, partIndex⟩
        let events := if part.isReasoning || delta.isEmpty then []
          else [.outputTextDelta delta (some source)]
        .ok (events, setItem position next decoder)

/-- The announcement or the end of a part. -/
def partEvent (summary reasoningPart done : Bool) (data : Value) (decoder : ResponsesDecoder) :
    Decoded := do
  let (position, item) ← openItem data decoder
  let rawReasoning := !summary && item.kind = "reasoning"
  let partIndex ← index data (if summary then "summary_index" else "content_index")
  if partIndex ≥ maxParts ||
      item.kind ≠ (if summary || rawReasoning then "reasoning" else "message") ||
      (reasoningPart && !rawReasoning) then
    invalid "Invalid Responses content part"
  else
    let part ← field data "part"
    let (kind, text) ← (if rawReasoning then do
        let partType ← string part "type"
        if partType ≠ "reasoning_text" then invalid "Invalid raw Responses reasoning part"
        else return (PartKind.reasoningText, ← string part "text")
      else partText part summary)
    let key := (kind, partIndex)
    if done then
      if key ∈ item.closedParts || (item.part key).getD "" ≠ text then
        invalid "Completed content part contradicts streamed text"
      else .ok ([], setItem position { item with closedParts := key :: item.closedParts } decoder)
    else if !text.isEmpty || (item.part key).isSome || key ∈ item.closedParts ||
        key ∈ item.addedParts then
      invalid "Invalid or duplicate initial Responses content part"
    else .ok ([], setItem position { item with addedParts := key :: item.addedParts } decoder)

/-! ### The snapshot of an item -/

/-- Whether a status says that the item was cut off. -/
def cutOff (status : Option String) (message : String) : ModelResult Bool :=
  if status = some "completed" then .ok false
  else if status = some "incomplete" || status = some "in_progress" then .ok true
  else invalid message

variable (host : DecoderHost)

/-- What a snapshot yields: the events, whether the item was cut off and whether it refuses. -/
structure Closing where
  events : List ChatModelEvent
  incomplete : Bool
  refusal : Bool

section

variable (response : Value) (outputIndex : Nat) (kind : String) (data : Value) (value : Value)
  (item : Item) (frame : ProviderWireFrame) (decoder : ResponsesDecoder)

def finishFunctionCall : ModelResult Closing := do
  let status ← string value "status"
  let incomplete ← cutOff (some status) "Invalid final function status"
  let callId ← identity value "call_id"
  let differs ← (if some callId ≠ item.callId then .ok true
    else (identity value "name").map (some · ≠ item.name))
  if differs then invalid "Completed function identity or status mismatch"
  else
    let arguments ← string value "arguments"
    if arguments.utf8ByteSize > maxArguments ||
        (item.argumentsDone && arguments ≠ item.arguments) then
      invalid "Completed function arguments mismatch"
    else
      let suffix ← addition true item.arguments arguments "Completed arguments contradict deltas"
      let deltas ← (if suffix.isEmpty then .ok [] else (item.toolDelta suffix).map ([·]))
      if incomplete then .ok ⟨deltas, true, false⟩
      else match item.callId, item.name with
        | none, _ => invalid "Missing call identity"
        | some _, none => invalid "Missing function name"
        | some callId, some name =>
          let proposal := proposalEvent host.argumentParser callId name (.jsonText arguments) none
          .ok ⟨deltas ++ [proposal], false, false⟩

def messageIncomplete : ModelResult Bool := do
  let role ← string value "role"
  if role ≠ "assistant" then invalid "Invalid completed assistant message role"
  else
    let status ← string value "status"
    cutOff (some status) "Invalid completed assistant message status"

def reasoningIncomplete : ModelResult Bool :=
  match value.member "status" with
  | none | some .null => .ok false
  | some status => cutOff status.asStr "Invalid reasoning item status"

/-- The parts of a snapshot, each compared with what was streamed for it. -/
def snapshotParts (reasoning : Bool) (value : Value) (item : Item) :
    ModelResult (List (PartKey × String)) := do
  let parts ← (if reasoning && (value.member "summary").isNone then .ok []
    else array value (if reasoning then "summary" else "content"))
  if parts.length > maxParts then invalid "Responses content count limit exceeded"
  else parts.zipIdx.mapM fun (part, position) => do
    let (kind, text) ← partText part reasoning
    if (item.part (kind, position)).any (· ≠ text) then
      invalid "Completed item contradicts streamed content"
    else .ok ((kind, position), text)

/-- Text that no delta carried. -/
def unstreamed (parts : List (PartKey × String)) (item : Item) : List ChatModelEvent :=
  parts.filterMap fun (key, text) =>
    if (item.part key).isNone && !text.isEmpty then
      some (.outputTextDelta text (some ⟨item.id, some outputIndex, key.2⟩))
    else none

/-- Keys that were streamed, announced or closed but are not expected. -/
def omits (expected : List PartKey) (item : Item) : Bool :=
  (item.parts.map (·.1) ++ item.addedParts ++ item.closedParts).any (· ∉ expected)

def finishMessage : ModelResult Closing := do
  let incomplete ← messageIncomplete value
  let parts ← snapshotParts false value item
  if omits (parts.map (·.1)) item then invalid "Completed item omitted streamed content"
  else .ok ⟨unstreamed outputIndex parts item, incomplete, parts.any (·.1.1 = .refusal)⟩

/-- The keys of raw reasoning content, each part compared with what was streamed for it. -/
def rawParts : ModelResult (List PartKey) :=
  match (value.member "content").filter (· ≠ .null) with
  | none => .ok []
  | some raw =>
    match raw.asArray with
    | none => invalid "Invalid raw Responses reasoning content"
    | some raw =>
      if raw.length > maxParts then invalid "Raw reasoning part count limit exceeded"
      else raw.zipIdx.mapM fun (part, position) => do
        let kind ← string part "type"
        if kind ≠ "reasoning_text" then invalid "Unsupported raw Responses reasoning part"
        else
          let text ← string part "text"
          if (item.part (.reasoningText, position)).any (· ≠ text) then
            invalid "Completed raw reasoning contradicts its deltas"
          else .ok (.reasoningText, position)

/-- A snapshot without content, even after reasoning text was streamed. -/
def isNullRaw : Bool :=
  value.member "content" = some .null && (value.member "encrypted_content").all (· = .null)

def nullRawKeys : List PartKey :=
  (item.parts.map (·.1) ++ item.addedParts ++ item.closedParts).filter (·.1 = .reasoningText)

def isCutOff : Bool :=
  let status := (value.member "status").bind Value.asStr
  status = some "incomplete" || status = some "in_progress"

def reasoningEvents (summary : List String) (item : Item) : ModelResult (List ChatModelEvent) :=
  let nullRaw := isNullRaw value
  if nullRaw || ((value.member "content").bind Value.asArray).any (!·.isEmpty) then
    if isCutOff value then .ok []
    else
      let streamed := "\n\n".intercalate
        ((List.range maxParts).filterMap fun position => item.part (.reasoningText, position))
      let text := if streamed.isEmpty then "\n\n".intercalate summary else streamed
      let deltas := if nullRaw && !text.isEmpty then [.reasoningDelta text] else []
      let block : ChatProviderReasoning := .openaiResponsesReasoning value none
      match block.validate host.float with
      | .error message => invalid message
      | .ok () => .ok (deltas ++ [.providerReasoningBlock block])
  else do
    let encryptedContent ← optionalText value "encrypted_content"
    let text := "\n\n".intercalate summary
    return if !text.isEmpty || encryptedContent.isSome then [.reasoningBlock text encryptedContent]
      else []

def finishReasoning : ModelResult Closing := do
  let incomplete ← reasoningIncomplete value
  let parts ← snapshotParts true value item
  let raw ← rawParts value item
  let expected := parts.map (·.1) ++ raw ++ (if isNullRaw value then nullRawKeys item else [])
  if isNullRaw value && !isCutOff value && expected.any (fun key => key.1 = .reasoningText &&
      key ∉ item.finishedParts && key ∉ item.closedParts) then
    invalid "Null reasoning snapshot closed an unfinished text part"
  else if omits expected item then invalid "Completed item omitted streamed content"
  else
    let events ← reasoningEvents host value (parts.map (·.2)) item
    .ok ⟨events, incomplete, false⟩

def closing (position : Nat) (value : Value) (item : Item) : ModelResult Closing :=
  if item.kind = "function_call" then finishFunctionCall host value item
  else if item.kind = "message" then finishMessage position value item
  else if item.kind = "reasoning" then finishReasoning host value item
  else .ok ⟨[], false, false⟩

/-- The snapshot is not that of the open item. -/
def mismatch : ModelResult Bool :=
  if item.snapshot.isSome then .ok true
  else do
    let id ← identity value "id"
    if id ≠ item.id then .ok true
    else (identity value "type").map (· ≠ item.kind)

def finishItem : Decoded := do
  let value ← field data "item"
  let position ← index data "output_index"
  match decoder.items[position]? with
  | none => invalid "Unknown completed Responses item"
  | some item =>
    let differs ← mismatch value item
    if differs then invalid "Completed Responses item identity mismatch"
    else
      let closed ← closing host position value item
      let preserved :=
        if decoder.preserve then [.nativeResponsesItem item.kind value] else []
      .ok (closed.events ++ preserved,
        { setItem position { item with snapshot := some value } decoder with
          incompleteItem := decoder.incompleteItem || closed.incomplete
          refusal := decoder.refusal || closed.refusal })

/-! ### The end of the response -/

def checkResponse : ModelResult Unit := do
  let id ← identity response "id"
  if some id ≠ decoder.responseId then invalid "Responses identity changed" else .ok ()

/-- Ciphertext may change between serializations of an item. -/
def withoutCiphertext : Value → Value
  | .object entries => .object (entries.filter (·.1 ≠ "encrypted_content"))
  | other => other

def itemEqWithoutCiphertext (snapshot terminal : Value) : Bool :=
  withoutCiphertext snapshot = withoutCiphertext terminal

def corroborates : Bool :=
  (value.member "encrypted_content").all (fun text => text = .null || text.asStr.isSome) &&
    item.snapshot.any (itemEqWithoutCiphertext · value)

section

variable (status : String) (itemId : String) (part : Value) (complete : Bool) (response : Value)
  (item : Value)

def finishReason (decoder : ResponsesDecoder) : ModelResult ChatFinishReason :=
  if !complete then
    let reason := (JsonPointer.pointer response "/incomplete_details/reason").bind Value.asStr
    if reason = some "max_output_tokens" then .ok .maxOutputTokens
    else if reason = some "content_filter" then .ok .refusal
    else invalid "Unsupported Responses incomplete reason"
  else if decoder.refusal then .ok .refusal
  else if !decoder.calls.isEmpty then .ok .toolCalls
  else .ok .completed

def usageEvents : ModelResult (List ChatModelEvent) :=
  match (response.member "usage").filter (· ≠ .null) with
  | none => .ok []
  | some usage =>
    if usage.asObject.isNone then invalid "Invalid Responses usage"
    else if ["input_tokens", "output_tokens", "total_tokens"].any fun key =>
        (usage.member key).any (·.asU64.isNone) then
      invalid "Invalid Responses token count"
    else .ok [.usage (parseUsage usage)]

def finishResponse (data : Value) (decoder : ResponsesDecoder) : Decoded := do
  let response ← field data "response"
  checkResponse response decoder
  if complete && decoder.incompleteItem then
    invalid "Responses success terminal contains an incomplete item"
  else
    let status ← string response "status"
    if status ≠ (if complete then "completed" else "incomplete") then
      invalid "Responses terminal status mismatch"
    else
      let output ← array response "output"
      if output.length ≠ decoder.items.length ||
          !(output.zip decoder.items).all fun (value, item) => corroborates value item then
        invalid "Responses terminal omitted or changed an output item"
      else
        let reason ← finishReason complete response decoder
        let usage ← usageEvents response
        .ok (usage ++ [.completed reason], { decoder with terminal := true })

/-! ### Native events -/

def nextSequence (sequence : Option Nat) : ModelResult (Option Nat) :=
  match data.member "sequence_number" with
  | none => .ok sequence
  | some number =>
    match number.asU64 with
    | none => invalid "Invalid Responses sequence number"
    | some number =>
      if sequence.any (number ≤ ·) then invalid "Responses sequence did not advance"
      else .ok (some number)

def create : Decoded := do
  if decoder.responseId.isSome then invalid "Duplicate Responses creation"
  else
    let response ← field data "response"
    let id ← identity response "id"
    .ok ([.responseStarted (some id)], { decoder with responseId := some id })

def contentItem : ModelResult Item := do
  let position ← index data "output_index"
  match decoder.items[position]? with
  | none => invalid "Unknown Responses content item"
  | some item => .ok item

/-- A content event may leave out its item where it names the response. -/
def withItemId : ModelResult Value :=
  if (kind = "response.content_part.added" || kind = "response.content_part.done" ||
      kind = "response.content_part.delta") && (data.member "item_id").isNone then
    if (data.member "response_id").bind Value.asStr ≠ decoder.responseId then
      invalid "Responses content event omitted item and response identity"
    else do
      let item ← contentItem data decoder
      .ok (setMember "item_id" (.string item.id) data)
  else .ok data

/-- The kind of text that a part was announced with; the parts are ordered by their kind. -/
def announcedKind : ModelResult String := do
  let item ← contentItem data decoder
  let contentIndex ← index data "content_index"
  match [PartKind.outputText, .reasoningText, .refusal, .summaryText].find?
    fun kind => (kind, contentIndex) ∈ item.addedParts with
  | some .outputText => .ok "response.output_text.delta"
  | some .refusal => .ok "response.refusal.delta"
  | some .reasoningText =>
    if item.kind = "reasoning" then .ok "response.reasoning_text.delta"
    else invalid "Responses content delta has no announced text part"
  | _ => invalid "Responses content delta has no announced text part"

/-- A terminal without output stands for the snapshots. -/
def withOutput (response data : Value) (decoder : ResponsesDecoder) : ModelResult Value :=
  if (response.member "output").isNone then do
    let output ← decoder.items.mapM fun item =>
      match item.snapshot with
      | none => invalid "Responses terminal omitted an unfinished item"
      | some snapshot => .ok snapshot
    .ok (setMember "response" (setMember "output" (.array output) response) data)
  else .ok data

/-- Kinds of compatible providers under their native names. -/
def nativeKind : ModelResult (String × Value) := do
  let normalized ← withItemId kind data decoder
  if kind = "response.content_part.delta" then
    let kind ← announcedKind data decoder
    .ok (kind, normalized)
  else if kind = "response.done" then
    let response ← field data "response"
    let status ← string response "status"
    let terminal ← (if status = "completed" then .ok "response.completed"
      else if status = "incomplete" then .ok "response.incomplete"
      else invalid "Responses response.done is not a supported terminal")
    let normalized ← withOutput response normalized decoder
    .ok (terminal, normalized)
  else .ok (kind, normalized)

def textKinds : List (String × PartKind × Bool) :=
  [("response.output_text.delta", .outputText, false),
    ("response.output_text.done", .outputText, true),
    ("response.refusal.delta", .refusal, false),
    ("response.refusal.done", .refusal, true),
    ("response.reasoning_summary_text.delta", .summaryText, false),
    ("response.reasoning_summary_text.done", .summaryText, true),
    ("response.reasoning_text.delta", .reasoningText, false),
    ("response.reasoning_text.done", .reasoningText, true)]

/-- Whether the part is a summary, whether it is said to be reasoning, and whether it ends. -/
def partKinds : List (String × Bool × Bool × Bool) :=
  [("response.content_part.added", false, false, false),
    ("response.content_part.done", false, false, true),
    ("response.reasoning_part.added", false, true, false),
    ("response.reasoning_part.done", false, true, true),
    ("response.reasoning_summary_part.added", true, false, false),
    ("response.reasoning_summary_part.done", true, false, true)]

/-- An unknown kind is ignored. -/
def lifecycle : Decoded :=
  if kind = "response.in_progress" || kind = "response.queued" then do
    let response ← field data "response"
    checkResponse response decoder
    .ok ([], decoder)
  else if kind = "response.output_item.added" then addItem data decoder
  else if kind = "response.output_item.done" then finishItem host data decoder
  else if kind = "response.function_call_arguments.delta" then argumentsEvent false data decoder
  else if kind = "response.function_call_arguments.done" then argumentsEvent true data decoder
  else if kind = "response.completed" then finishResponse true data decoder
  else if kind = "response.incomplete" then finishResponse false data decoder
  else match textKinds.lookup kind with
    | some (part, done) => textEvent part done data decoder
    | none =>
      match partKinds.lookup kind with
      | some (summary, reasoningPart, done) => partEvent summary reasoningPart done data decoder
      | none => .ok ([], decoder)

def decodeNative : Decoded := do
  let budget ← decoder.budget.admit host.float data
  if decoder.terminal then invalid "Responses event after terminal"
  else match host.providerError .openaiResponses kind data with
  | some error => .error error
  | none =>
    let sequence ← nextSequence data decoder.sequence
    let decoder := { decoder with budget := budget, sequence := sequence }
    if kind = "response.created" then create data decoder
    else if decoder.responseId.isNone then invalid "Responses event before creation"
    else if (data.member "response_id").any (·.asStr ≠ decoder.responseId) then
      invalid "Responses response_id changed"
    else
      let (kind, data) ← nativeKind kind data decoder
      lifecycle host kind data decoder

/-! ### Complete responses -/

/-- A native event, or the error that is met where the event would be read off. -/
abbrev Call := ModelResult (String × Value)

def createdCall : Call := do
  let id ← identity response "id"
  return ("response.created", .object [("response", .object [("id", .string id)]),
    ("type", .string "response.created")])

def contentCall (contentIndex : Nat) : Call := do
  let partType ← identity part "type"
  let (event, name) ← (if partType = "output_text" then .ok ("response.output_text.done", "text")
    else if partType = "refusal" then .ok ("response.refusal.done", "refusal")
    else invalid "Unsupported complete Responses content part")
  let text ← string part name
  return (event, setMember name (.string text) (.object [("content_index", .nat contentIndex),
    ("item_id", .string itemId), ("output_index", .nat outputIndex), ("type", .string event)]))

def summaryCall (summaryIndex : Nat) : Call := do
  let partType ← identity part "type"
  if partType ≠ "summary_text" then invalid "Unsupported complete Responses reasoning part"
  else
    let text ← string part "text"
    return ("response.reasoning_summary_text.done", .object [("item_id", .string itemId),
      ("output_index", .nat outputIndex), ("summary_index", .nat summaryIndex),
      ("text", .string text), ("type", .string "response.reasoning_summary_text.done")])

/-- One call for every part, or the error of reading the parts. -/
def partCalls (parts : ModelResult (List Value)) (call : Value → Nat → Call) : List Call :=
  match parts with
  | .error error => [.error error]
  | .ok parts => parts.zipIdx.map fun (part, position) => call part position

def addedCall : String × Value :=
  let initial := if kind = "message" then setMember "content" (.array []) item
    else if kind = "reasoning" then setMember "summary" (.array []) item
    else item
  ("response.output_item.added", .object [("item", initial), ("output_index", .nat outputIndex),
    ("type", .string "response.output_item.added")])

def doneCall : String × Value :=
  ("response.output_item.done", .object [("item", item), ("output_index", .nat outputIndex),
    ("type", .string "response.output_item.done")])

def itemCalls (outputIndex : Nat) : List Call :=
  match identity item "type", identity item "id" with
  | .error error, _ => [.error error]
  | .ok _, .error error => [.error error]
  | .ok kind, .ok itemId =>
    let content := if kind = "message" then
        partCalls (array item "content") (contentCall outputIndex itemId)
      else if kind = "reasoning" then
        partCalls (if (item.member "summary").isNone then .ok [] else array item "summary")
          (summaryCall outputIndex itemId)
      else []
    [.ok (addedCall outputIndex kind item)] ++ content ++ [.ok (doneCall outputIndex item)]

def terminalCall : String × Value :=
  let terminal := if status = "completed" then "response.completed" else "response.incomplete"
  (terminal, .object [("response", response), ("type", .string terminal)])

/-- The native events that a complete response stands for. -/
def responseCalls : List Call :=
  [createdCall response] ++ (match array response "output" with
    | .error error => [.error error]
    | .ok output => (output.zipIdx.flatMap fun (item, outputIndex) => itemCalls item outputIndex) ++
      [.ok (terminalCall status response)])

end

def decodeCall (before : List ChatModelEvent × ResponsesDecoder) (call : Call) : Decoded := do
  let (kind, data) ← call
  let (events, decoder) ← decodeNative host kind data before.2
  return (before.1 ++ events, decoder)

def decodeCompleteResponse : Decoded := do
  if decoder.responseId.isSome || decoder.terminal then
    invalid "Duplicate complete Responses response"
  else
    let status ← string response "status"
    if !(status = "completed" || status = "incomplete") then
      invalid "Complete Responses response has a nonterminal status"
    else (responseCalls status response).foldlM (decodeCall host) ([], decoder)

/-! ### Frames -/

def namedEvent : String := toAsciiLowercase (trim frame.event)

def declaredType : Option String :=
  (frame.data.member "type").bind Value.asStr

def isUnnamed : Bool :=
  let named := namedEvent frame
  named = "" || named = "message" || named = "json"

def frameKind : String :=
  if isUnnamed frame then (declaredType frame).getD (namedEvent frame) else namedEvent frame

def isCompleteResponse : Bool :=
  namedEvent frame = "json" && (frame.data.member "object").bind Value.asStr = some "response"

def isNativeFrame : Bool :=
  (declaredType frame).any (fun kind => (stripStart "response." kind).isSome) ||
    (frame.data.member "response").isSome || (frame.data.member "output_index").isSome

/-- The first frame decides whether the stream is native. Without events of its own the frame is
left to the decoder of normalized events. -/
def decode : ModelResult (Option (List ChatModelEvent) × ResponsesDecoder) :=
  if (frame.data.member "type").any (·.asStr.isNone) then invalid "Invalid Responses event type"
  else if isCompleteResponse frame then do
    let (events, decoder) ← decodeCompleteResponse host frame.data decoder
    .ok (some events, decoder)
  else
    let native := isNativeFrame frame
    if decoder.native = some false && native then
      invalid "Responses stream mixed native and normalized events"
    else
      let mode := decoder.native.getD native
      let decoder := { decoder with native := some mode }
      if !mode then .ok (none, decoder)
      else if namedEvent frame = "done" then
        if decoder.terminal then .ok (some [], decoder)
        else invalid "Responses sentinel cannot replace a terminal response"
      else if !isUnnamed frame && (declaredType frame).any (· ≠ namedEvent frame) then
        invalid "Responses event name contradicts its payload type"
      else do
        let (events, decoder) ← decodeNative host (frameKind frame) frame.data decoder
        .ok (some events, decoder)

end

/-- The events of a stream in which every frame is accepted. -/
def run (preserve : Bool) (frames : List ProviderWireFrame) :
    ModelResult (List ChatModelEvent × ResponsesDecoder) :=
  frames.foldlM (fun before frame => do
    let (events, decoder) ← decode host frame before.2
    return (before.1 ++ events.getD [], decoder)) ([], new preserve)

end Responses

end Nomifun.Source.ChatModelBroker
