import Nomifun.Source.ChatModelBroker.Wire

/-!
# Decoding Gemini responses

nomifun-chat-model-broker, adapter.rs:2364-2392, 2637-2910, 3032-3040 and 3178-3260. The frames of
an attempt belong to responses that are told apart by their identifier; a frame without one belongs
to the only open response. Tool calls are collected until the response ends and are proposed then,
together with the reason for the end, which a candidate, the frame itself or nothing may give.

An error ends the attempt, so the state is returned only with a result. The order of the open
responses does not matter and they are kept as entries without one; tool calls are ordered by their
key.
-/
namespace Nomifun.Source.ChatModelBroker
open Library.Json Library.RustText ChatModelError

/-! ### Finish reasons -/

def stringAt (v : Value) (paths : List (List String)) : Option String :=
  paths.findSome? fun path =>
    (path.foldlM (fun (current : Value) key => current.member key) v).bind Value.asStr

def parseFinishReason (v : Value) (eventName : String) : ChatFinishReason :=
  let reason := toAsciiLowercase ((stringAt v [["finish_reason"], ["stop_reason"], ["finishReason"],
    ["response", "status"], ["status"]]).getD "")
  if contains "unexpected_tool" reason then .refusal
  else if contains "tool" reason || reason = "function_call" then .toolCalls
  else if contains "length" reason || contains "max" reason || reason = "max_output_tokens" then
    .maxOutputTokens
  else if ["refusal", "safety", "blocked", "content_filter", "recitation", "blocklist",
      "image_safety", "prohibited", "spii", "unexpected_tool", "malformed"].any
      (contains · reason) then .refusal
  else if contains "cancel" reason || contains "abort" reason then .cancelled
  else if eventName = "response.incomplete" then .maxOutputTokens
  else .completed

def parseFinishReasonText (reason : String) : ChatFinishReason :=
  parseFinishReason (.object [("finish_reason", .string reason)]) "finish"

def isUnspecifiedFinishReason (reason : String) : Bool :=
  toAsciiLowercase reason ∈ ["", "finish_reason_unspecified", "unspecified", "none", "null"]

def isTerminalFrame (v : Value) : Bool :=
  ((v.member "done").bind Value.asBool).getD false ||
    ((v.member "terminal").bind Value.asBool).getD false

/-- The reason that a member gives, if it gives one. -/
def reasonOf (skipped : String → Bool) (message : String) :
    Option Value → ModelResult (Option ChatFinishReason)
  | none | some .null => .ok none
  | some (.string reason) =>
    .ok (if skipped reason then none else some (parseFinishReasonText reason))
  | some _ => .error (protocolViolation message)

/-! ### Entries by key -/

/-- `insert` into an ordered map. -/
def setEntry {κ α : Type} [LT κ] [DecidableLT κ] (key : κ) (entry : α) : List (κ × α) → List (κ × α)
  | [] => [(key, entry)]
  | (other, old) :: rest =>
    if key < other then (key, entry) :: (other, old) :: rest
    else if other < key then (other, old) :: setEntry key entry rest
    else (key, entry) :: rest

/-- The response of a frame: its own identifier, or else the only open one. -/
def responseKey {α : Type} (explicit : Option String) (anonymous message : String)
    (streams : List (String × α)) : ModelResult String :=
  match explicit with
  | some key => .ok key
  | none =>
    if streams.length ≤ 1 then .ok ((streams.head?.map (·.1)).getD anonymous)
    else .error (protocolViolation message)

namespace Gemini

structure RawToolCall where
  name : String
  arguments : Value
  providerMetadata : Option Value

structure Stream where
  responseStarted : Bool
  hasToolCalls : Bool
  pendingUsage : Option ChatUsage
  tools : List (String × RawToolCall)

def Stream.default : Stream := ⟨false, false, none, []⟩

abbrev Streams := List (String × Stream)

def violation {α : Type} (message : String) : ModelResult α :=
  .error (protocolViolation message)

/-- A member under one of two names. -/
def eitherMember (v : Value) (first second : String) : Option Value :=
  (v.member first).orElse fun _ => v.member second

def signatureOf (part : Value) : ModelResult (Option String) :=
  match eitherMember part "thoughtSignature" "thought_signature" with
  | none | some .null => .ok none
  | some (.string signature) => .ok (some signature)
  | some _ => violation "Gemini thoughtSignature is not a string or null"

def callIdOf (functionCall : Value) (candidateIndex partIndex : Nat) : ModelResult String :=
  let numbered := "gemini-tool-" ++ toString candidateIndex ++ "-" ++ toString partIndex
  match functionCall.member "id" with
  | none | some .null => .ok numbered
  | some (.string id) => .ok (if id.isEmpty then numbered else id)
  | some _ => violation "Gemini functionCall id is not a string or null"

def readFunctionCall (functionCall : Value) (signature : Option String)
    (candidateIndex partIndex : Nat) (stream : Stream) : ModelResult Stream := do
  if functionCall.asObject.isNone then violation "Gemini functionCall is not an object"
  else
    let name := ((functionCall.member "name").bind Value.asStr).getD ""
    if name.isEmpty then violation "Gemini functionCall is missing name"
    else
      let callId ← callIdOf functionCall candidateIndex partIndex
      let arguments := ((functionCall.member "args").filter (· ≠ .null)).getD (.object [])
      if (stream.tools.lookup callId).any (·.name ≠ name) then
        violation "Gemini functionCall name changed for one call id"
      else
        let metadata := signature.map fun text => .object [("thoughtSignature", .string text)]
        .ok { stream with
          hasToolCalls := true
          tools := setEntry callId ⟨name, arguments, metadata⟩ stream.tools }

def readPart (candidateIndex : Nat) (before : List ChatModelEvent × Stream)
    (indexed : Value × Nat) : ModelResult (List ChatModelEvent × Stream) := do
  let (events, stream) := before
  let (part, partIndex) := indexed
  if part.asObject.isNone then violation "Gemini content part is not an object"
  else if (part.member "text").isSome && (part.member "functionCall").isSome then
    violation "Gemini content part contains both text and functionCall"
  else
    let text := ((part.member "text").bind Value.asStr).getD ""
    let texts : List ChatModelEvent := if text.isEmpty then []
      else if (part.member "thought").bind Value.asBool = some true then [.reasoningDelta text]
      else [.outputTextDelta text none]
    let signature ← signatureOf part
    match part.member "functionCall" with
    | none =>
      let signed := (signature.filter (!·.isEmpty)).map (ChatModelEvent.reasoningSignature ·)
      .ok (events ++ texts ++ signed.toList, stream)
    | some functionCall =>
      let stream ← readFunctionCall functionCall signature candidateIndex partIndex stream
      .ok (events ++ texts, stream)

def partsOf (candidate : Value) : ModelResult (List Value) :=
  match candidate.member "content" with
  | none | some .null => .ok []
  | some (.object content) =>
    match content.lookup "parts" with
    | none | some .null => .ok []
    | some (.array parts) => .ok parts
    | some _ => violation "Gemini content parts is not an array"
  | some _ => violation "Gemini candidate content is not an object"

def geminiReason (v : Value) : ModelResult (Option ChatFinishReason) :=
  reasonOf isUnspecifiedFinishReason "Gemini finishReason is not a string or null"
    (eitherMember v "finishReason" "finish_reason")

def readCandidate (candidate : Value) (candidateIndex : Nat) (stream : Stream) :
    ModelResult (List ChatModelEvent × Stream × Option ChatFinishReason) := do
  if candidate.asObject.isNone then violation "Gemini candidate is not an object"
  else
    let parts ← partsOf candidate
    let (events, stream) ← parts.zipIdx.foldlM (readPart candidateIndex) ([], stream)
    let reason ← geminiReason candidate
    return (events, stream, reason)

def readCandidates (candidates : Option Value) (stream : Stream) :
    ModelResult (List ChatModelEvent × Stream × Option ChatFinishReason) :=
  match candidates with
  | none => .ok ([], stream, none)
  | some candidates =>
    match candidates.asArray with
    | none => violation "Gemini candidates is not an array"
    | some [] => .ok ([], stream, none)
    | some [candidate] => readCandidate candidate 0 stream
    | some _ => violation "Gemini response contains more than one candidate"

def isBlocked (data : Value) : Bool :=
  (((data.member "promptFeedback").bind (·.member "blockReason")).bind Value.asStr).isSome

def readFrame (data : Value) (stream : Stream) :
    ModelResult (List ChatModelEvent × Stream × Option ChatFinishReason) := do
  let (events, stream, reported) ← readCandidates (data.member "candidates") stream
  let usage := (data.member "usageMetadata").filter (· ≠ .null)
  let stream := { stream with
    pendingUsage := (usage.map parseUsage).orElse fun _ => stream.pendingUsage }
  if isBlocked data then .error (providerUnavailable "Gemini blocked the prompt")
  else if data.member "candidates" = some (.array []) && (data.member "usageMetadata").isNone &&
      !isTerminalFrame data then
    violation "Gemini raw frame has an empty candidates array without usage metadata"
  else
    let reason ← geminiReason data
    return (events, stream, reason.orElse fun _ => reported)

def isTerminal (frame : ProviderWireFrame) (reported : Option ChatFinishReason) : Bool :=
  let event := toAsciiLowercase frame.event
  reported.isSome || event = "done" || isTerminalFrame frame.data ||
    (event = "json" && (frame.data.member "candidates").isSome)

/-- Calls make the end of a completed response one of tool calls. -/
def Stream.finishReason (reported : Option ChatFinishReason) (stream : Stream) : ChatFinishReason :=
  match reported with
  | none | some .completed => if stream.hasToolCalls then .toolCalls else .completed
  | some reason => reason

variable (host : DecoderHost)

def toolEvents (reason : ChatFinishReason) (stream : Stream) : List ChatModelEvent :=
  if reason = .completed || reason = .toolCalls then
    stream.tools.map fun (id, tool) => proposalEvent host.argumentParser id tool.name
      (.jsonValue tool.arguments) tool.providerMetadata
  else if reason = .maxOutputTokens then
    stream.tools.map fun (id, tool) => .toolCallDelta id tool.name ""
  else []

def completion (reported : Option ChatFinishReason) (stream : Stream) : List ChatModelEvent :=
  let reason := stream.finishReason reported
  toolEvents host reason stream ++ (stream.pendingUsage.map (.usage ·)).toList ++
    [.completed reason]

def explicitKey (data : Value) : Option String :=
  ((eitherMember data "responseId" "id").bind Value.asStr).filter (!·.isEmpty)

/-- A frame as it was read into its response, with the reason that it gives. -/
structure Reading where
  key : String
  events : List ChatModelEvent
  stream : Stream
  reported : Option ChatFinishReason

def read (frame : ProviderWireFrame) (streams : Streams) : ModelResult Reading := do
  let explicit := explicitKey frame.data
  let key ← responseKey explicit "__gemini_anonymous__"
    "Gemini frame without response id cannot be correlated with multiple active streams" streams
  let stream := (streams.lookup key).getD .default
  let started := if stream.responseStarted then []
    else (explicit.map fun id => ChatModelEvent.responseStarted (some id)).toList
  let (events, stream, reported) ← readFrame frame.data { stream with responseStarted := true }
  return ⟨key, started ++ events, stream, reported⟩

/-- `decode_gemini_raw_frame`. -/
def decode (frame : ProviderWireFrame) (streams : Streams) :
    ModelResult (List ChatModelEvent × Streams) := do
  let ⟨key, events, stream, reported⟩ ← read frame streams
  let others := streams.filter (·.1 ≠ key)
  if isTerminal frame reported then .ok (events ++ completion host reported stream, others)
  else .ok (events, (key, stream) :: others)

/-- The events of each frame of an attempt in which every frame is accepted. -/
def run (streams : Streams) : List ProviderWireFrame → ModelResult (List (List ChatModelEvent))
  | [] => .ok []
  | frame :: rest => do
    let (events, streams) ← decode host frame streams
    let later ← run streams rest
    return events :: later

end Gemini

end Nomifun.Source.ChatModelBroker
