import Nomifun.Source.ChatModelBroker.Contracts

/-!
# What an attempt's events must look like

nomifun-chat-model-broker, broker.rs:817-978 and provider_reasoning.rs:22-132. Signed tool calls and
reasoning blocks are bound to the route that produced them; then `EventSequence` checks the event
against those before it. A map or a set is the list of its entries.

The digest of a route is a parameter.
-/
namespace Nomifun.Source.ChatModelBroker
open Library.Json Library.RustText ChatModelError

/-! ### Binding to the producing route -/

section

variable (float : UInt64 → List Char) (digestPayload : ResolvedChatRoute → Option String)

def geminiToolRouteOrigin : String := "_nomifun_producing_route_digest"

/-- A field of the metadata may hold the signature; two must agree. -/
def signatureField (entries : List (String × Value)) (signature : Option String)
    (field : String) : ModelResult (Option String) :=
  match entries.lookup field with
  | none => .ok signature
  | some value =>
    match value.asStr.filter (!·.isEmpty) with
    | none => .error (invalidRequest
        ("Gemini tool metadata field " ++ field ++ " must be a non-empty string"))
    | some value =>
      if signature.any (· ≠ value) then
        .error (invalidRequest "Gemini tool metadata contains conflicting thought signatures")
      else .ok (some value)

def geminiToolSignature : Option Value → ModelResult (Option String)
  | none => .ok none
  | some metadata =>
    match metadata.asObject with
    | none => .error (invalidRequest "Gemini tool provider metadata must be an object")
    | some entries => ["thoughtSignature", "thought_signature"].foldlM (signatureField entries) none

def bindGeminiToolRoute (call : ChatToolCall) (route : ResolvedChatRoute) :
    ModelResult ChatToolCall :=
  let entries := ((call.providerMetadata.bind Value.asObject).getD [])
  let has := fun key => (entries.lookup key).isSome
  if has geminiToolRouteOrigin then
    .error (protocolViolation "provider decoder supplied an unexpected tool signature origin")
  else if route.protocol ≠ .gemini then
    if has "thoughtSignature" || has "thought_signature" then
      .error (protocolViolation "Gemini tool signature is incompatible with the producing protocol")
    else .ok call
  else
    match geminiToolSignature call.providerMetadata with
    | .error error => .error error
    | .ok none => .ok call
    | .ok (some _) =>
      match digestPayload route with
      | none => .error (protocolViolation "cannot bind Gemini tool signature route")
      | some digest => .ok { call with
          providerMetadata :=
            some (.object (insertEntry geminiToolRouteOrigin (.string digest) entries)) }

def ChatProviderReasoning.bindRoute (block : ChatProviderReasoning) (route : ResolvedChatRoute) :
    Except String ChatProviderReasoning := do
  block.validate float
  let compatible := match block with
    | .openaiResponsesReasoning _ _ => decide (route.protocol = .openaiResponses)
    | .anthropicThinking _ _ _ | .anthropicRedactedThinking _ _ =>
      route.protocol.usesAnthropicMessages
  if !compatible || !route.validate.isOk then
    .error "provider reasoning is incompatible with the attempted route"
  match digestPayload route with
  | none => .error "cannot bind provider reasoning route"
  | some digest =>
    if block.routeDigest.isSome then
      .error "provider decoder supplied an unexpected reasoning origin"
    else .ok (block.withRouteDigest digest)

/-- The event as the broker passes it on. -/
def bindEvent (route : ResolvedChatRoute) : ChatModelEvent → ModelResult ChatModelEvent
  | .toolCallCompleted call => (bindGeminiToolRoute digestPayload call route).map .toolCallCompleted
  | .providerReasoningBlock block =>
    match block.bindRoute float digestPayload route with
    | .error message => .error (protocolViolation message)
    | .ok bound => .ok (.providerReasoningBlock bound)
  | event => .ok event

end

/-! ### The sequence -/

structure EventSequence where
  (responseStarted usageSeen terminalSeen : Bool)
  toolNames : List (String × String)
  closedToolIds : List String

def EventSequence.default : EventSequence := ⟨false, false, false, [], []⟩

def validateToolIdentity (callId name : String) (toolNames : List (String × String)) :
    ModelResult (List (String × String)) :=
  if (trim callId).isEmpty then
    .error (protocolViolation "tool-call event has an empty call id")
  else match toolNames.lookup callId with
    | some existing =>
      if !name.isEmpty && existing ≠ name then
        .error (protocolViolation "tool-call name changed for one call id")
      else .ok toolNames
    | none =>
      if (trim name).isEmpty then
        .error (protocolViolation "first tool-call event has an empty name")
      else .ok ((callId, name) :: toolNames)

def validateCompletedTool (call : ChatToolCall) (toolNames : List (String × String)) :
    ModelResult (List (String × String)) :=
  match call.validate with
  | .error error => .error (protocolViolation error.message)
  | .ok () => validateToolIdentity call.callId call.name toolNames

/-- A proposal is closed once. -/
def EventSequence.close (callId : String) (toolNames : List (String × String))
    (sequence : EventSequence) : ModelResult EventSequence :=
  if callId ∈ sequence.closedToolIds then
    .error (protocolViolation "tool proposal closed more than once")
  else .ok { sequence with
    toolNames := toolNames
    closedToolIds := callId :: sequence.closedToolIds }

/-- The checks that look at the event alone. -/
def validateContent (float : UInt64 → List Char) : ChatModelEvent → ModelResult Unit
  | .outputTextDelta text source =>
    match source.elim (.ok ()) ChatOutputTextSource.validate with
    | .error message => .error (protocolViolation message)
    | .ok () =>
      if text.isEmpty then
        .error (protocolViolation "provider emitted an empty semantic text delta")
      else .ok ()
  | .reasoningDelta text =>
    if text.isEmpty then .error (protocolViolation "provider emitted an empty semantic text delta")
    else .ok ()
  | .outputAudioDelta mediaType dataBase64 =>
    if (trim mediaType).isEmpty || (trim dataBase64).isEmpty then
      .error (protocolViolation "provider emitted an invalid semantic audio delta")
    else .ok ()
  | .reasoningSignature signature =>
    if signature.isEmpty then
      .error (protocolViolation "provider emitted an empty reasoning signature")
    else .ok ()
  | .reasoningBlock text encryptedContent =>
    if encryptedContent.any (·.isEmpty) || (text.isEmpty && encryptedContent.isNone) then
      .error (protocolViolation "provider emitted an empty reasoning block")
    else .ok ()
  | .providerReasoningBlock block =>
    match block.validate float with
    | .error message => .error (protocolViolation message)
    | .ok () => .ok ()
  | .providerRoundId roundId =>
    if roundId.isEmpty then .error (protocolViolation "provider emitted an empty round id")
    else .ok ()
  | .nativeResponsesItem itemType _ =>
    if (trim itemType).isEmpty then
      .error (protocolViolation "provider emitted an untyped native Responses item")
    else .ok ()
  | _ => .ok ()

def EventSequence.observe (float : UInt64 → List Char) (sequence : EventSequence)
    (event : ChatModelEvent) : ModelResult EventSequence :=
  if sequence.terminalSeen then
    .error (protocolViolation "provider emitted an event after the canonical terminal")
  else match event with
    | .responseStarted _ =>
      if sequence.responseStarted then
        .error (protocolViolation "provider emitted response_started more than once")
      else .ok { sequence with responseStarted := true }
    | .toolCallDelta callId name _ =>
      if callId ∈ sequence.closedToolIds then
        .error (protocolViolation "tool delta follows a closed proposal")
      else do
        let toolNames ← validateToolIdentity callId name sequence.toolNames
        return { sequence with toolNames := toolNames }
    | .toolCallCompleted call => do
      let toolNames ← validateCompletedTool call sequence.toolNames
      sequence.close call.callId toolNames
    | .toolCallRejected callId name diagnostic =>
      if name.isEmpty || trim name ≠ name || trim callId ≠ callId then
        .error (protocolViolation "rejected tool proposal has an invalid identity")
      else do
        let toolNames ← validateToolIdentity callId name sequence.toolNames
        match diagnostic.validate with
        | .error _ => .error (protocolViolation "invalid tool argument diagnostic")
        | .ok () => sequence.close callId toolNames
    | .usage _ =>
      if sequence.usageSeen then
        .error (protocolViolation "provider emitted canonical usage more than once")
      else .ok { sequence with usageSeen := true }
    | .completed _ => .ok { sequence with terminalSeen := true }
    | other => (validateContent float other).map fun _ => sequence

end Nomifun.Source.ChatModelBroker
