import Nomifun.Source.AgentSession.Payloads

/-!
# Shared content

nomifun-agent-contracts, shared_tool_content.rs; nomifun-agent-session, shared_content.rs,
shared_input_content.rs, session_input.rs:6-22. The bodies of tool calls and tool results in an
event are moved to payloads of their own, and inputs delivered to a turn are replaced by a
reference to the event that accepted them. Reading the event puts both back.
-/
namespace Nomifun.Source.AgentSession
open Library.Json Library.JsonPointer Library.MachineInt Library.RustText Library.Serde
  Source.AgentContracts

def sharedToolContentKey : String := "_canonical_shared_content"
def sharedToolContentMinBytes : Nat := 1024
def canonicalPayloadMaxBytes : Nat := 1024 * 1024
def maxReferences : Nat := 4096

inductive SharedToolContentKind where
  | toolOutput | toolArguments
  deriving DecidableEq

namespace SharedToolContentKind

def mediaType : SharedToolContentKind → String
  | .toolOutput => "application/vnd.nomifun.tool-output+json"
  | .toolArguments => "application/vnd.nomifun.tool-arguments+json"

def idPart : SharedToolContentKind → String
  | .toolOutput => "output"
  | .toolArguments => "arguments"

def id (kind : SharedToolContentKind) (session : AgentSessionId) (digest : DigestHex) : String :=
  "shared-tool:" ++ session ++ ":" ++ kind.idPart ++ ":" ++ digest

def accepts (kind : SharedToolContentKind) (value : Value) : Bool :=
  match kind, value with
  | .toolOutput, .array _ => true
  | .toolArguments, .object _ => true
  | _, _ => false

def nameOf : SharedToolContentKind → String
  | .toolOutput => "tool_output"
  | .toolArguments => "tool_arguments"

def codec : Codec SharedToolContentKind :=
  unitVariants [("tool_output", .toolOutput), ("tool_arguments", .toolArguments)] nameOf

end SharedToolContentKind

structure SharedToolContentReference where
  pointer : String
  kind : SharedToolContentKind
  payloadId : String
  digest : DigestHex
  byteLen : Nat

structure InputReference where
  index : Nat
  claimEventId : EventId
  inputEventId : EventId
  fields : List String

structure ContentReferences where
  version : Nat
  references : List SharedToolContentReference
  inputSources : List InputReference

def SharedToolContentReference.isForSlot (reference : SharedToolContentReference)
    (session : AgentSessionId) (pointer : String) (kind : SharedToolContentKind) : Bool :=
  reference.pointer = pointer && reference.kind = kind &&
    reference.payloadId = kind.id session reference.digest &&
    sharedToolContentMinBytes ≤ reference.byteLen && reference.byteLen ≤ canonicalPayloadMaxBytes

/-! ### The reference record

`to_value` keeps the members of an object in key order. -/

def SharedToolContentReference.spec : StructSpec where
  fields := [text.field "pointer", SharedToolContentKind.codec.field "kind",
    text.field "payload_id", text.field "digest", (unsigned u64Max).field "byte_len"]
  denyUnknown := true

def SharedToolContentReference.codec : Codec SharedToolContentReference where
  encode reference := .object [("byte_len", .nat reference.byteLen),
    ("digest", .string reference.digest),
    ("kind", SharedToolContentKind.codec.encode reference.kind),
    ("payload_id", .string reference.payloadId), ("pointer", .string reference.pointer)]
  decode value := do
    let entries ← structEntries spec value
    return {
      pointer := ← required entries "pointer" text
      kind := ← required entries "kind" SharedToolContentKind.codec
      payloadId := ← required entries "payload_id" text
      digest := ← required entries "digest" text
      byteLen := ← required entries "byte_len" (unsigned u64Max) }

def InputReference.spec : StructSpec where
  fields := [(unsigned u64Max).field "index", text.field "claim_event_id",
    text.field "input_event_id", (list text).field "fields"]
  denyUnknown := true

def InputReference.codec : Codec InputReference where
  encode reference := .object [("claim_event_id", .string reference.claimEventId),
    ("fields", (list text).encode reference.fields), ("index", .nat reference.index),
    ("input_event_id", .string reference.inputEventId)]
  decode value := do
    let entries ← structEntries spec value
    return {
      index := ← required entries "index" (unsigned u64Max)
      claimEventId := ← required entries "claim_event_id" text
      inputEventId := ← required entries "input_event_id" text
      fields := ← required entries "fields" (list text) }

def ContentReferences.spec : StructSpec where
  fields := [(unsigned u8Max).field "version",
    (list SharedToolContentReference.codec).field "references",
    (list InputReference.codec).defaultedField "input_sources"]
  denyUnknown := true

/-- `input_sources` is left out where it is empty. -/
def ContentReferences.codec : Codec ContentReferences where
  encode metadata :=
    let sources : List (String × Value) := if metadata.inputSources.isEmpty then []
      else [("input_sources", (list InputReference.codec).encode metadata.inputSources)]
    .object (sources ++ [
      ("references", (list SharedToolContentReference.codec).encode metadata.references),
      ("version", .nat metadata.version)])
  decode value := do
    let entries ← structEntries spec value
    return {
      version := ← required entries "version" (unsigned u8Max)
      references := ← required entries "references" (list SharedToolContentReference.codec)
      inputSources := ← requiredOr entries "input_sources" (list InputReference.codec) [] }

/-! ### Accepted inputs -/

def sessionInputNamespace (owner : PrincipalRef) (session : AgentSessionId) : String :=
  "session-input:" ++ owner.principalKind ++ ":" ++ owner.principalId ++ ":" ++ session ++ ":"

def isLowerHexDigest (digest : String) : Bool :=
  digest.utf8ByteSize = 64 && digest.toList.all fun c =>
    ('0' ≤ c && c ≤ '9') || ('a' ≤ c && c ≤ 'f')

def isSessionInputEvent (event : SessionEventRecord) (owner : PrincipalRef) : Bool :=
  event.kind = "message/user-accepted" && event.kindVersion = 1 &&
    event.producerId = "session_api" && event.correlationId = event.eventId &&
    (stripStart (sessionInputNamespace owner event.agentSessionId) event.idempotencyKey).any
      isLowerHexDigest

/-! ### Slots -/

/-- The kinds whose events share content. -/
def sharesContent (kind : String) : Bool :=
  kind = "runtime/progress-recorded" || kind = "tool/result-recorded"

def textAt (value : Value) (place : String) : Option String :=
  (pointer value place).bind Value.asStr

/-- The slots of the parts of one retained message. -/
def partSlot (itemIndex : Nat) (entry : Value × Nat) : Option (String × SharedToolContentKind) :=
  let place (field : String) : String := "/event/retained_context/" ++ toString itemIndex ++
    "/message/content/" ++ toString entry.2 ++ "/" ++ field
  match (entry.1.member "type").bind Value.asStr with
  | some "tool_call" => some (place "arguments", .toolArguments)
  | some "tool_result" => some (place "output", .toolOutput)
  | _ => none

def itemSlots (entry : Value × Nat) : List (String × SharedToolContentKind) :=
  if (entry.1.member "kind").bind Value.asStr ≠ some "message" then []
  else
    match (pointer entry.1 "/message/content").bind Value.asArray with
    | some parts => parts.zipIdx.filterMap (partSlot entry.2)
    | none => []

def progressSlots (value : Value) : List (String × SharedToolContentKind) :=
  match textAt value "/event/event" with
  | some "host_tool_settled" | some "tool_completed" | some "tool_outcome_reconciled" =>
    if (textAt value "/event/result/call_id").isSome then [("/event/result/output", .toolOutput)]
    else []
  | some "tool_call_completed" => [("/event/call/arguments", .toolArguments)]
  | some "context_compacted" =>
    match (pointer value "/event/retained_context").bind Value.asArray with
    | some items => items.zipIdx.flatMap itemSlots
    | none => []
  | _ => []

def slots (kind : String) (value : Value) : List (String × SharedToolContentKind) :=
  if kind = "tool/result-recorded" then
    if (textAt value "/output/call_id").isSome then [("/output/output", .toolOutput)] else []
  else if kind ≠ "runtime/progress-recorded" then []
  else progressSlots value

section

variable {σ : Type} (platform : Platform) (outer : Outer σ)

/-! ### Inputs delivered to a turn -/

def isDelivery (kind : String) (value : Value) : Bool :=
  kind = "runtime/progress-recorded" && (textAt value "/event/event" = some "steering_inputs" ||
      textAt value "/event/event" = some "steering_deferred")

variable (original : Value) (store : Store (Records σ)) (append : SessionEventAppend)
  (supplied : Option SessionPayloadRecord) (event : SessionEventRecord) (value : Value)

/-- An event of a kind that shares no content: it may not hold references. -/
def refuseReferences : StoreResult Value :=
  if (value.member sharedToolContentKey).isSome then
    invalidPayload "shared content references require an exact supported event contract"
  else .ok value

/-- `payload_value_for_event_tx` on a claim or an accepted input, which share no content. -/
def plainValue : StoreResult Value := do
  refuseReferences (← storedValue platform outer store event)

def originalInput (session : AgentSessionId) (claimId : EventId) (operation : String)
    (beforeSeq : Option Nat) : StoreResult (EventId × Value) := do
  let claim ← orInvalidPayload (store.events.find? (·.eventId = claimId))
    "input delivery claim is missing"
  if claim.agentSessionId ≠ session || claim.kind ≠ "turn/steer-accepted" ||
      claim.kindVersion ≠ 2 || claim.producerId ≠ "session_api" ||
      claim.correlationId ≠ operation || beforeSeq.any (fun seq => seq ≤ claim.seq) then
    invalidPayload "input delivery claim differs from its exact Session and Turn"
  let payload ← plainValue platform outer store claim
  if (payload.member "target_operation_id").bind Value.asStr ≠ some operation ||
      (payload.member "input").isSome then
    invalidPayload "input delivery claim has an invalid target or body mirror"
  let id ← orInvalidPayload ((payload.member "input_event_id").bind Value.asStr)
    "input delivery source is missing"
  let source ← orInvalidPayload (store.events.find? (·.eventId = id))
    "input delivery source is missing"
  if source.agentSessionId ≠ session || source.kind ≠ "message/user-accepted" ||
      source.kindVersion ≠ 1 || claim.seq ≤ source.seq || source.producerId ≠ "session_api" ||
      source.correlationId ≠ id || claim.causationEventId ≠ some source.eventId then
    invalidPayload "input delivery source has invalid accepted provenance"
  let _ ← store.sessionRowById session
  match store.rest.owners[session]? with
  | none => .error .json
  | some owner =>
    if !isSessionInputEvent source owner then
      invalidPayload "input source is not an accepted unified Session message"
    return (source.eventId, ← plainValue platform outer store source)

def inputField (input : Value) (name : String) : StoreResult Value :=
  if name = "text" then
    match input.member "content" with
    | some (.string content) => .ok (.string content)
    | _ => invalidPayload "accepted input has no text"
  else if name = "files" || name = "inject_skills" then
    let value := (input.member name).getD (.array [])
    match (list text).decode value with
    | .ok _ => .ok value
    | .error _ => invalidPayload "accepted input references are invalid"
  else invalidPayload "input delivery reference selects an unsupported field"

def deliveredFieldNames : List String := ["text", "files", "inject_skills"]

/-- The fields that a delivered input repeats, each equal to that of the accepted one. -/
def repeatedFields (object : List (String × Value)) : StoreResult (List String) :=
  deliveredFieldNames.foldlM (fun fields name =>
    match object.lookup name with
    | none => .ok fields
    | some value => do
      if value ≠ (← inputField original name) then
        invalidPayload "input delivery content differs from its original accepted fact"
      return fields ++ [name]) []

/-- One delivered input, with its reference if it was claimed under the unified contract. -/
def prepareInput (entry : Value × Nat)
    : StoreResult (Value × Option InputReference) := do
  let receipt ← orInvalidPayload ((entry.1.member "receipt_operation_id").bind Value.asStr)
    "input delivery has no receipt identity"
  match store.events.find? (·.eventId = receipt) with
  | none => return (entry.1, none)
  | some claim =>
    if claim.kind ≠ "turn/steer-accepted" || claim.kindVersion ≠ 2 then return (entry.1, none)
    else do
      let original ← originalInput platform outer store append.agentSessionId receipt
        append.semanticEvent.correlationId none
      if (entry.1.member "message_id").bind Value.asStr ≠ some original.1 then
        invalidPayload "input delivery message differs from its accepted source"
      let object ← orInvalidPayload entry.1.asObject "input delivery is not an object"
      let fields ← repeatedFields original.2 object
      if "text" ∉ fields then invalidPayload "input delivery has no original text"
      return (.object (object.filter (·.1 ∉ fields)), some ⟨entry.2, receipt, original.1, fields⟩)

/-- The value with its delivered inputs shortened, and the references to their sources. -/
def prepareInputs : StoreResult (Value × List InputReference) := do
  if !isDelivery append.semanticEvent.kind value then return (value, [])
  else do
    let inputs ← orInvalidPayload ((pointer value "/event/inputs").bind Value.asArray)
      "input delivery has no typed inputs"
    if inputs.length > 16 then invalidPayload "input delivery exceeds its existing input bound"
    let delivered ← inputs.zipIdx.mapM (prepareInput platform outer store append)
    return (assign value "/event/inputs" (.array (delivered.map (·.1))), delivered.filterMap (·.2))

/-- One field of a delivered input; the names before it were put back already. -/
def restoreField (state : List String × List (String × Value)) (name : String)
    : StoreResult (List String × List (String × Value)) := do
  if name ∈ state.1 || (state.2.lookup name).isSome then
    invalidPayload "input source slot contains a duplicated body"
  return (name :: state.1, insertEntry name (← inputField original name) state.2)

/-- Puts the referenced fields back into one delivered input. -/
def restoreFields (fields : List String) (object : List (String × Value)) :
    StoreResult (List (String × Value)) := do
  let restored ← fields.foldlM (restoreField original) ([], object)
  return restored.2

def hydrateInput (state : List Nat × List Value) (reference : InputReference) :
    StoreResult (List Nat × List Value) := do
  if reference.index ∈ state.1 || reference.fields.isEmpty || reference.fields.length > 3 ||
      "text" ∉ reference.fields then
    invalidPayload "input source reference has invalid slots"
  let delivered ← orInvalidPayload (state.2[reference.index]?.bind Value.asObject)
    "input source slot is missing"
  if (delivered.lookup "receipt_operation_id").bind Value.asStr ≠ some reference.claimEventId ||
      (delivered.lookup "message_id").bind Value.asStr ≠ some reference.inputEventId then
    invalidPayload "input source reference differs from its delivery identity"
  let original ← originalInput platform outer store event.agentSessionId reference.claimEventId
    event.correlationId (some event.seq)
  if original.1 ≠ reference.inputEventId then invalidPayload "input source reference changed"
  let object ← restoreFields original.2 reference.fields delivered
  return (reference.index :: state.1, state.2.set reference.index (.object object))

def hydrateInputs (references : List InputReference) : StoreResult Value := do
  if references.isEmpty then return value
  else do
    if references.length > 16 || !isDelivery event.kind value then
      invalidPayload "input source references require an exact Runtime delivery"
    let inputs ← orInvalidPayload ((pointer value "/event/inputs").bind Value.asArray)
      "input reference slots are missing"
    let restored ← references.foldlM (hydrateInput platform outer store event) ([], inputs)
    return assign value "/event/inputs" (.array restored.2)

/-! ### Bodies of tool calls and results -/

structure Factoring where
  value : Value
  references : List SharedToolContentReference
  contents : List SessionPayloadRecord

/-- Moves the body of one slot to a payload, if it is of the right shape and large enough. -/
def factorSlot (session : AgentSessionId) (state : Factoring)
    (slot : String × SharedToolContentKind) : StoreResult Factoring :=
  match pointer state.value slot.1 with
  | none => .ok state
  | some body =>
    if !slot.2.accepts body then .ok state
    else do
      let bytes ← canonicalBytes platform body
      if bytes.length < sharedToolContentMinBytes then return state
      else if maxReferences ≤ state.references.length then
        invalidPayload "shared tool content reference bound exceeded"
      else
        let digest := digestBytes platform bytes
        let payloadId := slot.2.id session digest
        return { value := assign state.value slot.1 .null
                 references := state.references ++
                   [⟨slot.1, slot.2, payloadId, digest, bytes.length⟩]
                 contents := state.contents ++
                   [⟨payloadId, session, slot.2.mediaType, bytes.length, digest, .json body⟩] }

/-- The factored value with its references, inline or as a payload of its own. -/
def sealEnvelope (factored : Factoring) (inputSources : List InputReference) :
    StoreResult (Prepared SessionPayloadRecord) := do
  let entries ← orInvalidPayload factored.value.asObject
    "shared content envelope must be an object"
  let value := Value.object (insertEntry sharedToolContentKey
    (ContentReferences.codec.encode ⟨1, factored.references, inputSources⟩) entries)
  let bytes ← canonicalBytes platform value
  if bytes.length ≤ maxInlineJsonBytes then
    return ⟨.inlineJson value, none, factored.contents⟩
  else
    let digest := digestBytes platform bytes
    let payloadId := "shared-envelope:" ++ append.agentSessionId ++ ":" ++ digest
    return ⟨.stored payloadId, some ⟨payloadId, append.agentSessionId, "application/json",
      bytes.length, digest, .json value⟩, factored.contents⟩

/-- The value whose content is shared, if the event carries it itself. -/
def ownValue : Option Value :=
  match append.semanticEvent.payload, supplied with
  | .inlineJson value, _ => some value
  | .stored _, some record => some (payloadBodyToValue record.body)
  | .stored _, none | .empty, _ => none

/-- `shared_content::prepare`. -/
def prepareContent : StoreResult (Prepared SessionPayloadRecord) := do
  let unchanged : Prepared SessionPayloadRecord := ⟨append.semanticEvent.payload, supplied, []⟩
  if !sharesContent append.semanticEvent.kind then return unchanged
  else
    match ownValue append supplied with
    | none => return unchanged
    | some value =>
      if (value.member sharedToolContentKey).isSome then
        invalidPayload "shared content references are authored only by the Store"
      else do
        let delivered ← prepareInputs platform outer store append value
        let factored ← (slots append.semanticEvent.kind delivered.1).foldlM
          (factorSlot platform append.agentSessionId) ⟨delivered.1, [], []⟩
        if factored.references.isEmpty && delivered.2.isEmpty then return unchanged
        else sealEnvelope platform append factored delivered.2

structure Expansion where
  value : Value
  expandedBytes : Nat
  seen : List String

/-- Puts the body of one slot back. -/
def hydrateReference (allowed : List (String × SharedToolContentKind)) (state : Expansion)
    (reference : SharedToolContentReference) : StoreResult Expansion := do
  if reference.pointer ∈ state.seen || (reference.pointer, reference.kind) ∉ allowed ||
      !reference.isForSlot event.agentSessionId reference.pointer reference.kind then
    invalidPayload "shared content reference is outside its exact Session and typed slot"
  let expandedBytes := saturatingAdd u64Max (state.expandedBytes - 4) reference.byteLen
  if expandedBytes > maxSinglePayloadBytes then
    invalidPayload "expanded shared content event exceeds its original payload bound"
  let slot ← orInvalidPayload (pointer state.value reference.pointer) "shared content slot missing"
  if slot ≠ .null then invalidPayload "shared content slot must be an empty placeholder"
  let payload ← orInvalidPayload store.rest.payloads[reference.payloadId]?
    "shared tool content is missing"
  if payload.agentSessionId ≠ event.agentSessionId ||
      payload.mediaType ≠ reference.kind.mediaType || payload.digest ≠ reference.digest ||
      payload.byteLen ≠ reference.byteLen then
    invalidPayload "shared tool content identity or media type differs"
  match payload.body with
  | .json body => do
    let bytes ← canonicalBytes platform body
    if bytes.length ≠ reference.byteLen || digestBytes platform bytes ≠ reference.digest ||
        !reference.kind.accepts body then
      invalidPayload "shared tool content differs from its exact bytes or type"
    return ⟨assign state.value reference.pointer body, expandedBytes,
      reference.pointer :: state.seen⟩
  | .utf8 _ | .base64 _ | .artifactRef _ =>
    invalidPayload "shared tool content must be typed JSON"

/-- The part of `hydrate` after the reference record was read. -/
def expand (metadata : ContentReferences) : StoreResult Value := do
  if metadata.version ≠ 1 || (metadata.references.isEmpty && metadata.inputSources.isEmpty) ||
      metadata.references.length > maxReferences then
    invalidPayload "invalid shared content codec or reference count"
  let allowed := slots event.kind value
  let entries ← orInvalidPayload value.asObject "shared content envelope must be an object"
  let stripped := Value.object (entries.filter (·.1 ≠ sharedToolContentKey))
  let bytes ← canonicalBytes platform stripped
  let expanded ← metadata.references.foldlM (hydrateReference platform store event allowed)
    ⟨stripped, bytes.length, []⟩
  let value ← hydrateInputs platform outer store event expanded.value metadata.inputSources
  let bytes ← canonicalBytes platform value
  if bytes.length > maxSinglePayloadBytes then
    invalidPayload "expanded input event exceeds its original payload bound"
  return value

/-- `shared_content::hydrate`. -/
def hydrate : StoreResult Value :=
  match value.member sharedToolContentKey with
  | none => .ok value
  | some metadata =>
    if event.kindVersion ≠ 1 || !sharesContent event.kind then
      invalidPayload "shared content references require an exact supported event contract"
    else do
      let metadata ← fromValue ContentReferences.codec.decode metadata
      expand platform outer store event value metadata

/-- `payload_value_for_event_tx`. -/
def payloadValueForEvent : StoreResult Value := do
  hydrate platform outer store event (← storedValue platform outer store event)

/-- `shared_content::duplicate`. -/
def duplicateContent : StoreResult (Option SessionEventRecord) := do
  if !sharesContent append.semanticEvent.kind then return none
  else
    let existing := (store.events.find? (·.eventId = append.eventId)).or
      (store.events.find? fun event => event.producerId = append.producerId &&
        event.idempotencyKey = append.idempotencyKey)
    match existing with
    | none => return none
    | some existing => do
      let recorded ← payloadValueForEvent platform outer store existing
      let proposed := recordFromAppend append existing.seq
      let value ← match supplied, append.semanticEvent.payload with
        | some payload, _ => .ok (payloadBodyToValue payload.body)
        | none, .stored _ => payloadValueForEvent platform outer store proposed
        | none, _ => .ok (payloadValue proposed none)
      if { proposed with payload := .inlineJson value } ≠
          { existing with payload := .inlineJson recorded } then
        .error (.idempotencyConflict
          "event identity already committed with different semantic content")
      return some existing

end

/-- An event of a kind that shares no content reads as it is stored. -/
theorem hydrate_plain (plain : sharesContent event.kind = false)
    (ok : hydrate platform outer store event value = .ok result) :
    result = value ∧ value.member sharedToolContentKey = none := by
  unfold hydrate at ok
  cases found : value.member sharedToolContentKey with
  | none =>
    simp only [found] at ok
    exact ⟨(Except.ok.inj ok).symm, rfl⟩
  | some metadata => simp [found, plain, invalidPayload] at ok

end Nomifun.Source.AgentSession
