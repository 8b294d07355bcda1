import Nomifun.Library.Checks
import Nomifun.Library.Json
import Nomifun.Library.RustText

/-!
# Chat model contracts

nomifun-agent-contracts, chat_model.rs:78-205 and 752-1315, chat_provider_reasoning.rs. Routes, the
events of a response and the failures of an attempt, with the checks that the broker makes on them.
Identifiers are strings. Of a failure's diagnostic only what the broker reads or writes is kept.
How a floating-point number is printed is a parameter of the checks that measure JSON.
-/
namespace Nomifun.Source.ChatModelBroker
open Library.Json Library.RustText

/-! ### Routes -/

inductive ChatProtocol where
  | anthropic
  | openaiChat
  | openaiResponses
  | gemini
  | bedrock
  | vertex
  deriving DecidableEq

def ChatProtocol.usesAnthropicMessages : ChatProtocol → Bool
  | .anthropic | .bedrock | .vertex => true
  | .openaiChat | .openaiResponses | .gemini => false

inductive ChatModelFeature where
  | textInput
  | imageInput
  | audioInput
  | textOutput
  | audioOutput
  | toolCalls
  | reasoning
  | reasoningSignature
  | promptCache
  | structuredOutput
  | providerRoundState
  | nativeResponsesItems
  | webSearch
  | streaming
  deriving DecidableEq

/-- `is_superset` of two sets of features. -/
def isSuperset (features required : List ChatModelFeature) : Bool :=
  required.all (· ∈ features)

structure ResolvedChatRoute where
  modelRouteId : String
  modelRouteRevision : Nat
  providerId : String
  model : String
  protocol : ChatProtocol
  (connectionConfigRef configRevisionDigest credentialRef : String)
  (features activationFeatures : List ChatModelFeature)

/-! ### Checks -/

inductive ChatContractError where
  | invalidToolArgumentDiagnostic
  | zeroRouteRevision
  | credentialMaterialForbidden
  | invalidNaturalKey (field : String)
  | invalidDigest (field : String)
  | routeMissingTextOutput
  | routeActivationFeatureUnsupported

def ChatContractError.message : ChatContractError → String
  | .invalidToolArgumentDiagnostic => "invalid tool argument diagnostic"
  | .zeroRouteRevision => "model route revision must be greater than zero"
  | .credentialMaterialForbidden => "credential material is forbidden in chat metadata"
  | .invalidNaturalKey field => field ++ " must be a non-empty trimmed natural key"
  | .invalidDigest field => field ++ " must be a 64-character hexadecimal digest"
  | .routeMissingTextOutput => "resolved route does not support text output"
  | .routeActivationFeatureUnsupported =>
    "resolved route activation features are not supported by that route"

def validateNaturalKey (field value : String) : Except ChatContractError Unit :=
  if value.isEmpty || trim value ≠ value then .error (.invalidNaturalKey field) else .ok ()

def isHexDigit (c : Char) : Bool :=
  c.isDigit || ('a' ≤ c && c ≤ 'f') || ('A' ≤ c && c ≤ 'F')

def validateDigest (field value : String) : Except ChatContractError Unit :=
  if value.utf8ByteSize = 64 && value.toList.all isHexDigit then .ok ()
  else .error (.invalidDigest field)

def ResolvedChatRoute.validate (route : ResolvedChatRoute) : Except ChatContractError Unit := do
  validateNaturalKey "model_route_id" route.modelRouteId
  validateNaturalKey "provider_id" route.providerId
  validateNaturalKey "model" route.model
  validateNaturalKey "connection_config_ref" route.connectionConfigRef
  validateDigest "config_revision_digest" route.configRevisionDigest
  validateNaturalKey "credential_ref" route.credentialRef
  if route.modelRouteRevision = 0 then .error .zeroRouteRevision
  if .textOutput ∉ route.features then .error .routeMissingTextOutput
  if !isSuperset route.features route.activationFeatures then
    .error .routeActivationFeatureUnsupported

def isSensitiveStructuredKey (key : String) : Bool :=
  toAsciiLowercase key ∈ ["api_key", "apikey", "authorization", "access_token", "refresh_token",
    "client_secret", "private_key", "credential", "credential_material", "password"]

mutual

def jsonContainsSensitiveKey : Value → Bool
  | .object entries => entriesContainSensitiveKey entries
  | .array items => itemsContainSensitiveKey items
  | .null | .bool _ | .number _ | .string _ => false

def entriesContainSensitiveKey : List (String × Value) → Bool
  | [] => false
  | (key, v) :: rest =>
    isSensitiveStructuredKey key || jsonContainsSensitiveKey v || entriesContainSensitiveKey rest

def itemsContainSensitiveKey : List Value → Bool
  | [] => false
  | v :: rest => jsonContainsSensitiveKey v || itemsContainSensitiveKey rest

end

/-! ### Tool calls -/

structure ChatToolCall where
  callId : String
  name : String
  arguments : Value
  providerMetadata : Option Value
  deriving DecidableEq

def ChatToolCall.validate (call : ChatToolCall) : Except ChatContractError Unit := do
  validateNaturalKey "tool call id" call.callId
  validateNaturalKey "tool call name" call.name
  if call.providerMetadata.any jsonContainsSensitiveKey then .error .credentialMaterialForbidden

inductive ToolArgumentDiagnosticCategory where
  | syntaxError
  | incompleteJson
  | rootType
  deriving DecidableEq

structure ToolArgumentDiagnostic where
  category : ToolArgumentDiagnosticCategory
  (line column : Option Nat)
  byteLen : Nat
  digest : String
  deriving DecidableEq

def ToolArgumentDiagnostic.validate (diagnostic : ToolArgumentDiagnostic) :
    Except ChatContractError Unit := do
  validateDigest "tool argument diagnostic" diagnostic.digest
  let coordinatesValid := match diagnostic.category with
    | .rootType => diagnostic.line.isNone && diagnostic.column.isNone
    | .syntaxError | .incompleteJson => diagnostic.line.any (0 < ·) && diagnostic.column.isSome
  if !coordinatesValid then .error .invalidToolArgumentDiagnostic

/-! ### Provider reasoning -/

def maxThinkingTextBytes : Nat := 1024 * 1024

def maxThinkingOpaqueBytes : Nat := 256 * 1024

inductive ChatProviderReasoning where
  | anthropicThinking (text signature : String) (routeDigest : Option String)
  | anthropicRedactedThinking (data : String) (routeDigest : Option String)
  | openaiResponsesReasoning (item : Value) (routeDigest : Option String)
  deriving DecidableEq

def ChatProviderReasoning.routeDigest : ChatProviderReasoning → Option String
  | .anthropicThinking _ _ digest | .anthropicRedactedThinking _ digest
  | .openaiResponsesReasoning _ digest => digest

def ChatProviderReasoning.withRouteDigest (digest : String) :
    ChatProviderReasoning → ChatProviderReasoning
  | .anthropicThinking text signature _ => .anthropicThinking text signature (some digest)
  | .anthropicRedactedThinking data _ => .anthropicRedactedThinking data (some digest)
  | .openaiResponsesReasoning item _ => .openaiResponsesReasoning item (some digest)

/-- At most 128 parts of one type, each with a text. -/
def reasoningParts (kind : String) (parts : Value) : Bool :=
  parts.asArray.any fun parts =>
    parts.length ≤ 128 && parts.all fun part =>
      (part.member "type").bind Value.asStr = some kind &&
        ((part.member "text").bind Value.asStr).isSome

def validateResponsesReasoningItem (float : UInt64 → List Char) (item : Value) : Bool :=
  match item with
  | .object _ =>
    (item.member "type").bind Value.asStr = some "reasoning" &&
    ((item.member "id").bind Value.asStr).any (fun id =>
      !(trim id).isEmpty && id.utf8ByteSize ≤ 256 && !id.toList.any isControl) &&
    (item.member "status").all (fun status =>
      status = .null || status.asStr = some "completed") &&
    (item.member "content").any (fun content =>
      content = .null || reasoningParts "reasoning_text" content) &&
    (item.member "summary").all (reasoningParts "summary_text") &&
    size float item ≤ maxThinkingTextBytes
  | .null | .bool _ | .number _ | .string _ | .array _ => false

def isLowerHexDigit (c : Char) : Bool := c.isDigit || ('a' ≤ c && c ≤ 'f')

def ChatProviderReasoning.validate (float : UInt64 → List Char) (block : ChatProviderReasoning) :
    Except String Unit :=
  let valid := match block with
    | .anthropicThinking text signature _ =>
      text.utf8ByteSize ≤ maxThinkingTextBytes && !signature.isEmpty &&
        signature.utf8ByteSize ≤ maxThinkingOpaqueBytes
    | .anthropicRedactedThinking data _ =>
      !data.isEmpty && data.utf8ByteSize ≤ maxThinkingOpaqueBytes
    | .openaiResponsesReasoning item _ => validateResponsesReasoningItem float item
  let validOrigin := block.routeDigest.all fun digest =>
    digest.utf8ByteSize = 64 && digest.toList.all isLowerHexDigit
  if valid && validOrigin then .ok ()
  else .error "invalid or oversized provider reasoning block"

/-! ### Events -/

structure ChatUsage where
  inputTokens : Nat
  outputTokens : Nat
  reasoningTokens : Nat
  cacheWriteTokens : Nat
  cacheReadTokens : Nat
  audioInputTokens : Nat
  audioOutputTokens : Nat
  providerReported : List (String × Nat)
  deriving DecidableEq

inductive ChatFinishReason where
  | completed
  | toolCalls
  | maxOutputTokens
  | refusal
  | cancelled
  deriving DecidableEq

structure ChatOutputTextSource where
  itemId : String
  outputIndex : Option Nat
  contentIndex : Nat
  deriving DecidableEq

def ChatOutputTextSource.validate (source : ChatOutputTextSource) : Except String Unit :=
  if source.itemId.isEmpty || trim source.itemId ≠ source.itemId ||
      source.itemId.utf8ByteSize > 256 || source.itemId.toList.any isControl then
    .error "invalid output text source identity"
  else .ok ()

inductive ChatModelEvent where
  | responseStarted (providerResponseId : Option String)
  | outputTextDelta (text : String) (source : Option ChatOutputTextSource)
  | outputAudioDelta (mediaType dataBase64 : String)
  | reasoningDelta (text : String)
  | reasoningSignature (signature : String)
  | reasoningBlock (text : String) (encryptedContent : Option String)
  | providerReasoningBlock (block : ChatProviderReasoning)
  | toolCallDelta (callId name argumentsDelta : String)
  | toolCallCompleted (call : ChatToolCall)
  | toolCallRejected (callId name : String) (diagnostic : ToolArgumentDiagnostic)
  | providerRoundId (roundId : String)
  | nativeResponsesItem (itemType : String) (item : Value)
  | usage (usage : ChatUsage)
  | completed (finishReason : ChatFinishReason)
  deriving DecidableEq

def ChatModelEvent.isSemanticOutput : ChatModelEvent → Bool
  | .responseStarted _ => false
  | _ => true

def ChatModelEvent.isTerminal : ChatModelEvent → Bool
  | .completed _ => true
  | _ => false

/-! ### Failures -/

inductive ChatRetryDirective where
  | never
  | retrySameRoute
  | failover
  deriving DecidableEq

inductive ChatModelErrorCode where
  | causalityRejected
  | duplicateOperation
  | shadowNotPrimary
  | sessionTerminal
  | routeNotFound
  | routeRevisionMismatch
  | adapterUnavailable
  | credentialReferenceMissing
  | credentialTargetMismatch
  | unsupportedFeature
  | invalidRequest
  | authenticationFailed
  | rateLimited
  | promptTooLong
  | providerUnavailable
  | protocolViolation
  | streamInterrupted
  | cancelled
  | internal

inductive ModelFailureReason where
  | authFailed | invalidKey | expiredKey | billingRequired | insufficientQuota
  | insufficientBalance | spendLimitReached | subscriptionExpired | modelNotInPlan
  | permissionDenied | modelPermissionDenied | modelNotFound | endpointMissing | nonApiResponse
  | authSchemeMismatch | rateLimited | dnsFailure | connectionFailed | tlsFailure | proxyFailure
  | requestTimeout | upstreamServerError | providerOverloaded | providerUnavailable
  | networkFailure | streamInterrupted | invalidResponse | invalidRequest | unsupportedFeature
  | contentPolicy | promptTooLong | configurationError | invalidEndpoint | credentialsMissing
  | credentialTargetMismatch

structure ModelFailureDiagnostic where
  reason : ModelFailureReason
  (providerCode providerId modelName : Option String)

def ModelFailureDiagnostic.new (reason : ModelFailureReason) : ModelFailureDiagnostic :=
  ⟨reason, none, none, none⟩

structure ChatModelError where
  code : ChatModelErrorCode
  message : String
  retry : ChatRetryDirective
  (retryAfterMs providerStatus : Option Nat)
  routeId : Option String
  semanticOutputCommitted : Bool
  unsupportedFeature : Option ChatModelFeature
  diagnostic : Option ModelFailureDiagnostic

abbrev ModelResult := Except ChatModelError

namespace ChatModelError

def new (code : ChatModelErrorCode) (message : String) (retry : ChatRetryDirective) :
    ChatModelError :=
  ⟨code, message, retry, none, none, none, false, none, none⟩

def invalidRequest (message : String) : ChatModelError := new .invalidRequest message .never

def providerUnavailable (message : String) : ChatModelError :=
  new .providerUnavailable message .failover

def streamInterrupted (message : String) : ChatModelError :=
  new .streamInterrupted message .retrySameRoute

def protocolViolation (message : String) : ChatModelError := new .protocolViolation message .never

def withRoute (error : ChatModelError) (routeId : String) : ChatModelError :=
  { error with routeId := some routeId }

def afterSemanticOutput (error : ChatModelError) : ChatModelError :=
  { error with semanticOutputCommitted := true, retry := .never }

end ChatModelError

end Nomifun.Source.ChatModelBroker
