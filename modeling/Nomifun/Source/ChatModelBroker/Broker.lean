import Nomifun.Source.ChatModelBroker.EventSequence

/-!
# Attempts of the chat model broker

nomifun-chat-model-broker, broker.rs:25-70, 422-815, retry.rs and ports.rs:58-122. `run_broker`
makes one attempt after another: on the same route while the failure asks for it, on the next route
otherwise, and none after something semantic was sent. An attempt holds back what comes before the
first semantic event. The trace records every attempt and everything sent, in order.

Parameters are what lies outside: the output limits, the projection of the request, the credentials,
the adapters with their transports and decoders, and the jitter. Each answer may depend on the
number of the attempt. The receiver may be dropped after any number of uses of the channel.
-/
namespace Nomifun.Source.ChatModelBroker
open Library Library.MachineInt ChatModelError

def maxBufferedPreSemanticEvents : Nat := 32

/-- Both limits are of type `u8`. -/
structure BrokerRetryPolicy where
  maxTotalAttempts : Nat
  maxAttemptsPerRoute : Nat
  total_le : maxTotalAttempts ≤ u8Max
  perRoute_le : maxAttemptsPerRoute ≤ u8Max

def BrokerRetryPolicy.validate (policy : BrokerRetryPolicy) : ModelResult BrokerRetryPolicy :=
  if policy.maxTotalAttempts = 0 || policy.maxAttemptsPerRoute = 0 then
    .error (invalidRequest "broker retry limits must be greater than zero")
  else .ok policy

structure BrokerEventEnvelope where
  routeId : String
  routeRevision : Nat
  protocol : ChatProtocol
  (providerId model connectionConfigRef configRevisionDigest : String)
  routeAttempt : Nat
  totalAttempt : Nat
  event : ChatModelEvent

def envelopeFor (route : ResolvedChatRoute) (routeAttempt totalAttempt : Nat)
    (event : ChatModelEvent) : BrokerEventEnvelope :=
  { routeId := route.modelRouteId
    routeRevision := route.modelRouteRevision
    protocol := route.protocol
    providerId := route.providerId
    model := route.model
    connectionConfigRef := route.connectionConfigRef
    configRevisionDigest := route.configRevisionDigest
    routeAttempt := routeAttempt
    totalAttempt := totalAttempt
    event := event }

/-! ### The channel -/

inductive BrokerAct where
  | attempt (routeIndex routeAttempt totalAttempt : Nat)
  | send (item : ModelResult BrokerEventEnvelope)

structure Channel where
  acts : List BrokerAct
  /-- How many more uses the receiver lives to see; `none` if it is never dropped. -/
  lifetime : Option Nat

namespace Channel

def isClosed (channel : Channel) : Bool := channel.lifetime = some 0

def used (channel : Channel) : Channel :=
  { channel with lifetime := channel.lifetime.map (· - 1) }

def record (act : BrokerAct) (channel : Channel) : Channel :=
  { channel.used with acts := channel.acts ++ [act] }

def send (item : ModelResult BrokerEventEnvelope) (channel : Channel) : Option Channel :=
  if channel.isClosed then none else some (channel.record (.send item))

/-- `let _ = sender.send(…)`. -/
def sendLast (error : ChatModelError) (channel : Channel) : Channel :=
  (channel.send (.error error)).getD channel

/-- As far as the receiver takes them. -/
def sendAll : List BrokerEventEnvelope → Channel → Except Channel Channel
  | [], channel => .ok channel
  | envelope :: rest, channel =>
    match channel.send (.ok envelope) with
    | none => .error channel
    | some channel => channel.sendAll rest

end Channel

/-! ### Failures -/

section

variable (error : ChatModelError) (route : ResolvedChatRoute)

def projectionError : ChatModelError :=
  { error with retry := .never }.withRoute route.modelRouteId

def fallbackReason : ChatModelErrorCode → ModelFailureReason
  | .authenticationFailed => .authFailed
  | .rateLimited => .rateLimited
  | .promptTooLong => .promptTooLong
  | .invalidRequest => .invalidRequest
  | .unsupportedFeature => .unsupportedFeature
  | .protocolViolation => .invalidResponse
  | .streamInterrupted | .cancelled => .streamInterrupted
  | .credentialReferenceMissing => .credentialsMissing
  | .credentialTargetMismatch => .credentialTargetMismatch
  | .routeNotFound | .routeRevisionMismatch | .adapterUnavailable | .causalityRejected
  | .duplicateOperation | .shadowNotPrimary | .sessionTerminal | .internal => .configurationError
  | .providerUnavailable => .providerUnavailable

def isProviderIdChar (c : Char) : Bool :=
  c.isAlphanum || c ∈ ['_', '-', '.', ':', '#']

def withAttemptIdentity : ChatModelError :=
  let diagnostic := error.diagnostic.getD (.new (fallbackReason error.code))
  let id := route.providerId
  let providerId :=
    if !id.isEmpty && id.utf8ByteSize ≤ 200 && id.toList.all isProviderIdChar then some id else none
  let modelName :=
    if !route.model.isEmpty && route.model.utf8ByteSize ≤ 512 &&
        !route.model.toList.any RustText.isControl then some route.model else none
  { error with
    diagnostic := some { diagnostic with providerId := providerId, modelName := modelName } }

def withStreamDiagnostic : ChatModelError :=
  match error.diagnostic, error.code with
  | none, .protocolViolation => { error with diagnostic := some (.new .invalidResponse) }
  | none, .streamInterrupted => { error with diagnostic := some (.new .streamInterrupted) }
  | _, _ => error

def isGatewayBusinessCode (code : String) : Bool :=
  code ∈ ["insufficient_balance", "subscription_expired", "model_not_in_plan", "key_expired",
    "rate_limited"]

def initialBackoffMs : Nat := 500

def maxBackoffMs : Nat := 8000

def maxRetryWaitMs : Nat := 120000

def delayWithJitter (failedAttempt random : Nat) : Option Nat :=
  if error.semanticOutputCommitted then none
  else
    let exponent := min (failedAttempt - 1) 5
    let ceiling := min (initialBackoffMs * 2 ^ exponent) maxBackoffMs
    let floor := ceiling / 2
    let jittered := floor + random % (ceiling - floor + 1)
    let wait := max jittered (error.retryAfterMs.getD 0)
    if wait ≤ maxRetryWaitMs then some wait else none

/-! ### What lies outside -/

structure CredentialTarget where
  modelRouteId : String
  modelRouteRevision : Nat
  providerId : String
  protocol : ChatProtocol
  connectionConfigRef : String
  configRevisionDigest : String
  deriving DecidableEq

def CredentialTarget.forRoute : CredentialTarget :=
  { modelRouteId := route.modelRouteId
    modelRouteRevision := route.modelRouteRevision
    providerId := route.providerId
    protocol := route.protocol
    connectionConfigRef := route.connectionConfigRef
    configRevisionDigest := route.configRevisionDigest }

end

structure CredentialLease where
  credentialRef : String
  target : CredentialTarget
  opaqueHandle : String

def CredentialLease.validatesRoute (lease : CredentialLease) (route : ResolvedChatRoute) : Bool :=
  lease.credentialRef = route.credentialRef && lease.target = .forRoute route &&
    !lease.opaqueHandle.isEmpty

/-- Of a request the broker reads and writes the output ceiling. -/
structure ChatModelRequest (Body : Type) where
  maxOutputTokens : Option Nat
  body : Body

/-- The first argument of an answer that may change is the number of the attempt. -/
structure BrokerHost (Body WireRequest Frame Decoder : Type) where
  float : UInt64 → List Char
  digestPayload : ResolvedChatRoute → Option String
  random : Nat → Nat
  adapterFeatures : ChatProtocol → List ChatModelFeature
  requiredFeatures : ChatModelRequest Body → List ChatModelFeature
  outputLimitForRoute : Nat → ResolvedChatRoute → ModelResult (Option Nat)
  projectAttemptRequest : ChatModelRequest Body → ResolvedChatRoute →
    ModelResult (ChatModelRequest Body)
  lease : Nat → String → CredentialTarget → ModelResult CredentialLease
  beginAttempt : Nat → ChatModelRequest Body → ResolvedChatRoute → ModelResult Unit
  encodeRequest : ChatModelRequest Body → ResolvedChatRoute → CredentialLease →
    ModelResult WireRequest
  /-- The frames and errors of the wire, up to its end. -/
  openStream : Nat → WireRequest → CredentialLease →
    ModelResult (List (ModelResult Frame))
  newFrameDecoder : Nat → ChatModelRequest Body → Decoder
  decodeFrame : Decoder → Frame → ModelResult (List ChatModelEvent) × Decoder
  observe : Nat → ChatModelRequest Body → ResolvedChatRoute → ChatModelEvent → ModelResult Unit

/-! ### One attempt -/

inductive AttemptOutcome where
  | completed
  | receiverDropped
  | failed (error : ChatModelError) (semanticOutputCommitted : Bool)

structure AttemptState where
  sequence : EventSequence
  buffered : List BrokerEventEnvelope
  semanticOutputCommitted : Bool
  channel : Channel

/-- The attempt is over. -/
abbrev AttemptEnd := AttemptOutcome × Channel

namespace BrokerHost

variable {Body WireRequest Frame Decoder : Type} (host : BrokerHost Body WireRequest Frame Decoder)

section

variable (route : ResolvedChatRoute) (routeAttempt totalAttempt : Nat)
  (request : ChatModelRequest Body)

def streamFailure (error : ChatModelError) (state : AttemptState) : AttemptEnd :=
  (.failed ((withStreamDiagnostic error).withRoute route.modelRouteId)
    state.semanticOutputCommitted, state.channel)

/-- The event is bound and checked. -/
def admitEvent (event : ChatModelEvent) (state : AttemptState) :
    Except AttemptEnd (ChatModelEvent × EventSequence) :=
  match bindEvent host.float host.digestPayload route event with
  | .error error => .error (streamFailure route error state)
  | .ok event =>
    match state.sequence.observe host.float event with
    | .error error => .error (streamFailure route error state)
    | .ok sequence =>
      match host.observe totalAttempt request route event with
      | .error error => .error
          (.failed (projectionError error route) state.semanticOutputCommitted, state.channel)
      | .ok () => .ok (event, sequence)

/-- The event is held back, or everything held back is sent with it. -/
def deliverEvent (event : ChatModelEvent) (sequence : EventSequence) (state : AttemptState) :
    Except AttemptEnd AttemptState :=
  let envelope := envelopeFor route routeAttempt totalAttempt event
  if !state.semanticOutputCommitted && !event.isSemanticOutput then
    if state.buffered.length ≥ maxBufferedPreSemanticEvents then
      .error (.failed ((withStreamDiagnostic (protocolViolation
        "provider emitted too many pre-semantic stream events")).withRoute
          route.modelRouteId) false,
        state.channel)
    else .ok { state with sequence := sequence, buffered := state.buffered ++ [envelope] }
  else
    let held := if state.semanticOutputCommitted then [] else state.buffered
    match state.channel.sendAll (held ++ [envelope]) with
    | .error channel => .error (.receiverDropped, channel)
    | .ok channel =>
      if event.isTerminal then .error (.completed, channel)
      else .ok ⟨sequence, [], true, channel⟩

def acceptEvent (state : AttemptState) (event : ChatModelEvent) : Except AttemptEnd AttemptState :=
  match host.admitEvent route totalAttempt request event state with
  | .error halt => .error halt
  | .ok (event, sequence) => deliverEvent route routeAttempt totalAttempt event sequence state

/-- The loop over the frames; the receiver is looked at before each. -/
def consumeFrames (decoder : Decoder) : List (ModelResult Frame) → AttemptState → AttemptEnd
  | [], state =>
    if state.channel.isClosed then (.receiverDropped, state.channel)
    else streamFailure route
      (streamInterrupted "provider stream ended before a canonical terminal event")
      { state with channel := state.channel.used }
  | item :: rest, state =>
    if state.channel.isClosed then (.receiverDropped, state.channel)
    else
      let state := { state with channel := state.channel.used }
      match item with
      | .error error =>
        (.failed (error.withRoute route.modelRouteId) state.semanticOutputCommitted, state.channel)
      | .ok frame =>
        let decoded := host.decodeFrame decoder frame
        match decoded.1 with
        | .error error => streamFailure route error state
        | .ok events =>
          match events.foldlM (host.acceptEvent route routeAttempt totalAttempt request) state with
          | .error halt => halt
          | .ok state => consumeFrames decoded.2 rest state

def consumeAttemptStream (wireStream : List (ModelResult Frame)) (channel : Channel) : AttemptEnd :=
  host.consumeFrames route routeAttempt totalAttempt request
    (host.newFrameDecoder totalAttempt request) wireStream ⟨.default, [], false, channel⟩

end

/-- The attempt up to its open stream. -/
def openAttempt (request : ChatModelRequest Body) (route : ResolvedChatRoute) (totalAttempt : Nat) :
    ModelResult (ChatModelRequest Body × List (ModelResult Frame)) := do
  let onRoute := fun {α : Type} (result : ModelResult α) =>
    result.mapError (·.withRoute route.modelRouteId)
  let configuredOutput ← onRoute (host.outputLimitForRoute totalAttempt route)
  if configuredOutput = some 0 then
    .error (invalidRequest "attempted model output ceiling must be positive")
  let projected ← host.projectAttemptRequest request route
  let required := host.requiredFeatures projected
  if !isSuperset required route.activationFeatures || !isSuperset route.features required ||
      !isSuperset (host.adapterFeatures route.protocol) required then
    .error ((ChatModelError.new .unsupportedFeature
      "attempted route cannot express its projected request" .never).withRoute route.modelRouteId)
  let maxOutputTokens := match request.maxOutputTokens, configuredOutput with
    | some caller, some configured => some (min caller configured)
    | caller, none => caller
    | none, configured => configured
  let attempted := { projected with maxOutputTokens := maxOutputTokens }
  let credential ← onRoute (host.lease totalAttempt route.credentialRef (.forRoute route))
  if !credential.validatesRoute route then
    .error ((ChatModelError.new .credentialTargetMismatch
      "credential store returned authority for a different route target" .never).withRoute
      route.modelRouteId)
  (host.beginAttempt totalAttempt attempted route).mapError (projectionError · route)
  let wireRequest ← onRoute (host.encodeRequest attempted route credential)
  let wireStream ← onRoute (host.openStream totalAttempt wireRequest credential)
  return (attempted, wireStream)

def runAttempt (request : ChatModelRequest Body) (route : ResolvedChatRoute)
    (routeAttempt totalAttempt : Nat) (channel : Channel) : AttemptEnd :=
  match host.openAttempt request route totalAttempt with
  | .error error => (.failed error false, channel)
  | .ok (attempted, wireStream) =>
    host.consumeAttemptStream route routeAttempt totalAttempt attempted wireStream channel

/-! ### The attempts of a request -/

/-- Where the next attempt is made after a failure without semantic output: the route and the
attempts already made on it. -/
def nextAttempt (policy : BrokerRetryPolicy) (routeCount routeIndex routeAttempt totalAttempt : Nat)
    (error : ChatModelError) : Option (Nat × Nat) :=
  let delay := delayWithJitter error totalAttempt (host.random totalAttempt)
  let gatewayBusiness := (error.diagnostic.bind (·.providerCode)).any isGatewayBusinessCode
  if delay.isNone || !(totalAttempt < policy.maxTotalAttempts) then none
  else if error.retry = .retrySameRoute && routeAttempt < policy.maxAttemptsPerRoute then
    -- The exact admitted route is kept.
    some (routeIndex, routeAttempt)
  else if error.retry ≠ .never && !gatewayBusiness && routeIndex + 1 < routeCount then
    some (routeIndex + 1, 0)
  else none

def exhausted : ChatModelError :=
  .new .providerUnavailable "all deterministic chat model route attempts were exhausted" .never

def brokerLoop (request : ChatModelRequest Body) (routes : List ResolvedChatRoute)
    (policy : BrokerRetryPolicy) (routeIndex routeAttempt totalAttempt : Nat)
    (lastError : Option ChatModelError) (channel : Channel) : Channel :=
  if within : routeIndex < routes.length ∧ totalAttempt < policy.maxTotalAttempts then
    if channel.isClosed then channel
    else
      let route := routes[routeIndex]
      let tried := saturatingAdd u8Max routeAttempt 1
      let total := saturatingAdd u8Max totalAttempt 1
      match host.runAttempt request route tried total
          (channel.record (.attempt routeIndex tried total)) with
      | (.completed, channel) => channel
      | (.receiverDropped, channel) => channel
      | (.failed error true, channel) =>
        channel.sendLast (withAttemptIdentity error route).afterSemanticOutput
      | (.failed error false, channel) =>
        let error := withAttemptIdentity error route
        match host.nextAttempt policy routes.length routeIndex tried total error with
        | none => channel.sendLast error
        | some (nextIndex, made) =>
          if channel.isClosed then channel
          else brokerLoop request routes policy nextIndex made total (some error) channel.used
  else channel.sendLast (lastError.getD exhausted)
termination_by policy.maxTotalAttempts - totalAttempt
decreasing_by
  have small : totalAttempt + 1 ≤ u8Max := Nat.le_trans within.2 policy.total_le
  rw [saturatingAdd_of_le small]
  omega

def runBroker (request : ChatModelRequest Body) (routes : List ResolvedChatRoute)
    (policy : BrokerRetryPolicy) (lifetime : Option Nat) : Channel :=
  host.brokerLoop request routes policy 0 0 0 none ⟨[], lifetime⟩

end BrokerHost

end Nomifun.Source.ChatModelBroker
