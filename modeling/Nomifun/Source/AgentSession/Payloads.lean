import Nomifun.Source.AgentSession.Append

/-!
# Stored payloads

nomifun-agent-contracts, session.rs:518-536, primitives.rs:92-97 and 156-162;
nomifun-agent-session, store.rs:6266-6382, 6487-6509, 7760-7769 and 7949-7995,
session_process_archive.rs:7-17. `Records` names the tables behind an append that this model
follows further: the payloads and the effects of all sessions and the owner column of a session.
`Outer` holds what stays open: steps on other tables, which cannot write these three, and texts
that libraries produce.
-/
namespace Nomifun.Source.AgentSession
open Library Library.Json Library.RustText Source.AgentContracts

structure PrincipalRef where
  principalKind : String
  principalId : String
  deriving DecidableEq

structure LogicalArtifactRef where
  artifactId : String
  normalizedRelativePath : String
  digest : DigestHex
  deriving DecidableEq

inductive SessionPayloadBody where
  | utf8 (text : String)
  | base64 (text : String)
  | json (value : Value)
  | artifactRef (reference : LogicalArtifactRef)
  deriving DecidableEq

structure SessionPayloadRecord where
  payloadId : String
  agentSessionId : AgentSessionId
  mediaType : String
  byteLen : Nat
  digest : DigestHex
  body : SessionPayloadBody
  deriving DecidableEq

inductive EffectStrategy where
  | readOnly | managedEffect | externalUncertainEffect
  deriving DecidableEq

inductive EffectState where
  | pending | returned | rejected | cancelled | unknown
  deriving DecidableEq

/-- A row of `agent_effects`. -/
structure EffectRow where
  effectId : String
  sessionId : AgentSessionId
  turnId : String
  operationId : OperationId
  (ownerDomain capabilityModule actionId : String)
  (resourceBindingId resourceKey : Option String)
  inputDigest : DigestHex
  strategy : String
  state : EffectState
  startedEventId : EventId
  terminalEventId : Option EventId
  createdAt : Int
  settledAt : Option Int

structure Records (σ : Type) where
  owners : StringMap PrincipalRef
  payloads : StringMap SessionPayloadRecord
  effects : List EffectRow
  other : σ

/-- The steps of an append that stay open, and the library functions it calls: the base64 decoder
and the debug form of a string. -/
structure Outer (σ : Type) where
  decodeBase64 : String → Except String (List UInt8)
  debugText : String → String
  liveFromRow : Store (Records σ) → AgentSessionId → StoreResult Unit
  checkPayloadBudget : Store (Records σ) → SessionPayloadRecord → StoreResult Unit
  ensureRemoteSessionAdmitted : Store (Records σ) → AgentSessionId → StoreResult Unit
  checkDomainWorkAdmission : Store (Records σ) → AgentSessionId → OperationId → StoreResult Unit
  /-- `effect_native_targets::validate_admission_tx`, compiled on Windows only. -/
  validateNativeAdmission : Store (Records σ) → SessionEventAppend → StoreResult Unit
  /-- Whether `agent_session_resources` has the binding. -/
  resourceBound : Store (Records σ) → AgentSessionId → String → Bool
  validateSemanticEvent : Store (Records σ) → SessionEventRecord → Value → StoreResult Unit
  projectMessages : Store (Records σ) → SessionEventRecord → Value → StoreResult σ

def invalidPayload {α : Type} (message : String) : StoreResult α :=
  .error (.invalidPayload message)

def orInvalidPayload {α : Type} (value : Option α) (message : String) : StoreResult α :=
  match value with
  | some a => .ok a
  | none => invalidPayload message

def maxSinglePayloadBytes : Nat := 1024 * 1024

section

variable {σ : Type} (platform : Platform) (outer : Outer σ)

def canonicalBytes (value : Value) : StoreResult (List UInt8) :=
  match canonicalJsonBytes platform value with
  | .ok bytes => .ok bytes
  | .error problem => .error (.digest problem)

def LogicalArtifactRef.toValue (reference : LogicalArtifactRef) : Value :=
  .object [("artifact_id", .string reference.artifactId), ("digest", .string reference.digest),
    ("normalized_relative_path", .string reference.normalizedRelativePath)]

variable (body : SessionPayloadBody) (store : Store (Records σ)) (append : SessionEventAppend)
  (payload : SessionPayloadRecord)

def logicalPayloadBytes : StoreResult (List UInt8) :=
  match body with
  | .utf8 text => .ok (text.toList.flatMap String.utf8EncodeChar)
  | .base64 text =>
    match outer.decodeBase64 text with
    | .ok bytes => .ok bytes
    | .error problem => invalidPayload problem
  | .json value => canonicalBytes platform value
  | .artifactRef reference => canonicalBytes platform reference.toValue

def payloadBodyToValue : Value :=
  match body with
  | .utf8 text => .object [("text", .string text)]
  | .base64 text => .object [("base64", .string text)]
  | .json value => value
  | .artifactRef reference => reference.toValue

/-! ### The archive of a native process -/

def outputMedia : String := "application/vnd.nomifun.native-process-output+json-fragment"
def receiptMedia : String := "application/vnd.nomifun.native-process-reaped+json"

def isArchiveMedia (media : String) : Bool := media = outputMedia || media = receiptMedia

def validateDirectReference (kind media : String) : StoreResult Unit :=
  if isArchiveMedia media && (kind ≠ "session/process-reaped" || media ≠ receiptMedia) then
    invalidPayload "native archive Payload is only referenced by its exact process reap root"
  else .ok ()

/-! ### Storing a payload -/

def validatePayloadContents : StoreResult Unit := do
  validateUuidv7 payload.agentSessionId "payload.agent_session_id"
  if (trim payload.mediaType).isEmpty || trim payload.mediaType ≠ payload.mediaType then
    invalidPayload "payload media_type must be canonical and non-empty"
  let logicalBytes ← logicalPayloadBytes platform outer payload.body
  if logicalBytes.length > maxSinglePayloadBytes then
    invalidPayload ("payload exceeds " ++ toString maxSinglePayloadBytes ++ " bytes")
  if payload.byteLen ≠ logicalBytes.length then
    invalidPayload ("payload byte_len " ++ toString payload.byteLen ++ " does not match " ++
      toString logicalBytes.length ++ " bytes")
  if payload.digest ≠ digestBytes platform logicalBytes then
    invalidPayload "payload digest does not match canonical body bytes"

def referencedPayload : Option String :=
  match append.semanticEvent.payload with
  | .stored payloadId => some payloadId
  | .inlineJson value =>
    if append.semanticEvent.kind = "compaction/completed" then
      (value.member "context_payload_id").bind Value.asStr
    else none
  | .empty => none

def validateSuppliedPayload : StoreResult Unit := do
  let expected ← orInvalidPayload (referencedPayload append)
    "a supplied payload must be referenced by the same SessionEvent"
  if expected ≠ payload.payloadId then
    invalidPayload "supplied payload id does not match the SessionEvent payload reference"
  if append.agentSessionId ≠ payload.agentSessionId then
    invalidPayload "supplied payload belongs to another AgentSession"

def insertPayload : StoreResult (Store (Records σ)) := do
  validatePayloadContents platform outer payload
  if isArchiveMedia payload.mediaType then
    invalidPayload "native process archive Payloads require their original owner writer"
  match store.rest.payloads[payload.payloadId]? with
  | some existing =>
    if existing = payload then return store
    else .error (.idempotencyConflict
      ("payload " ++ payload.payloadId ++ " already exists with different content"))
  | none =>
    outer.checkPayloadBudget store payload
    let _ ← asI64 payload.byteLen "payload byte_len"
    return { store with rest := { store.rest with
      payloads := store.rest.payloads.insert payload.payloadId payload } }

/-- The content records, then the envelope that the event refers to. -/
def insertPrepared (prepared : Prepared SessionPayloadRecord)
    : StoreResult (Store (Records σ)) := do
  let store ← prepared.contents.foldlM (insertPayload platform outer) store
  match prepared.envelope with
  | none => return store
  | some payload =>
    validateSuppliedPayload append payload
    insertPayload platform outer store payload

/-! ### Reading a payload -/

def validatePayloadReference : StoreResult (Option Value) := do
  match append.semanticEvent.payload with
  | .empty | .inlineJson _ => return none
  | .stored payloadId =>
    let payload ← orInvalidPayload store.rest.payloads[payloadId]?
      ("stored payload " ++ payloadId ++ " does not exist")
    if payload.agentSessionId ≠ append.agentSessionId then
      invalidPayload "stored payload belongs to another AgentSession"
    validateDirectReference append.semanticEvent.kind payload.mediaType
    return some (payloadBodyToValue payload.body)

/-- The value of an event as it is stored, before shared content is put back. -/
def storedValue (event : SessionEventRecord) : StoreResult Value := do
  match event.payload with
  | .empty => return .null
  | .inlineJson value => return value
  | .stored payloadId =>
    let payload ← orInvalidPayload store.rest.payloads[payloadId]?
      ("projection references missing payload " ++ payloadId)
    validateDirectReference event.kind payload.mediaType
    if payload.agentSessionId ≠ event.agentSessionId then
      invalidPayload "event payload belongs to another AgentSession"
    let bytes ← logicalPayloadBytes platform outer payload.body
    if payload.byteLen ≠ bytes.length || payload.digest ≠ digestBytes platform bytes then
      invalidPayload "event payload differs from its recorded length or digest"
    return payloadBodyToValue payload.body

end

/-! ### What storing payloads changes -/

variable {σ : Type} {platform : Platform} {outer : Outer σ} {store after : Store (Records σ)}
  {payload : SessionPayloadRecord}

/-- Payloads were added; nothing else changed, and every payload that was there still is. -/
structure Grows (store after : Store (Records σ)) : Prop where
  same : after = { store with rest := { store.rest with payloads := after.rest.payloads } }
  keeps : ∀ (id : String) (payload : SessionPayloadRecord),
    store.rest.payloads[id]? = some payload → after.rest.payloads[id]? = some payload

theorem Grows.refl : Grows store store := ⟨rfl, fun _ _ found => found⟩

theorem Grows.trans (first : Grows store between) (second : Grows between after) :
    Grows store after where
  same := by
    rw [second.same, first.same]
  keeps id payload found := second.keeps id payload (first.keeps id payload found)

/-- A payload that passed the checks is there. -/
structure Stored (platform : Platform) (outer : Outer σ) (store : Store (Records σ))
    (payload : SessionPayloadRecord) : Prop where
  found : store.rest.payloads[payload.payloadId]? = some payload
  valid : validatePayloadContents platform outer payload = .ok ()
  ordinary : isArchiveMedia payload.mediaType = false

theorem Stored.later (stored : Stored platform outer store payload) (grows : Grows store after) :
    Stored platform outer after payload :=
  { stored with found := grows.keeps _ _ stored.found }

theorem insertPayload_ok (ok : insertPayload platform outer store payload = .ok after) :
    Grows store after ∧ Stored platform outer after payload := by
  simp only [insertPayload, invalidPayload, bind_eq_ok, guard_eq_ok] at ok
  obtain ⟨_, valid, archive, ok⟩ := ok
  have ordinary := Bool.eq_false_iff.mpr archive
  cases stored : store.rest.payloads[payload.payloadId]? with
  | some existing =>
    simp only [stored] at ok
    split at ok
    next same =>
      cases ok
      exact ⟨.refl, same ▸ stored, valid, ordinary⟩
    next => cases ok
  | none =>
    simp only [stored, bind_eq_ok] at ok
    obtain ⟨_, -, _, -, done⟩ := ok
    cases done
    refine ⟨⟨rfl, fun id other found => ?_⟩, by simp, valid, ordinary⟩
    have different : payload.payloadId ≠ id := by
      rintro rfl
      simp [stored] at found
    rw [StringMap.get_insert, if_neg different]
    exact found

theorem insertPayloads_ok {payloads : List SessionPayloadRecord}
    (ok : payloads.foldlM (insertPayload platform outer) store = .ok after) :
    Grows store after ∧ ∀ payload ∈ payloads, Stored platform outer after payload := by
  induction payloads generalizing store with
  | nil =>
    cases ok
    exact ⟨.refl, by simp⟩
  | cons payload rest ih =>
    rw [List.foldlM_cons, bind_eq_ok] at ok
    obtain ⟨next, inserted, ok⟩ := ok
    obtain ⟨grown, stored⟩ := insertPayload_ok inserted
    obtain ⟨later, others⟩ := ih ok
    exact ⟨grown.trans later, List.forall_mem_cons.mpr ⟨stored.later later, others⟩⟩

theorem insertPrepared_ok (ok : insertPrepared platform outer store append prepared = .ok after) :
    Grows store after ∧ (∀ payload ∈ prepared.contents, Stored platform outer after payload) ∧
      ∀ payload, prepared.envelope = some payload →
        validateSuppliedPayload append payload = .ok () ∧ Stored platform outer after payload := by
  simp only [insertPrepared, bind_eq_ok] at ok
  obtain ⟨between, contents, ok⟩ := ok
  obtain ⟨grown, stored⟩ := insertPayloads_ok contents
  cases enveloped : prepared.envelope with
  | none =>
    simp only [enveloped] at ok
    cases ok
    exact ⟨grown, stored, fun _ impossible => by cases impossible⟩
  | some payload =>
    simp only [enveloped, bind_eq_ok] at ok
    obtain ⟨_, supplied, inserted⟩ := ok
    obtain ⟨later, own⟩ := insertPayload_ok inserted
    refine ⟨grown.trans later, fun other member => (stored other member).later later, ?_⟩
    rintro other same
    cases same
    exact ⟨supplied, own⟩

theorem validatePayloadContents_ok (ok : validatePayloadContents platform outer payload = .ok ()) :
    ∃ bytes, logicalPayloadBytes platform outer payload.body = .ok bytes ∧
      bytes.length ≤ maxSinglePayloadBytes ∧ payload.byteLen = bytes.length ∧
      payload.digest = digestBytes platform bytes := by
  simp only [validatePayloadContents, invalidPayload, bind_eq_ok, guard_eq_ok,
    last_guard_eq_ok] at ok
  obtain ⟨_, -, -, bytes, logical, bounded, length, digest, -⟩ := ok
  exact ⟨bytes, logical, not_lt.mp bounded, not_not.mp length, not_not.mp digest⟩

end Nomifun.Source.AgentSession
