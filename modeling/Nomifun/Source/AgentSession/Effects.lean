import Nomifun.Source.AgentSession.SharedContent

/-!
# The effects of a session

nomifun-agent-session, store.rs:6622-7050 and 7172-7210, effect_native_targets.rs:8-51 and
129-136; nomifun-agent-contracts, native_mutation.rs; nomifun-db,
001_canonical_baseline.sql:29-68. An effect is announced before it is carried out and settled
afterwards; `validateEffectTransition` reads its state from the log, `projectEffectFact` keeps a
row about it.
-/
namespace Nomifun.Source.AgentSession
open Library Library.Json Library.MachineInt Library.RustText Library.Serde Library.Table
  Source.AgentContracts

/-! ### Native mutation targets -/

structure NativeMutationNamespace where
  parentId : String
  components : List (List Nat)

structure NativeMutationTarget where
  volumeId : String
  volumeWide : Bool
  objectId : Option String
  names : NativeMutationNamespace
  ancestorIds : List String

structure NativeMutationTargets where
  version : Nat
  targets : List NativeMutationTarget

def nativePlatformCodec : Codec String :=
  unitVariants [("windows", "windows"), ("unix", "unix")] fun name => name

def nativeSemanticsCodec : Codec String :=
  unitVariants [("entry", "entry"), ("follow", "follow")] fun name => name

def nativeComponentsCodec : Codec (List (List Nat)) := list (list (unsigned u16Max))

def nativeMutationNamespaceSpec : StructSpec where
  fields := [text.field "parent_id", nativeComponentsCodec.field "components"]
  denyUnknown := true

def NativeMutationNamespace.decode (value : Value) :
    Except DecodeError NativeMutationNamespace := do
  let entries ← structEntries nativeMutationNamespaceSpec value
  return {
    parentId := ← required entries "parent_id" text
    components := ← required entries "components" nativeComponentsCodec }

/-- The members that no check reads are decoded and dropped. -/
def nativeMutationTargetSpec : StructSpec where
  fields := [nativePlatformCodec.field "platform", text.field "volume_id",
    boolean.field "volume_wide", (nullable text).field "object_id",
    ⟨"namespace", fun value => (NativeMutationNamespace.decode value).map fun _ => (), false⟩,
    (list text).field "ancestor_ids", boolean.field "subtree",
    nativeSemanticsCodec.field "semantics"]
  denyUnknown := true

def NativeMutationTarget.decode (value : Value) : Except DecodeError NativeMutationTarget := do
  let entries ← structEntries nativeMutationTargetSpec value
  let _ ← required entries "platform" nativePlatformCodec
  let volumeId ← required entries "volume_id" text
  let volumeWide ← required entries "volume_wide" boolean
  let objectId ← requiredOr entries "object_id" (nullable text) none
  let names ← required entries "namespace" ⟨fun _ => .null, NativeMutationNamespace.decode⟩
  let ancestorIds ← required entries "ancestor_ids" (list text)
  let _ ← required entries "subtree" boolean
  let _ ← required entries "semantics" nativeSemanticsCodec
  return ⟨volumeId, volumeWide, objectId, names, ancestorIds⟩

def nativeMutationTargetsCodec : Codec (List NativeMutationTarget) :=
  list ⟨fun _ => .null, NativeMutationTarget.decode⟩

def nativeMutationTargetsSpec : StructSpec where
  fields := [(unsigned u32Max).field "version", nativeMutationTargetsCodec.field "targets"]
  denyUnknown := true

def NativeMutationTargets.decode (value : Value) : Except DecodeError NativeMutationTargets := do
  let entries ← structEntries nativeMutationTargetsSpec value
  return {
    version := ← required entries "version" (unsigned u32Max)
    targets := ← required entries "targets" nativeMutationTargetsCodec }

def fieldText (payload : Value) (field : String) : Option String :=
  (payload.member field).bind Value.asStr

def nativeTargetsField : String := "native_mutation_targets"

def explicitFileMutation (payload : Value) : Bool :=
  fieldText payload "capability_module" = some "workspace.files" &&
    [some "workspace.files/write", some "workspace.files/patch", some "workspace.files/delete",
      some "workspace.files/rename"].contains (fieldText payload "action_id")

def validNativeId (id : String) : Bool :=
  !id.isEmpty && id.utf8ByteSize ≤ 4096 && id.toList.all (· ≠ '\x00')

def NativeMutationTarget.complete (publishesObject : Bool) (target : NativeMutationTarget) : Bool :=
  !(publishesObject && !target.volumeWide) && validNativeId target.volumeId &&
    validNativeId target.names.parentId && target.objectId.all validNativeId &&
    !target.ancestorIds.isEmpty && target.ancestorIds.length ≤ 512 &&
    target.names.parentId ∈ target.ancestorIds && target.ancestorIds.all validNativeId &&
    !target.names.components.isEmpty && target.names.components.length ≤ 512 &&
    target.names.components.all fun key =>
      !key.isEmpty && key.length ≤ 4096 && !key.contains 0

/-- `effect_native_targets::from_payload`, of which only success is used. -/
def checkNativeTargets (platform : Platform) (payload : Value) : StoreResult Unit :=
  match payload.member nativeTargetsField with
  | none => .ok ()
  | some value =>
    match NativeMutationTargets.decode value with
    | .error problem => invalidEvent
        ("invalid native mutation target facts: " ++ platform.describe problem)
    | .ok targets =>
      let action := fieldText payload "action_id"
      let count := targets.targets.length
      if !explicitFileMutation payload || targets.version ≠ 1 || count = 0 || count > 256 then
        invalidEvent "native mutation target facts require a versioned explicit file footprint"
      else if ((action = some "workspace.files/write" ||
            action = some "workspace.files/delete") && count ≠ 1) ||
          (action = some "workspace.files/rename" && count ≠ 2) then
        invalidEvent "native mutation footprint does not cover the action's complete target set"
      else if !targets.targets.all (NativeMutationTarget.complete
          (action = some "workspace.files/write" || action = some "workspace.files/patch")) then
        invalidEvent "native mutation target identity or pinned ancestry is incomplete"
      else .ok ()

def validateSettlement (platform : Platform) (start next : Value) : StoreResult Unit := do
  checkNativeTargets platform start
  if (next.member nativeTargetsField).isSome &&
      next.member nativeTargetsField ≠ start.member nativeTargetsField then
    invalidEvent "Effect settlement changed its original native mutation target facts"

/-! ### The payload of an effect event -/

def isEffectKind (kind : String) : Bool := (stripStart "effect/" kind).isSome

def isEffectTerminalKind (kind : String) : Bool :=
  kind = "effect/succeeded" || kind = "effect/failed" || kind = "effect/uncertain"

def effectPayload (payload : SessionEventPayloadRef) : StoreResult Value :=
  match payload with
  | .inlineJson value => .ok value
  | .empty | .stored _ => invalidEvent "effect lifecycle payload must be inline canonical JSON"

def effectRequiredString (payload : Value) (field : String) : StoreResult String :=
  orInvalidEvent (fieldText payload field) ("effect ledger payload is missing " ++ field)

variable {σ : Type} (platform : Platform) (outer : Outer σ)

variable (store : Store (Records σ)) (event : SessionEventRecord) (append : SessionEventAppend)
  (payload : Value) (effectId : String)

def effectStrategyFromPayload : StoreResult EffectStrategy :=
  match fieldText payload "strategy" with
  | some "read_only" => .ok .readOnly
  | some "managed_effect" => .ok .managedEffect
  | some "external_uncertain_effect" => .ok .externalUncertainEffect
  | some other => invalidEvent ("unknown effect lifecycle strategy " ++ outer.debugText other)
  | none => invalidEvent "effect lifecycle payload must declare strategy"

def effectStrategy (payload : SessionEventPayloadRef) : StoreResult EffectStrategy := do
  effectStrategyFromPayload outer (← effectPayload payload)

inductive ManagedUncertaintyProof where
  | nativeRecovery | historicalProcessRestart | ownerVerified
  deriving DecidableEq

def managedUncertaintyProof (label : Option String) : Option ManagedUncertaintyProof :=
  match label with
  | some "native_recovery_external_reconciliation_required" => some .nativeRecovery
  | some "process_restart_external_reconciliation_required" => some .historicalProcessRestart
  | some "native_owner_verified_reconciliation" => some .ownerVerified
  | _ => none

/-- The fields that every event of an effect repeats. -/
def effectIdentityFields : List String :=
  ["effect_id", "turn_id", "operation_id", "owner_domain", "capability_module", "action_id",
    "input_digest", "strategy", "resource_binding_id", "resource_key"]

def checkSameField (startedPayload nextPayload : Value) (field : String) : StoreResult Unit :=
  if startedPayload.member field ≠ nextPayload.member field then
    invalidEvent ("effect lifecycle identity changed at " ++ field)
  else .ok ()

def validateEffectIdentityTransition (started : SessionEventRecord) (append : SessionEventAppend)
    (expectedCausation : EventId) : StoreResult Unit := do
  if append.semanticEvent.causationEventId ≠ some expectedCausation then
    invalidEvent "effect lifecycle causation does not reference its immediate predecessor"
  if append.semanticEvent.correlationId ≠ started.correlationId then
    invalidEvent "effect lifecycle correlation changed after effect/started"
  let startedPayload ← effectPayload started.payload
  let nextPayload ← effectPayload append.semanticEvent.payload
  validateSettlement platform startedPayload nextPayload
  effectIdentityFields.forM (checkSameField startedPayload nextPayload)

def checkToolIdentity (toolPayload : Value) (entry : String × String) : StoreResult Unit :=
  if fieldText toolPayload entry.1 ≠ some entry.2 then
    invalidEvent ("effect/started causation tool identity differs at " ++ entry.1)
  else .ok ()

/-- The column is read as a text that is not null. -/
def startedEvent (turn : TurnRow) : StoreResult EventId :=
  match turn.startedEventId with
  | some eventId => .ok eventId
  | none => .error .sqlite

def validateEffectStartedCausation : StoreResult Unit := do
  let session := append.agentSessionId
  let cause ← orInvalidEvent append.semanticEvent.causationEventId
    "effect/started requires its exact tool/call-started causation event"
  let tool ← orInvalidEvent (store.events.find? (·.eventId = cause))
    "effect/started causation event is not committed"
  if tool.agentSessionId ≠ session || tool.kind ≠ "tool/call-started" then
    invalidEvent
      "effect/started causation must be a tool/call-started event in the same AgentSession"
  let payload ← effectPayload append.semanticEvent.payload
  let turnId ← effectRequiredString payload "turn_id"
  outer.checkDomainWorkAdmission store session turnId
  let operationId ← effectRequiredString payload "operation_id"
  let capabilityModule ← effectRequiredString payload "capability_module"
  let actionId ← effectRequiredString payload "action_id"
  let turn ← orInvalidEvent (store.turns.find? fun row => row.sessionId = session &&
      row.turnId = turnId && (row.state = .accepted || row.state = .running))
    "effect/started references a Turn that is not active in the canonical Store"
  let startedEventId ← startedEvent turn
  if tool.causationEventId ≠ some startedEventId then
    invalidEvent "effect/started tool causation does not belong to its declared Turn"
  match tool.payload with
  | .inlineJson toolPayload =>
    [("operation_id", operationId), ("capability_id", capabilityModule),
      ("action_id", actionId)].forM (checkToolIdentity toolPayload)
  | .empty | .stored _ =>
    invalidEvent "effect/started tool causation requires inline canonical identity"

/-! ### The transition -/

/-- What the log says about an effect. -/
structure EffectHistory where
  (started terminal reconciled : Option SessionEventRecord)

variable (history : EffectHistory)

/-- The query also matches other spellings of the first part of a kind; none is registered. -/
def effectEvents (session : AgentSessionId) (effect : String) : List SessionEventRecord :=
  store.events.filter fun event => event.agentSessionId = session &&
    event.correlationId = effect && isEffectKind event.kind

def effectHistory (events : List SessionEventRecord) : EffectHistory where
  started := events.find? (·.kind = "effect/started")
  terminal := events.find? fun event => isEffectTerminalKind event.kind
  reconciled := events.find? (·.kind = "effect/reconciled")

def validateStart : StoreResult Unit := do
  if history.started.isSome || history.terminal.isSome || history.reconciled.isSome then
    invalidEvent "effect cannot be started more than once"
  let strategy ← effectStrategy outer append.semanticEvent.payload
  if strategy = .readOnly then
    invalidEvent "read-only operations must not emit effect lifecycle events"
  validateEffectStartedCausation outer store append
  outer.validateNativeAdmission store append

/-- The owner's audit event that a verified uncertainty cites. -/
def validateOwnerAudit : StoreResult Unit := do
  let id ← orInvalidEvent (fieldText payload "reconciliation_event_id")
    "owner verification audit missing"
  let audit ← orInvalidEvent (store.events.find? (·.eventId = id))
    "owner verification audit missing"
  let evidence ← payloadValueForEvent platform outer store audit
  if append.producerId ≠ "runtime_supervisor" ||
      audit.kind ≠ "runtime/effect-reconciliation-attested" ||
      audit.agentSessionId ≠ append.agentSessionId ||
      evidence.member "effect_id" ≠ payload.member "effect_id" ||
      evidence.member "input_digest" ≠ payload.member "input_digest" then
    invalidEvent "owner verification audit targets another effect"

def validateUncertain (strategy : EffectStrategy) : StoreResult Unit := do
  let payload ← effectPayload append.semanticEvent.payload
  let proof := managedUncertaintyProof (fieldText payload "recovery")
  if strategy ≠ .externalUncertainEffect && (append.producerId ≠ "runtime_supervisor" ||
      (proof ≠ some .nativeRecovery && proof ≠ some .ownerVerified)) then
    invalidEvent "managed effects require native recovery proof before becoming uncertain"
  onlyIf (proof = some .ownerVerified) (validateOwnerAudit platform outer store append payload)

def validateTerminal (strategy : Option EffectStrategy) : StoreResult Unit := do
  let started ← orInvalidEvent history.started "effect terminal event requires effect/started"
  if history.terminal.isSome || history.reconciled.isSome then
    invalidEvent "effect already has a terminal outcome"
  if started.idempotencyKey ≠ append.idempotencyKey then
    invalidEvent "effect lifecycle must retain the original idempotency key"
  validateEffectIdentityTransition platform started append started.eventId
  let strategy ← orInvalidEvent strategy "effect/started must declare a lifecycle strategy"
  onlyIf (append.semanticEvent.kind = "effect/uncertain")
    (validateUncertain platform outer store append strategy)

/-- An uncertain managed effect is reconciled only if the supervisor recorded it. -/
def validateManagedReconciliation (terminal : SessionEventRecord) : StoreResult Unit := do
  let payload ← effectPayload terminal.payload
  if terminal.producerId ≠ "runtime_supervisor" ||
      (managedUncertaintyProof (fieldText payload "recovery")).isNone then
    invalidEvent "managed effect reconciliation requires native recovery uncertainty"

def validateReconciled (strategy : Option EffectStrategy) : StoreResult Unit := do
  let started ← orInvalidEvent history.started "effect reconciliation requires effect/started"
  let terminal ← orInvalidEvent (history.terminal.filter (·.kind = "effect/uncertain"))
    "only an uncertain effect may be reconciled"
  onlyIf (strategy ≠ some .externalUncertainEffect) (validateManagedReconciliation terminal)
  if history.reconciled.isSome then invalidEvent "effect reconciliation is already committed"
  if started.idempotencyKey ≠ append.idempotencyKey then
    invalidEvent "effect reconciliation must use the original idempotency key"
  validateEffectIdentityTransition platform started append terminal.eventId

/-- The strategy of an effect that has started. -/
def startedStrategy : StoreResult (Option EffectStrategy) :=
  match history.started with
  | none => .ok none
  | some started => (effectStrategy outer started.payload).map some

def validateEffectTransition : StoreResult Unit := do
  let kind := append.semanticEvent.kind
  if !isEffectKind kind then return ()
  else
    let history := effectHistory
      (effectEvents store append.agentSessionId append.semanticEvent.correlationId)
    let strategy ← startedStrategy outer history
    if kind = "effect/started" then validateStart outer store append history
    else if isEffectTerminalKind kind then
      validateTerminal platform outer store append history strategy
    else if kind = "effect/reconciled" then validateReconciled platform append history strategy
    else return ()

/-! ### The effect table -/

/-- `json.as_i64()`, if it is not negative. -/
def recordedAt : Option Int :=
  match payload.member "recorded_at" with
  | some (.number (.posInt n)) => if n ≤ i64Max then some n else none
  | _ => none

/-- `trim(column) = ''` of SQLite, which trims spaces only. -/
def isBlank (text : String) : Bool := text.toList.all (· = ' ')

/-- The checks and the keys of the table on a new row. -/
def insertEffect (row : EffectRow) : StoreResult (List EffectRow) :=
  let effects := store.rest.effects
  if effects.any (·.effectId = row.effectId) || isBlank row.effectId || isBlank row.turnId ||
      isBlank row.operationId || isBlank row.ownerDomain || isBlank row.capabilityModule ||
      isBlank row.actionId || row.inputDigest.length ≠ 64 ||
      !store.turns.any (fun turn => turn.sessionId = row.sessionId && turn.turnId = row.turnId) ||
      !row.resourceBindingId.all (outer.resourceBound store row.sessionId) then .error .sqlite
  else .ok (effects ++ [row])

def startEffect (time : Int) : StoreResult (List EffectRow) := do
  let strategy ← effectRequiredString payload "strategy"
  if strategy ≠ "managed_effect" && strategy ≠ "external_uncertain_effect" then
    invalidEvent "effect ledger cannot persist a read-only strategy"
  let row : EffectRow := {
    effectId := effectId
    sessionId := event.agentSessionId
    turnId := ← effectRequiredString payload "turn_id"
    operationId := ← effectRequiredString payload "operation_id"
    ownerDomain := ← effectRequiredString payload "owner_domain"
    capabilityModule := ← effectRequiredString payload "capability_module"
    actionId := ← effectRequiredString payload "action_id"
    resourceBindingId := fieldText payload "resource_binding_id"
    resourceKey := fieldText payload "resource_key"
    inputDigest := ← effectRequiredString payload "input_digest"
    strategy := strategy
    state := .pending
    startedEventId := event.eventId
    terminalEventId := none
    createdAt := time
    settledAt := none }
  insertEffect outer store row

def settledEffect (state : EffectState) (event : SessionEventRecord) (time : Int)
    (row : EffectRow) : EffectRow :=
  { row with state := state, terminalEventId := some event.eventId, settledAt := some time }

/-- The row of an effect in a given state. -/
def effectInState (state : EffectState) (row : EffectRow) : Bool :=
  row.effectId = effectId && row.sessionId = event.agentSessionId && row.state = state

def settleEffect (effects : List EffectRow) (event : SessionEventRecord) (effectId : String)
    (time : Int) (before after : EffectState) (refusal : String) : StoreResult (List EffectRow) :=
  let selects := effectInState event effectId before
  if rowsAffected selects effects ≠ 1 then
    .error (.conflict ("canonical effect " ++ effectId ++ " was not " ++ refusal))
  else .ok (updateWhere selects (settledEffect after event time) effects)

def terminalState (kind : String) : EffectState :=
  if kind = "effect/succeeded" then .returned
  else if kind = "effect/failed" then .rejected
  else .unknown

def reconciledState : StoreResult EffectState :=
  match fieldText payload "outcome" with
  | some "confirmed_succeeded" => .ok .returned
  | some "confirmed_failed" => .ok .rejected
  | some "still_uncertain" => .ok .unknown
  | some other => invalidEvent ("effect reconciliation has invalid outcome Some(" ++
      outer.debugText other ++ ")")
  | none => invalidEvent "effect reconciliation has invalid outcome None"

def projectEffectFact : StoreResult (List EffectRow) := do
  let effects := store.rest.effects
  if !isEffectKind event.kind then return effects
  else do
    let effectId ← effectRequiredString payload "effect_id"
    if effectId ≠ event.correlationId then
      invalidEvent "effect ledger identity differs from event correlation"
    let time ← orInvalidEvent (recordedAt payload) "effect ledger payload has invalid recorded_at"
    if event.kind = "effect/started" then startEffect outer store event payload effectId time
    else if isEffectTerminalKind event.kind then
      settleEffect effects event effectId time .pending (terminalState event.kind) "pending"
    else if event.kind = "effect/reconciled" then do
      let state ← reconciledState outer payload
      settleEffect effects event effectId time .unknown state "unknown"
    else return effects

end Nomifun.Source.AgentSession
