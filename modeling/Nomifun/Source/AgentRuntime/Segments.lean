import Nomifun.Library.Runs
import Nomifun.Source.AgentRuntime.Basic

/-!
# Execution segments (nomifun-agent-runtime, segments.rs)

A turn executes in windows of a fixed number of model steps. A window is renewed at a
checkpoint as long as the cumulative allowance, the number of segments and the progress
ledger permit it, and as long as not too many windows in a row passed without a new
observation. A user grant can raise the number of segments and clear the stall count.

`u16` counters are naturals with the source's saturating and checked operations. The
explanatory text `context` is left out.
-/
namespace Nomifun.Source.AgentRuntime
open Library Library.MachineInt Source.AgentContracts List

variable {modelSteps : Nat} {platform : Platform}

def maxSegmentsAllowed : Nat := 32

def maxTotalSteps : Nat := 4096

def maxProgressFingerprints : Nat := 1024

structure AgentSegmentPolicy where
  maxSegments : Nat
  maxNoProgressSegments : Nat
  deriving DecidableEq

inductive AgentExecutionStopReason where
  | totalModelBudget
  | segmentBudget
  | noProgress
  | progressLedgerFull

def AgentExecutionStopReason.code : AgentExecutionStopReason → String
  | .totalModelBudget => "EXECUTION_TOTAL_MODEL_BUDGET"
  | .segmentBudget => "EXECUTION_SEGMENT_BUDGET"
  | .noProgress => "EXECUTION_NO_PROGRESS"
  | .progressLedgerFull => "EXECUTION_PROGRESS_LEDGER_FULL"

/-- The product of window length and segment count, if it is representable and allowed. -/
def AgentSegmentPolicy.totalAllowed (p : AgentSegmentPolicy) (steps : Nat) : Bool :=
  match checkedMul u16Max steps p.maxSegments with
  | none => false
  | some total => total ≤ maxTotalSteps

def AgentSegmentPolicy.validate (p : AgentSegmentPolicy) (steps : Nat) :
    EngineResult AgentSegmentPolicy :=
  if steps = 0 || p.maxSegments = 0 || p.maxSegments > maxSegmentsAllowed ||
      p.maxNoProgressSegments = 0 || p.maxNoProgressSegments > p.maxSegments ||
      !p.totalAllowed steps then
    .error (.invalidContract "invalid bounded execution segment policy")
  else .ok p

structure AgentExecutionSegmentState where
  policy : AgentSegmentPolicy
  (modelStepsPerSegment segment segmentStartStep noProgressSegments progressAtSegmentStart : Nat)
  progressFingerprints : List DigestHex
  deriving DecidableEq

namespace AgentExecutionSegmentState

variable (platform : Platform) (s : AgentExecutionSegmentState) (grant : NativeBudgetIncrease)
  (modelSteps : Nat)

def totalModelLimit : Nat :=
  saturatingMul u16Max s.modelStepsPerSegment s.policy.maxSegments

def windowEnd : Nat :=
  min (saturatingAdd u16Max s.segmentStartStep s.modelStepsPerSegment) s.totalModelLimit

def new (steps : Nat) (policy : AgentSegmentPolicy) : EngineResult AgentExecutionSegmentState := do
  return {
    policy := ← policy.validate steps
    modelStepsPerSegment := steps
    segment := 1
    segmentStartStep := 0
    noProgressSegments := 0
    progressAtSegmentStart := 0
    progressFingerprints := [] }

def validate (s : AgentExecutionSegmentState) (modelSteps : Nat) : EngineResult Unit := do
  let _ ← s.policy.validate s.modelStepsPerSegment
  if s.segment = 0 || s.segment > s.policy.maxSegments ||
      s.segmentStartStep > modelSteps || modelSteps > s.totalModelLimit ||
      modelSteps > s.windowEnd ||
      s.noProgressSegments ≥ s.policy.maxNoProgressSegments ||
      s.progressAtSegmentStart > s.progressFingerprints.length ||
      s.progressFingerprints.length > maxProgressFingerprints ||
      -- collecting the fingerprints into a set may not lose one
      !decide s.progressFingerprints.Nodup ||
      s.progressFingerprints.any (!isHexDigest ·) then
    .error (.invalidContract "invalid persisted execution segment state")

/-- Appends a fingerprint unless the ledger has it. -/
def record (digest : DigestHex) : AgentExecutionSegmentState :=
  if digest ∈ s.progressFingerprints then s
  else { s with progressFingerprints := s.progressFingerprints ++ [digest] }

def observe (call : ChatToolCall) (result : AgentToolResult)
    : EngineResult AgentExecutionSegmentState :=
  if result.isError || s.progressFingerprints.length ≥ maxProgressFingerprints then .ok s
  else
    let payload := .object [("arguments", call.arguments), ("output", result.outputValue),
      ("tool", .string call.name)]
    match digestPayload platform payload with
    | .error e => .error (.invalidContract e.message)
    | .ok digest => .ok (s.record digest)

def observeOwner (observation : AgentOwnedProcessObservation) :
    EngineResult AgentExecutionSegmentState :=
  if observation.reaped && s.progressFingerprints.length < maxProgressFingerprints then
    match digestPayload platform (.object [("owner_process_terminal", observation.toValue)]) with
    | .error e => .error (.invalidContract e.message)
    | .ok digest => .ok (s.record digest)
  else .ok s

def renewed : Except AgentExecutionStopReason AgentExecutionSegmentState :=
  if modelSteps ≥ s.totalModelLimit then .error .totalModelBudget
  else if s.segment ≥ s.policy.maxSegments then .error .segmentBudget
  else if s.progressFingerprints.length ≥ maxProgressFingerprints then .error .progressLedgerFull
  else
    let noProgressSegments :=
      if s.progressFingerprints.length > s.progressAtSegmentStart then 0
      else saturatingAdd u16Max s.noProgressSegments 1
    if noProgressSegments ≥ s.policy.maxNoProgressSegments then .error .noProgress
    else .ok { s with
      noProgressSegments
      segment := s.segment + 1
      segmentStartStep := modelSteps
      progressAtSegmentStart := s.progressFingerprints.length }

/-- The state with the grant applied, before the window is renewed. -/
def granted : AgentExecutionSegmentState :=
  { s with
    policy.maxSegments := s.policy.maxSegments + grant.additionalSegments
    noProgressSegments := if grant.retryStallGuards then 0 else s.noProgressSegments }

def authorizeResume : EngineResult AgentExecutionSegmentState := do
  if (checkedAdd u16Max s.policy.maxSegments grant.additionalSegments).isNone then
    .error (.invalidContract "authorized model allowance overflow")
  let raised := s.granted grant
  let _ ← raised.policy.validate raised.modelStepsPerSegment
  if modelSteps ≥ raised.totalModelLimit then
    .error (.invalidContract "resume needs an explicit additional model allowance")
  let resumed ←
    if modelSteps ≥ raised.windowEnd then
      match raised.renewed modelSteps with
      | .ok next => pure next
      | .error reason => .error (.invalidContract ("resume remains blocked: " ++ reason.code))
    else pure raised
  resumed.validate modelSteps
  return resumed

end AgentExecutionSegmentState

/-! ### What the validators accept -/

structure AgentSegmentPolicy.Valid (p : AgentSegmentPolicy) (steps : Nat) : Prop where
  steps_pos : 0 < steps
  segments_pos : 0 < p.maxSegments
  segments_le : p.maxSegments ≤ maxSegmentsAllowed
  stall_pos : 0 < p.maxNoProgressSegments
  stall_le : p.maxNoProgressSegments ≤ p.maxSegments
  total_le : steps * p.maxSegments ≤ maxTotalSteps

theorem AgentSegmentPolicy.totalAllowed_iff (p : AgentSegmentPolicy) (steps : Nat) :
    p.totalAllowed steps = true ↔ steps * p.maxSegments ≤ maxTotalSteps := by
  unfold totalAllowed checkedMul
  split
  next overflow =>
    have big : ¬ steps * p.maxSegments ≤ u16Max := by
      intro fits
      simp [fits] at overflow
    have : maxTotalSteps ≤ u16Max := by decide
    simp only [Bool.false_eq_true, false_iff]
    omega
  next total product =>
    split at product
    · cases product
      simp
    · cases product

theorem AgentSegmentPolicy.validate_ok_iff (p q : AgentSegmentPolicy) (steps : Nat) :
    p.validate steps = .ok q ↔ q = p ∧ p.Valid steps := by
  simp only [validate, last_guard_eq_ok, Bool.or_eq_true, decide_eq_true_eq, Bool.not_eq_true',
    not_or, Bool.not_eq_false, totalAllowed_iff, Except.ok.injEq]
  constructor
  · rintro ⟨checks, rfl⟩
    exact ⟨rfl, by constructor <;> omega⟩
  · rintro ⟨rfl, _, _, _, _, _, _⟩
    exact ⟨by omega, rfl⟩

variable {s : AgentExecutionSegmentState}

namespace AgentExecutionSegmentState

variable {next : AgentExecutionSegmentState}

structure Valid (s : AgentExecutionSegmentState) (modelSteps : Nat) : Prop where
  policy : s.policy.Valid s.modelStepsPerSegment
  segment_pos : 0 < s.segment
  segment_le : s.segment ≤ s.policy.maxSegments
  start_le : s.segmentStartStep ≤ modelSteps
  within_total : modelSteps ≤ s.totalModelLimit
  within_window : modelSteps ≤ s.windowEnd
  stall_lt : s.noProgressSegments < s.policy.maxNoProgressSegments
  mark_le : s.progressAtSegmentStart ≤ s.progressFingerprints.length
  ledger_le : s.progressFingerprints.length ≤ maxProgressFingerprints
  nodup : s.progressFingerprints.Nodup
  hex : ∀ digest ∈ s.progressFingerprints, isHexDigest digest = true

theorem validate_ok_iff (s : AgentExecutionSegmentState) (modelSteps : Nat) :
    s.validate modelSteps = .ok () ↔ s.Valid modelSteps := by
  simp only [validate, bind_eq_ok, AgentSegmentPolicy.validate_ok_iff, last_guard_eq_ok,
    Bool.or_eq_true, decide_eq_true_eq, Bool.not_eq_true', not_or,
    any_eq_true, not_exists, not_and, Bool.not_eq_false]
  constructor
  · rintro ⟨_, ⟨-, policy⟩, ⟨⟨counters, nodup⟩, hex⟩, -⟩
    constructor <;> first | exact policy | exact nodup | exact hex | omega
  · rintro ⟨policy, _, _, _, _, _, _, _, _, nodup, hex⟩
    refine ⟨_, ⟨rfl, policy⟩, ⟨⟨?_, nodup⟩, hex⟩, rfl⟩
    omega

theorem totalModelLimit_eq (h : s.policy.Valid s.modelStepsPerSegment) :
    s.totalModelLimit = s.modelStepsPerSegment * s.policy.maxSegments := by
  have bounded : s.modelStepsPerSegment * s.policy.maxSegments ≤ u16Max :=
    Nat.le_trans h.total_le (by decide)
  exact saturatingMul_of_le bounded

theorem new_valid {policy : AgentSegmentPolicy} (created : new steps policy = .ok s) :
    s.Valid 0 ∧ s.progressFingerprints = [] := by
  obtain ⟨p, checked, done⟩ := bind_eq_ok.mp created
  obtain ⟨rfl, valid⟩ := (AgentSegmentPolicy.validate_ok_iff _ _ _).mp checked
  cases done
  refine ⟨⟨valid, Nat.one_pos, valid.segments_pos, Nat.le_refl 0, Nat.zero_le _, Nat.zero_le _,
    valid.stall_pos, Nat.le_refl 0, Nat.zero_le _, nodup_nil, ?_⟩, rfl⟩
  simp

theorem Valid.advance (h : s.Valid modelSteps) (room : modelSteps < s.windowEnd) :
    s.Valid (modelSteps + 1) where
  __ := h
  start_le := Nat.le_succ_of_le h.start_le
  within_total := Nat.le_trans room (Nat.min_le_right _ _)
  within_window := room

theorem Valid.record (h : s.Valid modelSteps) (hex : isHexDigest digest = true)
    (room : s.progressFingerprints.length < maxProgressFingerprints) :
    (s.record digest).Valid modelSteps := by
  unfold AgentExecutionSegmentState.record
  split
  next => exact h
  next fresh =>
    refine { h with mark_le := ?_, ledger_le := ?_, nodup := ?_, hex := ?_ }
    · simp only [length_append]
      exact Nat.le_succ_of_le h.mark_le
    · rw [length_append, length_singleton]
      exact room
    · rw [← concat_eq_append]
      exact h.nodup.concat fresh
    · exact forall_mem_append.mpr ⟨h.hex, forall_mem_singleton.mpr hex⟩

/-- The stall count a renewal at this point leaves. -/
def stallAfter (s : AgentExecutionSegmentState) : Nat :=
  if s.progressFingerprints.length > s.progressAtSegmentStart then 0
  else saturatingAdd u16Max s.noProgressSegments 1

/-- Everything a successful renewal checks and changes. -/
theorem renewed_ok_iff (s next : AgentExecutionSegmentState) (modelSteps : Nat) :
    s.renewed modelSteps = .ok next ↔
      modelSteps < s.totalModelLimit ∧ s.segment < s.policy.maxSegments ∧
      s.progressFingerprints.length < maxProgressFingerprints ∧
      s.stallAfter < s.policy.maxNoProgressSegments ∧
      next = { s with
        noProgressSegments := s.stallAfter
        segment := s.segment + 1
        segmentStartStep := modelSteps
        progressAtSegmentStart := s.progressFingerprints.length } := by
  simp only [renewed, last_guard_eq_ok, Nat.not_le, Except.ok.injEq]
  exact and_congr_right fun _ => and_congr_right fun _ => and_congr_right fun _ =>
    and_congr_right fun _ => eq_comm

theorem Valid.renewed (h : s.Valid modelSteps) (ok : s.renewed modelSteps = .ok next) :
    next.Valid modelSteps := by
  obtain ⟨total, segments, ledger, stall, rfl⟩ := (renewed_ok_iff _ _ _).mp ok
  have limit_eq := totalModelLimit_eq h.policy
  have within := h.within_total
  refine { h with
    segment_pos := Nat.succ_pos _
    segment_le := segments
    start_le := Nat.le_refl _
    within_window := ?_
    stall_lt := stall
    mark_le := Nat.le_refl _ }
  have bounded : s.totalModelLimit ≤ u16Max := by
    rw [limit_eq]
    exact Nat.le_trans h.policy.total_le (by decide)
  refine Nat.le_min.mpr ⟨?_, within⟩
  simp only [saturatingAdd]
  omega

/-- An observation leaves the ledger alone or records one well-formed fingerprint. -/
def Observed (s next : AgentExecutionSegmentState) : Prop :=
  next = s ∨ ∃ digest, isHexDigest digest = true ∧
    s.progressFingerprints.length < maxProgressFingerprints ∧ next = s.record digest

theorem observe_ok (ok : s.observe platform call result = .ok next) : s.Observed next := by
  simp only [observe] at ok
  split at ok
  next => cases ok; exact .inl rfl
  next counted =>
    split at ok
    next => cases ok
    next digest hashed =>
      cases ok
      rw [Bool.or_eq_true, not_or, decide_eq_true_eq, Nat.not_le] at counted
      exact .inr ⟨digest, isHexDigest_digestPayload hashed, counted.2, rfl⟩

theorem observeOwner_ok (ok : s.observeOwner platform observation = .ok next) :
    s.Observed next := by
  unfold observeOwner at ok
  split at ok
  next counted =>
    split at ok
    next => cases ok
    next digest hashed =>
      cases ok
      rw [Bool.and_eq_true, decide_eq_true_eq] at counted
      exact .inr ⟨digest, isHexDigest_digestPayload hashed, counted.2, rfl⟩
  next => cases ok; exact .inl rfl

/-- A successful resume raised the policy, renewed the window if it was used up, and
left a state that validates. -/
theorem authorizeResume_ok (ok : s.authorizeResume grant modelSteps = .ok next) :
    next.Valid modelSteps ∧
      if modelSteps ≥ (s.granted grant).windowEnd then
        (s.granted grant).renewed modelSteps = .ok next
      else next = s.granted grant := by
  simp only [authorizeResume, guard_eq_ok, bind_eq_ok] at ok
  obtain ⟨-, -, -, -, resumes⟩ := ok
  split at resumes
  next used =>
    rw [if_pos used]
    cases renewal : (s.granted grant).renewed modelSteps with
    | error reason => simp [renewal, bind_eq_ok] at resumes
    | ok state =>
      simp only [renewal, pure_bind, bind_eq_ok] at resumes
      obtain ⟨_, valid, same⟩ := resumes
      cases same
      exact ⟨(validate_ok_iff _ _).mp valid, rfl⟩
  next unused =>
    rw [if_neg unused]
    simp only [pure_bind, bind_eq_ok] at resumes
    obtain ⟨_, valid, same⟩ := resumes
    cases same
    exact ⟨(validate_ok_iff _ _).mp valid, rfl⟩

end AgentExecutionSegmentState

/-! ### Runs -/

open AgentExecutionSegmentState

/-- What can happen to a turn's segment state. -/
inductive SegmentOp where
  | advance
  | observe (call : ChatToolCall) (result : AgentToolResult)
  | observeOwner (observation : AgentOwnedProcessObservation)
  | renew
  | resume (grant : NativeBudgetIncrease)

/-- The state of a turn with its model steps. `renewals` only counts the successful
renewals so far, those inside a resume included; no operation reads it. -/
structure SegmentRun where
  modelSteps : Nat
  state : AgentExecutionSegmentState
  renewals : Nat

variable {r : SegmentRun}

/-- One operation. A step is refused at the end of the window, and a resume that is
refused leaves the run. A failed renewal keeps the old state. -/
def SegmentRun.step (platform : Platform) (r : SegmentRun) : SegmentOp → Option SegmentRun
  | .advance =>
    if r.modelSteps < r.state.windowEnd then some { r with modelSteps := r.modelSteps + 1 }
    else none
  | .observe call result =>
    match r.state.observe platform call result with
    | .ok state => some { r with state }
    | .error _ => some r
  | .observeOwner observation =>
    match r.state.observeOwner platform observation with
    | .ok state => some { r with state }
    | .error _ => some r
  | .renew =>
    match r.state.renewed r.modelSteps with
    | .ok state => some { r with state, renewals := r.renewals + 1 }
    | .error _ => some r
  | .resume grant =>
    match r.state.authorizeResume grant r.modelSteps with
    | .ok state =>
      let renews := r.modelSteps ≥ (r.state.granted grant).windowEnd
      some { r with state, renewals := r.renewals + if renews then 1 else 0 }
    | .error _ => none

/-- What an operation did. -/
inductive SegmentEffect (r : SegmentRun) : SegmentOp → SegmentRun → Prop where
  | unchanged (op : SegmentOp) : SegmentEffect r op r
  | advanced (room : r.modelSteps < r.state.windowEnd) :
      SegmentEffect r .advance { r with modelSteps := r.modelSteps + 1 }
  | recorded (op : SegmentOp) (digest : DigestHex) (hex : isHexDigest digest = true)
      (room : r.state.progressFingerprints.length < maxProgressFingerprints) :
      SegmentEffect r op { r with state := r.state.record digest }
  | renewed (next : AgentExecutionSegmentState) (ok : r.state.renewed r.modelSteps = .ok next) :
      SegmentEffect r .renew { r with state := next, renewals := r.renewals + 1 }
  | granted (grant : NativeBudgetIncrease) (valid : (r.state.granted grant).Valid r.modelSteps) :
      SegmentEffect r (.resume grant) { r with state := r.state.granted grant }
  | grantedRenewal (grant : NativeBudgetIncrease) (next : AgentExecutionSegmentState)
      (valid : next.Valid r.modelSteps)
      (ok : (r.state.granted grant).renewed r.modelSteps = .ok next) :
      SegmentEffect r (.resume grant) { r with state := next, renewals := r.renewals + 1 }

theorem SegmentEffect.observed (h : r.state.Observed state) (op : SegmentOp) :
    SegmentEffect r op { r with state } := by
  rcases h with rfl | ⟨digest, hex, room, rfl⟩
  · exact .unchanged op
  · exact .recorded op digest hex room

theorem SegmentRun.step_effect (stepped : r.step platform op = some post) :
    SegmentEffect r op post := by
  cases op with
  | advance =>
    simp only [step] at stepped
    split at stepped
    next room =>
      cases stepped
      exact .advanced room
    next => cases stepped
  | observe call result =>
    simp only [step] at stepped
    split at stepped
    next state ok =>
      cases stepped
      exact .observed (observe_ok ok) _
    next => cases stepped; exact .unchanged _
  | observeOwner observation =>
    simp only [step] at stepped
    split at stepped
    next state ok =>
      cases stepped
      exact .observed (observeOwner_ok ok) _
    next => cases stepped; exact .unchanged _
  | renew =>
    simp only [step] at stepped
    split at stepped
    next state ok =>
      cases stepped
      exact .renewed state ok
    next => cases stepped; exact .unchanged _
  | resume grant =>
    simp only [step] at stepped
    split at stepped
    next state ok =>
      cases stepped
      obtain ⟨valid, effect⟩ := authorizeResume_ok ok
      split at effect
      next renews =>
        simp only [renews, if_true]
        exact .grantedRenewal grant state valid effect
      next kept =>
        subst effect
        simp only [kept, if_false]
        exact .granted grant valid
    next => cases stepped

namespace SegmentRun

variable {next : SegmentRun}

def Sound (r : SegmentRun) : Prop := r.state.Valid r.modelSteps

theorem effect_sound (h : r.Sound) (effect : SegmentEffect r op next) : next.Sound := by
  cases effect with
  | unchanged => exact h
  | advanced room => exact Valid.advance h room
  | recorded _ digest hex room => exact Valid.record h hex room
  | renewed state ok => exact Valid.renewed h ok
  | granted grant valid => exact valid
  | grantedRenewal grant state valid ok => exact valid

theorem record_prefix (s : AgentExecutionSegmentState) (digest : DigestHex) :
    s.progressFingerprints <+: (s.record digest).progressFingerprints := by
  unfold record
  split
  next => exact prefix_refl _
  next => exact prefix_append _ _

theorem renewed_prefix {next : AgentExecutionSegmentState} (ok : s.renewed modelSteps = .ok next) :
    s.progressFingerprints <+: next.progressFingerprints := by
  obtain ⟨-, -, -, -, rfl⟩ := (renewed_ok_iff _ _ _).mp ok
  exact prefix_refl _

/-- The ledger of `next` continues the one of `r`. -/
def Extends (r next : SegmentRun) : Prop :=
  r.state.progressFingerprints <+: next.state.progressFingerprints

theorem effect_extends (effect : SegmentEffect r op next) : r.Extends next := by
  cases effect with
  | unchanged => exact prefix_refl _
  | advanced room => exact prefix_refl _
  | recorded _ digest hex room => exact record_prefix r.state digest
  | renewed state ok => exact renewed_prefix ok
  | granted grant valid => exact prefix_refl _
  | grantedRenewal grant state valid ok =>
    have extended := renewed_prefix ok
    exact extended

/-- No fingerprint has been added since the current window began. -/
def Idle (r : SegmentRun) : Prop :=
  r.state.progressAtSegmentStart = r.state.progressFingerprints.length

/-- Between two states of a run with the same ledger, starting in an idle window, every
renewal has raised the stall count by one. -/
structure Stalls (r next : SegmentRun) : Prop where
  ledger : r.Extends next
  stall_limit : next.state.policy.maxNoProgressSegments = r.state.policy.maxNoProgressSegments
  counted : next.state.progressFingerprints = r.state.progressFingerprints → r.Idle →
    next.Idle ∧ next.state.noProgressSegments + r.renewals =
      r.state.noProgressSegments + next.renewals

theorem Stalls.refl (r : SegmentRun) : Stalls r r where
  ledger := List.prefix_refl _
  stall_limit := rfl
  counted _ idle := ⟨idle, rfl⟩

theorem Stalls.trans (a b c : SegmentRun) (first : Stalls a b) (second : Stalls b c) :
    Stalls a c where
  ledger := List.IsPrefix.trans first.ledger second.ledger
  stall_limit := second.stall_limit.trans first.stall_limit
  counted same idle := by
    have middle : b.state.progressFingerprints = a.state.progressFingerprints :=
      (List.IsPrefix.eq_of_length_le first.ledger
        (same ▸ List.IsPrefix.length_le second.ledger)).symm
    obtain ⟨idle', counted'⟩ := first.counted middle idle
    obtain ⟨idle'', counted''⟩ := second.counted (same.trans middle.symm) idle'
    exact ⟨idle'', by omega⟩

/-- A grant that clears the stall count starts a new account. -/
def KeepsStallCount : SegmentOp → Prop
  | .resume grant => grant.retryStallGuards = false
  | _ => True

theorem stallAfter_idle (h : s.Valid modelSteps)
    (idle : s.progressAtSegmentStart = s.progressFingerprints.length) :
    s.stallAfter = s.noProgressSegments + 1 := by
  have stall := h.stall_lt
  have limit := h.policy.stall_le
  have segments := h.policy.segments_le
  have small : maxSegmentsAllowed ≤ u16Max := by decide
  rw [stallAfter, if_neg (by omega), saturatingAdd_of_le (by omega)]

theorem effect_stalls (h : r.Sound) (keeps : KeepsStallCount op)
    (effect : SegmentEffect r op next) : Stalls r next := by
  have ledger := effect_extends effect
  cases effect with
  | unchanged => exact Stalls.refl r
  | advanced room => exact ⟨ledger, rfl, fun _ idle => ⟨idle, rfl⟩⟩
  | recorded _ digest hex room =>
    simp only [record] at ledger ⊢
    split
    next => exact Stalls.refl r
    next fresh =>
      rw [if_neg fresh] at ledger
      exact ⟨ledger, rfl, fun same => by simp at same⟩
  | renewed state ok =>
    obtain ⟨-, -, -, -, rfl⟩ := (renewed_ok_iff _ _ _).mp ok
    refine ⟨ledger, rfl, fun _ idle => ⟨rfl, ?_⟩⟩
    simp only [stallAfter_idle h idle]
    omega
  | granted grant valid =>
    have kept : grant.retryStallGuards = false := keeps
    refine ⟨ledger, rfl, fun _ idle => ⟨idle, ?_⟩⟩
    simp [granted, kept]
  | grantedRenewal grant state valid ok =>
    have kept : grant.retryStallGuards = false := keeps
    have same_stall : (r.state.granted grant).stallAfter = r.state.stallAfter := by
      simp [granted, stallAfter, kept]
    obtain ⟨-, -, -, -, rfl⟩ := (renewed_ok_iff _ _ _).mp ok
    refine ⟨ledger, rfl, fun _ idle => ⟨rfl, ?_⟩⟩
    simp only [same_stall, stallAfter_idle h idle]
    omega

end SegmentRun
end Nomifun.Source.AgentRuntime
