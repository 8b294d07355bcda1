import Nomifun.Source.AgentRuntime.Segments

/-!
# Execution segments: bounded renewal

Whatever a turn does with its segment state, it stays inside the allowance of the policy
in force and never buys more windows with old observations. A user grant lets a stopped turn
continue, except where the policy allows a single window and the used-up one made no progress.
-/
namespace Nomifun.Guarantees.ExecutionSegments
open Library Source.AgentContracts Source.AgentRuntime AgentExecutionSegmentState

/-- Any run from a fresh state, cut at any point (`mid`) and continued (`last`). The
state at the cut validates, the steps are within the product of window length and segment
count, and the ledger is a duplicate-free list that only ever grows.

The last part bounds unproductive renewals. A renewal closes a window; the windows of
consecutive renewals are unproductive when the ledger has not grown since the first of
them began, which is what `mid.Idle` and the equal ledgers say. As long as no grant
clears the stall count, fewer than `maxNoProgressSegments` renewals in a row are
unproductive. -/
theorem segment_run_stays_within_policy (platform : Platform) (steps : Nat)
    (policy : AgentSegmentPolicy) (s : AgentExecutionSegmentState)
    (created : AgentExecutionSegmentState.new steps policy = .ok s)
    (before after : List SegmentOp) (mid last : SegmentRun)
    (ran : run (SegmentRun.step platform) ⟨0, s, 0⟩ before = some mid)
    (continued : run (SegmentRun.step platform) mid after = some last) :
    mid.state.validate mid.modelSteps = .ok () ∧
    mid.modelSteps ≤ mid.state.modelStepsPerSegment * mid.state.policy.maxSegments ∧
    mid.state.progressFingerprints.Nodup ∧
    mid.state.progressFingerprints <+: last.state.progressFingerprints ∧
    ((∀ op ∈ after, SegmentRun.KeepsStallCount op) → mid.Idle →
      mid.renewals + mid.state.policy.maxNoProgressSegments ≤ last.renewals →
      last.state.progressFingerprints ≠ mid.state.progressFingerprints) := by
  have keeps : ∀ (r : SegmentRun) (op : SegmentOp) (next : SegmentRun),
      r.Sound → r.step platform op = some next → next.Sound :=
    fun r op next sound stepped => SegmentRun.effect_sound sound (SegmentRun.step_effect stepped)
  have start : SegmentRun.Sound ⟨0, s, 0⟩ := (new_valid created).1
  have sound : mid.Sound := run_invariant keeps start ran
  have final : last.Sound := run_invariant keeps sound continued
  have valid : mid.state.Valid mid.modelSteps := sound
  have within := valid.within_total
  rw [totalModelLimit_eq valid.policy] at within
  have extended : mid.Extends last := run_relates keeps (fun _ => List.prefix_refl _)
    (fun _ _ _ => List.IsPrefix.trans)
    (fun _ _ _ _ (_ : True) stepped => SegmentRun.effect_extends (SegmentRun.step_effect stepped))
    sound (fun _ _ => trivial) continued
  refine ⟨(validate_ok_iff _ _).mpr valid, within, valid.nodup, extended, ?_⟩
  · intro keepsCount idle many same
    have stalls : mid.Stalls last := run_relates keeps SegmentRun.Stalls.refl
      SegmentRun.Stalls.trans
      (fun _ _ _ sound keeps stepped =>
        SegmentRun.effect_stalls sound keeps (SegmentRun.step_effect stepped))
      sound keepsCount continued
    have counted := (stalls.counted same idle).2
    have stall := final.stall_lt
    rw [stalls.stall_limit] at stall
    omega

theorem segment_run_renews_once :
    ∃ (platform : Platform) (s : AgentExecutionSegmentState) (mid last : SegmentRun),
      AgentExecutionSegmentState.new 2 ⟨16, 2⟩ = .ok s ∧
      run (SegmentRun.step platform) ⟨0, s, 0⟩ [.advance, .advance, .renew] = some mid ∧
      run (SegmentRun.step platform) mid [.renew] = some last ∧
      mid.state.validate mid.modelSteps = .ok () ∧ mid.renewals = 1 ∧ last.renewals = 1 := by
  let platform : Platform :=
    ⟨fun _ => Vector.replicate 32 0, fun _ => [], fun _ => none, fun _ => ""⟩
  let s : AgentExecutionSegmentState := ⟨⟨16, 2⟩, 2, 1, 0, 0, 0, []⟩
  let mid : SegmentRun := ⟨2, ⟨⟨16, 2⟩, 2, 2, 2, 1, 0, []⟩, 1⟩
  have created : AgentExecutionSegmentState.new 2 ⟨16, 2⟩ = .ok s := rfl
  have ran : run (SegmentRun.step platform) ⟨0, s, 0⟩ [.advance, .advance, .renew] = some mid := rfl
  have continued : run (SegmentRun.step platform) mid [.renew] = some mid := rfl
  have bounded := segment_run_stays_within_policy platform 2 ⟨16, 2⟩ s created _ _ mid mid ran
    continued
  exact ⟨platform, s, mid, mid, created, ran, continued, bounded.1, rfl, rfl⟩

/-! ### Grants -/

variable {s : AgentExecutionSegmentState} {grant : NativeBudgetIncrease} {modelSteps : Nat}

/-- The grant leaves a valid state with room behind the steps so far, whose window is the old
one. -/
theorem granted_valid (valid : s.Valid modelSteps) (more : 1 ≤ grant.additionalSegments)
    (retries : grant.retryStallGuards = true)
    (raised : (s.granted grant).policy.Valid s.modelStepsPerSegment) :
    (s.granted grant).Valid modelSteps ∧ modelSteps < (s.granted grant).totalModelLimit ∧
      (s.granted grant).windowEnd = s.segmentStartStep + s.modelStepsPerSegment := by
  have oldTotal := totalModelLimit_eq valid.policy
  have newTotal : (s.granted grant).totalModelLimit =
      s.modelStepsPerSegment * (s.policy.maxSegments + grant.additionalSegments) :=
    totalModelLimit_eq raised
  have steps := valid.policy.steps_pos
  have grown : s.totalModelLimit + s.modelStepsPerSegment ≤ (s.granted grant).totalModelLimit := by
    rw [oldTotal, newTotal, ← Nat.mul_succ]
    exact Nat.mul_le_mul_left _ (by omega)
  have bounded : (s.granted grant).totalModelLimit ≤ maxTotalSteps := newTotal ▸ raised.total_le
  have fits : maxTotalSteps ≤ MachineInt.u16Max := by decide
  have started := valid.start_le
  have total := valid.within_total
  have window : (s.granted grant).windowEnd = s.segmentStartStep + s.modelStepsPerSegment := by
    simp only [windowEnd, granted, MachineInt.saturatingAdd] at *
    omega
  have within := valid.within_window
  simp only [windowEnd, MachineInt.saturatingAdd] at within
  have segments := valid.segment_le
  refine ⟨{ valid with
    policy := raised
    segment_le := ?_
    within_total := by omega
    within_window := by omega
    stall_lt := ?_ }, by omega, window⟩
  · simp only [granted]
    omega
  · simp only [granted, retries]
    exact valid.policy.stall_pos

/-- A grant of segments that clears the stall count, and leaves a valid policy, lets the turn go
on exactly if its window is not used up, or has made progress, or the policy allows two windows
without. -/
theorem resume_is_granted_iff (valid : s.validate modelSteps = .ok ())
    (room : s.progressFingerprints.length < maxProgressFingerprints)
    (more : 1 ≤ grant.additionalSegments) (retries : grant.retryStallGuards = true)
    (raised : (s.granted grant).policy.validate s.modelStepsPerSegment =
      .ok (s.granted grant).policy) :
    (∃ resumed, s.authorizeResume grant modelSteps = .ok resumed) ↔
      modelSteps < s.segmentStartStep + s.modelStepsPerSegment ∨
      s.progressAtSegmentStart < s.progressFingerprints.length ∨
      2 ≤ s.policy.maxNoProgressSegments := by
  rw [validate_ok_iff] at valid
  have policy := ((AgentSegmentPolicy.validate_ok_iff _ _ _).mp raised).2
  obtain ⟨grantedValid, below, window⟩ := granted_valid valid more retries policy
  have stall : (s.granted grant).stallAfter =
      if s.progressAtSegmentStart < s.progressFingerprints.length then 0 else 1 := by
    simp only [stallAfter, granted, retries, if_true]
    rfl
  have limit : (s.granted grant).policy.maxNoProgressSegments = s.policy.maxNoProgressSegments :=
    rfl
  have positive := valid.policy.stall_pos
  constructor
  · rintro ⟨resumed, ok⟩
    have renewal := (authorizeResume_ok ok).2
    split at renewal
    next =>
      obtain ⟨-, -, -, stalls, -⟩ := (renewed_ok_iff _ _ _).mp renewal
      rw [stall, limit] at stalls
      split at stalls <;> omega
    next unused => exact .inl (by omega)
  · intro continues
    have fits : s.policy.maxSegments + grant.additionalSegments ≤ MachineInt.u16Max :=
      Nat.le_trans policy.segments_le (by decide)
    have unlimited : ¬ modelSteps ≥ (s.granted grant).totalModelLimit := by omega
    simp only [authorizeResume, guard_eq_ok, bind_eq_ok, MachineInt.checkedAdd_of_le fits]
    by_cases used : modelSteps ≥ (s.granted grant).windowEnd
    · have segments : s.segment < (s.granted grant).policy.maxSegments :=
        Nat.lt_of_le_of_lt valid.segment_le (Nat.lt_add_of_pos_right more)
      have stalls : (s.granted grant).stallAfter < s.policy.maxNoProgressSegments := by
        rw [stall]
        split <;> omega
      obtain ⟨next, renewal⟩ : ∃ next, (s.granted grant).renewed modelSteps = .ok next :=
        ⟨_, (renewed_ok_iff _ _ _).mpr ⟨below, segments, room, stalls, rfl⟩⟩
      have final := (validate_ok_iff _ _).mpr (grantedValid.renewed renewal)
      refine ⟨next, by simp, _, raised, unlimited, ?_⟩
      rw [if_pos used, renewal]
      exact bind_eq_ok.mpr ⟨_, rfl, bind_eq_ok.mpr ⟨_, final, rfl⟩⟩
    · refine ⟨s.granted grant, by simp, _, raised, unlimited, ?_⟩
      rw [if_neg used]
      exact bind_eq_ok.mpr ⟨_, rfl, bind_eq_ok.mpr ⟨_, (validate_ok_iff _ _).mpr grantedValid, rfl⟩⟩

/-- A policy that allows a single window without progress, whose first window is used up. -/
def singleWindow : AgentExecutionSegmentState := ⟨⟨1, 1⟩, 1, 1, 0, 0, 0, []⟩

/-- The grant raises the segments and clears the stall count, and the turn remains blocked. -/
theorem singleWindow_remains_blocked :
    singleWindow.validate 1 = .ok () ∧
      (singleWindow.granted ⟨1, true⟩).policy.validate 1 = .ok ⟨2, 1⟩ ∧
      singleWindow.authorizeResume ⟨1, true⟩ 1 =
        .error (.invalidContract "resume remains blocked: EXECUTION_NO_PROGRESS") := by
  decide

theorem two_windows_are_resumed :
    ∃ resumed, (⟨⟨2, 2⟩, 1, 2, 1, 1, 0, []⟩ : AgentExecutionSegmentState).authorizeResume
      ⟨1, true⟩ 2 = .ok resumed :=
  (resume_is_granted_iff (by decide) (by decide) (by decide) rfl (by decide)).mpr
    (.inr (.inr (by decide)))

end Nomifun.Guarantees.ExecutionSegments
