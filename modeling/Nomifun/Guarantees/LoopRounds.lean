import Nomifun.Source.AgentExecution.Outputs

/-!
# The rounds of a loop

control_steps.rs:266-327. The controller finds its count and its hashes in the newest of its
attempts. As long as each round stores what the last one returned, the loop ends within its limit,
and under the stable policy at the first repetition that is long enough.
-/
namespace Nomifun.Guarantees.LoopRounds
open Library.MachineInt Library.RustText Library.Serde Source.AgentExecution List

/-- The attempts that each evaluation finds; the first is number one. -/
structure LoopRun (host : ControlHost) (maxIterations : Nat) (stop : LoopStopPolicy)
    (body controller : ReportedStep) where
  attempts : Nat → List ReportedAttempt
  fits : maxIterations ≤ u64Max
  fresh : storedState (attempts 1) controller = none
  stored : ∀ n id value,
    evaluateLoop host maxIterations stop [body] (attempts (n + 1)) controller = .repeats id value →
      storedState (attempts (n + 2)) controller = some value

variable {host : ControlHost} {maxIterations : Nat} {stop : LoopStopPolicy}
  {body controller : ReportedStep}

theorem loopRuntimeState_roundTrips (fits : state.iteration ≤ u64Max)
    (hashes : ∀ hash ∈ state.outputHashes, hash ≤ u64Max) : loopRuntimeState.RoundTrips state := by
  have iteration := unsigned_roundTrips fits
  have outputs := list_roundTrips fun hash member => unsigned_roundTrips (hashes hash member)
  have entries := structEntries_declared loopRuntimeStateSpec (by decide)
    (iteration.field "iteration" (.cons (declares_defaultedField outputs "output_hashes") .nil))
  simp [Codec.RoundTrips, loopRuntimeState, entries, bind, Except.bind, pure, Except.pure, required,
    requiredOr, lookup_cons, iteration, outputs]

namespace LoopRun

variable (run : LoopRun host maxIterations stop body controller) {n : Nat}

def output (n : Nat) : String := (latestOutput (run.attempts n) body.stepId).getD ""

def evaluation (n : Nat) : ControlResolution :=
  evaluateLoop host maxIterations stop [body] (run.attempts n) controller

def hashAt (n : Nat) : Nat := outputHash host (run.output n)

/-- What the evaluation stores. -/
def stateAt (n : Nat) : LoopRuntimeState := ⟨n, (List.range n).map fun k => run.hashAt (k + 1)⟩

def readAt (n : Nat) : Option LoopRuntimeState :=
  (storedState (run.attempts n) controller).bind fun value =>
    (loopRuntimeState.decode value).toOption

/-- Whether the evaluation ends the loop. -/
abbrev Ends (n : Nat) : Prop := stopNow host (run.output n) maxIterations stop (run.stateAt n)

/-- From the state of the round before. -/
theorem evaluation_eq (read : (run.readAt (n + 1)).getD ⟨0, []⟩ = run.stateAt n)
    (below : n < u64Max) :
    run.evaluation (n + 1) = if run.Ends (n + 1) then
        .complete ("循环在第 " ++ toString (run.stateAt (n + 1)).iteration ++ " 轮结束。\n\n" ++
          trim (run.output (n + 1))) (some (loopRuntimeState.encode (run.stateAt (n + 1))))
      else .repeats body.stepId (loopRuntimeState.encode (run.stateAt (n + 1))) := by
  have next : advanced host (run.output (n + 1)) ((run.readAt (n + 1)).getD ⟨0, []⟩) =
      run.stateAt (n + 1) := by
    rw [read, advanced, stateAt, saturatingAdd_of_le below, stateAt, range_succ, map_append]
    rfl
  simp only [Ends, ← next]
  rfl

theorem readAt_succ (goesOn : ∀ k, k < n → ¬ run.Ends (k + 1)) (below : n ≤ u64Max) :
    (run.readAt (n + 1)).getD ⟨0, []⟩ = run.stateAt n := by
  induction n with
  | zero => simp [readAt, run.fresh, stateAt]
  | succ n ih =>
    have repeated := run.evaluation_eq (ih (fun k less => goesOn k (by omega)) (by omega)) below
    rw [if_neg (goesOn n (by omega))] at repeated
    have kept : loopRuntimeState.RoundTrips (run.stateAt (n + 1)) :=
      loopRuntimeState_roundTrips below fun hash member => by
        obtain ⟨k, -, rfl⟩ := mem_map.mp member
        exact Nat.le_of_lt_succ (UInt64.toNat_lt _)
    simp [readAt, run.stored _ _ _ repeated, kept, Except.toOption]

theorem ends_limit : run.Ends (max 1 maxIterations) := by
  simp [Ends, stopNow, stateAt, Nat.max_comm]

end LoopRun

theorem isChain_eq_iff {items : List Nat} :
    items.IsChain (· = ·) ↔ ∀ a ∈ items, ∀ b ∈ items, a = b := by
  rw [isChain_iff_pairwise]
  exact ⟨fun pairs a first b second => pairs.forall_of_forall (fun _ _ => rfl) first second,
    pairwise_of_forall_mem_list⟩

theorem stable_ends_iff {quiet n : Nat}
    (run : LoopRun host maxIterations (.stable quiet) body controller) :
    run.Ends n ↔ max 1 maxIterations ≤ n ∨ max 1 quiet < n ∧
      ∀ k, n - max 1 quiet ≤ k → k ≤ n → run.hashAt k = run.hashAt n := by
  have members : ∀ hash, hash ∈ (run.stateAt n).outputHashes.drop (n - max quiet 1 - 1) ↔
      ∃ k, n - max quiet 1 - 1 ≤ k ∧ k < n ∧ run.hashAt (k + 1) = hash := by
    intro hash
    rw [LoopRun.stateAt, ← map_drop, range_eq_range', drop_range']
    simp only [mem_map, mem_range'_1, and_assoc]
    refine exists_congr fun k => and_congr (by omega) (and_congr (by omega) Iff.rfl)
  have length : (run.stateAt n).outputHashes.length = n := by simp [LoopRun.stateAt]
  simp only [LoopRun.Ends, stopNow, length, Bool.or_eq_true, Bool.and_eq_true, decide_eq_true_eq,
    isChain_eq_iff, members, Nat.max_comm 1]
  refine or_congr Iff.rfl (and_congr_right fun more => ⟨fun equal k since upto => ?_, ?_⟩)
  · exact equal _ ⟨k - 1, by omega, by omega, congrArg run.hashAt (by omega)⟩ _
      ⟨n - 1, by omega, by omega, congrArg run.hashAt (by omega)⟩
  · rintro equal _ ⟨k, fromFirst, upto, rfl⟩ _ ⟨l, fromSecond, upto', rfl⟩
    rw [equal _ (by omega) upto, equal _ (by omega) upto']

/-- Every loop whose rounds store what they return ends within its limit; under the stable policy
exactly at the limit or the first repetition. -/
theorem loop_ends_within_limit (run : LoopRun host maxIterations stop body controller) :
    ∃ n, 1 ≤ n ∧ n ≤ max 1 maxIterations ∧
      (∃ summary state, run.evaluation n = .complete summary state) ∧
      (∀ k, 1 ≤ k → k < n → ∃ value, run.evaluation k = .repeats body.stepId value) ∧
      ∀ quiet, stop = .stable quiet → IsLeast ({max 1 maxIterations} ∪
        {k | max 1 quiet < k ∧
          ∀ i, k - max 1 quiet ≤ i → i ≤ k → run.hashAt i = run.hashAt k}) n := by
  have limit : run.Ends (max 1 maxIterations - 1 + 1) := by
    rw [Nat.sub_add_cancel (Nat.le_max_left _ _)]
    exact run.ends_limit
  have ends : ∃ n, run.Ends (n + 1) := ⟨_, limit⟩
  obtain ⟨last, earlier⟩ : run.Ends (Nat.find ends + 1) ∧
      ∀ k < Nat.find ends, ¬ run.Ends (k + 1) := ⟨Nat.find_spec ends, fun _ => Nat.find_min ends⟩
  have most := Nat.find_min' ends limit
  have fits : max 1 maxIterations ≤ u64Max := Nat.max_le.mpr ⟨by decide, run.fits⟩
  have evaluated : ∀ k ≤ Nat.find ends, _ := fun k upto =>
    run.evaluation_eq (n := k) (run.readAt_succ (fun j less => earlier j (by omega)) (by omega))
      (by omega)
  refine ⟨Nat.find ends + 1, by omega, by omega, ?_, fun k first less => ?_, ?_⟩
  · rw [evaluated _ (Nat.le_refl _), if_pos last]
    exact ⟨_, _, rfl⟩
  · obtain ⟨k, rfl⟩ := Nat.exists_eq_add_one.mpr first
    rw [evaluated k (by omega), if_neg (earlier k (by omega))]
    exact ⟨_, rfl⟩
  · rintro quiet rfl
    refine ⟨?_, fun k ended => ?_⟩
    · rcases (stable_ends_iff run).mp last with reached | quietly
      · exact .inl (by rw [Set.mem_singleton_iff]; omega)
      · exact .inr quietly
    · have positive : 1 ≤ k := by
        rcases ended with same | quietly
        · exact (Set.mem_singleton_iff.mp same).symm ▸ Nat.le_max_left _ _
        · exact Nat.lt_of_le_of_lt (Nat.zero_le _) quietly.1
      obtain ⟨j, rfl⟩ := Nat.exists_eq_add_one.mpr positive
      have stopped : run.Ends (j + 1) :=
        (stable_ends_iff run).mpr (ended.imp_left fun same => Nat.le_of_eq same.symm)
      exact Nat.succ_le_succ (Nat.find_min' ends stopped)

def repeatedState : ControlResolution → Option Library.Json.Value
  | .repeats _ value => some value
  | _ => none

/-- One attempt of either step, for any outputs. -/
def roundAttempts (host : ControlHost) (maxIterations : Nat) (stop : LoopStopPolicy)
    (body controller : ReportedStep) (outputs : Nat → String) : Nat → List ReportedAttempt
  | 0 => []
  | n + 1 =>
    [⟨⟨"1", body.stepId, .completed⟩, 1, some (outputs (n + 1)), none⟩,
      ⟨⟨"2", controller.stepId, .completed⟩, 1, none,
        if n = 0 then none else repeatedState (evaluateLoop host maxIterations stop [body]
          (roundAttempts host maxIterations stop body controller outputs n) controller)⟩]

def roundsOf (outputs : Nat → String) (fits : maxIterations ≤ u64Max)
    (distinct : body.stepId ≠ controller.stepId) :
    LoopRun host maxIterations stop body controller where
  attempts := roundAttempts host maxIterations stop body controller outputs
  fits := fits
  fresh := by simp [roundAttempts, storedState, latestAttempt, distinct]
  stored n id value repeated := by
    rw [roundAttempts]
    simp [storedState, latestAttempt, distinct, repeated, repeatedState]

/-- Three rounds, each with a longer output. -/
def changingRun : LoopRun ⟨fun _ => none, fun text => UInt64.ofNat text.length⟩ 3 (.stable 2)
    ⟨⟨"body", .agent, .completed, none, none, none, none, 0, 0, 0⟩, "", none⟩
    ⟨⟨"loop", .loop, .running, none, none, none, none, 0, 0, 0⟩, "", none⟩ :=
  roundsOf (fun n => String.ofList (replicate n 'x')) (by decide) (by decide)

/-- No two rounds have the same hash, and the loop ends at its limit. -/
theorem changing_loop_ends : [1, 2, 3].map changingRun.hashAt = [1, 2, 3] ∧
    ∃ summary state, changingRun.evaluation 3 = .complete summary state := by
  obtain ⟨n, -, upto, completed, -, least⟩ := loop_ends_within_limit changingRun
  have last : n = 3 := by
    rcases (least 2 rfl).1 with limit | ⟨more, -⟩
    · exact Set.mem_singleton_iff.mp limit
    · exact Nat.le_antisymm upto more
  exact ⟨by decide, last ▸ completed⟩

end Nomifun.Guarantees.LoopRounds
