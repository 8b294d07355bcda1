import Nomifun.Guarantees.PlanAdjustment
import Nomifun.Source.AgentExecution.Scheduler

/-!
# The reset of a loop

The scheduler computes the steps downstream of the body of a loop from what it read, with their
versions; the repository computes them once more from its tables. Both searches find the same
steps. If nothing changed in between, the reset makes all of them pending, and nothing else
changes. If one of them changed, the reset is refused as a whole.
-/
namespace Nomifun.Guarantees.LoopRepeats
open Library Library.Digraph Library.Reachability Library.Table Source.AgentExecution Option List
  Guarantees.PlanAdjustment Relation

variable {detail : AgentExecutionDetail} {controller : String} {rows rows' : ExecutionRows}
  {reset : LoopRepeatResetParams}

/-- The steps downstream of the body, the body included and the controller not. -/
def InClosure (detail : AgentExecutionDetail) (controller body stepId : String) : Prop :=
  ReflTransGen (Edge detail.activeEdges) body stepId ∧ stepId ≠ controller

section

variable {body : String}

/-- A search over the active edges, listed in any order. -/
theorem search_spec (edges : List (String × String)) (same : edges.Perm detail.activeEdges)
    (controller body : String) :
    ∃ closure, (reachableFrom (Adjacency.empty.linkAll edges).outgoing (edges.length + 1) body).map
        (·.filter (· ≠ controller)) = some closure ∧ closure.Nodup ∧
      ∀ id, id ∈ closure ↔ InClosure detail controller body id := by
  obtain ⟨found, searched, distinct, members⟩ := reachableFrom_spec edges body
  have sameEdges : Edge edges = Edge detail.activeEdges := by
    funext a b
    exact propext same.mem_iff
  refine ⟨found.filter (· ≠ controller), by rw [searched]; rfl,
    distinct.sublist filter_sublist, fun id => ?_⟩
  rw [mem_filter, members, decide_eq_true_eq, InClosure, sameEdges]

theorem loopClosure_spec (detail : AgentExecutionDetail) (controller body : String) :
    ∃ closure, loopClosure detail controller body = some closure ∧ closure.Nodup ∧
      ∀ id, id ∈ closure ↔ InClosure detail controller body id :=
  search_spec detail.activeEdges (.refl _) controller body

theorem resetClosure_spec (fetch : FetchOrder) (detail : AgentExecutionDetail)
    (controller body : String) :
    ∃ closure, resetClosure fetch detail controller body = some closure ∧ closure.Nodup ∧
      ∀ id, id ∈ closure ↔ InClosure detail controller body id :=
  search_spec (fetch.arrange detail.activeEdges) (fetch.perm _) controller body

/-- What the scheduler's answer says about what it read. -/
structure Snapshot (detail : AgentExecutionDetail) (controller body : String)
    (reset : LoopRepeatResetParams) : Prop where
  origin : reset.bodyStepId = body
  present : (detail.activeStep body).isSome = true
  direct : (body, controller) ∈ detail.activeEdges
  distinct : (reset.expectedSteps.map (·.stepId)).Nodup
  covers : ∀ id, id ∈ reset.expectedSteps.map (·.stepId) ↔ InClosure detail controller body id
  versions : ∀ id, InClosure detail controller body id →
    ∃ step, detail.activeStep id = some step ∧ expectedVersion reset id = some step.version

theorem expectedStep_ok (ok : expectedStep detail stepId = .ok expected) :
    expected.stepId = stepId ∧
      ∃ step, detail.activeStep stepId = some step ∧
        expected.expectedStepVersion = step.version := by
  unfold expectedStep at ok
  split at ok
  next => cases ok
  next step found =>
    cases ok
    exact ⟨(AgentExecutionDetail.activeStep_eq_some.mp found).2, step, found, rfl⟩

theorem buildLoopRepeatReset_ok (ok : buildLoopRepeatReset detail controller body = .ok reset) :
    Snapshot detail controller body reset := by
  obtain ⟨closure, searched, distinct, members⟩ := loopClosure_spec detail controller body
  simp only [buildLoopRepeatReset, internal, guard_eq_ok, searched, bind_eq_ok] at ok
  obtain ⟨present, direct, expected, mapped, done⟩ := ok
  cases done
  have each : List.Forall₂ (fun id expected => expectedStep detail id = .ok expected) closure
      expected := mapM_eq_ok.mp mapped
  have ids : expected.map (·.stepId) = closure := by
    have named : List.Forall₂ (fun id expected => id = expected.stepId) closure expected :=
      each.imp fun id expected ok => (expectedStep_ok ok).1.symm
    rw [← forall₂_map_right_iff, forall₂_eq_eq_eq] at named
    exact named.symm
  have known : ∀ entry ∈ expected, ∃ step, detail.activeStep entry.stepId = some step ∧
      entry.expectedStepVersion = step.version := by
    intro entry listed
    obtain ⟨id, -, ok⟩ := exists_of_forall₂ each listed
    obtain ⟨rfl, step⟩ := expectedStep_ok ok
    exact step
  have perm := perm_insertionSort (fun a b : RetryAgentExecutionStep => a.stepId ≤ b.stepId)
    expected
  have sorted := (perm.map (·.stepId)).trans (.of_eq ids)
  refine ⟨rfl, by simpa [isSome_iff_ne_none] using present, by simpa using direct, ?_,
    fun id => ?_, fun id inside => ?_⟩
  · exact sorted.nodup_iff.mpr distinct
  · rw [sorted.mem_iff, members]
  · obtain ⟨entry, listed, rfl⟩ : ∃ entry ∈ expected, entry.stepId = id := by
      rw [← members, ← ids] at inside
      exact mem_map.mp inside
    obtain ⟨step, found, version⟩ := known entry listed
    refine ⟨step, found, ?_⟩
    have distinctSorted := sorted.nodup_iff.mpr distinct
    rw [expectedVersion, (find_key_eq_some distinctSorted).mpr ⟨perm.mem_iff.mpr listed, rfl⟩,
      map_some, version]

end

/-! ### The reset -/

/-- The rows after the steps `done` have been reset. -/
structure Resetting (read : ExecutionRows) (done : List String) (rows : ExecutionRows) : Prop where
  steps : ∃ now : ExecutionStep → ExecutionStep, rows.detail.steps = read.detail.steps.map now ∧
    ∀ step ∈ read.detail.steps, (now step).stepId = step.stepId ∧
      (step.stepId ∈ done → (now step).status = .pending ∧ (now step).dispatchAfter = none) ∧
      (step.stepId ∉ done → now step = step)
  attempts : rows.detail.attempts = read.detail.attempts
  stopped : rows.stoppedStepIds = read.stoppedStepIds

/-- A step that the reset accepts. -/
structure Idle (read : ExecutionRows) (step : ExecutionStep) : Prop where
  status : resettable step.status = true
  unattempted : read.detail.hasActiveAttempt step.stepId = false
  unstopped : step.stepId ∉ read.stoppedStepIds

section

variable {read : ExecutionRows} {done : List String} {step : ExecutionStep} {time : Int}

theorem Resetting.refl (read : ExecutionRows) : Resetting read [] read where
  steps := ⟨id, (map_id _).symm, fun _ _ => ⟨rfl, fun member => absurd member
    not_mem_nil, fun _ => rfl⟩⟩
  attempts := rfl
  stopped := rfl

theorem Resetting.extend (resetting : Resetting read done rows) (listed : step ∈ read.detail.steps)
    (new : step.stepId ∉ done) (change : ExecutionStep → ExecutionStep)
    (written : rows'.detail.steps = rows.detail.steps.map change)
    (keeps : ∀ row, (change row).stepId = row.stepId)
    (others : ∀ row, row.stepId ≠ step.stepId → change row = row)
    (here : (change step).status = .pending ∧ (change step).dispatchAfter = none)
    (attempts : rows'.detail.attempts = rows.detail.attempts)
    (stopped : rows'.stoppedStepIds = rows.stoppedStepIds) :
    Resetting read (done ++ [step.stepId]) rows' := by
  refine ⟨?_, attempts.trans resetting.attempts, stopped.trans resetting.stopped⟩
  obtain ⟨now, before, each⟩ := resetting.steps
  refine ⟨change ∘ now, by rw [written, before, List.map_map], fun row member => ?_⟩
  obtain ⟨sameId, reset, unreset⟩ := each row member
  simp only [Function.comp_apply]
  refine ⟨(keeps _).trans sameId, fun doneNow => ?_, fun notDone => ?_⟩
  · by_cases same : row.stepId = step.stepId
    · obtain rfl : row = step := inj_on_of_nodup_map read.detail.distinctSteps member listed same
      rw [unreset new]
      exact here
    · rw [others _ (by rwa [sameId])]
      refine reset ((mem_append.mp doneNow).resolve_right fun last => ?_)
      exact same (mem_singleton.mp last)
  · rw [mem_append, mem_singleton, not_or] at notDone
    rw [unreset notDone.1, others row notDone.2]

/-- The row of a step that has not been reset is still what was read. -/
theorem Resetting.untouched (resetting : Resetting read done rows)
    (listed : step ∈ read.detail.steps) (new : step.stepId ∉ done) : step ∈ rows.detail.steps := by
  obtain ⟨now, before, each⟩ := resetting.steps
  rw [before]
  exact mem_map.mpr ⟨step, listed, (each step listed).2.2 new⟩

theorem resetStep_succeeds (resetting : Resetting read done rows)
    (found : read.detail.activeStep step.stepId = some step)
    (fresh : expectedVersion reset step.stepId = some step.version) (idle : Idle read step)
    (new : step.stepId ∉ done) :
    ∃ rows', resetStep read.detail reset time rows step.stepId = .ok rows' ∧
      Resetting read (done ++ [step.stepId]) rows' := by
  obtain ⟨member, -⟩ := AgentExecutionDetail.activeStep_eq_some.mp found
  obtain ⟨listed, active⟩ := mem_filter.mp member
  have unstopped : step.stepId ∉ rows.stoppedStepIds := by
    rw [resetting.stopped]
    exact idle.unstopped
  have unattempted : rows.detail.hasActiveAttempt step.stepId = false := by
    rw [AgentExecutionDetail.hasActiveAttempt, resetting.attempts]
    exact idle.unattempted
  simp only [resetStep, dbConflict, changedConcurrently, found, guard_eq_ok]
  by_cases waiting : (step.status = .pending && step.dispatchAfter.isNone) = true
  · refine ⟨rows, ⟨unstopped, by simp [fresh], by simp [idle.status], by simp [unattempted], ?_⟩,
      ?_⟩
    · rw [if_pos waiting]
      rfl
    · refine resetting.extend listed new id (map_id _).symm (fun _ => rfl) (fun _ _ => rfl) ?_
        rfl rfl
      simpa using waiting
  · let selects (row : ExecutionStep) : Bool := row.stepId = step.stepId &&
      row.version = step.version && row.isActive && resettable row.status
    have own : selects step = true := by simp [selects, active, idle.status]
    have only (row : ExecutionStep) (hit : selects row = true) : row.stepId = step.stepId := by
      simp only [selects, Bool.and_eq_true, decide_eq_true_eq] at hit
      exact hit.1.1.1
    have affected : rowsAffected selects rows.detail.steps = 1 :=
      rowsAffected_eq_one rows.detail.distinctSteps (resetting.untouched listed new) own only
    refine ⟨⟨rows.detail.updateSteps selects (resetRow time) fun _ => rfl, rows.stoppedStepIds⟩,
      ⟨unstopped, by simp [fresh], by simp [idle.status], by simp [unattempted], ?_⟩, ?_⟩
    · rw [if_neg waiting, guard_eq_ok]
      exact ⟨by simpa [selects] using affected, rfl⟩
    · refine resetting.extend listed new
        (fun row => if selects row then resetRow time row else row) rfl ?_ ?_ ?_ rfl rfl
      · intro row
        split <;> rfl
      · intro row different
        rw [if_neg fun hit => different (only row hit)]
      · rw [if_pos own]
        exact ⟨rfl, rfl⟩

/-- A step that was reset had the version that the scheduler read. -/
theorem resetStep_ok {id : String} (ok : resetStep read.detail reset time rows id = .ok rows') :
    ∃ step, read.detail.activeStep id = some step ∧
      expectedVersion reset id = some step.version := by
  simp only [resetStep, dbConflict, changedConcurrently, guard_eq_ok] at ok
  obtain ⟨-, ok⟩ := ok
  split at ok
  next => cases ok
  next step found =>
    simp only [guard_eq_ok, not_not] at ok
    exact ⟨step, found, ok.1⟩

theorem resetSteps_ok {ids : List String}
    (ok : ids.foldlM (resetStep read.detail reset time) rows = .ok rows') :
    ∀ id ∈ ids, ∃ step, read.detail.activeStep id = some step ∧
      expectedVersion reset id = some step.version := by
  refine foldlM_history (fun seen _ => ∀ id ∈ seen, ∃ step, read.detail.activeStep id = some step ∧
      expectedVersion reset id = some step.version) (fun seen rows id next before stepped => ?_)
    (by simp) ok
  rw [forall_mem_append, forall_mem_singleton]
  exact ⟨before, resetStep_ok stepped⟩

end

/-! ### The guarantee -/

variable {body : String}

theorem Snapshot.body_inside (snapshot : Snapshot detail controller body reset) :
    InClosure detail controller body body := by
  refine ⟨.refl, ?_⟩
  obtain ⟨dependency, listed, same⟩ := mem_map.mp snapshot.direct
  have proper := detail.proper dependency (mem_of_mem_filter listed)
  rintro rfl
  exact proper ((Prod.mk.inj same).1.trans (Prod.mk.inj same).2.symm)

/-- What a reset that was applied has checked, and the loop it has run. -/
theorem applyLoopRepeatReset_inv
    (ok : applyLoopRepeatReset fetch rows controller reset time = .ok rows') :
    ∃ closure, resetClosure fetch rows.detail controller reset.bodyStepId = some closure ∧
      (reset.expectedSteps.map (·.stepId)).Nodup ∧
      (∀ id ∈ reset.expectedSteps.map (·.stepId), id ∈ closure) ∧
      (closure.insertionSort (· ≤ ·)).foldlM (resetStep rows.detail reset time) rows =
        .ok rows' := by
  obtain ⟨closure, searched, -, -⟩ :=
    resetClosure_spec fetch rows.detail controller reset.bodyStepId
  simp only [applyLoopRepeatReset, dbConflict, changedConcurrently, guard_eq_ok, searched,
    not_or, not_not] at ok
  obtain ⟨-, -, -, -, ⟨distinct, covered, -⟩, done⟩ := ok
  exact ⟨closure, searched, distinct, covered, done⟩

theorem applyLoopRepeatReset_ok
    (ok : applyLoopRepeatReset fetch rows controller reset time = .ok rows') :
    ∀ id ∈ reset.expectedSteps.map (·.stepId), ∃ step, rows.detail.activeStep id = some step ∧
      expectedVersion reset id = some step.version := by
  obtain ⟨closure, -, -, covered, done⟩ := applyLoopRepeatReset_inv ok
  refine fun id member => resetSteps_ok done id ?_
  rw [mem_insertionSort]
  exact covered id member

theorem Snapshot.applies (snapshot : Snapshot detail controller body reset)
    (loop : (detail.activeStep controller).map (·.kind) = some .loop) (stopped : List String)
    (idle : ∀ step ∈ detail.activeSteps, InClosure detail controller body step.stepId →
      Idle ⟨detail, stopped⟩ step) (fetch : FetchOrder) (time : Int) :
    ∃ after closure, applyLoopRepeatReset fetch ⟨detail, stopped⟩ controller reset time =
      .ok after ∧ (∀ id, id ∈ closure ↔ InClosure detail controller body id) ∧
      Resetting ⟨detail, stopped⟩ closure after := by
  obtain ⟨closure, searched, distinct, members⟩ :=
    resetClosure_spec fetch detail controller body
  have sorted := perm_insertionSort (fun a b : String => a ≤ b) closure
  obtain ⟨after, done, resetting⟩ : ∃ after, (closure.insertionSort (· ≤ ·)).foldlM
      (resetStep detail reset time) ⟨detail, stopped⟩ = .ok after ∧
        Resetting ⟨detail, stopped⟩ (closure.insertionSort (· ≤ ·)) after := by
    refine foldlM_succeeds (Resetting ⟨detail, stopped⟩)
      (fun seen rows id rest split resetting => ?_) (.refl _)
    have inside : InClosure detail controller body id := by
      rw [← members, ← sorted.mem_iff, split]
      exact mem_append_right seen mem_cons_self
    obtain ⟨step, found, fresh⟩ := snapshot.versions id inside
    obtain ⟨member, rfl⟩ := AgentExecutionDetail.activeStep_eq_some.mp found
    refine resetStep_succeeds resetting found fresh (idle step member inside) fun again => ?_
    have nodup := sorted.nodup_iff.mpr distinct
    rw [split] at nodup
    exact disjoint_of_nodup_append nodup again mem_cons_self
  refine ⟨after, closure.insertionSort (· ≤ ·), ?_, fun id => ?_, resetting⟩
  · have bodyInside := snapshot.body_inside
    obtain ⟨origin, present, direct, distinctExpected, covers, -⟩ := snapshot
    simp only [applyLoopRepeatReset, dbConflict, changedConcurrently, guard_eq_ok, origin, searched]
    refine ⟨?_, ?_, ?_, ?_, ?_, done⟩
    · obtain ⟨step, found⟩ := isSome_iff_exists.mp present
      obtain ⟨member, rfl⟩ := AgentExecutionDetail.activeStep_eq_some.mp found
      have named := detail.named step (mem_of_mem_filter member)
      obtain ⟨entry, listed, -⟩ := mem_map.mp ((covers step.stepId).mpr bodyInside)
      simp [named, ne_nil_of_mem listed]
    · simp [loop]
    · simp [direct]
    · simp [isSome_iff_ne_none.mp present]
    · rw [not_or, not_not, not_not]
      refine ⟨distinctExpected, fun id member => ?_, fun id member => ?_⟩
      · rwa [members, ← covers]
      · rwa [covers, ← members]
  · rw [sorted.mem_iff, members]

/-- On the state that the scheduler read, the reset of a loop succeeds if the steps downstream of
its body are idle; exactly those become pending and due at once. On a state in which one of them has
another version the reset fails, and nothing changes. -/
theorem loop_repeat_resets_the_closure (detail : AgentExecutionDetail) (controller body : String)
    (loop : (detail.activeStep controller).map (·.kind) = some .loop)
    (reset : LoopRepeatResetParams)
    (built : buildLoopRepeatReset detail controller body = .ok reset) :
    (∀ stopped, (∀ step ∈ detail.activeSteps, InClosure detail controller body step.stepId →
        Idle ⟨detail, stopped⟩ step) → ∀ fetch time, ∃ after,
      applyLoopRepeatReset fetch ⟨detail, stopped⟩ controller reset time = .ok after ∧
      List.Forall₂ (fun before now => now.stepId = before.stepId ∧
        (InClosure detail controller body before.stepId →
          now.status = .pending ∧ now.dispatchAfter = none) ∧
        (¬ InClosure detail controller body before.stepId → now = before))
        detail.steps after.detail.steps) ∧
    (∀ (rows : ExecutionRows) (id : String), InClosure detail controller body id →
      (rows.detail.activeStep id).map (·.version) ≠ (detail.activeStep id).map (·.version) →
      ∀ fetch time, (∃ fault, applyLoopRepeatReset fetch rows controller reset time =
        .error fault) ∧
        transact rows (applyLoopRepeatReset fetch · controller reset time) = rows) := by
  have snapshot := buildLoopRepeatReset_ok built
  refine ⟨fun stopped idle fetch time => ?_, fun rows id inside changed fetch time => ?_⟩
  · obtain ⟨after, closure, applied, members, ⟨now, steps, each⟩, -, -⟩ :=
      snapshot.applies loop stopped idle fetch time
    refine ⟨after, applied, ?_⟩
    rw [steps, forall₂_map_right_iff]
    refine forall₂_same.mpr fun step listed => ?_
    rw [← members]
    exact each step listed
  · cases applied : applyLoopRepeatReset fetch rows controller reset time with
    | error fault => exact ⟨⟨fault, rfl⟩, by rw [transact, applied]⟩
    | ok after =>
      obtain ⟨step, found, fresh⟩ := applyLoopRepeatReset_ok applied id
        ((snapshot.covers id).mpr inside)
      obtain ⟨read, known, version⟩ := snapshot.versions id inside
      refine absurd ?_ changed
      rw [fresh] at version
      simp [found, known, version]

/-- A loop whose body has completed. -/
def completedDetail : AgentExecutionDetail :=
  loopDetail.updateSteps (·.stepId = "body") (withStatus .completed 1) fun _ => rfl

def byInsertion : FetchOrder := ⟨id, List.Perm.refl⟩

theorem completed_body_is_reset :
    ∃ after, applyLoopRepeatReset byInsertion ⟨completedDetail, []⟩ "loop" ⟨"body", [⟨"body", 2⟩]⟩
      5 = .ok after ∧ List.Forall₂ (fun before now => now.stepId = before.stepId ∧
        (InClosure completedDetail "loop" "body" before.stepId →
          now.status = .pending ∧ now.dispatchAfter = none) ∧
        (¬ InClosure completedDetail "loop" "body" before.stepId → now = before))
        completedDetail.steps after.detail.steps := by
  have idle : ∀ step ∈ completedDetail.activeSteps, resettable step.status = true ∧
      completedDetail.hasActiveAttempt step.stepId = false ∧ step.stepId ∉ ([] : List String) := by
    decide
  refine (loop_repeat_resets_the_closure completedDetail "loop" "body" rfl
    ⟨"body", [⟨"body", 2⟩]⟩ rfl).1 [] (fun step member _ => ?_) byInsertion 5
  obtain ⟨status, unattempted, unstopped⟩ := idle step member
  exact ⟨status, unattempted, unstopped⟩

end Nomifun.Guarantees.LoopRepeats
