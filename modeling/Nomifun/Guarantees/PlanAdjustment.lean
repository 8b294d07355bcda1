import Nomifun.Guarantees.PlanGraphs

/-!
# The graph of an adjusted plan

An adjustment keeps some active steps with the edges between them, adds new steps whose edges
among themselves the materializer checks, and joins the two by edges that nothing checks. The
repository accepts the whole graph unless a new step names the same kept step twice; and the
control steps keep the number of dependencies they need unless a kept one loses them or a new
loop waits for a kept step as well.
-/
namespace Nomifun.Guarantees.PlanAdjustment
open Library Library.Digraph Source.AgentExecution Guarantees.PlanGraphs List

variable {adjusted : List AdjustedExecutionNode} {activeIds keep : List String}
  {newStepId : Nat → String} {detail : AgentExecutionDetail} {plan : MaterializedPlan}
  {dependencies : List NewAgentExecutionStepDependency} {declared : List AdjustedDependency}
  {stepIds : List String}

/-! ### Reading the adjusted plan -/

section

variable {adjustment : Adjustment}

section

variable (adjusted : List AdjustedExecutionNode)

def keptIds : List String :=
  adjusted.filterMap fun node =>
    match node with
    | .keep stepId => some stepId
    | .new _ _ => none

def newNodes : List (PlannedExecutionStep × List AdjustedDependency) :=
  adjusted.filterMap fun node =>
    match node with
    | .keep _ => none
    | .new step dependencies => some (step, dependencies)

def plannedSteps : List PlannedExecutionStep :=
  (newNodes adjusted).map fun node => { node.1 with dependsOn := newIndices node.2 }

def declaredLists : List (List AdjustedDependency) :=
  (newNodes adjusted).map (·.2)

end

def readSoFar (seen : List AdjustedExecutionNode) : Adjustment :=
  ⟨keptIds seen, plannedSteps seen, declaredLists seen⟩

theorem readNode_ok (ok : readNode activeIds (readSoFar seen) node = .ok adjustment) :
    adjustment = readSoFar (seen ++ [node]) ∧ ∀ stepId, node = .keep stepId →
      stepId ∈ activeIds ∧ stepId ∉ keptIds seen := by
  cases node with
  | keep stepId =>
    simp only [readNode, badRequest, last_guard_eq_ok, Bool.or_eq_true, decide_eq_true_eq,
      not_or, not_not, Except.ok.injEq] at ok
    obtain ⟨⟨active, new⟩, rfl⟩ := ok
    refine ⟨by simp [readSoFar, keptIds, plannedSteps, declaredLists, newNodes], ?_⟩
    rintro _ ⟨rfl⟩
    exact ⟨active, new⟩
  | new step dependencies =>
    simp only [readNode, badRequest, last_guard_eq_ok, Except.ok.injEq] at ok
    obtain ⟨-, rfl⟩ := ok
    exact ⟨by simp [readSoFar, keptIds, plannedSteps, declaredLists, newNodes], fun _ same =>
      nomatch same⟩

theorem readNodes_ok (ok : adjusted.foldlM (readNode activeIds) (readSoFar []) = .ok adjustment) :
    adjustment = readSoFar adjusted ∧ (keptIds adjusted).Nodup ∧
      ∀ stepId ∈ keptIds adjusted, stepId ∈ activeIds := by
  refine foldlM_history (fun seen state => state = readSoFar seen ∧ (keptIds seen).Nodup ∧
    ∀ stepId ∈ keptIds seen, stepId ∈ activeIds) ?_ ⟨rfl, by simp [keptIds], by simp [keptIds]⟩ ok
  rintro seen _ node next ⟨rfl, distinct, active⟩ stepped
  obtain ⟨rfl, kept⟩ := readNode_ok stepped
  refine ⟨rfl, ?_⟩
  cases node with
  | keep stepId =>
    have grown : keptIds (seen ++ [.keep stepId]) = keptIds seen ++ [stepId] := by simp [keptIds]
    obtain ⟨isActive, new⟩ := kept stepId rfl
    rw [grown, nodup_append_comm, forall_mem_append]
    exact ⟨nodup_cons.mpr ⟨new, distinct⟩, active, by simpa using isActive⟩
  | new step dependencies =>
    have same : keptIds (seen ++ [.new step dependencies]) = keptIds seen := by simp [keptIds]
    rw [same]
    exact ⟨distinct, active⟩

end

/-! ### The edges from kept steps -/

section

variable {steps : List NewAgentExecutionStep} {before after : List NewAgentExecutionStepDependency}

def existingDependencies (newStepId : Nat → String) (entry : List AdjustedDependency × Nat) :
    List NewAgentExecutionStepDependency :=
  (existingIds entry.1).map fun stepId => ⟨stepId, newStepId entry.2⟩

theorem declareExisting_ok
    (ok : declared.foldlM (declareExisting keep blocked) before = .ok after) :
    after = before ++ (existingIds declared).map (⟨·, blocked.stepId⟩) ∧
      ∀ stepId ∈ existingIds declared, stepId ∈ keep := by
  induction declared generalizing before with
  | nil =>
    cases ok
    simp [existingIds]
  | cons dependency declared ih =>
    rw [foldlM_cons, bind_eq_ok] at ok
    obtain ⟨next, stepped, rest⟩ := ok
    obtain ⟨rfl, kept⟩ := ih rest
    cases dependency with
    | new index =>
      cases stepped
      exact ⟨rfl, kept⟩
    | existing stepId =>
      simp only [declareExisting, badRequest, last_guard_eq_ok, not_not, Except.ok.injEq] at stepped
      obtain ⟨member, rfl⟩ := stepped
      have found : existingIds (.existing stepId :: declared) = stepId :: existingIds declared :=
        rfl
      rw [found, forall_mem_cons]
      exact ⟨by simp, member, kept⟩

theorem declareNew_ok {entries : List (List AdjustedDependency × Nat)}
    (named : ∀ index step, steps[index]? = some step → step.stepId = newStepId index)
    (ok : entries.foldlM (declareNew keep steps) before = .ok after) :
    after = before ++ entries.flatMap (existingDependencies newStepId) ∧
      ∀ entry ∈ entries, ∀ stepId ∈ existingIds entry.1, stepId ∈ keep := by
  induction entries generalizing before with
  | nil =>
    cases ok
    simp
  | cons entry entries ih =>
    rw [foldlM_cons, bind_eq_ok] at ok
    obtain ⟨next, stepped, rest⟩ := ok
    obtain ⟨rfl, kept⟩ := ih rest
    simp only [declareNew] at stepped
    cases found : steps[entry.2]? with
    | none => simp [found] at stepped
    | some blocked =>
      simp only [found] at stepped
      obtain ⟨rfl, own⟩ := declareExisting_ok stepped
      rw [named _ _ found]
      exact ⟨by simp [existingDependencies], forall_mem_cons.mpr ⟨own, kept⟩⟩

end

/-! ### The whole adjustment -/

def keptDependencies (detail : AgentExecutionDetail) (keep : List String) :
    List NewAgentExecutionStepDependency :=
  (activeDependencies detail).filter fun dependency =>
    dependency.blockerStepId ∈ keep && dependency.blockedStepId ∈ keep

def crossDependencies (newStepId : Nat → String) (adjusted : List AdjustedExecutionNode) :
    List NewAgentExecutionStepDependency :=
  (declaredLists adjusted).zipIdx.flatMap (existingDependencies newStepId)

/-- What an accepted adjustment returns. -/
structure Adjusts (newStepId : Nat → String) (adjusted : List AdjustedExecutionNode)
    (detail : AgentExecutionDetail) (plan : MaterializedPlan)
    (dependencies : List NewAgentExecutionStepDependency) : Prop where
  distinct : (keptIds adjusted).Nodup
  active : ∀ stepId ∈ keptIds adjusted, stepId ∈ detail.activeSteps.map (·.stepId)
  dag : validateDag (plannedSteps adjusted) = .ok ()
  valid : ∀ step ∈ plannedSteps adjusted, validateStep step = .ok ()
  headings : plan.steps.map heading = (plannedSteps adjusted).zipIdx.map (plannedHeading newStepId)
  kept : ∀ declared ∈ declaredLists adjusted, ∀ stepId ∈ existingIds declared,
    stepId ∈ keptIds adjusted
  edges : dependencies = keptDependencies detail (keptIds adjusted) ++
    planDependencies newStepId (plannedSteps adjusted) ++ crossDependencies newStepId adjusted

theorem materializeNew_ok (ok : materializeNew newStepId steps participants = .ok plan) :
    Planned newStepId steps plan := by
  unfold materializeNew at ok
  split at ok
  next empty =>
    obtain rfl := isEmpty_iff.mp empty
    cases ok
    exact ⟨rfl, by simp, rfl, rfl⟩
  next => exact materialize_ok ok

theorem materializeAdjustment_ok
    (ok : materializeAdjustment newStepId adjusted detail = .ok (keep, plan, dependencies)) :
    keep = keptIds adjusted ∧ Adjusts newStepId adjusted detail plan dependencies := by
  simp only [materializeAdjustment, badRequest, bind_eq_ok, guard_eq_ok] at ok
  obtain ⟨adjustment, read, -, materialized, planned, final, declared, done⟩ := ok
  obtain ⟨rfl, distinct, active⟩ := readNodes_ok read
  obtain ⟨rfl, rfl, rfl⟩ : keptIds adjusted = keep ∧ materialized = plan ∧
      final = dependencies := by
    simpa [readSoFar] using Except.ok.inj done
  obtain ⟨dag, valid, headings, linked⟩ := materializeNew_ok planned
  have named (index : Nat) (step : NewAgentExecutionStep)
      (found : materialized.steps[index]? = some step) : step.stepId = newStepId index := by
    have ids := congrArg (·[index]?) (ids_of_headings headings)
    simp only [getElem?_map, found, Option.map_some] at ids
    obtain ⟨other, listed, same⟩ := Option.map_eq_some_iff.mp ids.symm
    obtain ⟨_, rfl⟩ := List.getElem?_eq_some_iff.mp listed
    simpa using same.symm
  obtain ⟨edges, kept⟩ := declareNew_ok named declared
  refine ⟨rfl, distinct, active, dag, valid, headings, fun declared member => ?_, ?_⟩
  · obtain ⟨index, found⟩ := mem_iff_getElem?.mp member
    exact kept (declared, index) (mem_zipIdx_iff_getElem?.mpr found)
  · rw [edges, linked]
    rfl

/-! ### The repository's verdict -/

section

variable {edge : String × String}

/-- The ids drawn are new to the execution. -/
def FreshIds (newStepId : Nat → String) (detail : AgentExecutionDetail) : Prop :=
  Function.Injective newStepId ∧ ∀ index, newStepId index ∉ detail.steps.map (·.stepId)

theorem FreshIds.not_active (fresh : FreshIds newStepId detail) (index : Nat) :
    newStepId index ∉ detail.activeSteps.map (·.stepId) := fun active =>
  fresh.2 index ((filter_sublist.map _).subset active)

theorem idEdges_append (first second : List NewAgentExecutionStepDependency) :
    idEdges (first ++ second) = idEdges first ++ idEdges second := map_append

theorem mem_idEdges_kept (member : edge ∈ idEdges (keptDependencies detail keep)) :
    edge ∈ idEdges (activeDependencies detail) ∧ edge.1 ∈ keep ∧ edge.2 ∈ keep := by
  obtain ⟨dependency, listed, rfl⟩ := mem_map.mp member
  obtain ⟨active, ends⟩ := mem_filter.mp listed
  rw [Bool.and_eq_true, decide_eq_true_eq, decide_eq_true_eq] at ends
  exact ⟨mem_map.mpr ⟨dependency, active, rfl⟩, ends⟩

theorem mem_idEdges_plan (member : edge ∈ idEdges (planDependencies newStepId steps)) :
    ∃ a b, edge = (newStepId a, newStepId b) ∧ (a, b) ∈ planEdges steps := by
  rw [idEdges_planDependencies] at member
  obtain ⟨⟨a, b⟩, listed, rfl⟩ := mem_map.mp member
  exact ⟨a, b, rfl, listed⟩

theorem idEdges_cross : idEdges (crossDependencies newStepId adjusted) =
    (declaredLists adjusted).zipIdx.flatMap fun entry =>
      (existingIds entry.1).map fun stepId => (stepId, newStepId entry.2) := by
  simp [idEdges, crossDependencies, map_flatMap, existingDependencies, Function.comp_def]

theorem mem_idEdges_cross (member : edge ∈ idEdges (crossDependencies newStepId adjusted)) :
    ∃ declared ∈ declaredLists adjusted, ∃ index < (declaredLists adjusted).length,
      edge.1 ∈ existingIds declared ∧ edge.2 = newStepId index := by
  rw [idEdges_cross] at member
  obtain ⟨entry, listed, cross⟩ := mem_flatMap.mp member
  obtain ⟨stepId, declared, rfl⟩ := mem_map.mp cross
  exact ⟨entry.1, fst_mem_of_mem_zipIdx listed, entry.2, by
    simpa using snd_lt_of_mem_zipIdx listed, declared, rfl⟩

theorem length_declaredLists :
    (declaredLists adjusted).length = (plannedSteps adjusted).length := by
  simp [declaredLists, plannedSteps]

/-- The three groups of edges, and how their ends tell them apart. -/
structure Grouped (kept new cross : List (String × String)) (isNew : String → Prop) : Prop where
  keptEnds : ∀ edge ∈ kept, ¬ isNew edge.1 ∧ ¬ isNew edge.2
  newEnds : ∀ edge ∈ new, isNew edge.1 ∧ isNew edge.2
  crossEnds : ∀ edge ∈ cross, ¬ isNew edge.1 ∧ isNew edge.2

theorem Grouped.nodup (grouped : Grouped kept new cross isNew) (keptNodup : kept.Nodup)
    (newNodup : new.Nodup) : (kept ++ new ++ cross).Nodup ↔ cross.Nodup := by
  refine ⟨fun all => (nodup_append.mp all).2.1, fun crossNodup => ?_⟩
  have inner : (kept ++ new).Nodup := by
    refine nodup_append.mpr ⟨keptNodup, newNodup, fun edge old other added same => ?_⟩
    exact (grouped.keptEnds edge old).1 (same ▸ (grouped.newEnds other added).1)
  refine nodup_append.mpr ⟨inner, crossNodup, fun edge before other after same => ?_⟩
  subst same
  obtain ⟨source, target⟩ := grouped.crossEnds edge after
  rcases mem_append.mp before with old | added
  · exact (grouped.keptEnds edge old).2 target
  · exact source (grouped.newEnds edge added).1

theorem Grouped.acyclic (grouped : Grouped kept new cross isNew) (keptAcyclic : Acyclic kept)
    (newAcyclic : Acyclic new) : Acyclic (kept ++ new ++ cross) := by
  refine acyclic_of_layers isNew (fun a b edge above => ?_) (fun a b edge below => ?_)
    (fun a b edge above => ?_) keptAcyclic newAcyclic
  all_goals
    simp only [Edge, mem_append] at edge
    rcases edge with (old | added) | joins
  · exact absurd above (grouped.keptEnds _ old).1
  · exact (grouped.newEnds _ added).2
  · exact (grouped.crossEnds _ joins).2
  · exact old
  · exact absurd (grouped.newEnds _ added).2 below
  · exact absurd (grouped.crossEnds _ joins).2 below
  · exact absurd above (grouped.keptEnds _ old).1
  · exact added
  · exact absurd above (grouped.crossEnds _ joins).1

theorem Adjusts.grouped (adjusts : Adjusts newStepId adjusted detail plan dependencies)
    (fresh : FreshIds newStepId detail) :
    Grouped (idEdges (keptDependencies detail (keptIds adjusted)))
      (idEdges (planDependencies newStepId (plannedSteps adjusted)))
      (idEdges (crossDependencies newStepId adjusted))
        (fun stepId => ∃ i, newStepId i = stepId) := by
  have old (stepId : String) (member : stepId ∈ keptIds adjusted) :
      ¬ ∃ i, newStepId i = stepId := by
    rintro ⟨index, rfl⟩
    exact fresh.not_active index (adjusts.active _ member)
  refine ⟨fun edge member => ?_, fun edge member => ?_, fun edge member => ?_⟩
  · obtain ⟨-, source, target⟩ := mem_idEdges_kept member
    exact ⟨old _ source, old _ target⟩
  · obtain ⟨a, b, rfl, -⟩ := mem_idEdges_plan member
    exact ⟨⟨a, rfl⟩, ⟨b, rfl⟩⟩
  · obtain ⟨declared, listed, index, -, source, target⟩ := mem_idEdges_cross member
    exact ⟨old _ (adjusts.kept declared listed _ source), ⟨index, target.symm⟩⟩

theorem nodup_cross (injective : Function.Injective newStepId) :
    (idEdges (crossDependencies newStepId adjusted)).Nodup ↔
      ∀ declared ∈ declaredLists adjusted, (existingIds declared).Nodup := by
  rw [idEdges_cross, nodup_indexed injective]
  constructor
  · intro each declared member
    obtain ⟨index, found⟩ := mem_iff_getElem?.mp member
    exact each (declared, index) (mem_zipIdx_iff_getElem?.mpr found)
  · exact fun each entry member => each entry.1 (fst_mem_of_mem_zipIdx member)

variable (adjusts : Adjusts newStepId adjusted detail plan dependencies)
  (fresh : FreshIds newStepId detail)
include adjusts fresh

theorem Adjusts.proper (keptProper : ∀ edge ∈ idEdges (activeDependencies detail), edge.1 ≠ edge.2)
    (newProper : ∀ edge ∈ idEdges (planDependencies newStepId (plannedSteps adjusted)),
      edge.1 ≠ edge.2 ∧ edge.1 ∈ plan.steps.map (·.stepId) ∧ edge.2 ∈ plan.steps.map (·.stepId))
    (listed : stepIds.Perm (keptIds adjusted ++ plan.steps.map (·.stepId))) :
    ∀ edge ∈ idEdges dependencies, edge.1 ≠ edge.2 ∧ edge.1 ∈ stepIds ∧ edge.2 ∈ stepIds := by
  simp only [listed.mem_iff, mem_append]
  rw [adjusts.edges, idEdges_append, idEdges_append]
  simp only [forall_mem_append]
  refine ⟨⟨fun edge member => ?_, fun edge member => ?_⟩, fun edge member => ?_⟩
  · obtain ⟨active, source, target⟩ := mem_idEdges_kept member
    exact ⟨keptProper edge active, .inl source, .inl target⟩
  · obtain ⟨different, source, target⟩ := newProper edge member
    exact ⟨different, .inr source, .inr target⟩
  · obtain ⟨declared, declares, index, bound, source, target⟩ := mem_idEdges_cross member
    have kept := adjusts.kept declared declares _ source
    refine ⟨fun same => ?_, .inl kept, .inr ?_⟩
    · rw [same, target] at kept
      exact fresh.not_active index (adjusts.active _ kept)
    · rw [target, ids_of_headings adjusts.headings]
      exact mem_map_of_mem (mem_range.mpr (length_declaredLists ▸ bound))

/-- The repository accepts the adjusted graph exactly if no new step names a kept step twice. -/
theorem Adjusts.verdict (activeListed : activeIds.Perm (detail.activeSteps.map (·.stepId)))
    (accepted : validateDependencyGraph activeIds (activeDependencies detail) = .ok ())
    (listed : stepIds.Perm (keptIds adjusted ++ plan.steps.map (·.stepId))) :
    validateDependencyGraph stepIds dependencies = .ok () ↔
      ∀ declared ∈ declaredLists adjusted, (existingIds declared).Nodup := by
  have newIds := ids_of_headings adjusts.headings
  have activeDistinct : activeIds.Nodup :=
    activeListed.nodup_iff.mpr AgentExecutionDetail.distinct_activeSteps
  obtain ⟨activeProper, activeNodup, activeAcyclic⟩ :=
    (validateDependencyGraph_ok activeDistinct).mp accepted
  have newDistinct : (plan.steps.map (·.stepId)).Nodup := by
    rw [newIds]
    exact nodup_range.map fresh.1
  have newAccepted := (validateDependencyGraph_named fresh.1 (.of_eq newIds)).mpr adjusts.dag
  obtain ⟨newProper, newNodup, newAcyclic⟩ :=
    (validateDependencyGraph_ok newDistinct).mp newAccepted
  have distinct : stepIds.Nodup := by
    rw [listed.nodup_iff, nodup_append]
    refine ⟨adjusts.distinct, newDistinct, fun stepId kept other new same => ?_⟩
    rw [newIds] at new
    obtain ⟨index, -, rfl⟩ := mem_map.mp new
    exact fresh.not_active index (adjusts.active _ (same ▸ kept))
  have keptSublist : (idEdges (keptDependencies detail (keptIds adjusted))).Sublist
      (idEdges (activeDependencies detail)) := filter_sublist.map _
  have grouped := adjusts.grouped fresh
  have proper := adjusts.proper fresh (fun edge member => (activeProper edge member).1) newProper
    listed
  rw [validateDependencyGraph_ok distinct, adjusts.edges, idEdges_append, idEdges_append,
    grouped.nodup (activeNodup.sublist keptSublist) newNodup, nodup_cross fresh.1]
  rw [adjusts.edges, idEdges_append, idEdges_append] at proper
  have acyclic := grouped.acyclic (activeAcyclic.mono keptSublist.subset) newAcyclic
  exact ⟨fun passed => passed.2.1, fun unique => ⟨proper, unique, acyclic⟩⟩

end

/-! ### The arity of control steps -/

section

variable {step : PlannedExecutionStep} {stepId : String}

def incoming (dependencies : List NewAgentExecutionStepDependency) (stepId : String) : Nat :=
  dependencies.countP (·.blockedStepId = stepId)

/-- A loop has one body, a verification and a judgement have something to look at, and a
verification does not ask for more votes than it has. -/
def ArityHolds (kind : ExecutionStepKind) (policy : Option StepControlPolicy)
    (incoming : Nat) : Prop :=
  match kind with
  | .agent => True
  | .loop => incoming = 1
  | .judge => 1 ≤ incoming
  | .verify => 1 ≤ incoming ∧
      ∀ count, policy = some (.verify (.atLeast count)) → 1 ≤ count ∧ count ≤ incoming

/-- The dependencies of a step whose blocker is kept. -/
def keptBlockers (adjusted : List AdjustedExecutionNode) (detail : AgentExecutionDetail)
    (stepId : String) : List NewAgentExecutionStepDependency :=
  (activeDependencies detail).filter fun dependency =>
    dependency.blockedStepId = stepId &&
      AdjustedExecutionNode.keep dependency.blockerStepId ∈ adjusted

/-- A kept control step keeps enough of its dependencies: a loop its body, a verification and a
judgement at least one, and at least as many as the votes that are asked for. -/
def KeepsBlockers (adjusted : List AdjustedExecutionNode) (detail : AgentExecutionDetail)
    (step : ExecutionStep) : Prop :=
  match step.kind with
  | .agent => True
  | .loop => ∀ dependency ∈ activeDependencies detail, dependency.blockedStepId = step.stepId →
      .keep dependency.blockerStepId ∈ adjusted
  | .judge => keptBlockers adjusted detail step.stepId ≠ []
  | .verify => keptBlockers adjusted detail step.stepId ≠ [] ∧
      ∀ count, step.controlPolicy = some (.verify (.atLeast count)) →
        count ≤ (keptBlockers adjusted detail step.stepId).length

theorem mem_keptIds : stepId ∈ keptIds adjusted ↔ .keep stepId ∈ adjusted := by
  refine mem_filterMap.trans ⟨?_, fun member => ⟨_, member, rfl⟩⟩
  rintro ⟨_ | _, member, same⟩ <;> cases same
  exact member

theorem mem_newNodes : (step, declared) ∈ newNodes adjusted ↔ .new step declared ∈ adjusted := by
  refine mem_filterMap.trans ⟨?_, fun member => ⟨_, member, rfl⟩⟩
  rintro ⟨_ | _, member, same⟩ <;> cases same
  exact member

theorem incoming_eq (stepId : String) :
    incoming dependencies stepId = (idEdges dependencies).countP (·.2 = stepId) := by
  rw [incoming, idEdges, countP_map]
  rfl

/-- The pairs that carry the index of one item. -/
theorem countP_indexed (values : ι → List κ) (injective : Function.Injective newStepId)
    (index : Nat) (items : List ι) (first : Nat) :
    ((items.zipIdx first).flatMap fun entry => (values entry.1).map fun k =>
        (k, newStepId entry.2)).countP (·.2 = newStepId (first + index)) =
      (items[index]?.map fun item => (values item).length).getD 0 := by
  induction items generalizing first index with
  | nil => simp
  | cons item items ih =>
    rw [zipIdx_cons, flatMap_cons, countP_append, countP_map]
    cases index with
    | zero =>
      have later : ((items.zipIdx (first + 1)).flatMap fun entry => (values entry.1).map fun k =>
          (k, newStepId entry.2)).countP (·.2 = newStepId (first + 0)) = 0 := by
        rw [countP_eq_zero]
        intro pair member same
        obtain ⟨entry, listed, inner⟩ := mem_flatMap.mp member
        obtain ⟨k, -, rfl⟩ := mem_map.mp inner
        have after := le_snd_of_mem_zipIdx listed
        have equal := injective (by simpa using same)
        omega
      rw [later]
      simp [Function.comp_def]
    | succ index =>
      have shift : first + (index + 1) = first + 1 + index := by omega
      have other : first ≠ first + 1 + index := by omega
      rw [shift, ih]
      simp [Function.comp_def, injective.eq_iff, other]

theorem incoming_append (first second : List NewAgentExecutionStepDependency) (stepId : String) :
    incoming (first ++ second) stepId = incoming first stepId + incoming second stepId :=
  countP_append

theorem incoming_eq_zero (elsewhere : ∀ edge ∈ idEdges dependencies, edge.2 ≠ stepId) :
    incoming dependencies stepId = 0 := by
  rw [incoming_eq, countP_eq_zero]
  exact fun edge member => by simpa using elsewhere edge member

section

variable (adjusts : Adjusts newStepId adjusted detail plan dependencies)
include adjusts

/-- A kept step waits for its kept blockers only. -/
theorem Adjusts.incoming_kept (fresh : FreshIds newStepId detail)
    (member : stepId ∈ keptIds adjusted) :
    incoming dependencies stepId = (keptBlockers adjusted detail stepId).length := by
  have grouped := adjusts.grouped fresh
  have old : ¬ ∃ i, newStepId i = stepId := by
    rintro ⟨index, rfl⟩
    exact fresh.not_active index (adjusts.active _ member)
  have newNone : incoming (planDependencies newStepId (plannedSteps adjusted)) stepId = 0 :=
    incoming_eq_zero fun edge listed same => old (same ▸ (grouped.newEnds edge listed).2)
  have crossNone : incoming (crossDependencies newStepId adjusted) stepId = 0 :=
    incoming_eq_zero fun edge listed same => old (same ▸ (grouped.crossEnds edge listed).2)
  rw [adjusts.edges, incoming_append, incoming_append, newNone, crossNone, incoming,
    keptDependencies, countP_filter, keptBlockers, ← countP_eq_length_filter]
  refine countP_congr fun dependency _ => ?_
  simp only [mem_keptIds, Bool.and_eq_true, decide_eq_true_eq]
  constructor
  · exact fun ⟨same, kept⟩ => ⟨same, kept.1⟩
  · exact fun ⟨same, kept⟩ => ⟨same, kept, mem_keptIds.mp (same ▸ member)⟩

/-- A new step waits for the new and the kept steps that it names. -/
theorem Adjusts.incoming_new (fresh : FreshIds newStepId detail)
    (found : (newNodes adjusted)[index]? = some (step, declared)) :
    incoming dependencies (newStepId index) =
      (newIndices declared).length + (existingIds declared).length := by
  have grouped := adjusts.grouped fresh
  have keptNone : incoming (keptDependencies detail (keptIds adjusted)) (newStepId index) = 0 :=
    incoming_eq_zero fun edge listed same =>
      (grouped.keptEnds edge listed).2 ⟨index, same.symm⟩
  have newCount : incoming (planDependencies newStepId (plannedSteps adjusted))
      (newStepId index) = (newIndices declared).length := by
    have indexed : idEdges (planDependencies newStepId (plannedSteps adjusted)) =
        (plannedSteps adjusted).zipIdx.flatMap fun entry =>
          (entry.1.dependsOn.map newStepId).map fun k => (k, newStepId entry.2) := by
      simp [idEdges, planDependencies, map_flatMap, stepDependencies, Function.comp_def]
    have counted := countP_indexed (fun step : PlannedExecutionStep => step.dependsOn.map newStepId)
      fresh.1 index (plannedSteps adjusted) 0
    rw [incoming_eq, indexed]
    simpa [plannedSteps, found] using counted
  have crossCount : incoming (crossDependencies newStepId adjusted) (newStepId index) =
      (existingIds declared).length := by
    have counted := countP_indexed existingIds fresh.1 index (declaredLists adjusted) 0
    rw [incoming_eq, idEdges_cross]
    simpa [declaredLists, found] using counted
  rw [adjusts.edges, incoming_append, incoming_append, keptNone, newCount, crossCount, Nat.zero_add]

end

theorem validateStep_policy (ok : validateStep step = .ok ()) : policyMatches step = true := by
  simp only [validateStep, badRequest, guard_eq_ok] at ok
  simpa using ok.2.2.2.2.1

/-- A step that was checked against some of its dependencies, and has `more` of them. -/
theorem arity_of_policyMatches (matched : policyMatches step = true) (more : Nat) :
    ArityHolds step.kind step.controlPolicy (step.dependsOn.length + more) ↔
      (step.kind = .loop → more = 0) := by
  unfold policyMatches at matched
  split at matched
  case h_1 kind _ => simp [ArityHolds, kind]
  case h_2 vote kind _ policy =>
    simp only [Bool.and_eq_true, Bool.not_eq_true', isEmpty_eq_false_iff] at matched
    have nonempty := length_pos_of_ne_nil matched.1
    simp only [kind, policy, ArityHolds, reduceCtorEq, false_implies, iff_true]
    refine ⟨by omega, fun count same => ?_⟩
    obtain rfl : vote = .atLeast count := by simpa using same
    simp only [Bool.and_eq_true, decide_eq_true_eq] at matched
    omega
  case h_3 kind _ _ =>
    simp only [Bool.and_eq_true, Bool.not_eq_true', isEmpty_eq_false_iff] at matched
    have nonempty := length_pos_of_ne_nil matched.1
    simp only [kind, ArityHolds, reduceCtorEq, false_implies, iff_true]
    omega
  case h_4 kind _ _ =>
    simp only [Bool.and_eq_true, decide_eq_true_eq] at matched
    simp only [kind, ArityHolds, true_implies]
    omega
  case h_5 => cases matched

/-- A step whose arity was right, and that keeps some of its dependencies. -/
theorem arity_of_keptBlockers {step : ExecutionStep}
    (before : ArityHolds step.kind step.controlPolicy
      (incoming (activeDependencies detail) step.stepId)) :
    ArityHolds step.kind step.controlPolicy (keptBlockers adjusted detail step.stepId).length ↔
      KeepsBlockers adjusted detail step := by
  have nonempty : 1 ≤ (keptBlockers adjusted detail step.stepId).length ↔
      keptBlockers adjusted detail step.stepId ≠ [] := length_pos_iff
  cases kind : step.kind with
  | agent => simp [ArityHolds, KeepsBlockers, kind]
  | judge => simp [ArityHolds, KeepsBlockers, kind, nonempty]
  | verify =>
    simp only [kind, ArityHolds] at before
    simp only [ArityHolds, KeepsBlockers, kind, nonempty]
    refine and_congr_right fun _ => forall₂_congr fun count policy => ?_
    exact and_iff_right (before.2 count policy).1
  | loop =>
    -- the one incoming edge stays exactly if its blocker is kept
    simp only [kind, ArityHolds, incoming, countP_eq_length_filter] at before
    have split : keptBlockers adjusted detail step.stepId =
        ((activeDependencies detail).filter (·.blockedStepId = step.stepId)).filter
          fun dependency => .keep dependency.blockerStepId ∈ adjusted := by
      rw [filter_filter, keptBlockers]
      exact filter_congr fun dependency _ => Bool.and_comm _ _
    simp only [ArityHolds, KeepsBlockers, kind, split, ← countP_eq_length_filter]
    rw [← before, countP_eq_length]
    simp [mem_filter]

end

/-! ### The guarantees -/

/-- From an accepted graph, the graph of an accepted adjustment is accepted by the repository
exactly if no new step names the same kept step twice. -/
theorem adjusted_graph_passes_iff (fresh : FreshIds newStepId detail) {activeIds : List String}
    (activeListed : activeIds.Perm (detail.activeSteps.map (·.stepId)))
    (accepted : validateDependencyGraph activeIds (activeDependencies detail) = .ok ())
    (ok : materializeAdjustment newStepId adjusted detail = .ok (keep, plan, dependencies))
    {stepIds : List String} (listed : stepIds.Perm (keep ++ plan.steps.map (·.stepId))) :
    validateDependencyGraph stepIds dependencies = .ok () ↔
      ∀ step declared, .new step declared ∈ adjusted → (existingIds declared).Nodup := by
  obtain ⟨rfl, adjusts⟩ := materializeAdjustment_ok ok
  rw [adjusts.verdict fresh activeListed accepted listed, declaredLists, forall_mem_map]
  constructor
  · exact fun unique step declared member => unique (step, declared) (mem_newNodes.mpr member)
  · exact fun unique node member => unique node.1 node.2 (mem_newNodes.mp member)

/-- From a graph in which every control step has the dependencies it needs, an accepted adjustment
leaves such a graph exactly if every kept control step keeps them and no new loop waits for a kept
step. -/
theorem adjusted_arity_holds_iff (fresh : FreshIds newStepId detail)
    (before : ∀ step ∈ detail.activeSteps, ArityHolds step.kind step.controlPolicy
      (incoming (activeDependencies detail) step.stepId))
    (ok : materializeAdjustment newStepId adjusted detail = .ok (keep, plan, dependencies)) :
    ((∀ step ∈ detail.activeSteps, step.stepId ∈ keep →
        ArityHolds step.kind step.controlPolicy (incoming dependencies step.stepId)) ∧
      ∀ step ∈ plan.steps,
        ArityHolds step.kind step.controlPolicy (incoming dependencies step.stepId)) ↔
    (∀ step ∈ detail.activeSteps, .keep step.stepId ∈ adjusted →
        KeepsBlockers adjusted detail step) ∧
      ∀ step declared, .new step declared ∈ adjusted → step.kind = .loop →
        existingIds declared = [] := by
  obtain ⟨rfl, adjusts⟩ := materializeAdjustment_ok ok
  refine and_congr (forall₂_congr fun step member => ?_) ?_
  · rw [← mem_keptIds]
    refine forall_congr' fun kept => ?_
    rw [adjusts.incoming_kept fresh kept]
    exact arity_of_keptBlockers (before step member)
  · have arity {index : Nat} {planned : PlannedExecutionStep} {declared : List AdjustedDependency}
        (found : (newNodes adjusted)[index]? = some (planned, declared)) :
        ArityHolds planned.kind planned.controlPolicy (incoming dependencies (newStepId index)) ↔
          (planned.kind = .loop → existingIds declared = []) := by
      have member : { planned with dependsOn := newIndices declared } ∈ plannedSteps adjusted :=
        mem_map.mpr ⟨_, mem_of_getElem? found, rfl⟩
      rw [adjusts.incoming_new fresh found, ← length_eq_zero_iff]
      exact arity_of_policyMatches (validateStep_policy (adjusts.valid _ member)) _
    refine (@forall_mem_map _ _ heading plan.steps fun entry =>
      ArityHolds entry.2.1 entry.2.2 (incoming dependencies entry.1)).symm.trans ?_
    simp only [adjusts.headings, plannedSteps, zipIdx_map, forall_mem_map, ← mem_newNodes]
    constructor
    · intro holds planned declared member
      obtain ⟨index, found⟩ := mem_iff_getElem?.mp member
      exact (arity found).mp (holds (_, index) (mem_zipIdx_iff_getElem?.mpr found))
    · rintro loops ⟨⟨planned, declared⟩, index⟩ member
      have found := mem_zipIdx_iff_getElem?.mp member
      exact (arity found).mpr (loops planned declared (mem_of_getElem? found))

/-! ### A loop and its body -/

def activeStepOf (stepId : String) (kind : ExecutionStepKind)
    (policy : Option StepControlPolicy) : ExecutionStep where
  stepId := stepId
  kind := kind
  status := .pending
  controlPolicy := policy
  assignedParticipantId := none
  dispatchAfter := none
  supersededInRevision := none
  version := 1
  createdAt := 0
  updatedAt := 0

def bodyStep : ExecutionStep := activeStepOf "body" .agent none

def loopStep : ExecutionStep := activeStepOf "loop" .loop (some (.loop 3 .maxIterations))

def loopDetail : AgentExecutionDetail where
  execution := ⟨4, 1, by decide⟩
  participants := [someone]
  steps := [bodyStep, loopStep]
  dependencies := [⟨"body", "loop", none⟩]
  attempts := []
  distinctParticipants := by decide
  distinctSteps := by decide
  named := by decide
  proper := by decide

theorem loopDetail_activeSteps : loopDetail.activeSteps = [bodyStep, loopStep] := rfl

theorem loopDetail_fresh : FreshIds stepName loopDetail := by
  refine ⟨stepName_injective, fun index member => ?_⟩
  have names : loopDetail.steps.map (·.stepId) = ["body", "loop"] := rfl
  simp only [names, mem_cons, not_mem_nil, or_false] at member
  rcases member with same | same
  all_goals
    have chars := congrArg String.toList same
    simp [stepName, replicate_succ] at chars

/-- A report that names the body twice. -/
def repeatedDependency : List AdjustedExecutionNode :=
  [.keep "body", .keep "loop", .new (agentStep "report" []) [.existing "body", .existing "body"]]

/-- The engine accepts the report, the repository refuses its graph. -/
theorem repeatedDependency_is_refused : FreshIds stepName loopDetail ∧
    validateDependencyGraph ["body", "loop"] (activeDependencies loopDetail) = .ok () ∧
    ∃ plan dependencies, materializeAdjustment stepName repeatedDependency loopDetail =
        .ok (["body", "loop"], plan, dependencies) ∧
      plan.steps.map (·.stepId) = ["s"] ∧
      dependencies = [⟨"body", "loop"⟩, ⟨"body", "s"⟩, ⟨"body", "s"⟩] ∧
      validateDependencyGraph ["body", "loop", "s"] dependencies =
        dbConflict "execution plan contains a duplicate dependency" := by
  exact ⟨loopDetail_fresh, by decide, _, _, rfl, rfl, rfl, by decide⟩

/-- A report that names the body once. -/
def report : List AdjustedExecutionNode :=
  [.keep "body", .keep "loop", .new (agentStep "report" []) [.existing "body"]]

theorem report_adjusts : ∃ keep plan dependencies,
    materializeAdjustment stepName report loopDetail = .ok (keep, plan, dependencies) := by
  have returned : (materializeAdjustment stepName report loopDetail).toOption.isSome = true := by
    decide
  obtain ⟨⟨keep, plan, dependencies⟩, ok⟩ := Option.isSome_iff_exists.mp returned
  exact ⟨keep, plan, dependencies, toOption_eq_some.mp ok⟩

theorem report_passes : ∃ keep plan dependencies,
    materializeAdjustment stepName report loopDetail = .ok (keep, plan, dependencies) ∧
      validateDependencyGraph (keep ++ plan.steps.map (·.stepId)) dependencies = .ok () := by
  obtain ⟨keep, plan, dependencies, ok⟩ := report_adjusts
  refine ⟨keep, plan, dependencies, ok, ?_⟩
  rw [adjusted_graph_passes_iff loopDetail_fresh (.refl _) (by decide) ok (.refl _)]
  simp [report, existingIds]

theorem loopDetail_arity : ∀ step ∈ loopDetail.activeSteps, ArityHolds step.kind
    step.controlPolicy (incoming (activeDependencies loopDetail) step.stepId) := by
  rw [loopDetail_activeSteps, forall_mem_cons, forall_mem_singleton]
  exact ⟨trivial, rfl⟩

/-- The adjustment keeps the loop and drops its body. -/
theorem loop_without_body : FreshIds stepName loopDetail ∧
    (∀ step ∈ loopDetail.activeSteps, ArityHolds step.kind step.controlPolicy
      (incoming (activeDependencies loopDetail) step.stepId)) ∧
    ∃ plan dependencies, materializeAdjustment stepName [.keep "loop"] loopDetail =
        .ok (["loop"], plan, dependencies) ∧
      ¬ ∀ step ∈ loopDetail.activeSteps, step.stepId ∈ ["loop"] →
        ArityHolds step.kind step.controlPolicy (incoming dependencies step.stepId) := by
  refine ⟨loopDetail_fresh, loopDetail_arity, _, _, rfl, fun holds => ?_⟩
  have broken : 0 = 1 := holds loopStep (by decide) (by decide)
  exact absurd broken Nat.zero_ne_one

theorem report_keeps_arity : ∃ keep plan dependencies,
    materializeAdjustment stepName report loopDetail = .ok (keep, plan, dependencies) ∧
      ∀ step ∈ plan.steps,
        ArityHolds step.kind step.controlPolicy (incoming dependencies step.stepId) := by
  obtain ⟨keep, plan, dependencies, ok⟩ := report_adjusts
  refine ⟨keep, plan, dependencies, ok, ?_⟩
  refine ((adjusted_arity_holds_iff loopDetail_fresh loopDetail_arity ok).mpr ⟨?_, ?_⟩).2
  · rw [loopDetail_activeSteps, forall_mem_cons, forall_mem_singleton]
    refine ⟨fun _ => trivial, fun _ dependency member _ => ?_⟩
    obtain rfl := mem_singleton.mp member
    decide
  · simp [report, agentStep]

end Nomifun.Guarantees.PlanAdjustment
