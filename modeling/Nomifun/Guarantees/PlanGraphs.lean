import Nomifun.Source.AgentExecution.Plans

/-!
# The graph of a plan

The materializer checks a plan by its indices, the repository by the ids of its steps, each with
its own tables. Both accept a graph exactly if its edges join two different nodes of it, none is
repeated and no node waits for itself; so the two agree, and the repository accepts every plan
that is materialized.
-/
namespace Nomifun.Guarantees.PlanGraphs
open Library Library.Digraph Library.Kahn Source.AgentExecution Relation List

variable {steps : List PlannedExecutionStep} {stepIds : List String} {newStepId : Nat → String}
  {entries : List (PlannedExecutionStep × Nat)} {entry : PlannedExecutionStep × Nat} {count : Nat}
  {tables : Adjacency Nat}

/-! ### The two checks -/

section

variable {dependencies : List NewAgentExecutionStepDependency}

/-- The edges of one step, from the steps it depends on. -/
def stepEdges (entry : PlannedExecutionStep × Nat) : List (Nat × Nat) :=
  entry.1.dependsOn.map fun blocker => (blocker, entry.2)

def planEdges (steps : List PlannedExecutionStep) : List (Nat × Nat) :=
  steps.zipIdx.flatMap stepEdges

def idEdges (dependencies : List NewAgentExecutionStepDependency) : List (String × String) :=
  dependencies.map fun dependency => (dependency.blockerStepId, dependency.blockedStepId)

/-- The indices of one step: in range, not its own, none repeated. -/
def ValidIndices (count : Nat) (entry : PlannedExecutionStep × Nat) : Prop :=
  (∀ blocker ∈ entry.1.dependsOn, blocker < count ∧ blocker ≠ entry.2) ∧ entry.1.dependsOn.Nodup

theorem linkDependency_ok (seen : List Nat) (tables : Adjacency Nat) (blocker : Nat)
    (state : List Nat × Adjacency Nat) :
    linkDependency count blocked (seen, tables) blocker = .ok state ↔
      (blocker < count ∧ blocker ≠ blocked) ∧ blocker ∉ seen ∧
        (seen ++ [blocker], tables.link blocker blocked) = state := by
  simp [linkDependency, badRequest, last_guard_eq_ok]

theorem linkStep_ok {after : Adjacency Nat} :
    linkStep count tables entry = .ok after ↔
      ValidIndices count entry ∧ tables.linkAll (stepEdges entry) = after := by
  simp only [linkStep, bind_eq_ok, foldlM_link linkDependency_ok nodup_nil, nil_append, map_id',
    stepEdges]
  constructor
  · rintro ⟨_, ⟨valid, unique, rfl⟩, done⟩
    exact ⟨⟨valid, unique⟩, Except.ok.inj done⟩
  · rintro ⟨⟨valid, unique⟩, rfl⟩
    exact ⟨_, ⟨valid, unique, rfl⟩, rfl⟩

theorem linkSteps_ok {after : Adjacency Nat} :
    entries.foldlM (linkStep count) tables = .ok after ↔
      (∀ entry ∈ entries, ValidIndices count entry) ∧
        tables.linkAll (entries.flatMap stepEdges) = after := by
  induction entries generalizing tables with
  | nil => simp [Adjacency.linkAll, pure, Except.pure]
  | cons entry entries ih =>
    have joined : (tables.linkAll (stepEdges entry)).linkAll (entries.flatMap stepEdges) =
        tables.linkAll ((entry :: entries).flatMap stepEdges) := by
      simp [Adjacency.linkAll]
    rw [foldlM_cons, bind_eq_ok, forall_mem_cons]
    simp only [linkStep_ok, ih]
    constructor
    · rintro ⟨_, ⟨valid, rfl⟩, others, done⟩
      exact ⟨⟨valid, others⟩, joined ▸ done⟩
    · rintro ⟨⟨valid, others⟩, done⟩
      exact ⟨_, ⟨valid, rfl⟩, others, joined ▸ done⟩

theorem proper_planEdges : (∀ edge ∈ planEdges steps,
    edge.1 ≠ edge.2 ∧ edge.1 ∈ range steps.length ∧ edge.2 ∈ range steps.length) ↔
    ∀ entry ∈ steps.zipIdx, ∀ blocker ∈ entry.1.dependsOn,
      blocker < steps.length ∧ blocker ≠ entry.2 := by
  constructor
  · intro proper entry member blocker dependency
    have listed : (blocker, entry.2) ∈ planEdges steps :=
      mem_flatMap.mpr ⟨entry, member, mem_map.mpr ⟨blocker, dependency, rfl⟩⟩
    obtain ⟨different, inRange, -⟩ := proper _ listed
    exact ⟨mem_range.mp inRange, different⟩
  · intro valid edge listed
    obtain ⟨entry, member, stepEdge⟩ := mem_flatMap.mp listed
    obtain ⟨blocker, dependency, rfl⟩ := mem_map.mp stepEdge
    obtain ⟨inRange, different⟩ := valid entry member blocker dependency
    refine ⟨different, mem_range.mpr inRange, ?_⟩
    simpa using snd_lt_of_mem_zipIdx member

theorem planEdges_within (valid : ∀ entry ∈ steps.zipIdx, ValidIndices steps.length entry)
    (a b : Nat) (edge : Edge (planEdges steps) a b) :
    a ∈ range steps.length ∧ b ∈ range steps.length :=
  (proper_planEdges.mpr (fun entry member => (valid entry member).1) (a, b) edge).2

/-- What the materializer accepts. -/
theorem validateDag_ok : validateDag steps = .ok () ↔
    (∀ entry ∈ steps.zipIdx, ValidIndices steps.length entry) ∧ Acyclic (planEdges steps) := by
  simp only [validateDag, bind_eq_ok, linkSteps_ok, and_assoc, exists_and_left, exists_eq_left']
  refine and_congr_right fun valid => ?_
  obtain ⟨count, released, verdict⟩ := countReleased_spec nodup_range (planEdges_within valid)
  rw [length_range] at verdict
  rw [planEdges] at released
  simp only [released, badRequest, last_guard_eq_ok, not_not, verdict]
  exact and_iff_left rfl

theorem linkEdge_ok (seen : List (String × String)) (tables : Adjacency String)
    (dependency : NewAgentExecutionStepDependency)
    (state : List (String × String) × Adjacency String) :
    linkEdge stepIds (seen, tables) dependency = .ok state ↔
      (dependency.blockerStepId ≠ dependency.blockedStepId ∧
        dependency.blockerStepId ∈ stepIds ∧ dependency.blockedStepId ∈ stepIds) ∧
      (dependency.blockerStepId, dependency.blockedStepId) ∉ seen ∧
        (seen ++ [(dependency.blockerStepId, dependency.blockedStepId)],
          tables.link dependency.blockerStepId dependency.blockedStepId) = state := by
  simp only [linkEdge, dbConflict, last_guard_eq_ok, Except.ok.injEq, Bool.or_eq_true,
    decide_eq_true_eq, not_or, not_not, and_assoc]

/-- What the repository accepts: proper edges between the steps, none twice, and no cycle. -/
theorem validateDependencyGraph_ok (distinct : stepIds.Nodup) :
    validateDependencyGraph stepIds dependencies = .ok () ↔
      (∀ edge ∈ idEdges dependencies, edge.1 ≠ edge.2 ∧ edge.1 ∈ stepIds ∧ edge.2 ∈ stepIds) ∧
      (idEdges dependencies).Nodup ∧ Acyclic (idEdges dependencies) := by
  simp only [validateDependencyGraph, bind_eq_ok, foldlM_link linkEdge_ok nodup_nil,
    idEdges, forall_mem_map, and_assoc, exists_and_left, exists_eq_left']
  refine and_congr_right fun proper => and_congr_right fun _ => ?_
  have within (a b : String) (edge : Edge (idEdges dependencies) a b) :
      a ∈ stepIds ∧ b ∈ stepIds := by
    obtain ⟨dependency, member, same⟩ := mem_map.mp edge
    cases same
    exact (proper dependency member).2
  obtain ⟨count, released, verdict⟩ := countReleased_spec distinct within
  rw [idEdges] at released
  simp only [released, dbConflict, last_guard_eq_ok, not_not, verdict]
  exact and_iff_left rfl

end

/-! ### The graph under its ids -/

/-- The step `waiting` names `blocker` among its dependencies. -/
def DependsOn (steps : List PlannedExecutionStep) (waiting blocker : Nat) : Prop :=
  ∃ step, steps[waiting]? = some step ∧ blocker ∈ step.dependsOn

/-- The plan's dependencies under its ids. -/
def planDependencies (newStepId : Nat → String) (steps : List PlannedExecutionStep) :
    List NewAgentExecutionStepDependency :=
  steps.zipIdx.flatMap (stepDependencies newStepId)

theorem edge_planEdges : Edge (planEdges steps) a b ↔ DependsOn steps b a := by
  simp only [Edge, planEdges, mem_flatMap, Prod.exists, mem_zipIdx_iff_getElem?,
    stepEdges, mem_map, Prod.mk.injEq]
  constructor
  · rintro ⟨step, index, found, blocker, member, rfl, rfl⟩
    exact ⟨step, found, member⟩
  · rintro ⟨step, found, member⟩
    exact ⟨step, b, found, a, member, rfl, rfl⟩

theorem acyclic_planEdges : Acyclic (planEdges steps) ↔
    ∀ index, ¬ TransGen (DependsOn steps) index index := by
  have swapped : Edge (planEdges steps) = Function.swap (DependsOn steps) := by
    funext a b
    exact propext edge_planEdges
  simp only [Acyclic, swapped, transGen_swap]

/-- Pairs that carry the index of the item they come from repeat only within an item. -/
theorem nodup_indexed {items : List ι} {values : ι → List κ} {name : Nat → ν}
    (injective : Function.Injective name) :
    (items.zipIdx.flatMap fun entry => (values entry.1).map fun k => (k, name entry.2)).Nodup ↔
      ∀ entry ∈ items.zipIdx, (values entry.1).Nodup := by
  have apart : items.zipIdx.Pairwise (Function.onFun List.Disjoint fun entry =>
      (values entry.1).map fun k => (k, name entry.2)) := by
    have indices : (items.zipIdx.map (·.2)).Nodup := by
      rw [zipIdx_map_snd]
      exact nodup_range'
    refine (pairwise_map.mp indices).imp fun {first second} different pair inFirst inSecond => ?_
    obtain ⟨a, -, rfl⟩ := mem_map.mp inFirst
    obtain ⟨b, -, same⟩ := mem_map.mp inSecond
    exact different (injective (congrArg Prod.snd same)).symm
  rw [nodup_flatMap]
  simp only [apart, and_true]
  refine forall₂_congr fun entry _ => ?_
  rw [nodup_map_iff fun a b same => congrArg Prod.fst same]

theorem nodup_planEdges : (planEdges steps).Nodup ↔
    ∀ entry ∈ steps.zipIdx, entry.1.dependsOn.Nodup :=
  nodup_indexed Function.injective_id

theorem idEdges_planDependencies :
    idEdges (planDependencies newStepId steps) =
      (planEdges steps).map (Prod.map newStepId newStepId) := by
  simp [idEdges, planDependencies, planEdges, map_flatMap, stepDependencies, stepEdges,
    Function.comp_def]

/-- The repository's check of the ids agrees with the check of the indices. -/
theorem validateDependencyGraph_named (injective : Function.Injective newStepId)
    (listed : stepIds.Perm ((range steps.length).map newStepId)) :
    validateDependencyGraph stepIds (planDependencies newStepId steps) = .ok () ↔
      validateDag steps = .ok () := by
  have distinct : stepIds.Nodup :=
    listed.nodup_iff.mpr (nodup_range.map injective)
  have member (index : Nat) : newStepId index ∈ stepIds ↔ index ∈ range steps.length := by
    rw [listed.mem_iff, mem_map_of_injective injective]
  rw [validateDependencyGraph_ok distinct, idEdges_planDependencies, forall_mem_map]
  simp only [Prod.map_fst, Prod.map_snd, injective.ne_iff, member]
  rw [proper_planEdges, nodup_map_iff (injective.prodMap injective), nodup_planEdges,
    acyclic_map injective, validateDag_ok, ← and_assoc, ← forall₂_and]
  rfl

/-! ### Materialized plans -/

section

variable {participants : List ExecutionParticipant} {plan after : MaterializedPlan}

theorem materializeStep_ok (ok : materializeStep newStepId participants plan entry = .ok after) :
    validateStep entry.1 = .ok () ∧ (∃ assignment, after.steps =
        plan.steps ++ [newStep (newStepId entry.2) entry.1 assignment]) ∧
      after.dependencies = plan.dependencies ++ stepDependencies newStepId entry := by
  simp only [materializeStep, bind_eq_ok] at ok
  obtain ⟨_, valid, assignment, -, done⟩ := ok
  cases done
  exact ⟨valid, ⟨assignment, rfl⟩, rfl⟩

/-- What the graph needs to know of a step. -/
def heading (step : NewAgentExecutionStep) :
    String × ExecutionStepKind × Option StepControlPolicy :=
  (step.stepId, step.kind, step.controlPolicy)

def plannedHeading (newStepId : Nat → String) (entry : PlannedExecutionStep × Nat) :
    String × ExecutionStepKind × Option StepControlPolicy :=
  (newStepId entry.2, entry.1.kind, entry.1.controlPolicy)

theorem materializeSteps_ok
    (ok : entries.foldlM (materializeStep newStepId participants) plan = .ok after) :
    (∀ entry ∈ entries, validateStep entry.1 = .ok ()) ∧
      after.steps.map heading = plan.steps.map heading ++ entries.map (plannedHeading newStepId) ∧
      after.dependencies = plan.dependencies ++ entries.flatMap (stepDependencies newStepId) := by
  induction entries generalizing plan with
  | nil =>
    cases ok
    simp
  | cons entry entries ih =>
    rw [foldlM_cons, bind_eq_ok] at ok
    obtain ⟨next, stepped, rest⟩ := ok
    obtain ⟨fine, ⟨assignment, steps⟩, linked⟩ := materializeStep_ok stepped
    obtain ⟨valid, headings, dependencies⟩ := ih rest
    refine ⟨forall_mem_cons.mpr ⟨fine, valid⟩, ?_, ?_⟩
    · simp [headings, steps, newStep, heading, plannedHeading]
    · simp [dependencies, linked]

/-- A materialized plan passed its checks, and its steps and dependencies are those planned. -/
abbrev Planned (newStepId : Nat → String) (steps : List PlannedExecutionStep)
    (plan : MaterializedPlan) : Prop :=
  validateDag steps = .ok () ∧ (∀ step ∈ steps, validateStep step = .ok ()) ∧
    plan.steps.map heading = steps.zipIdx.map (plannedHeading newStepId) ∧
    plan.dependencies = planDependencies newStepId steps

theorem materialize_ok (ok : materialize newStepId steps participants = .ok plan) :
    Planned newStepId steps plan := by
  simp only [materialize, badRequest, bind_eq_ok, guard_eq_ok] at ok
  obtain ⟨-, -, _, valid, -, ok⟩ := ok
  obtain ⟨each, headings, dependencies⟩ := materializeSteps_ok ok
  refine ⟨valid, fun step member => ?_, headings, dependencies⟩
  obtain ⟨index, found⟩ := mem_iff_getElem?.mp member
  exact each (step, index) (mem_zipIdx_iff_getElem?.mpr found)

theorem ids_of_headings
    (headings : plan.steps.map heading = steps.zipIdx.map (plannedHeading newStepId)) :
    plan.steps.map (·.stepId) = (List.range steps.length).map newStepId := by
  have indices : steps.zipIdx.map (·.2) = List.range steps.length := by
    rw [zipIdx_map_snd, range_eq_range']
  have ids := congrArg (List.map Prod.fst) headings
  rw [List.map_map, List.map_map] at ids
  rw [← indices, List.map_map]
  exact ids

end

theorem validIndices_iff :
    (∀ entry ∈ steps.zipIdx, ValidIndices steps.length entry) ↔
      ∀ index step, steps[index]? = some step →
        (∀ blocker ∈ step.dependsOn, blocker < steps.length ∧ blocker ≠ index) ∧
          step.dependsOn.Nodup := by
  simp only [Prod.forall, mem_zipIdx_iff_getElem?]
  exact ⟨fun valid index step found => valid step index found,
    fun valid step index found => valid index step found⟩

/-- The materializer accepts a plan exactly if its indices are proper and its dependencies are
acyclic; the repository accepts the graph of its ids in the same cases, whatever the order in
which it meets them, and therefore every materialized plan. -/
theorem plan_graphs_agree (steps : List PlannedExecutionStep) :
    (validateDag steps = .ok () ↔ (∀ index step, steps[index]? = some step →
        (∀ blocker ∈ step.dependsOn, blocker < steps.length ∧ blocker ≠ index) ∧
          step.dependsOn.Nodup) ∧
      ∀ index, ¬ TransGen (DependsOn steps) index index) ∧
    ∀ newStepId : Nat → String, Function.Injective newStepId →
      (∀ stepIds : List String, stepIds.Perm ((List.range steps.length).map newStepId) →
        (validateDependencyGraph stepIds (planDependencies newStepId steps) = .ok () ↔
          validateDag steps = .ok ())) ∧
      ∀ participants plan, materialize newStepId steps participants = .ok plan →
        ∀ stepIds : List String, stepIds.Perm (plan.steps.map (·.stepId)) →
          validateDependencyGraph stepIds plan.dependencies = .ok () := by
  refine ⟨?_, fun newStepId injective => ⟨fun stepIds listed =>
    validateDependencyGraph_named injective listed, fun participants plan ok stepIds listed => ?_⟩⟩
  · rw [validateDag_ok, validIndices_iff, acyclic_planEdges]
  · obtain ⟨valid, -, headings, dependencies⟩ := materialize_ok ok
    rw [ids_of_headings headings] at listed
    rw [dependencies]
    exact (validateDependencyGraph_named injective listed).mpr valid

/-! ### A plan of two steps -/

def stepName (index : Nat) : String := String.ofList (List.replicate (index + 1) 's')

theorem stepName_injective : Function.Injective stepName := by
  intro a b same
  have chars := congrArg (fun name => name.toList.length) same
  simpa [stepName] using chars

def agentStep (title : String) (dependsOn : List Nat) : PlannedExecutionStep where
  title := title
  spec := title
  profile := none
  kind := .agent
  agentMode := none
  dependsOn := dependsOn
  participantIndex := none
  assignmentRationale := none
  role := none
  toolPolicy := .full
  fanoutGroup := none
  controlPolicy := none
  failurePolicy := .failExecution

def someone : ExecutionParticipant := ⟨"participant", none, none, none⟩

theorem two_steps_pass :
    ∃ plan, materialize stepName [agentStep "read" [], agentStep "write" [0]] [someone] = .ok plan ∧
      plan.dependencies = [⟨"s", "ss"⟩] ∧
      validateDependencyGraph ["ss", "s"] plan.dependencies = .ok () := by
  refine ⟨_, rfl, rfl, ?_⟩
  obtain ⟨-, agree⟩ := plan_graphs_agree [agentStep "read" [], agentStep "write" [0]]
  exact (agree stepName stepName_injective).2 [someone] _ rfl ["ss", "s"] (List.Perm.swap _ _ _)

end Nomifun.Guarantees.PlanGraphs
