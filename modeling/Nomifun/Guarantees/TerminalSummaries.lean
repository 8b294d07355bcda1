import Nomifun.Source.AgentExecution.Outputs

/-!
# The summary of a finished execution

scheduler.rs:3741-3822. The search for ancestors ends on every list of edges, and with several
business steps nothing but a synthesis behind all of them speaks for the execution.
-/
namespace Nomifun.Guarantees.TerminalSummaries
open Relation Source.AgentExecution List

/-- One edge from a blocked step to its blocker. -/
def DependsOn (edges : List (String × String)) (blocked blocker : String) : Prop :=
  (blocker, blocked) ∈ edges

section

variable {edges : List (String × String)} {ancestors frontier : List String} {sink blocked : String}

/-- The inner loop puts the same new blockers on both lists. -/
theorem absorb_spec (distinct : ancestors.Nodup) :
    ∃ new, edges.foldl (absorb blocked) (ancestors, frontier) =
      (new ++ ancestors, new ++ frontier) ∧ (new ++ ancestors).Nodup ∧
      ∀ id, id ∈ new ++ ancestors ↔ id ∈ ancestors ∨ DependsOn edges blocked id := by
  induction edges generalizing ancestors frontier with
  | nil => exact ⟨[], rfl, distinct, by simp [DependsOn]⟩
  | cons edge edges ih =>
    rw [foldl_cons, absorb]
    split
    next fresh =>
      simp only [Bool.and_eq_true, decide_eq_true_eq] at fresh
      obtain ⟨new, found, nodup, members⟩ := @ih (edge.1 :: ancestors) (edge.1 :: frontier)
        (nodup_cons.mpr ⟨fresh.2, distinct⟩)
      refine ⟨new ++ [edge.1], by simpa using found, by simpa using nodup, fun id => ?_⟩
      rw [append_assoc, singleton_append, members]
      obtain ⟨blocker, other⟩ := edge
      obtain rfl : other = blocked := fresh.1
      simp [DependsOn, or_assoc, or_left_comm]
    next stale =>
      obtain ⟨new, found, nodup, members⟩ := @ih ancestors frontier distinct
      refine ⟨new, found, nodup, fun id => ?_⟩
      rw [members]
      obtain ⟨blocker, other⟩ := edge
      simp only [DependsOn, mem_cons, Prod.mk.injEq]
      grind

/-- The invariant of the search. -/
structure Climbing (edges : List (String × String)) (sink : String)
    (ancestors frontier : List String) : Prop where
  distinct : ancestors.Nodup
  reached : ∀ id ∈ ancestors, TransGen (DependsOn edges) sink id
  within : ∀ id ∈ frontier, id = sink ∨ id ∈ ancestors
  closed : ∀ id, id = sink ∨ id ∈ ancestors →
    id ∈ frontier ∨ ∀ blocker, DependsOn edges id blocker → blocker ∈ ancestors

theorem Climbing.step (climbing : Climbing edges sink ancestors (blocked :: frontier)) :
    ∃ new, edges.foldl (absorb blocked) (ancestors, frontier) =
      (new ++ ancestors, new ++ frontier) ∧
      Climbing edges sink (new ++ ancestors) (new ++ frontier) := by
  obtain ⟨distinct, reached, within, closed⟩ := climbing
  obtain ⟨new, found, nodup, members⟩ := @absorb_spec edges ancestors frontier blocked distinct
  refine ⟨new, found, nodup, fun id member => ?_, fun id member => ?_, fun id known => ?_⟩
  · rcases (members id).mp member with old | edge
    · exact reached id old
    · rcases within blocked mem_cons_self with rfl | old
      · exact .single edge
      · exact (reached blocked old).tail edge
  · rcases mem_append.mp member with fresh | old
    · exact .inr (mem_append_left _ fresh)
    · exact (within id (mem_cons_of_mem _ old)).imp_right (mem_append_right _)
  · have old : id = sink ∨ id ∈ ancestors → id ∈ new ++ frontier ∨
        ∀ blocker, DependsOn edges id blocker → blocker ∈ new ++ ancestors := fun known => by
      rcases closed id known with waits | covered
      · rcases mem_cons.mp waits with rfl | later
        · exact .inr fun blocker edge => (members blocker).mpr (.inr edge)
        · exact .inl (mem_append_right _ later)
      · exact .inr fun blocker edge => mem_append_right _ (covered blocker edge)
    rcases known with rfl | member
    · exact old (.inl rfl)
    · rcases mem_append.mp member with fresh | member
      · exact .inl (mem_append_left _ fresh)
      · exact old (.inr member)

theorem Climbing.mem_iff (climbing : Climbing edges sink ancestors []) (id : String) :
    id ∈ ancestors ↔ TransGen (DependsOn edges) sink id := by
  have covered : ∀ id, id = sink ∨ id ∈ ancestors → ∀ blocker, DependsOn edges id blocker →
      blocker ∈ ancestors := fun id known => by simpa using climbing.closed id known
  refine ⟨climbing.reached id, fun path => ?_⟩
  induction path with
  | single edge => exact covered sink (.inl rfl) _ edge
  | tail _ edge ih => exact covered _ (.inr ih) _ edge

theorem Climbing.length_le (climbing : Climbing edges sink ancestors frontier) :
    ancestors.length ≤ edges.length := by
  have within : ancestors ⊆ edges.map (·.1) := by
    intro id member
    obtain ⟨blocked, -, edge⟩ := (TransGen.tail'_iff).mp (climbing.reached id member)
    exact mem_map.mpr ⟨_, edge, rfl⟩
  simpa using (climbing.distinct.subperm within).length_le

/-- Each round takes one step off the frontier and lists what it adds as ancestors. -/
theorem climb_spec {fuel : Nat} {state : List String × List String}
    (climbing : Climbing edges sink state.1 state.2)
    (enough : state.2.length + edges.length ≤ fuel + state.1.length) :
    ∃ found, climb edges fuel state = some found ∧
      ∀ id, id ∈ found ↔ TransGen (DependsOn edges) sink id := by
  fun_induction climb edges fuel state with
  | case1 fuel ancestors => exact ⟨ancestors, rfl, climbing.mem_iff⟩
  | case2 ancestors blocked frontier =>
    have most := climbing.length_le
    simp only [length_cons] at enough most
    omega
  | case3 ancestors fuel blocked frontier ih =>
    obtain ⟨new, found, next⟩ := climbing.step
    rw [found] at ih ⊢
    refine ih next ?_
    simp only [length_append, length_cons] at enough ⊢
    omega

end

theorem cover_spec (sinkId : String) (requiredIds : List String) (edges : List (String × String)) :
    ∃ covered, dependencyAncestorsCover sinkId requiredIds edges = some covered ∧
      (covered = true ↔ ∀ id ∈ requiredIds, TransGen (DependsOn edges) sinkId id) := by
  have start : Climbing edges sinkId [] [sinkId] := by
    refine ⟨.nil, by simp, by simp, by simp⟩
  obtain ⟨found, climbed, members⟩ := @climb_spec edges sinkId (edges.length + 1) ([], [sinkId])
    start (by simp [Nat.add_comm])
  refine ⟨_, by rw [dependencyAncestorsCover, climbed]; rfl, ?_⟩
  simp [members]

section

variable (detail : ReportedExecution)

theorem ownsSummary_spec (step : ReportedStep) :
    ∃ owns, ownsSummary detail step = some owns ∧ (owns = true →
      step.status = .completed ∧ step.agentMode = some .synthesis ∧
        ∀ business ∈ businessSteps detail,
          TransGen (DependsOn (reportedEdges detail)) step.stepId business.stepId) := by
  unfold ownsSummary
  split
  next synthesis =>
    obtain ⟨covered, decided, meaning⟩ := cover_spec step.stepId
      ((businessSteps detail).map (·.stepId)) (reportedEdges detail)
    simp only [Bool.and_eq_true, decide_eq_true_eq] at synthesis
    refine ⟨covered, decided, fun holds => ⟨synthesis.1, synthesis.2, fun business member => ?_⟩⟩
    exact meaning.mp holds _ (mem_map_of_mem member)
  next => exact ⟨false, rfl, Bool.noConfusion⟩

theorem owner_spec (steps : List ReportedStep) :
    ∃ owner, steps.findM? (ownsSummary detail) = some owner ∧
      ∀ step ∈ owner, step ∈ steps ∧ ownsSummary detail step = some true := by
  induction steps with
  | nil => exact ⟨none, rfl, by simp⟩
  | cons step steps ih =>
    obtain ⟨owns, decided, -⟩ := ownsSummary_spec detail step
    obtain ⟨owner, searched, meaning⟩ := ih
    cases owns with
    | true => exact ⟨some step, by simp [decided], by simp [decided]⟩
    | false =>
      refine ⟨owner, by simp [findM?, decided, searched], fun found member => ?_⟩
      exact (meaning found member).imp_left (mem_cons_of_mem _)

end

/-- With at least two business steps the summary lists all steps, or is the output of a completed
synthesis behind all of them. -/
theorem terminal_summary_covers_work :
    (∀ sinkId requiredIds edges, ∃ covered,
      dependencyAncestorsCover sinkId requiredIds edges = some covered ∧
      (covered = true ↔ ∀ id ∈ requiredIds, TransGen (DependsOn edges) sinkId id)) ∧
    ∀ detail, 2 ≤ (businessSteps detail).length → ∃ summary,
      terminalSummary detail = some summary ∧ (summary = aggregateSummary detail ∨
        ∃ step ∈ currentSteps detail, step.status = .completed ∧ step.agentMode = some .synthesis ∧
          trimmedOutput detail step = some summary ∧ ∀ business ∈ businessSteps detail,
            TransGen (DependsOn (reportedEdges detail)) step.stepId business.stepId) := by
  refine ⟨cover_spec, fun detail several => ?_⟩
  obtain ⟨owner, searched, owned⟩ := owner_spec detail (currentSteps detail).reverse
  simp only [terminalSummary, searched, Option.bind_eq_bind, Option.bind_some]
  cases spoken : owner.bind (trimmedOutput detail) with
  | some summary =>
    obtain ⟨step, rfl, output⟩ := Option.bind_eq_some_iff.mp spoken
    obtain ⟨current, owns⟩ := owned step rfl
    obtain ⟨_, decided, meaning⟩ := ownsSummary_spec detail step
    obtain ⟨completed, synthesis, behind⟩ := meaning (Option.some.inj (decided.symm.trans owns))
    exact ⟨summary, rfl, .inr
      ⟨step, mem_reverse.mp current, completed, synthesis, output, behind⟩⟩
  | none =>
    refine ⟨aggregateSummary detail, ?_, .inl rfl⟩
    dsimp only
    split
    next only => simp [only] at several
    next => rfl

/-- A synthesis of two steps that are done. -/
def synthesisOfTwo : ReportedExecution where
  steps := [("a", .normal), ("b", .normal), ("c", .synthesis)].map fun (id, mode) =>
    ⟨⟨id, .agent, .completed, none, none, none, none, 0, 0, 0⟩, id, some mode⟩
  dependencies := [⟨"a", "c", none⟩, ⟨"b", "c", none⟩]
  attempts := [⟨⟨"1", "c", .completed⟩, 1, some " both ", none⟩]

theorem synthesis_has_summary :
    2 ≤ (businessSteps synthesisOfTwo).length ∧ terminalSummary synthesisOfTwo ≠ none := by
  have two : 2 ≤ (businessSteps synthesisOfTwo).length := by decide
  obtain ⟨summary, found, -⟩ := terminal_summary_covers_work.2 synthesisOfTwo two
  exact ⟨two, by simp [found]⟩

end Nomifun.Guarantees.TerminalSummaries
