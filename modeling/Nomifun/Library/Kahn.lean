import Nomifun.Library.Digraph

/-!
# Releasing the nodes of a graph

Kahn's algorithm: nodes without open incoming edges wait in a queue; a node that leaves the queue
releases its successors. The loop runs dry after at most as many rounds as there are nodes, no
degree falls below zero, and all nodes were released exactly if the graph is acyclic. The order of
the nodes, and with it the order of the queue, plays no part.
-/
namespace Nomifun.Library.Kahn
open Library.Digraph List

section

variable {α : Type} [DecidableEq α]

structure Frontier (α : Type) where
  degree : α → Nat
  queue : List α
  visited : Nat

/-- One open edge less; a degree of zero would underflow. -/
def release (state : Frontier α) (blocked : α) : Option (Frontier α) :=
  match state.degree blocked with
  | 0 => none
  | degree + 1 => some { state with
      degree := Function.update state.degree blocked degree
      queue := if degree = 0 then state.queue ++ [blocked] else state.queue }

def drain (outgoing : α → List α) : Nat → Frontier α → Option Nat
  | _, ⟨_, [], visited⟩ => some visited
  | 0, ⟨_, _ :: _, _⟩ => none
  | fuel + 1, ⟨degree, node :: queue, visited⟩ => do
    drain outgoing fuel (← (outgoing node).foldlM release ⟨degree, queue, visited + 1⟩)

/-- The number of nodes that are released. -/
def countReleased (nodes : List α) (tables : Adjacency α) : Option Nat :=
  drain tables.outgoing nodes.length
    ⟨tables.indegree, nodes.filter (tables.indegree · = 0), 0⟩

end

variable {α : Type} [DecidableEq α] {nodes done pending queue : List α} {edges : List (α × α)}
  {state : Frontier α} {node : α}

/-- The open incoming edges of a node: those whose source is not done. -/
def openEdges (edges : List (α × α)) (done : List α) (node : α) : Nat :=
  edges.countP fun edge => edge.2 = node && edge.1 ∉ done

/-- The invariant of both loops. `pending` are the successors of the last node that are yet to be
released. -/
structure Progress (nodes : List α) (edges : List (α × α)) (done pending : List α)
    (state : Frontier α) : Prop where
  counted : state.visited = done.length
  distinct : (done ++ state.queue).Nodup
  inside : ∀ node ∈ done ++ state.queue, node ∈ nodes
  degrees : ∀ node, state.degree node = openEdges edges done node + pending.count node
  released : ∀ node ∈ nodes, node ∈ done ++ state.queue ↔ state.degree node = 0
  grounded : ∀ node ∈ done ++ state.queue, Acc (Edge edges) node

theorem openEdges_eq_zero : openEdges edges done node = 0 ↔ ∀ a, Edge edges a node → a ∈ done := by
  simp only [openEdges, countP_eq_zero, Bool.and_eq_true, decide_eq_true_eq, not_and, not_not]
  exact ⟨fun closed a edge => closed (a, node) edge rfl, fun closed edge member target =>
    closed edge.1 (target ▸ member)⟩

theorem openEdges_cons (edge : α × α) (other : α) :
    openEdges (edge :: edges) done other =
      openEdges edges done other + if edge.2 = other ∧ edge.1 ∉ done then 1 else 0 := by
  simp [openEdges, countP_cons]

theorem openEdges_concat (new : node ∉ done) (other : α) :
    openEdges edges done other = openEdges edges (done ++ [node]) other +
      ((edges.filter (·.1 = node)).map (·.2)).count other := by
  induction edges with
  | nil => rfl
  | cons edge edges ih =>
    rw [openEdges_cons, openEdges_cons, ih]
    by_cases source : edge.1 = node
    · by_cases target : edge.2 = other <;> simp [source, target, new]
      omega
    · simp [source]
      omega

theorem Progress.release (progress : Progress nodes edges done (node :: pending) state)
    (member : node ∈ nodes) :
    ∃ next, release state node = some next ∧ Progress nodes edges done pending next := by
  obtain ⟨counted, distinct, inside, degrees, released, grounded⟩ := progress
  have own := degrees node
  rw [count_cons_self] at own
  have fresh : node ∉ done ++ state.queue := by
    rw [released node member]
    omega
  have others (other : α) (different : other ≠ node) : state.degree other =
      openEdges edges done other + pending.count other := by
    rw [degrees other, count_cons_of_ne (Ne.symm different)]
  have left : ∀ other, Function.update state.degree node
      (openEdges edges done node + pending.count node) other =
        openEdges edges done other + pending.count other := by
    intro other
    by_cases same : other = node
    · rw [same, Function.update_self]
    · rw [Function.update_of_ne same, others other same]
  rw [← Nat.add_assoc] at own
  simp only [Kahn.release, own]
  refine ⟨_, rfl, ?_⟩
  by_cases last : openEdges edges done node + pending.count node = 0
  · have sources := openEdges_eq_zero.mp (Nat.add_eq_zero_iff.mp last).1
    have ground : Acc (Edge edges) node :=
      .intro node fun a edge => grounded a (mem_append_left _ (sources a edge))
    have joined : done ++ (state.queue ++ [node]) = done ++ state.queue ++ [node] := by simp
    simp only [last, if_true]
    refine ⟨counted, ?_, ?_, last ▸ left, ?_, ?_⟩
    · rw [joined, nodup_append_comm]
      exact nodup_cons.mpr ⟨fresh, distinct⟩
    · rw [joined, forall_mem_append]
      exact ⟨inside, by simpa using member⟩
    · intro other listed
      rw [joined, mem_append, mem_singleton]
      by_cases same : other = node
      · simp [same]
      · simp only [same, or_false, Function.update_of_ne same]
        exact released other listed
    · rw [joined, forall_mem_append]
      exact ⟨grounded, by simpa using ground⟩
  · simp only [if_neg last]
    refine ⟨counted, distinct, inside, left, fun other listed => ?_, grounded⟩
    by_cases same : other = node
    · simp only [same, fresh, Function.update_self, last]
    · simp only [Function.update_of_ne same]
      exact released other listed

theorem Progress.releaseAll (progress : Progress nodes edges done pending state)
    (members : ∀ node ∈ pending, node ∈ nodes) :
    ∃ next, pending.foldlM Kahn.release state = some next ∧ Progress nodes edges done [] next := by
  induction pending generalizing state with
  | nil => exact ⟨state, rfl, progress⟩
  | cons node pending ih =>
    obtain ⟨next, stepped, kept⟩ := progress.release (members node mem_cons_self)
    obtain ⟨final, rest, finished⟩ := ih kept fun other later =>
      members other (mem_cons_of_mem node later)
    refine ⟨final, ?_, finished⟩
    rw [foldlM_cons, stepped]
    exact rest

/-- A node leaves the queue, and its successors are to be released. -/
theorem Progress.pop (progress : Progress nodes edges done [] ⟨degree, node :: queue, visited⟩) :
    Progress nodes edges (done ++ [node]) ((edges.filter (·.1 = node)).map (·.2))
      ⟨degree, queue, visited + 1⟩ := by
  obtain ⟨counted, distinct, inside, degrees, released, grounded⟩ := progress
  have moved : done ++ [node] ++ queue = done ++ node :: queue := by simp
  have new : node ∉ done := fun member =>
    (nodup_append.mp distinct).2.2 node member node mem_cons_self rfl
  refine ⟨by simpa using counted, moved ▸ distinct, moved ▸ inside, fun other => ?_,
    moved ▸ released, moved ▸ grounded⟩
  rw [← openEdges_concat new other]
  simpa using degrees other

/-- When the queue is empty, all nodes are done exactly if the graph is acyclic. -/
theorem Progress.all_done_iff (progress : Progress nodes edges done [] ⟨degree, [], visited⟩)
    (distinctNodes : nodes.Nodup) (within : ∀ a b, Edge edges a b → a ∈ nodes ∧ b ∈ nodes) :
    visited = nodes.length ↔ Acyclic edges := by
  obtain ⟨counted, distinct, inside, degrees, released, grounded⟩ := progress
  simp only [count_nil, Nat.add_zero] at counted degrees
  simp only [append_nil] at distinct inside released grounded
  have closed (node : α) (member : node ∈ nodes) :
      node ∈ done ↔ ∀ a, Edge edges a node → a ∈ done := by
    rw [released node member, degrees node, openEdges_eq_zero]
  rw [counted]
  constructor
  · intro full
    have all : ∀ node ∈ nodes, node ∈ done :=
      (List.Nodup.subperm distinct inside).perm_of_length_le full.ge |>.symm.subset
    refine acyclic_of_wellFounded ⟨fun node => .intro node fun a edge => ?_⟩
    exact grounded a (all a (within a node edge).1)
  · intro acyclic
    have all : ∀ node, node ∈ nodes → node ∈ done := by
      intro node
      induction node using acyclic.wellFounded.induction with
      | _ node ih =>
        intro member
        exact (closed node member).mpr fun a edge => ih a edge (within a node edge).1
    exact (List.Subperm.antisymm (distinct.subperm inside) (distinctNodes.subperm all)).length_eq

theorem drain_spec (progress : Progress nodes edges done [] state)
    (enough : done.length + fuel = nodes.length) (distinctNodes : nodes.Nodup)
    (within : ∀ a b, Edge edges a b → a ∈ nodes ∧ b ∈ nodes)
    (successors : ∀ node, outgoing node = (edges.filter (·.1 = node)).map (·.2)) :
    ∃ count, drain outgoing fuel state = some count ∧ (count = nodes.length ↔ Acyclic edges) := by
  induction fuel generalizing done state with
  | zero =>
    obtain ⟨degree, queue, visited⟩ := state
    cases queue with
    | nil => exact ⟨visited, by simp [drain], progress.all_done_iff distinctNodes within⟩
    | cons node queue =>
      have most := (progress.distinct.subperm progress.inside).length_le
      simp only [length_append, length_cons] at most
      omega
  | succ fuel ih =>
    obtain ⟨degree, queue, visited⟩ := state
    cases queue with
    | nil => exact ⟨visited, by simp [drain], progress.all_done_iff distinctNodes within⟩
    | cons node queue =>
      have targets : ∀ other ∈ (edges.filter (·.1 = node)).map (·.2), other ∈ nodes := by
        simp only [mem_map, mem_filter]
        rintro _ ⟨edge, ⟨member, -⟩, rfl⟩
        exact (within edge.1 edge.2 member).2
      obtain ⟨next, released, kept⟩ := progress.pop.releaseAll targets
      obtain ⟨count, counted, verdict⟩ := ih kept (by
        rw [length_append, length_singleton]
        omega)
      refine ⟨count, ?_, verdict⟩
      rw [drain, successors node, released]
      exact counted

/-- Kahn's algorithm decides acyclicity. -/
theorem countReleased_spec (distinct : nodes.Nodup)
    (within : ∀ a b, Edge edges a b → a ∈ nodes ∧ b ∈ nodes) :
    ∃ count, countReleased nodes (Adjacency.empty.linkAll edges) = some count ∧
      (count = nodes.length ↔ Acyclic edges) := by
  have degrees (node : α) : (Adjacency.empty.linkAll edges).indegree node =
      openEdges edges [] node := by
    rw [Adjacency.indegree_linkAll]
    simp [Adjacency.empty, openEdges]
  have start : Progress nodes edges [] [] ⟨(Adjacency.empty.linkAll edges).indegree,
      nodes.filter ((Adjacency.empty.linkAll edges).indegree · = 0), 0⟩ := by
    refine ⟨rfl, distinct.filter _, fun node member => (mem_filter.mp member).1,
      fun node => by simpa using degrees node, fun node member => ?_, fun node member => ?_⟩
    · simp [member]
    · have closed := (mem_filter.mp member).2
      rw [decide_eq_true_eq, degrees node, openEdges_eq_zero] at closed
      exact .intro node fun a edge => absurd (closed a edge) not_mem_nil
  exact drain_spec start (by simp) distinct within (Adjacency.outgoing_graph edges)

end Nomifun.Library.Kahn
