import Nomifun.Library.Digraph

/-!
# Searching a graph breadth first

The search keeps the nodes it has seen and a queue of those whose successors it has yet to look
at. It ends after at most one round per edge and one for the start, and the nodes it has seen are
those that the start reaches.
-/
namespace Nomifun.Library.Reachability
open Relation Library.Digraph List

section

variable {α : Type} [DecidableEq α]

/-- The nodes seen, and the queue. -/
def discover (state : List α × List α) (next : α) : List α × List α :=
  if next ∈ state.1 then state else (state.1 ++ [next], state.2 ++ [next])

def explore (outgoing : α → List α) : Nat → List α × List α → Option (List α)
  | _, (seen, []) => some seen
  | 0, (_, _ :: _) => none
  | fuel + 1, (seen, node :: queue) =>
    explore outgoing fuel ((outgoing node).foldl discover (seen, queue))

def reachableFrom (outgoing : α → List α) (fuel : Nat) (start : α) : Option (List α) :=
  explore outgoing fuel ([start], [start])

end

variable {α : Type} [DecidableEq α] {edges : List (α × α)} {start node : α}
  {done pending seen queue : List α} {state : List α × List α}

/-- The invariant of both loops. `pending` are the successors of the last node that are yet to be
looked at. -/
structure Searching (edges : List (α × α)) (start : α) (done pending : List α)
    (state : List α × List α) : Prop where
  seen : state.1 = done ++ state.2
  distinct : state.1.Nodup
  starts : start ∈ state.1
  reached : ∀ node ∈ state.1, ReflTransGen (Edge edges) start node
  ahead : ∀ node ∈ pending, ReflTransGen (Edge edges) start node
  closed : ∀ a ∈ done, ∀ b, Edge edges a b → b ∈ state.1 ∨ b ∈ pending

theorem Searching.discover (searching : Searching edges start done (node :: pending) state) :
    Searching edges start done pending (discover state node) := by
  obtain ⟨seen, distinct, starts, reached, ahead, closed⟩ := searching
  have later : ∀ other ∈ pending, ReflTransGen (Edge edges) start other := fun other member =>
    ahead other (mem_cons_of_mem node member)
  unfold Reachability.discover
  split
  next known =>
    refine ⟨seen, distinct, starts, reached, later, fun a member b edge => ?_⟩
    rcases closed a member b edge with found | pends
    · exact .inl found
    · rcases mem_cons.mp pends with rfl | pends
      · exact .inl known
      · exact .inr pends
  next new =>
    refine ⟨by simp [seen], ?_, mem_append_left _ starts, ?_, later, fun a member b edge => ?_⟩
    · rw [nodup_append_comm]
      exact nodup_cons.mpr ⟨new, distinct⟩
    · rw [forall_mem_append]
      exact ⟨reached, by simpa using ahead node mem_cons_self⟩
    · rcases closed a member b edge with found | pends
      · exact .inl (mem_append_left _ found)
      · rcases mem_cons.mp pends with rfl | pends
        · exact .inl (by simp)
        · exact .inr pends

theorem Searching.discoverAll (searching : Searching edges start done pending state) :
    Searching edges start done [] (pending.foldl Reachability.discover state) := by
  induction pending generalizing state with
  | nil => exact searching
  | cons node pending ih => exact ih searching.discover

theorem Searching.pop (searching : Searching edges start done [] (seen, node :: queue)) :
    Searching edges start (done ++ [node]) ((edges.filter (·.1 = node)).map (·.2))
      (seen, queue) := by
  obtain ⟨listed, distinct, starts, reached, -, closed⟩ := searching
  have here : ReflTransGen (Edge edges) start node := reached node (by simp_all)
  refine ⟨by simpa using listed, distinct, starts, reached, ?_, fun a member b edge => ?_⟩
  · simp only [mem_map, mem_filter, decide_eq_true_eq]
    rintro _ ⟨edge, ⟨member, rfl⟩, rfl⟩
    exact here.tail member
  · rcases mem_append.mp member with before | last
    · exact .inl (by simpa using closed a before b edge)
    · obtain rfl := mem_singleton.mp last
      exact .inr (mem_map.mpr ⟨(a, b), mem_filter.mpr ⟨edge, by simp⟩, rfl⟩)

omit [DecidableEq α] in
theorem Searching.seen_iff (searching : Searching edges start done [] (seen, [])) (node : α) :
    node ∈ seen ↔ ReflTransGen (Edge edges) start node := by
  obtain ⟨listed, -, starts, reached, -, closed⟩ := searching
  simp only [append_nil] at listed
  subst listed
  refine ⟨reached node, fun path => ?_⟩
  induction path with
  | refl => exact starts
  | tail _ edge ih => simpa using closed _ ih _ edge

omit [DecidableEq α] in
/-- No node is seen but the start and the ends of edges. -/
theorem Searching.length_le (searching : Searching edges start done pending state) :
    state.1.length ≤ edges.length + 1 := by
  have within : state.1 ⊆ start :: edges.map (·.2) := by
    intro node member
    rcases (searching.reached node member).cases_tail with rfl | ⟨a, -, edge⟩
    · exact mem_cons_self
    · exact mem_cons_of_mem _ (mem_map.mpr ⟨(a, node), edge, rfl⟩)
  simpa using (searching.distinct.subperm within).length_le

theorem explore_spec (searching : Searching edges start done [] state)
    (enough : done.length + fuel = edges.length + 1)
    (successors : ∀ node, outgoing node = (edges.filter (·.1 = node)).map (·.2)) :
    ∃ found, explore outgoing fuel state = some found ∧ found.Nodup ∧
      ∀ node, node ∈ found ↔ ReflTransGen (Edge edges) start node := by
  induction fuel generalizing done state with
  | zero =>
    obtain ⟨seen, queue⟩ := state
    cases queue with
    | nil => exact ⟨seen, by simp [explore], searching.distinct, searching.seen_iff⟩
    | cons node queue =>
      have most := searching.length_le
      rw [searching.seen, length_append, length_cons] at most
      omega
  | succ fuel ih =>
    obtain ⟨seen, queue⟩ := state
    cases queue with
    | nil => exact ⟨seen, by simp [explore], searching.distinct, searching.seen_iff⟩
    | cons node queue =>
      rw [explore, successors node]
      refine ih searching.pop.discoverAll ?_
      rw [length_append, length_singleton]
      omega

theorem reachableFrom_spec (edges : List (α × α)) (start : α) :
    ∃ found, reachableFrom (Adjacency.empty.linkAll edges).outgoing (edges.length + 1) start =
        some found ∧ found.Nodup ∧
      ∀ node, node ∈ found ↔ ReflTransGen (Edge edges) start node := by
  have searching : Searching edges start [] [] ([start], [start]) := by
    refine ⟨rfl, nodup_singleton start, mem_singleton_self start, ?_, ?_, ?_⟩
    · intro node member
      rw [mem_singleton.mp member]
    · exact fun _ member => absurd member not_mem_nil
    · exact fun _ member => absurd member not_mem_nil
  exact explore_spec searching (by simp) (Adjacency.outgoing_graph edges)

end Nomifun.Library.Reachability
