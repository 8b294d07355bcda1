import Nomifun.Library.Checks
import Mathlib.Order.WellFoundedSet

/-!
# Directed graphs given by a list of edges

An edge leads from a node to one that waits for it. A graph is acyclic if no node reaches itself;
for a list of edges this is well-foundedness, which is what an induction over the graph needs.
`Adjacency` is the usual pair of tables, built edge by edge.
-/
namespace Nomifun.Library.Digraph
open Relation List

variable {α β : Type} {edges more : List (α × α)}

def Edge (edges : List (α × α)) (a b : α) : Prop := (a, b) ∈ edges

def Acyclic (edges : List (α × α)) : Prop := ∀ node, ¬ TransGen (Edge edges) node node

theorem Acyclic.mono (acyclic : Acyclic more) (within : edges ⊆ more) : Acyclic edges :=
  fun node cycle => acyclic node (cycle.lift id fun _ _ edge => within edge)

theorem Acyclic.wellFounded (acyclic : Acyclic edges) : WellFounded (Edge edges) := by
  have strict : IsStrictOrder α (TransGen (Edge edges)) :=
    { irrefl := acyclic, trans := fun _ _ _ => TransGen.trans }
  have finite : {node | node ∈ edges.map (·.1)}.Finite := finite_toSet _
  have onSources := finite.wellFoundedOn (r := TransGen (Edge edges))
  have source {a b : α} (edge : Edge edges a b) : a ∈ {node | node ∈ edges.map (·.1)} :=
    mem_map.mpr ⟨(a, b), edge, rfl⟩
  have grounded (node : α) (member : node ∈ {node | node ∈ edges.map (·.1)}) :
      Acc (Edge edges) node := by
    refine onSources.induction member fun b _ ih => .intro b fun a edge => ?_
    exact ih a (source edge) (.single edge)
  exact ⟨fun node => .intro node fun a edge => grounded a (source edge)⟩

theorem acyclic_of_wellFounded (wellFounded : WellFounded (Edge edges)) : Acyclic edges :=
  fun node cycle => wellFounded.transGen.irrefl.irrefl node cycle

/-- A graph that a map respects is acyclic if the image is. -/
theorem Acyclic.of_map {f : α → β} {image : List (β × β)} (acyclic : Acyclic image)
    (maps : ∀ a b, Edge edges a b → Edge image (f a) (f b)) : Acyclic edges :=
  fun node cycle => acyclic (f node) (cycle.lift f maps)

theorem acyclic_map (injective : Function.Injective f) :
    Acyclic (edges.map (Prod.map f f)) ↔ Acyclic edges := by
  constructor
  · intro acyclic
    exact acyclic.of_map fun a b edge => mem_map.mpr ⟨(a, b), edge, rfl⟩
  · intro acyclic node cycle
    have source : ∃ a, f a = node := by
      rcases TransGen.head'_iff.mp cycle with ⟨_, edge, -⟩
      obtain ⟨⟨a, _⟩, -, same⟩ := mem_map.mp edge
      exact ⟨a, congrArg Prod.fst same⟩
    have : Nonempty α := source.nonempty
    obtain ⟨g, inverse⟩ := injective.hasLeftInverse
    refine (acyclic.of_map (f := g) fun x y edge => ?_) node cycle
    obtain ⟨⟨a, b⟩, member, same⟩ := mem_map.mp edge
    cases same
    rw [inverse a, inverse b]
    exact member

/-- A graph of two layers: no edge leads back from the upper layer to the lower one. -/
theorem acyclic_of_layers (upper : α → Prop) (upward : ∀ a b, Edge edges a b → upper a → upper b)
    (lower : ∀ a b, Edge edges a b → ¬ upper b → Edge low a b)
    (higher : ∀ a b, Edge edges a b → upper a → Edge high a b) (lowAcyclic : Acyclic low)
    (highAcyclic : Acyclic high) : Acyclic edges := by
  have stays {a b : α} (path : TransGen (Edge edges) a b) (above : upper a) :
      upper b ∧ TransGen (Edge high) a b := by
    induction path with
    | single edge => exact ⟨upward _ _ edge above, .single (higher _ _ edge above)⟩
    | tail _ edge ih => exact ⟨upward _ _ edge ih.1, ih.2.tail (higher _ _ edge ih.1)⟩
  have came {a b : α} (path : TransGen (Edge edges) a b) (below : ¬ upper b) :
      TransGen (Edge low) a b := by
    induction path with
    | single edge => exact .single (lower _ _ edge below)
    | tail _ edge ih =>
      exact (ih fun above => below (upward _ _ edge above)).tail (lower _ _ edge below)
  intro node cycle
  by_cases above : upper node
  · exact highAcyclic node (stays cycle above).2
  · exact lowAcyclic node (came cycle above)

/-! ### Adjacency tables -/

variable [DecidableEq α]

structure Adjacency (α : Type) where
  outgoing : α → List α
  indegree : α → Nat

def Adjacency.empty : Adjacency α := ⟨fun _ => [], fun _ => 0⟩

def Adjacency.link (tables : Adjacency α) (blocker blocked : α) : Adjacency α where
  outgoing := Function.update tables.outgoing blocker (tables.outgoing blocker ++ [blocked])
  indegree := Function.update tables.indegree blocked (tables.indegree blocked + 1)

def Adjacency.linkAll (tables : Adjacency α) (edges : List (α × α)) : Adjacency α :=
  edges.foldl (fun tables edge => tables.link edge.1 edge.2) tables

theorem Adjacency.outgoing_linkAll (tables : Adjacency α) (node : α) :
    (tables.linkAll edges).outgoing node =
      tables.outgoing node ++ (edges.filter (·.1 = node)).map (·.2) := by
  induction edges generalizing tables with
  | nil => simp [linkAll]
  | cons edge edges ih =>
    rw [linkAll, foldl_cons, ← linkAll, ih]
    by_cases same : edge.1 = node
    · simp [link, same]
    · simp [link, same, Function.update_of_ne (Ne.symm same)]

theorem Adjacency.indegree_linkAll (tables : Adjacency α) (node : α) :
    (tables.linkAll edges).indegree node = tables.indegree node + edges.countP (·.2 = node) := by
  induction edges generalizing tables with
  | nil => simp [linkAll]
  | cons edge edges ih =>
    rw [linkAll, foldl_cons, ← linkAll, ih]
    by_cases same : edge.2 = node
    · simp [link, same]
      omega
    · simp [link, same, Function.update_of_ne (Ne.symm same)]

/-- The tables of a graph. -/
theorem Adjacency.outgoing_graph (edges : List (α × α)) (node : α) :
    (empty.linkAll edges).outgoing node = (edges.filter (·.1 = node)).map (·.2) := by
  rw [outgoing_linkAll]
  simp [empty]

/-- A loop that links one edge per item, and refuses a bad item or a key it has seen before. -/
theorem foldlM_link {ε ι κ : Type} {good : ι → Prop} {key : ι → κ} {source target : ι → α}
    {step : List κ × Adjacency α → ι → Except ε (List κ × Adjacency α)}
    (step_ok : ∀ seen tables item state, step (seen, tables) item = .ok state ↔
      good item ∧ key item ∉ seen ∧
        (seen ++ [key item], tables.link (source item) (target item)) = state)
    {items : List ι} {seen : List κ} {tables : Adjacency α} {state : List κ × Adjacency α}
    (distinct : seen.Nodup) :
    items.foldlM step (seen, tables) = .ok state ↔
      (∀ item ∈ items, good item) ∧ (seen ++ items.map key).Nodup ∧ (seen ++ items.map key,
          tables.linkAll (items.map fun item => (source item, target item))) = state := by
  induction items generalizing seen tables with
  | nil => simp [Adjacency.linkAll, pure, Except.pure, distinct]
  | cons item items ih =>
    have joined : seen ++ [key item] ++ items.map key = seen ++ (item :: items).map key := by simp
    rw [foldlM_cons, bind_eq_ok, forall_mem_cons]
    simp only [step_ok]
    constructor
    · rintro ⟨_, ⟨fine, new, rfl⟩, rest⟩
      have grown : (seen ++ [key item]).Nodup := by
        rw [nodup_append_comm]
        exact nodup_cons.mpr ⟨new, distinct⟩
      obtain ⟨others, unique, result⟩ := (ih grown).mp rest
      rw [joined] at unique result
      exact ⟨⟨fine, others⟩, unique, result⟩
    · rintro ⟨⟨fine, others⟩, unique, result⟩
      rw [← joined] at unique result
      have grown : (seen ++ [key item]).Nodup := (nodup_append.mp unique).1
      have new : key item ∉ seen := fun member =>
        (nodup_append.mp grown).2.2 _ member _ (mem_singleton_self _) rfl
      exact ⟨_, ⟨fine, new, rfl⟩, (ih grown).mpr ⟨others, unique, result⟩⟩

end Nomifun.Library.Digraph
