import Mathlib.Data.List.Forall2

/-!
# Checks in sequence

A fallible function is a chain of checks. These rules take a successful chain apart:
every check passed, and the rest succeeded with what the check returned. A check of every item
passed for each (`forM_eq_ok`). A loop whose rounds all succeed succeeds (`foldlM_succeeds`). A
successful loop keeps what each of its rounds keeps
(`foldlM_invariant`), also where the invariant speaks of the items seen so far
(`foldlM_history`), and what holds before it but not after it was lost in one of its rounds
(`foldlM_loses`). A loop that stops early stops as one of its rounds does (`foldlM_stops`).
-/
namespace Nomifun.Library
open List

variable {ε α β : Type} {check : Except ε α}

theorem bind_eq_ok {next : α → Except ε β} :
    (check >>= next) = .ok b ↔ ∃ a, check = .ok a ∧ next a = .ok b := by
  cases check with
  | error e => simp [bind, Except.bind]
  | ok a => simp [bind, Except.bind]

theorem map_eq_ok : check.map f = .ok b ↔ ∃ a, check = .ok a ∧ f a = b := by
  cases check <;> simp [Except.map]

theorem toOption_eq_some : check.toOption = some a ↔ check = .ok a := by
  cases check <;> simp [Except.toOption]

/-- The guard `if refused then error` of a chain, as the do block elaborates it. -/
theorem guard_eq_ok [Decidable refused] {after : α → Except ε β} :
    (if refused then Except.error e >>= after else rest) = .ok b ↔ ¬ refused ∧ rest = .ok b := by
  by_cases h : refused <;> simp [h, bind, Except.bind]

/-- The same guard at the end of a chain. -/
theorem last_guard_eq_ok [Decidable refused] :
    (if refused then Except.error e else rest) = .ok b ↔ ¬ refused ∧ rest = .ok b := by
  by_cases h : refused <;> simp [h]

/-- A check that is made only where it applies. -/
def onlyIf (applies : Prop) [Decidable applies] (check : Except ε Unit) : Except ε Unit :=
  if applies then check else .ok ()

variable {σ ι : Type} {step : σ → ι → Except ε σ} {s s' : σ} {items : List ι}

/-- A check of every item. -/
theorem forM_eq_ok {check : ι → Except ε Unit} :
    items.forM check = .ok () ↔ ∀ item ∈ items, check item = .ok () := by
  induction items with
  | nil => simp [pure, Except.pure]
  | cons item items ih =>
    simp only [List.forM, bind_eq_ok, forall_mem_cons]
    constructor
    · rintro ⟨_, first, rest⟩
      exact ⟨first, ih.mp rest⟩
    · rintro ⟨first, rest⟩
      exact ⟨(), first, ih.mpr rest⟩

/-- A result for every item. -/
theorem mapM_eq_ok {f : ι → Except ε α} :
    items.mapM f = .ok results ↔
      List.Forall₂ (fun item result => f item = .ok result) items results := by
  induction items generalizing results with
  | nil => simp [pure, Except.pure]
  | cons item items ih =>
    simp only [mapM_cons, bind_eq_ok, forall₂_cons_left_iff]
    constructor
    · rintro ⟨result, first, more, rest, done⟩
      exact ⟨result, more, first, ih.mp rest, (Except.ok.inj done).symm⟩
    · rintro ⟨result, more, first, rest, rfl⟩
      exact ⟨result, first, more, ih.mpr rest, rfl⟩

theorem exists_of_forall₂ (related : List.Forall₂ rel left right) (member : b ∈ right) :
    ∃ a ∈ left, rel a b := by
  obtain ⟨index, inside, rfl⟩ := getElem_of_mem member
  have within : index < left.length := related.length_eq ▸ inside
  exact ⟨left[index], getElem_mem within, related.get within inside⟩

theorem getElem?_of_forall₂ {index : Nat} {b : β} (related : List.Forall₂ rel left right)
    (first : left[index]? = some a) (second : right[index]? = some b) : rel a b := by
  obtain ⟨inside, rfl⟩ := List.getElem?_eq_some_iff.mp first
  obtain ⟨within, rfl⟩ := List.getElem?_eq_some_iff.mp second
  exact related.get inside within

/-- A successful loop keeps what each round keeps, also if a round uses which items come before and
after its own. -/
theorem foldlM_prefixes (inv : List ι → σ → Prop)
    (keeps : ∀ seen s item rest s', items = seen ++ item :: rest → inv seen s →
      step s item = .ok s' → inv (seen ++ [item]) s')
    (start : inv [] s) (done : items.foldlM step s = .ok s') : inv items s' := by
  suffices general : ∀ rest seen s, items = seen ++ rest → inv seen s →
      rest.foldlM step s = .ok s' → inv items s' from general items [] s rfl start done
  intro rest
  induction rest with
  | nil =>
    intro seen s split before finished
    cases finished
    rwa [split, append_nil]
  | cons item rest ih =>
    intro seen s split before finished
    rw [foldlM_cons, bind_eq_ok] at finished
    obtain ⟨next, stepped, later⟩ := finished
    exact ih (seen ++ [item]) next (by simpa using split)
      (keeps seen s item rest next split before stepped) later

theorem foldlM_history (inv : List ι → σ → Prop)
    (keeps : ∀ seen s item s', inv seen s → step s item = .ok s' → inv (seen ++ [item]) s')
    (start : inv [] s) (done : items.foldlM step s = .ok s') : inv items s' :=
  foldlM_prefixes inv (fun seen s item _ s' _ => keeps seen s item s') start done

theorem foldlM_invariant (inv : σ → Prop)
    (keeps : ∀ s item s', item ∈ items → inv s → step s item = .ok s' → inv s') (start : inv s)
    (done : items.foldlM step s = .ok s') : inv s' := by
  refine foldlM_prefixes (fun _ => inv) (fun seen s item rest s' split => ?_) start done
  exact keeps s item s' (split ▸ mem_append_right seen mem_cons_self)

/-- A loop succeeds if each of its rounds does. -/
theorem foldlM_succeeds (inv : List ι → σ → Prop)
    (each : ∀ seen s item rest, items = seen ++ item :: rest → inv seen s →
      ∃ s', step s item = .ok s' ∧ inv (seen ++ [item]) s')
    (start : inv [] s) : ∃ s', items.foldlM step s = .ok s' ∧ inv items s' := by
  suffices general : ∀ rest seen s, items = seen ++ rest → inv seen s →
      ∃ s', rest.foldlM step s = .ok s' ∧ inv items s' from general items [] s rfl start
  intro rest
  induction rest with
  | nil =>
    intro seen s split before
    rw [append_nil] at split
    exact ⟨s, rfl, split ▸ before⟩
  | cons item rest ih =>
    intro seen s split before
    obtain ⟨next, stepped, now⟩ := each seen s item rest split before
    obtain ⟨last, done, final⟩ := ih (seen ++ [item]) next (by simpa using split) now
    exact ⟨last, by rw [foldlM_cons, bind_eq_ok]; exact ⟨next, stepped, done⟩, final⟩

/-- What holds of a result or of an error. -/
abbrev Outcome (inv : σ → Prop) (stopped : ε → Prop) : Except ε σ → Prop
  | .ok s => inv s
  | .error e => stopped e

/-- A loop that stops early: every round keeps the invariant or stops in a fitting way. -/
theorem foldlM_stops (round : ∀ s item, item ∈ items → inv s → Outcome inv stopped (step s item))
    (start : inv s) : Outcome inv stopped (items.foldlM step s) := by
  induction items generalizing s with
  | nil => exact start
  | cons item items ih =>
    have here := round s item mem_cons_self start
    rw [foldlM_cons]
    revert here
    cases step s item with
    | error e => exact id
    | ok next =>
      intro here
      exact ih (fun s later member => round s later (mem_cons_of_mem item member)) here

theorem foldlM_loses (inv held : σ → Prop)
    (keeps : ∀ s item s', item ∈ items → inv s → step s item = .ok s' → inv s') (start : inv s)
    (first : held s) (done : items.foldlM step s = .ok s') (last : ¬ held s') :
    ∃ item ∈ items, ∃ before after, inv before ∧ held before ∧ step before item = .ok after ∧
      ¬ held after := by
  by_contra never
  refine last (foldlM_invariant (fun s => inv s ∧ held s) ?_ ⟨start, first⟩ done).2
  rintro s item s' member ⟨before, holds⟩ stepped
  refine ⟨keeps s item s' member before stepped, ?_⟩
  by_contra lost
  exact never ⟨item, member, s, s', before, holds, stepped, lost⟩

end Nomifun.Library
