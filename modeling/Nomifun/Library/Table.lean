import Mathlib.Data.List.Nodup

/-!
# Tables as lists

The rows of a table in the order of their insertion. `updateWhere` is an UPDATE with its WHERE
clause, `rowsAffected` the number of rows it changes. The rules say what a selection, or a
projection of the rows, sees of an update.
-/
namespace Nomifun.Library.Table
open List

variable {α β : Type} {selects mine : α → Bool} {change : α → α} {rows : List α} {row : α}

def updateWhere (selects : α → Bool) (change : α → α) (rows : List α) : List α :=
  rows.map fun row => if selects row then change row else row

def rowsAffected (selects : α → Bool) (rows : List α) : Nat := rows.countP selects

/-- A selection by columns that the update does not write commutes with it. -/
theorem filter_updateWhere (keeps : ∀ row, mine (change row) = mine row) :
    (updateWhere selects change rows).filter mine =
      updateWhere selects change (rows.filter mine) := by
  have unmoved : (mine ∘ fun row => if selects row then change row else row) = mine := by
    funext row
    simp only [Function.comp_apply]
    split
    · exact keeps row
    · rfl
  rw [updateWhere, filter_map, unmoved, updateWhere]

/-- An update that selects none of the rows changes nothing. -/
theorem updateWhere_of_none (unselected : ∀ row ∈ rows, selects row = false) :
    updateWhere selects change rows = rows := by
  conv_rhs => rw [← map_id rows]
  refine map_congr_left fun row member => ?_
  simp [unselected row member]

/-- A projection onto columns that the update does not write does not see it. -/
theorem map_updateWhere (keeps : ∀ row, selects row = true →
    view (change row) = view row) : (updateWhere selects change rows).map view = rows.map view := by
  rw [updateWhere, map_map]
  refine map_congr_left fun row _ => ?_
  cases selected : selects row with
  | false => simp [selected]
  | true => simp [selected, keeps row selected]

theorem exists_of_rowsAffected (affected : rowsAffected selects rows = 1) :
    ∃ row ∈ rows, selects row = true :=
  countP_pos_iff.mp (by rw [← rowsAffected, affected]; exact Nat.one_pos)

/-- A condition that does not look at the row holds where an update found a row. -/
theorem selects_of_rowsAffected
    (affected : rowsAffected (fun row => selects row && holds) rows = 1) :
    (fun row => selects row && holds) = selects := by
  obtain ⟨row, -, selected⟩ := exists_of_rowsAffected affected
  rw [Bool.and_eq_true] at selected
  simp [selected.2]

/-- An update of one row, seen by a selection that has one row and all those updated. -/
theorem updateWhere_only (affected : rowsAffected selects rows = 1)
    (within : ∀ row, selects row = true → mine row = true) (only : rows.filter mine = [row]) :
    updateWhere selects change (rows.filter mine) = [change row] := by
  obtain ⟨other, member, selected⟩ := exists_of_rowsAffected affected
  have listed : other ∈ rows.filter mine := mem_filter.mpr ⟨member, within other selected⟩
  rw [only, mem_singleton] at listed
  subst listed
  rw [only]
  simp [updateWhere, selected]

/-- An update after which no other row counts. -/
theorem countP_updateWhere_le (before : ∀ row, selects row = true →
    counts (change row) = true → counts row = true) :
    (updateWhere selects change rows).countP counts ≤ rows.countP counts := by
  rw [updateWhere, countP_map]
  refine countP_mono_left fun row _ counted => ?_
  simp only [Function.comp_apply] at counted
  split at counted
  next selected => exact before row selected counted
  next => exact counted

/-- An update of rows that counted and no longer do. -/
theorem countP_updateWhere (before : ∀ row ∈ rows, selects row = true →
    counts row = true) (after : ∀ row, counts (change row) = false) :
    (updateWhere selects change rows).countP counts + rowsAffected selects rows =
      rows.countP counts := by
  induction rows with
  | nil => rfl
  | cons row rows ih =>
    have rest := ih fun other member => before other (mem_cons_of_mem row member)
    rw [updateWhere, rowsAffected] at rest ⊢
    simp only [map_cons, countP_cons]
    cases selected : selects row with
    | false => simp [← rest]; omega
    | true => simp [after row, before row mem_cons_self selected, ← rest]; omega

/-- An update of the row with a given key. -/
theorem rowsAffected_eq_one (distinct : (rows.map key).Nodup) (listed : row ∈ rows)
    (selected : selects row = true) (only : ∀ other, selects other = true → key other = key row) :
    rowsAffected selects rows = 1 := by
  classical
  have alone : rows.countP selects = rows.countP (· == row) := by
    refine countP_congr fun other member => ?_
    rw [beq_iff_eq]
    constructor
    · exact fun hit => inj_on_of_nodup_map distinct member listed (only other hit)
    · rintro rfl
      exact selected
  rw [rowsAffected, alone]
  exact count_eq_one_of_mem distinct.of_map listed

/-- A lookup by a column without repetitions. -/
theorem find_key_eq_some [DecidableEq β] (distinct : (rows.map key).Nodup) {k : β} :
    rows.find? (key · = k) = some row ↔ row ∈ rows ∧ key row = k := by
  constructor
  · intro found
    exact ⟨mem_of_find?_eq_some found, by simpa using find?_some found⟩
  · rintro ⟨member, rfl⟩
    cases found : rows.find? (key · = key row) with
    | none => simpa using find?_eq_none.mp found row member
    | some other =>
      have same : key other = key row := by simpa using find?_some found
      rw [inj_on_of_nodup_map distinct (mem_of_find?_eq_some found) member same]

end Nomifun.Library.Table
