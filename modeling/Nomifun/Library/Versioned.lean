import Nomifun.Library.Table

/-!
# Rows with versions

A table whose rows have a key and a version. Between two states of it a row keeps its key; it
changes only together with a larger version, and no more once it is settled (`Keeps`). Rows may be
added. What each transaction does in this way a sequence of them does (`Evolves.trans`), and a
version that a row has left behind is never found again (`Evolves.stale`).
-/
namespace Nomifun.Library
open Table

structure Versioning (α κ : Type) where
  key : α → κ
  version : α → Int
  settled : α → Bool

namespace Versioning

variable {α κ : Type} {table : Versioning α κ} {rows rows' rows'' : List α} {row row' : α}

/-- A row between two states of its table. -/
structure Keeps (table : Versioning α κ) (before after : α) : Prop where
  key : table.key after = table.key before
  version : after = before ∨
    table.settled before = false ∧ table.version before < table.version after

theorem Keeps.refl (row : α) : table.Keeps row row := ⟨rfl, .inl rfl⟩

theorem Keeps.of_succ (key : table.key row' = table.key row) (unsettled : table.settled row = false)
    (version : table.version row' = table.version row + 1) : table.Keeps row row' :=
  ⟨key, .inr ⟨unsettled, by omega⟩⟩

theorem Keeps.trans (before : table.Keeps first second) (after : table.Keeps second third) :
    table.Keeps first third := by
  refine ⟨after.key.trans before.key, ?_⟩
  obtain same | ⟨unsettled, grown⟩ := before.version
  · rw [← same]
    exact after.version
  · obtain same | ⟨-, grows⟩ := after.version
    · rw [same]
      exact .inr ⟨unsettled, grown⟩
    · exact .inr ⟨unsettled, Int.lt_trans grown grows⟩

theorem Keeps.version_le (keeps : table.Keeps row row') :
    table.version row ≤ table.version row' := by
  obtain rfl | ⟨-, grown⟩ := keeps.version
  · exact Int.le_refl _
  · exact Int.le_of_lt grown

/-- Every row is still there. -/
def Evolves (table : Versioning α κ) (rows rows' : List α) : Prop :=
  ∀ row ∈ rows, ∃ row' ∈ rows', table.Keeps row row'

theorem Evolves.refl (rows : List α) : table.Evolves rows rows :=
  fun row listed => ⟨row, listed, .refl row⟩

theorem Evolves.trans (before : table.Evolves rows rows') (after : table.Evolves rows' rows'') :
    table.Evolves rows rows'' := by
  intro row listed
  obtain ⟨row', listed', kept⟩ := before row listed
  obtain ⟨row'', listed'', keeps⟩ := after row' listed'
  exact ⟨row'', listed'', kept.trans keeps⟩

theorem Evolves.append (rows added : List α) : table.Evolves rows (rows ++ added) :=
  fun row listed => ⟨row, List.mem_append_left added listed, .refl row⟩

theorem Evolves.map (each : ∀ row, table.Keeps row (change row)) :
    table.Evolves rows (rows.map change) :=
  fun row listed => ⟨change row, List.mem_map_of_mem listed, each row⟩

theorem Evolves.updateWhere (each : ∀ row, selects row = true → table.Keeps row (change row)) :
    table.Evolves rows (updateWhere selects change rows) := by
  refine .map fun row => ?_
  split
  next selected => exact each row selected
  next => exact .refl row

/-- An update that expects a version leaves it behind, whatever comes after it. -/
theorem Evolves.leaves (table : Versioning α κ) (change : α → α) {key : κ} {version : Int}
    (affected : rowsAffected selects rows = 1)
    (expects : ∀ row, selects row = true → table.key row = key ∧ table.version row = version)
    (moves : ∀ row, table.key (change row) = table.key row ∧
      table.version row < table.version (change row))
    (later : table.Evolves (Table.updateWhere selects change rows) rows') :
    ∃ row ∈ rows, table.key row = key ∧ table.version row = version ∧
      ∃ row' ∈ rows', table.key row' = key ∧ version < table.version row' := by
  obtain ⟨row, listed, selected⟩ := exists_of_rowsAffected affected
  obtain ⟨own, current⟩ := expects row selected
  obtain ⟨sameKey, moved⟩ := moves row
  have written : change row ∈ Table.updateWhere selects change rows :=
    List.mem_map.mpr ⟨row, listed, if_pos selected⟩
  obtain ⟨row', listed', kept⟩ := later (change row) written
  have grown := kept.version_le
  exact ⟨row, listed, own, current, row', listed', kept.key.trans (sameKey.trans own), by omega⟩

section

variable (distinct : (rows'.map table.key).Nodup)
include distinct

/-- A row is found again by its key. -/
theorem Evolves.keeps (evolves : table.Evolves rows rows') (listed : row ∈ rows)
    (listed' : row' ∈ rows') (same : table.key row' = table.key row) : table.Keeps row row' := by
  obtain ⟨next, found, kept⟩ := evolves row listed
  have own : next = row' :=
    List.inj_on_of_nodup_map distinct found listed' (kept.key.trans same.symm)
  exact own ▸ kept

/-- A version that a row has left behind is not the version of its key again. -/
theorem Evolves.stale (evolves : table.Evolves rows rows') (listed : row ∈ rows) {version : Int}
    (left : version < table.version row) (listed' : row' ∈ rows')
    (same : table.key row' = table.key row) : table.version row' ≠ version := by
  have grown := (evolves.keeps distinct listed listed' same).version_le
  omega

end

/-- A settled row stays as it is. -/
theorem Evolves.settled (evolves : table.Evolves rows rows') (listed : row ∈ rows)
    (settled : table.settled row = true) : row ∈ rows' := by
  obtain ⟨next, found, kept⟩ := evolves row listed
  obtain rfl | ⟨open', -⟩ := kept.version
  · exact found
  · rw [settled] at open'
    cases open'

end Versioning

end Nomifun.Library
