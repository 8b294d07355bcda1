import Mathlib.Algebra.Ring.Nat

/-!
Unsigned machine counters, kept as natural numbers with the bound stated at each
operation. Checked operations return `none` where the source panics or reports an
error, saturating ones clamp; neither ever wraps.
-/
namespace Nomifun.Library.MachineInt

variable {bound b a : Nat}

def u8Max : Nat := 2 ^ 8 - 1
def u16Max : Nat := 2 ^ 16 - 1
def u32Max : Nat := 2 ^ 32 - 1
def u64Max : Nat := 2 ^ 64 - 1
def i64Max : Nat := 2 ^ 63 - 1

/-- `a.checked_add(b)` on a counter whose largest value is `bound`. -/
def checkedAdd (bound a b : Nat) : Option Nat :=
  if a + b ≤ bound then some (a + b) else none

/-- `a.checked_sub(b)`; the same for every width. -/
def checkedSub (a b : Nat) : Option Nat :=
  if b ≤ a then some (a - b) else none

/-- `a.checked_mul(b)` on a counter whose largest value is `bound`. -/
def checkedMul (bound a b : Nat) : Option Nat :=
  if a * b ≤ bound then some (a * b) else none

def saturatingAdd (bound a b : Nat) : Nat := min (a + b) bound

def saturatingMul (bound a b : Nat) : Nat := min (a * b) bound

theorem checkedAdd_eq_some : checkedAdd bound a b = some c ↔ a + b ≤ bound ∧ c = a + b := by
  unfold checkedAdd
  split
  next h => simp [h, eq_comm]
  next h => simp [h]

theorem checkedAdd_of_le (h : a + b ≤ bound) : checkedAdd bound a b = some (a + b) := by
  simp [checkedAdd, h]

theorem checkedSub_of_le (h : b ≤ a) : checkedSub a b = some (a - b) := by
  simp [checkedSub, h]

theorem saturatingAdd_le (bound a b : Nat) : saturatingAdd bound a b ≤ bound :=
  Nat.min_le_right _ _

theorem saturatingAdd_of_le (h : a + b ≤ bound) :
    saturatingAdd bound a b = a + b := Nat.min_eq_left h

theorem saturatingMul_of_le (h : a * b ≤ bound) :
    saturatingMul bound a b = a * b := Nat.min_eq_left h

end Nomifun.Library.MachineInt
