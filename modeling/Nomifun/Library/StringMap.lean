import Mathlib.Data.Finset.Sort
import Mathlib.Data.String.Basic

/-!
# Ordered maps and sets of strings

The map is the extensional tree map of the standard library, so that equal contents are
equal maps; these lemmas restate its lookups with equality of keys in place of the
comparison function.
-/
namespace Nomifun.Library

abbrev StringMap (α : Type) := Std.ExtTreeMap String α compare

abbrev StringSet := Finset String

instance isTransLe : IsTrans String (· ≤ ·) := inferInstance

instance antisymmLe : @Std.Antisymm String (· ≤ ·) := inferInstance

namespace StringMap

variable (m : StringMap α)

theorem get_insert (k a : String) (v : α) :
    (m.insert k v)[a]? = if k = a then some v else m[a]? := by
  simp [Std.ExtTreeMap.getElem?_insert]

theorem get_erase (k a : String) : (m.erase k)[a]? = if k = a then none else m[a]? := by
  simp [Std.ExtTreeMap.getElem?_erase]

/-- `retain` keeps an entry exactly when the test accepts it. -/
theorem get_filter (test : String → α → Bool) (a : String) :
    (m.filter test)[a]? = m[a]?.filter (test a) := by
  rw [Std.ExtTreeMap.getElem?_filter']

end StringMap
end Nomifun.Library
