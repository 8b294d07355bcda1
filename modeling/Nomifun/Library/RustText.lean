import Mathlib.Data.List.Basic

/-!
# Text predicates

The character classes and trimming the Rust standard library uses: `White_Space` and
`Cc` of Unicode.
-/
namespace Nomifun.Library.RustText

def isWhitespace (c : Char) : Bool :=
  let n := c.toNat
  (9 ≤ n && n ≤ 13) || n == 0x20 || n == 0x85 || n == 0xA0 || n == 0x1680 ||
    (0x2000 ≤ n && n ≤ 0x200A) || n == 0x2028 || n == 0x2029 || n == 0x202F || n == 0x205F ||
    n == 0x3000

def isControl (c : Char) : Bool := c.toNat < 0x20 || (0x7F ≤ c.toNat && c.toNat ≤ 0x9F)

def trim (s : String) : String :=
  String.ofList ((s.toList.dropWhile isWhitespace).reverse.dropWhile isWhitespace).reverse

def toAsciiLowercase (s : String) : String := String.ofList (s.toList.map Char.toLower)

/-- `contains`: the part starts somewhere in the text. -/
def contains (part s : String) : Bool := s.toList.tails.any (part.toList.isPrefixOf ·)

/-- `strip_prefix`. -/
def stripStart (start s : String) : Option String :=
  if start.toList.isPrefixOf s.toList then some (String.ofList (s.toList.drop start.length))
  else none

theorem stripStart_eq_some (stripped : stripStart start s = some rest) : s = start ++ rest := by
  unfold stripStart at stripped
  split at stripped
  next starts =>
    cases stripped
    obtain ⟨after, whole⟩ := List.isPrefixOf_iff_prefix.mp starts
    refine String.toList_inj.mp ?_
    rw [String.toList_append, String.toList_ofList, ← whole, ← String.length_toList, List.drop_left]
  next => cases stripped

end Nomifun.Library.RustText
