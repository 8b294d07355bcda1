import Nomifun.Library.MachineInt
import Nomifun.Library.RustText

/-!
# Order keys

nomifun-requirement, order_key.rs:8-27.
-/
namespace Nomifun.Source.Requirement
open Library Library.RustText

def segmentWidth : Nat := 8
def sentinel : String := "99999999"

/-- `parse::<u64>`. -/
def parseU64 (raw : String) : Option Nat :=
  let digits := ((stripStart "+" raw).getD raw).toList
  let n := Nat.ofDigitChars 10 digits 0
  if digits ≠ [] ∧ digits.all Char.isDigit ∧ n ≤ MachineInt.u64Max then some n else none

/-- `format!("\x7bn:0>width$\x7d")`. -/
def padded (n : Nat) : String :=
  let digits := Nat.toDigits 10 n
  String.ofList (List.replicate (segmentWidth - digits.length) '0' ++ digits)

/-- The numbers between the dots; `none` if one of them is malformed. -/
def segments (orderKey : String) : Option (List Nat) :=
  ((trim orderKey).toList.splitOn '.').mapM fun raw => parseU64 (trim (String.ofList raw))

def toSortSeq (orderKey : String) : String :=
  if (trim orderKey).isEmpty then sentinel
  else
    match segments orderKey with
    | some segments => ".".intercalate (segments.map padded)
    | none => sentinel

end Nomifun.Source.Requirement
