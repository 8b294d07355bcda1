import Nomifun.Library.MachineInt
import Mathlib.Data.String.Basic

/-!
# JSON values

The value type of `serde_json`. A parsed object is the list of its entries in key order,
as its default map keeps them; a struct that is written directly has its fields in
declaration order. Numbers are unsigned, negative or floating-point; a float is its bit
pattern and only its printed form depends on the environment.
-/
namespace Nomifun.Library.Json

/-- A JSON number: `negInt n` is `-(n + 1)`. -/
inductive Number where
  | posInt (n : Nat)
  | negInt (n : Nat)
  | float (bits : UInt64)
  deriving DecidableEq

inductive Value where
  | null
  | bool (b : Bool)
  | number (n : Number)
  | string (s : String)
  | array (items : List Value)
  | object (entries : List (String × Value))

namespace Value

def nat (n : Nat) : Value := .number (.posInt n)

def int : Int → Value
  | .ofNat n => .number (.posInt n)
  | .negSucc n => .number (.negInt n)

def option {α : Type} (encode : α → Value) : Option α → Value
  | none => .null
  | some a => encode a

def member (v : Value) (key : String) : Option Value :=
  match v with
  | .object entries => entries.lookup key
  | _ => none

/-- Indexing: a missing key and a value that is no object both read as null. -/
def get (v : Value) (key : String) : Value := (v.member key).getD .null

def asStr : Value → Option String
  | .string s => some s
  | _ => none

def asBool : Value → Option Bool
  | .bool b => some b
  | _ => none

def asU64 : Value → Option Nat
  | .number (.posInt n) => some n
  | _ => none

def asArray : Value → Option (List Value)
  | .array items => some items
  | _ => none

def asObject : Value → Option (List (String × Value))
  | .object entries => some entries
  | _ => none

mutual

def decEq : (a b : Value) → Decidable (a = b)
  | .null, .null => isTrue rfl
  | .bool a, .bool b => decidable_of_iff (a = b) (by simp)
  | .number a, .number b => decidable_of_iff (a = b) (by simp)
  | .string a, .string b => decidable_of_iff (a = b) (by simp)
  | .array a, .array b =>
    match decEqItems a b with
    | isTrue h => isTrue (by rw [h])
    | isFalse h => isFalse (by simpa using h)
  | .object a, .object b =>
    match decEqEntries a b with
    | isTrue h => isTrue (by rw [h])
    | isFalse h => isFalse (by simpa using h)
  | .null, .bool _ | .null, .number _ | .null, .string _ | .null, .array _ | .null, .object _
  | .bool _, .null | .bool _, .number _ | .bool _, .string _ | .bool _, .array _
  | .bool _, .object _ | .number _, .null | .number _, .bool _ | .number _, .string _
  | .number _, .array _ | .number _, .object _ | .string _, .null | .string _, .bool _
  | .string _, .number _ | .string _, .array _ | .string _, .object _ | .array _, .null
  | .array _, .bool _ | .array _, .number _ | .array _, .string _ | .array _, .object _
  | .object _, .null | .object _, .bool _ | .object _, .number _ | .object _, .string _
  | .object _, .array _ => isFalse (by simp)

def decEqItems : (a b : List Value) → Decidable (a = b)
  | [], [] => isTrue rfl
  | x :: xs, y :: ys =>
    match decEq x y, decEqItems xs ys with
    | isTrue h, isTrue t => isTrue (by rw [h, t])
    | isFalse h, _ => isFalse (by simp [h])
    | _, isFalse t => isFalse (by simp [t])
  | [], _ :: _ | _ :: _, [] => isFalse (by simp)

def decEqEntries : (a b : List (String × Value)) → Decidable (a = b)
  | [], [] => isTrue rfl
  | (k, x) :: xs, (l, y) :: ys =>
    if key : k = l then
      match decEq x y, decEqEntries xs ys with
      | isTrue h, isTrue t => isTrue (by rw [key, h, t])
      | isFalse h, _ => isFalse (by simp [h])
      | _, isFalse t => isFalse (by simp [t])
    else isFalse (by simp [key])
  | [], _ :: _ | _ :: _, [] => isFalse (by simp)

end

instance : DecidableEq Value := decEq

end Value

/-- Insertion into an ordered map: an existing key takes the new value. -/
def insertEntry (key : String) (v : Value) : List (String × Value) → List (String × Value)
  | [] => [(key, v)]
  | (other, w) :: rest =>
    match compare key other with
    | .lt => (key, v) :: (other, w) :: rest
    | .eq => (key, v) :: rest
    | .gt => (other, w) :: insertEntry key v rest

/-! A document read as a value: objects in key order, a repeated key with its last value. -/
mutual

def collected : Value → Value
  | .array items => .array (collectedItems items)
  | .object entries => .object (collectedEntries [] entries)
  | .null => .null
  | .bool b => .bool b
  | .number n => .number n
  | .string s => .string s

def collectedItems : List Value → List Value
  | [] => []
  | v :: rest => collected v :: collectedItems rest

def collectedEntries (sorted : List (String × Value)) :
    List (String × Value) → List (String × Value)
  | [] => sorted
  | (key, v) :: rest => collectedEntries (insertEntry key (collected v) sorted) rest

end

def hexDigit (n : Nat) : Char := Char.ofNat (if n < 10 then 48 + n else 87 + n)

def escape (c : Char) : List Char :=
  match c with
  | '"' => ['\\', '"']
  | '\\' => ['\\', '\\']
  | '\n' => ['\\', 'n']
  | '\r' => ['\\', 'r']
  | '\t' => ['\\', 't']
  | c =>
    if c.toNat = 8 then ['\\', 'b']
    else if c.toNat = 12 then ['\\', 'f']
    else if c.toNat < 32 then
      ['\\', 'u', '0', '0', hexDigit (c.toNat / 16), hexDigit (c.toNat % 16)]
    else [c]

def quoted (s : String) : List Char := ['"'] ++ s.toList.flatMap escape ++ ['"']

def numberText (float : UInt64 → List Char) : Number → List Char
  | .posInt n => (toString n).toList
  | .negInt n => '-' :: (toString (n + 1)).toList
  | .float bits => float bits

/-! The compact text of a value; `float` prints a floating-point number. -/
mutual

def compact (float : UInt64 → List Char) : Value → List Char
  | .null => "null".toList
  | .bool b => (toString b).toList
  | .number n => numberText float n
  | .string s => quoted s
  | .array items => ['['] ++ compactItems float items ++ [']']
  | .object entries => ['\x7b'] ++ compactEntries float entries ++ ['\x7d']

def compactItems (float : UInt64 → List Char) : List Value → List Char
  | [] => []
  | [v] => compact float v
  | v :: rest => compact float v ++ [','] ++ compactItems float rest

def compactEntries (float : UInt64 → List Char) : List (String × Value) → List Char
  | [] => []
  | [(key, v)] => quoted key ++ [':'] ++ compact float v
  | (key, v) :: rest => quoted key ++ [':'] ++ compact float v ++ [','] ++ compactEntries float rest

end

/-- The length of the text in UTF-8. -/
def size (float : UInt64 → List Char) (v : Value) : Nat :=
  ((compact float v).map Char.utf8Size).sum

end Nomifun.Library.Json
