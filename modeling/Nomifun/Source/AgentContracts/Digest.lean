import Nomifun.Library.Checks
import Nomifun.Library.OrderedJson
import Nomifun.Library.Serde

/-!
# Canonical digests (nomifun-agent-contracts, digest.rs:14-85)

A payload is turned into a JSON value, its objects are put into key order, and the
compact text is hashed. SHA-256 and the text of a float are left to the platform.
-/
namespace Nomifun.Source.AgentContracts
open Library Library.Json

abbrev DigestHex := String

/-- What the program takes from its libraries: SHA-256, the JSON text of a float, the JSON
parser (objects with their entries as the text has them) and the wording of decoding
errors. -/
structure Platform where
  sha256 : List UInt8 → Vector UInt8 32
  floatText : UInt64 → List Char
  parseJson : String → Option Value
  describe : Serde.DecodeError → String

inductive CanonicalDigestError where
  | nonFiniteNumber
  deriving DecidableEq

def CanonicalDigestError.message : CanonicalDigestError → String
  | .nonFiniteNumber => "non-finite JSON numbers are not canonical contract values"

/-- A 64-bit float is infinite or no number exactly when its exponent bits are all set. -/
def isFinite (bits : UInt64) : Bool := (bits >>> 52) &&& 0x7FF != 0x7FF

mutual

def canonicalizeValue : Value → Except CanonicalDigestError Value
  | .array items => (canonicalizeItems items).map .array
  | .object entries => (canonicalizeEntries [] entries).map .object
  | .number (.float bits) =>
    if isFinite bits then .ok (.number (.float bits)) else .error .nonFiniteNumber
  | .number n => .ok (.number n)
  | .null => .ok .null
  | .bool b => .ok (.bool b)
  | .string s => .ok (.string s)

def canonicalizeItems : List Value → Except CanonicalDigestError (List Value)
  | [] => .ok []
  | v :: rest =>
    match canonicalizeValue v with
    | .error e => .error e
    | .ok v => (canonicalizeItems rest).map (v :: ·)

/-- Collects the canonical members into `sorted`. -/
def canonicalizeEntries (sorted : List (String × Value)) :
    List (String × Value) → Except CanonicalDigestError (List (String × Value))
  | [] => .ok sorted
  | (key, v) :: rest =>
    match canonicalizeValue v with
    | .error e => .error e
    | .ok v => canonicalizeEntries (insertEntry key v sorted) rest

end

def canonicalJsonBytes (platform : Platform) (v : Value) :
    Except CanonicalDigestError (List UInt8) :=
  (canonicalizeValue v).map fun canonical =>
    (compact platform.floatText canonical).flatMap String.utf8EncodeChar

def hexEncode (bytes : List UInt8) : String :=
  String.ofList (bytes.flatMap fun b => [hexDigit (b.toNat / 16), hexDigit (b.toNat % 16)])

def digestBytes (platform : Platform) (bytes : List UInt8) : DigestHex :=
  hexEncode (platform.sha256 bytes).toList

def digestPayload (platform : Platform) (v : Value) : Except CanonicalDigestError DigestHex :=
  (canonicalJsonBytes platform v).map (digestBytes platform)

/-- The digest shape every reader of a stored digest checks. -/
def isHexDigest (digest : DigestHex) : Bool :=
  digest.utf8ByteSize == 64 && digest.toList.all fun c =>
    ('0' ≤ c && c ≤ '9') || ('a' ≤ c && c ≤ 'f') || ('A' ≤ c && c ≤ 'F')

theorem hexDigit_digit : ∀ n, n < 16 →
    (('0' ≤ hexDigit n && hexDigit n ≤ '9') || ('a' ≤ hexDigit n && hexDigit n ≤ 'f')) = true ∧
      (hexDigit n).utf8Size = 1 := by
  decide

theorem ofList_byteSize (chars : List Char) :
    (String.ofList chars).utf8ByteSize = (chars.map Char.utf8Size).sum := by
  induction chars with
  | nil => rfl
  | cons c chars ih =>
    rw [String.ofList_cons, String.utf8ByteSize_append, ih, String.utf8ByteSize_singleton]
    simp

open List in
/-- Two hex digits, each one octet long, per octet. -/
theorem hexEncode_shape (bytes : List UInt8) :
    (hexEncode bytes).utf8ByteSize = 2 * bytes.length ∧ ∀ c ∈ (hexEncode bytes).toList,
        (('0' ≤ c && c ≤ '9') || ('a' ≤ c && c ≤ 'f')) = true := by
  rw [hexEncode, ofList_byteSize, String.toList_ofList]
  induction bytes with
  | nil => simp
  | cons b bytes ih =>
    have high := hexDigit_digit (b.toNat / 16) (by have := b.toNat_lt; omega)
    have low := hexDigit_digit (b.toNat % 16) (Nat.mod_lt _ (by decide))
    refine ⟨?_, ?_⟩
    · simp only [flatMap_cons, map_append, map_cons, map_nil, sum_append,
        sum_cons, sum_nil, high.2, low.2, ih.1, length_cons]
      omega
    · intro c member
      simp only [flatMap_cons, mem_append, mem_cons, not_mem_nil, or_false] at member
      rcases member with (rfl | rfl) | later
      · exact high.1
      · exact low.1
      · exact ih.2 c later

theorem isHexDigest_digestBytes (platform : Platform) (bytes : List UInt8) :
    isHexDigest (digestBytes platform bytes) = true := by
  obtain ⟨size_eq, digits⟩ := hexEncode_shape (platform.sha256 bytes).toList
  simp only [isHexDigest, digestBytes, size_eq, Vector.length_toList, Bool.and_eq_true,
    beq_self_eq_true, List.all_eq_true, true_and]
  intro c member
  rw [digits c member, Bool.true_or]

theorem isHexDigest_digestPayload (h : digestPayload platform v = .ok digest) :
    isHexDigest digest = true := by
  obtain ⟨canonical, -, rfl⟩ := map_eq_ok.mp h
  exact isHexDigest_digestBytes platform canonical

/-! ### The canonical form of a value in key order -/

open List

/-- The test for numbers that have a canonical text. -/
def numberFinite : Value → Bool
  | .number (.float bits) => isFinite bits
  | .number (.posInt _) | .number (.negInt _) => true
  | .null | .bool _ | .string _ | .array _ | .object _ => true

def finite : Value → Bool := hereditary numberFinite

mutual

/-- A value has a canonical form if its numbers are finite: all its objects collected. -/
theorem canonicalizeValue_ok : ∀ {v w : Value},
    canonicalizeValue v = .ok w ↔ finite v = true ∧ collected v = w
  | .null, _ | .bool _, _ | .string _, _ => by
    simp [canonicalizeValue, collected, finite, hereditary, numberFinite]
  | .number (.posInt _), _ | .number (.negInt _), _ => by
    simp [canonicalizeValue, collected, finite, hereditary, numberFinite]
  | .number (.float bits), _ => by
    rw [canonicalizeValue, collected, finite, hereditary, numberFinite]
    split <;> simp_all
  | .array items, _ => by
    simp [canonicalizeValue, map_eq_ok, @canonicalizeItems_ok items, collected, finite,
      hereditary, numberFinite, and_assoc]
  | .object entries, _ => by
    simp [canonicalizeValue, map_eq_ok, @canonicalizeEntries_ok entries, collected, finite,
      hereditary, numberFinite, and_assoc]

theorem canonicalizeItems_ok : ∀ {items results : List Value},
    canonicalizeItems items = .ok results ↔
      hereditaryItems numberFinite items = true ∧ collectedItems items = results
  | [], _ => by simp [canonicalizeItems, collectedItems, hereditaryItems]
  | v :: rest, _ => by
    have steps : canonicalizeItems (v :: rest) =
        canonicalizeValue v >>= fun w => (canonicalizeItems rest).map (w :: ·) := by
      rw [canonicalizeItems]
      cases canonicalizeValue v <;> rfl
    simp [steps, bind_eq_ok, map_eq_ok, @canonicalizeValue_ok v, @canonicalizeItems_ok rest, finite,
      collectedItems, hereditaryItems, and_assoc]

theorem canonicalizeEntries_ok : ∀ {entries sorted results : List (String × Value)},
    canonicalizeEntries sorted entries = .ok results ↔
      hereditaryEntries numberFinite entries = true ∧ collectedEntries sorted entries = results
  | [], _, _ => by simp [canonicalizeEntries, collectedEntries, hereditaryEntries]
  | (key, v) :: rest, sorted, _ => by
    have steps : canonicalizeEntries sorted ((key, v) :: rest) =
        canonicalizeValue v >>= fun w => canonicalizeEntries (insertEntry key w sorted) rest := by
      rw [canonicalizeEntries]
      cases canonicalizeValue v <;> rfl
    simp [steps, bind_eq_ok, @canonicalizeValue_ok v, @canonicalizeEntries_ok rest, finite,
      collectedEntries, hereditaryEntries, and_assoc]

end

mutual

theorem collected_ordered : ∀ {v : Value}, ordered v = true → collected v = v
  | .null, _ | .bool _, _ | .string _, _ | .number _, _ => by rw [collected]
  | .array items, orderly => by
    rw [collected, collectedItems_ordered (hereditary_array.mp orderly).2]
  | .object entries, orderly => by
    obtain ⟨increase, parts⟩ := hereditary_object.mp orderly
    have increasing : Increasing ([] ++ entries) := by simpa [keysIncrease] using increase
    rw [collected, collectedEntries_ordered increasing parts, nil_append]

theorem collectedItems_ordered : ∀ {items : List Value}, (∀ v ∈ items, ordered v = true) →
    collectedItems items = items
  | [], _ => by rw [collectedItems]
  | v :: rest, orderly => by
    rw [forall_mem_cons] at orderly
    rw [collectedItems, collected_ordered orderly.1, collectedItems_ordered orderly.2]

theorem collectedEntries_ordered : ∀ {sorted entries : List (String × Value)},
    Increasing (sorted ++ entries) → (∀ entry ∈ entries, ordered entry.2 = true) →
    collectedEntries sorted entries = sorted ++ entries
  | sorted, [], _, _ => by rw [collectedEntries, append_nil]
  | sorted, (key, v) :: rest, increasing, orderly => by
    rw [forall_mem_cons] at orderly
    have last : ∀ entry ∈ sorted, entry.1 < key := by
      rw [Increasing, map_append, pairwise_append] at increasing
      exact fun entry member => increasing.2.2 _ (mem_map_of_mem member) _ (by simp)
    rw [collectedEntries, collected_ordered orderly.1, insertEntry_last last,
      collectedEntries_ordered (by simpa using increasing) orderly.2]
    simp

end

/-- A finite value in key order is its own canonical form. -/
theorem canonicalizeValue_ordered (orderly : ordered v = true) (numbers : finite v = true) :
    canonicalizeValue v = .ok v :=
  canonicalizeValue_ok.mpr ⟨numbers, collected_ordered orderly⟩

theorem length_flatMap_utf8EncodeChar (chars : List Char) :
    (chars.flatMap String.utf8EncodeChar).length = (chars.map Char.utf8Size).sum := by
  simp [length_flatMap]

/-- The canonical bytes of a value in key order, and how many there are. -/
theorem canonicalJsonBytes_ordered (platform : Platform) (orderly : ordered v = true)
    (numbers : finite v = true) : ∃ bytes, canonicalJsonBytes platform v = .ok bytes ∧
      bytes.length = size platform.floatText v := by
  rw [canonicalJsonBytes, canonicalizeValue_ordered orderly numbers]
  exact ⟨_, rfl, length_flatMap_utf8EncodeChar _⟩

theorem finite_of_canonicalJsonBytes (ok : canonicalJsonBytes platform v = .ok bytes) :
    finite v = true := by
  obtain ⟨w, canonical, -⟩ := map_eq_ok.mp ok
  exact (canonicalizeValue_ok.mp canonical).1

theorem numberFinite_put (v : Value) (token : String) (x : Value)
    (finite : numberFinite v = true) : numberFinite (JsonPointer.put v token x) = true := by
  cases v with
  | object entries => rfl
  | array items =>
    unfold JsonPointer.put
    cases JsonPointer.parseIndex token <;> rfl
  | null | bool | number | string => exact finite

theorem finite_set (numbers : finite v = true) (new : finite x = true) :
    finite (JsonPointer.set x path v) = true :=
  hereditary_set numberFinite_put numbers new

end Nomifun.Source.AgentContracts
