import Nomifun.Library.Scanner
import Mathlib.Data.Char

/-!
# UTF-8 validation as the Rust standard library performs it

`leading` is one iteration of the validation loop behind `std::str::from_utf8`: the
first byte fixes the width and the tests its followers must pass, where E0, ED, F0 and
F4 restrict the second byte. `fromUtf8` runs it over a byte string and reports how far
the input was valid and, unless the input merely ends too early, how many bytes the
malformed sequence occupies.

`utf8Scanner` reads the same loop as a scanner whose items are scalars and malformed
sequences; `fromUtf8_ok` and `fromUtf8_error` connect the two readings.
-/
namespace Nomifun.Library.Utf8
open List

variable {input : List UInt8} {n : Nat}

/-- The source test `byte as i8 < -64`. -/
def isContinuation (byte : UInt8) : Bool := 0x80 ≤ byte && byte ≤ 0xBF

/-- Second bytes of a three-byte sequence: no overlong form and no surrogate. -/
def secondOfThree (first second : UInt8) : Bool :=
  (first == 0xE0 && 0xA0 ≤ second && second ≤ 0xBF) ||
  (0xE1 ≤ first && first ≤ 0xEC && 0x80 ≤ second && second ≤ 0xBF) ||
  (first == 0xED && 0x80 ≤ second && second ≤ 0x9F) ||
  (0xEE ≤ first && first ≤ 0xEF && 0x80 ≤ second && second ≤ 0xBF)

/-- Second bytes of a four-byte sequence: no overlong form, nothing above U+10FFFF. -/
def secondOfFour (first second : UInt8) : Bool :=
  (first == 0xF0 && 0x90 ≤ second && second ≤ 0xBF) ||
  (0xF1 ≤ first && first ≤ 0xF3 && 0x80 ≤ second && second ≤ 0xBF) ||
  (first == 0xF4 && 0x80 ≤ second && second ≤ 0x8F)

/-- The tests on the bytes after the first one, by `utf8_char_width`; `none` for a byte
that starts no sequence. -/
def followers (first : UInt8) : Option (List (UInt8 → Bool)) :=
  if first < 0x80 then some []
  else if 0xC2 ≤ first ∧ first ≤ 0xDF then some [isContinuation]
  else if 0xE0 ≤ first ∧ first ≤ 0xEF then some [secondOfThree first, isContinuation]
  else if 0xF0 ≤ first ∧ first ≤ 0xF4 then
    some [secondOfFour first, isContinuation, isContinuation]
  else none

inductive Sequence where
  | complete (width : Nat)
  | invalid (errorLen : Nat)
  | truncated
  deriving DecidableEq

/-- `next!()` for each follower: a byte failing its test is not part of the malformed
sequence, and running off the input reports no error length. -/
def follow (seen : Nat) : List (UInt8 → Bool) → List UInt8 → Sequence
  | [], _ => .complete seen
  | _ :: _, [] => .truncated
  | test :: tests, byte :: bytes =>
    if test byte then follow (seen + 1) tests bytes else .invalid seen

def leading : List UInt8 → Sequence
  | [] => .truncated
  | first :: rest =>
    match followers first with
    | none => .invalid 1
    | some tests => follow 1 tests rest

/-- The scalar value of a complete sequence. -/
def scalar : List UInt8 → Char
  | [b0] => Char.ofNat b0.toNat
  | [b0, b1] => Char.ofNat ((b0.toNat % 32) * 64 + b1.toNat % 64)
  | [b0, b1, b2] => Char.ofNat (((b0.toNat % 16) * 64 + b1.toNat % 64) * 64 + b2.toNat % 64)
  | [b0, b1, b2, b3] =>
    Char.ofNat ((((b0.toNat % 8) * 64 + b1.toNat % 64) * 64 + b2.toNat % 64) * 64 + b3.toNat % 64)
  | _ => Char.ofNat 0xFFFD

/-- Everything the followers can report: a verdict lies inside the bytes seen so far
and those given, a malformed sequence lacks a follower, and so does an unfinished one. -/
theorem follow_bounds (tests : List (UInt8 → Bool)) (seen : Nat) (bytes : List UInt8) :
    match follow seen tests bytes with
    | .complete n => n = seen + tests.length ∧ tests.length ≤ bytes.length
    | .invalid n => seen ≤ n ∧ n ≤ seen + bytes.length ∧ n < seen + tests.length
    | .truncated => bytes.length < tests.length := by
  induction tests generalizing seen bytes with
  | nil => simp [follow]
  | cons test tests ih =>
    cases bytes with
    | nil => simp [follow]
    | cons byte bytes =>
      by_cases passed : test byte
      · have step := ih (seen + 1) bytes
        simp only [follow, passed]
        split at step <;> simp_all <;> omega
      · simp [follow, passed]

/-- A verdict other than `truncated` does not look past the bytes it has. -/
theorem follow_append (tests : List (UInt8 → Bool)) (seen : Nat) (bytes later : List UInt8)
    (h : follow seen tests bytes ≠ .truncated) :
    follow seen tests (bytes ++ later) = follow seen tests bytes := by
  induction tests generalizing seen bytes with
  | nil => rfl
  | cons test tests ih =>
    cases bytes with
    | nil => exact absurd rfl h
    | cons byte bytes =>
      simp only [cons_append, follow] at h ⊢
      split
      next passed =>
        rw [if_pos passed] at h
        exact ih (seen + 1) bytes h
      next => rfl

theorem follow_take (tests : List (UInt8 → Bool)) (seen : Nat) (bytes : List UInt8)
    (h : follow seen tests bytes = .complete n) :
    follow seen tests (bytes.take tests.length) = .complete n := by
  induction tests generalizing seen bytes with
  | nil => exact h
  | cons test tests ih =>
    cases bytes with
    | nil => cases h
    | cons byte bytes =>
      simp only [length_cons, take_succ_cons, follow] at h ⊢
      split at h
      next passed =>
        rw [if_pos passed]
        exact ih (seen + 1) bytes h
      next => cases h

theorem followers_length (h : followers first = some tests) : tests.length ≤ 3 := by
  unfold followers at h
  split_ifs at h <;> cases h <;> simp

/-- The widths of a sequence: an unfinished or malformed one has at most three bytes, as the
fourth would finish it. -/
theorem leading_bounds (xs : List UInt8) :
    match leading xs with
    | .complete n => 0 < n ∧ n ≤ xs.length
    | .invalid n => 0 < n ∧ n ≤ xs.length ∧ n ≤ 3
    | .truncated => xs.length ≤ 3 := by
  cases xs with
  | nil => simp [leading]
  | cons first rest =>
    cases known : followers first with
    | none => simp [leading, known]
    | some tests =>
      have bounds := follow_bounds tests 1 rest
      have few := followers_length known
      simp only [leading, known, length_cons]
      generalize follow 1 tests rest = verdict at bounds ⊢
      cases verdict <;> dsimp only at bounds ⊢ <;> omega

theorem leading_complete (h : leading xs = .complete n) : 0 < n ∧ n ≤ xs.length := by
  have bounds := leading_bounds xs
  rwa [h] at bounds

theorem leading_invalid (h : leading xs = .invalid n) : 0 < n ∧ n ≤ xs.length ∧ n ≤ 3 := by
  have bounds := leading_bounds xs
  rwa [h] at bounds

theorem leading_truncated_length (h : leading xs = .truncated) : xs.length ≤ 3 := by
  have bounds := leading_bounds xs
  rwa [h] at bounds

theorem leading_append (later : List UInt8) (h : leading xs ≠ .truncated) :
    leading (xs ++ later) = leading xs := by
  cases xs with
  | nil => exact absurd rfl h
  | cons first rest =>
    simp only [cons_append, leading] at h ⊢
    split
    next => rfl
    next tests htests =>
      rw [htests] at h
      exact follow_append tests 1 rest later h

/-- A complete sequence is recognised from its own bytes alone. -/
theorem leading_take (h : leading xs = .complete n) (le : n ≤ m) :
    leading (xs.take m) = .complete n := by
  have own : leading (xs.take n) = .complete n := by
    cases xs with
    | nil => cases h
    | cons first rest =>
      simp only [leading] at h
      split at h
      · cases h
      next tests htests =>
        have bounds := follow_bounds tests 1 rest
        rw [h] at bounds
        have width : n = tests.length + 1 := by omega
        simp only [width, take_succ_cons, leading, htests]
        rw [follow_take tests 1 rest h, width]
  have split : xs.take m = xs.take n ++ (xs.drop n).take (m - n) := by
    rw [← take_append_drop n (xs.take m), take_take, drop_take, Nat.min_eq_left le]
  rw [split, leading_append _ (by simp [own]), own]

structure Utf8Error where
  validUpTo : Nat
  errorLen : Option Nat

/-- `std::str::from_utf8`; the accepted text is the list of its scalars. -/
def fromUtf8 (input : List UInt8) : Except Utf8Error (List Char) :=
  if input = [] then .ok []
  else
    match _found : leading input with
    | .truncated => .error ⟨0, none⟩
    | .invalid n => .error ⟨0, some n⟩
    | .complete n =>
      match fromUtf8 (input.drop n) with
      | .ok text => .ok (scalar (input.take n) :: text)
      | .error e => .error ⟨n + e.validUpTo, e.errorLen⟩
termination_by input.length
decreasing_by
  have bounds := leading_complete _found
  simp only [List.length_drop]
  omega

/-- What a lossy decoder emits for one recognised sequence. -/
inductive Token where
  | scalar (c : Char)
  | malformed

def Sequence.verdict (input : List UInt8) : Sequence → Verdict Token
  | .complete n => .item (.scalar (Utf8.scalar (input.take n))) n
  | .invalid n => .item .malformed n
  | .truncated => .starved

section

variable (h : (leading input).verdict input = .item token width)
include h

/-- The two kinds of items. -/
theorem verdict_item :
    leading input = .complete width ∧ token = .scalar (scalar (input.take width)) ∨
      leading input = .invalid width ∧ token = .malformed := by
  cases leads : leading input with
  | truncated => simp [leads, Sequence.verdict] at h
  | complete n =>
    simp only [leads, Sequence.verdict] at h
    obtain ⟨rfl, rfl⟩ := h
    exact .inl ⟨rfl, rfl⟩
  | invalid n =>
    simp only [leads, Sequence.verdict, Verdict.item.injEq] at h
    obtain ⟨rfl, rfl⟩ := h
    exact .inr ⟨rfl, rfl⟩

theorem verdict_width : 0 < width ∧ width ≤ input.length := by
  rcases verdict_item h with ⟨hl, -⟩ | ⟨hl, -⟩
  · exact leading_complete hl
  · have bounds := leading_invalid hl
    exact ⟨bounds.1, bounds.2.1⟩

theorem verdict_append (later : List UInt8) :
    (leading (input ++ later)).verdict (input ++ later) = .item token width := by
  have inside := (verdict_width h).2
  rcases verdict_item h with ⟨hl, rfl⟩ | ⟨hl, rfl⟩
  · rw [leading_append later (by simp [hl]), hl, Sequence.verdict, take_append_of_le_length inside]
  · rw [leading_append later (by simp [hl]), hl]
    rfl

end

def utf8Scanner : Scanner UInt8 Token where
  front input := (leading input).verdict input
  width_pos h := (verdict_width h).1
  width_le h := (verdict_width h).2
  stable later h := verdict_append h later

theorem utf8Scanner_starved : utf8Scanner.front input = .starved ↔ leading input = .truncated := by
  simp only [utf8Scanner]
  cases leading input <;> simp [Sequence.verdict]

theorem fromUtf8_nil : fromUtf8 [] = .ok [] := by
  rw [fromUtf8, if_pos rfl]

theorem fromUtf8_truncated (nonempty : input ≠ []) (h : leading input = .truncated) :
    fromUtf8 input = .error ⟨0, none⟩ := by
  rw [fromUtf8, if_neg nonempty]
  split <;> simp_all

theorem fromUtf8_invalid (h : leading input = .invalid n) :
    fromUtf8 input = .error ⟨0, some n⟩ := by
  have nonempty : input ≠ [] := by
    rintro rfl
    cases h
  rw [fromUtf8, if_neg nonempty]
  split <;> simp_all

theorem fromUtf8_complete (h : leading input = .complete n) :
    fromUtf8 input =
      match fromUtf8 (input.drop n) with
      | .ok text => .ok (scalar (input.take n) :: text)
      | .error e => .error ⟨n + e.validUpTo, e.errorLen⟩ := by
  have nonempty : input ≠ [] := by
    rintro rfl
    cases h
  conv => lhs; rw [fromUtf8, if_neg nonempty]
  split <;> simp_all

/-- Accepted input scans into exactly its scalars, with nothing carried. -/
theorem fromUtf8_ok (h : fromUtf8 input = .ok text) :
    utf8Scanner.scan input = (text.map .scalar, []) := by
  induction input using utf8Scanner.scan_induction generalizing text with
  | starved input starved =>
    by_cases empty : input = []
    · subst empty
      rw [fromUtf8_nil] at h
      cases h
      simp
    · rw [fromUtf8_truncated empty (utf8Scanner_starved.mp starved)] at h
      cases h
  | item input token width found ih =>
    rcases verdict_item found with ⟨hl, rfl⟩ | ⟨hl, -⟩
    · rw [fromUtf8_complete hl] at h
      split at h
      next rest hrest =>
        cases h
        rw [utf8Scanner.scan_item found, ih hrest]
        rfl
      · cases h
    · rw [fromUtf8_invalid hl] at h
      cases h

/-- Rejected input: the reported prefix is valid text, and the scan is that text
followed by the scan from the reported position. -/
theorem fromUtf8_error (h : fromUtf8 input = .error e) :
    ∃ text, fromUtf8 (input.take e.validUpTo) = .ok text ∧
      e.validUpTo < input.length ∧
      leading (input.drop e.validUpTo) =
        (match e.errorLen with | none => .truncated | some n => .invalid n) ∧
      utf8Scanner.scan input = (text.map .scalar ++ (utf8Scanner.scan (input.drop e.validUpTo)).1,
          (utf8Scanner.scan (input.drop e.validUpTo)).2) := by
  induction input using utf8Scanner.scan_induction generalizing e with
  | starved input starved =>
    by_cases empty : input = []
    · subst empty
      rw [fromUtf8_nil] at h
      cases h
    · rw [fromUtf8_truncated empty (utf8Scanner_starved.mp starved)] at h
      cases h
      refine ⟨[], by simp [fromUtf8_nil], length_pos_iff.mpr empty, ?_, by simp⟩
      simpa using utf8Scanner_starved.mp starved
  | item input token width found ih =>
    have bounds := verdict_width found
    rcases verdict_item found with ⟨hl, rfl⟩ | ⟨hl, -⟩
    · rw [fromUtf8_complete hl] at h
      split at h
      · cases h
      next inner hinner =>
        cases h
        obtain ⟨text, valid, inside, stopped, scanned⟩ := ih hinner
        simp only [length_drop, drop_drop] at inside stopped scanned
        refine ⟨scalar (input.take width) :: text, ?_, by simp only; omega, stopped, ?_⟩
        · have start : leading (input.take (width + inner.validUpTo)) = .complete width :=
            leading_take hl (Nat.le_add_right _ _)
          rw [fromUtf8_complete start, take_take, drop_take, Nat.add_sub_cancel_left,
            Nat.min_eq_left (Nat.le_add_right _ _), valid]
        · rw [utf8Scanner.scan_item found, scanned]
          rfl
    · rw [fromUtf8_invalid hl] at h
      cases h
      exact ⟨[], by simp [fromUtf8_nil], by simp only; omega, by simpa using hl, by simp⟩

end Nomifun.Library.Utf8
