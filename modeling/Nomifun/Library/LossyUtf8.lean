import Nomifun.Library.ByteOffsets
import Nomifun.Library.Utf8

/-!
# Lossy decoding

`utf8Chunks` cuts a byte string into valid text and the malformed sequence behind it, as the Rust
standard library does, and `fromUtf8Lossy` puts a replacement character in the place of each
malformed sequence. In terms of the scanner the text is that of its items, with one replacement for
an unfinished rest (`fromUtf8Lossy_eq_scan`). A decoded text is at least as long in bytes as the
bytes it comes from (`length_le_bytes_fromUtf8Lossy`): a complete sequence keeps its width, and a
replacement takes the three bytes that a malformed sequence has at most.
-/
namespace Nomifun.Library.Utf8
open ByteOffsets List

variable {input : List UInt8} {rest : List UInt8}

structure Utf8Chunk where
  valid : List Char
  invalid : List UInt8

theorem fromUtf8_error_bounds (failed : fromUtf8 input = .error e) :
    0 < e.errorLen.getD (input.drop e.validUpTo).length := by
  obtain ⟨_, _, inside, stopped, _⟩ := fromUtf8_error failed
  cases known : e.errorLen with
  | none =>
    rw [Option.getD_none, length_drop]
    omega
  | some n =>
    rw [known] at stopped
    exact (leading_invalid stopped).1

/-- `<[u8]>::utf8_chunks`. -/
def utf8Chunks (input : List UInt8) : List Utf8Chunk :=
  if input = [] then []
  else
    match _found : fromUtf8 input with
    | .ok text => [⟨text, []⟩]
    | .error e =>
      let rest := input.drop e.validUpTo
      let width := e.errorLen.getD rest.length
      ⟨(fromUtf8 (input.take e.validUpTo)).toOption.getD [], rest.take width⟩ ::
        utf8Chunks (rest.drop width)
termination_by input.length
decreasing_by
  have positive := fromUtf8_error_bounds _found
  obtain ⟨_, _, inside, _⟩ := fromUtf8_error _found
  simp only [List.length_drop] at positive ⊢
  omega

def replacementCharacter : Char := '�'

def Utf8Chunk.text (chunk : Utf8Chunk) : List Char :=
  chunk.valid ++ if chunk.invalid = [] then [] else [replacementCharacter]

/-- `String::from_utf8_lossy`. -/
def fromUtf8Lossy (input : List UInt8) : List Char := (utf8Chunks input).flatMap Utf8Chunk.text

/-! ### The items of the scanner -/

def Token.char : Token → Char
  | .scalar c => c
  | .malformed => replacementCharacter

/-- The text of the items of a byte string. -/
def decoded (input : List UInt8) : List Char := (utf8Scanner.scan input).1.map Token.char

/-- The unfinished rest of a byte string. -/
def unfinished (input : List UInt8) : List UInt8 := (utf8Scanner.scan input).2

def restText (rest : List UInt8) : List Char := if rest = [] then [] else [replacementCharacter]

theorem decoded_append (input later : List UInt8) :
    decoded (input ++ later) = decoded input ++ decoded (unfinished input ++ later) := by
  unfold decoded unfinished
  rw [utf8Scanner.scan_append, map_append]

theorem unfinished_append (input later : List UInt8) :
    unfinished (input ++ later) = unfinished (unfinished input ++ later) := by
  unfold unfinished
  rw [utf8Scanner.scan_append]

theorem unfinished_length (input : List UInt8) : (unfinished input).length ≤ 3 :=
  leading_truncated_length (utf8Scanner_starved.mp (utf8Scanner.scan_carry_starved input))

/-- The first chunk of a byte string that is not valid. -/
theorem utf8Chunks_error (failed : fromUtf8 input = .error e) :
    ∃ text, fromUtf8 (input.take e.validUpTo) = .ok text ∧
      utf8Chunks input = ⟨text, (input.drop e.validUpTo).take
          (e.errorLen.getD (input.drop e.validUpTo).length)⟩ ::
        utf8Chunks ((input.drop e.validUpTo).drop
          (e.errorLen.getD (input.drop e.validUpTo).length)) := by
  obtain ⟨text, valid, inside, _⟩ := fromUtf8_error failed
  refine ⟨text, valid, ?_⟩
  have nonempty : input ≠ [] := by
    rintro rfl
    cases inside
  conv => lhs; rw [utf8Chunks, if_neg nonempty]
  split
  next _ ok =>
    rw [failed] at ok
    cases ok
  next other same =>
    rw [failed] at same
    cases same
    rw [valid]
    rfl

theorem utf8Chunks_ok (nonempty : input ≠ []) (ok : fromUtf8 input = .ok text) :
    utf8Chunks input = [⟨text, []⟩] := by
  rw [utf8Chunks, if_neg nonempty]
  split
  next other same =>
    rw [ok] at same
    cases same
    rfl
  next other same =>
    rw [ok] at same
    cases same

theorem utf8Chunks_nil : utf8Chunks [] = [] := by
  rw [utf8Chunks, if_pos rfl]

theorem fromUtf8Lossy_nil : fromUtf8Lossy [] = [] := by
  rw [fromUtf8Lossy, utf8Chunks_nil]
  rfl

/-- Induction along the chunks: what each of them is for the scanner. -/
theorem chunks_induction {motive : List UInt8 → Prop} (nil : motive [])
    (valid : ∀ input text, utf8Chunks input = [⟨text, []⟩] →
      utf8Scanner.scan input = (text.map .scalar, []) → motive input)
    (truncated : ∀ input text rest, rest ≠ [] → leading rest = .truncated →
      utf8Chunks input = [⟨text, rest⟩] → utf8Scanner.scan input = (text.map .scalar, rest) →
      motive input)
    (invalid : ∀ input text rest n, leading rest = .invalid n →
      utf8Chunks input = ⟨text, rest.take n⟩ :: utf8Chunks (rest.drop n) →
      utf8Scanner.scan input = (text.map .scalar ++ .malformed ::
        (utf8Scanner.scan (rest.drop n)).1, (utf8Scanner.scan (rest.drop n)).2) →
      motive (rest.drop n) → motive input) : ∀ input, motive input := by
  intro input
  induction size : input.length using Nat.strongRecOn generalizing input with
  | ind size ih =>
    by_cases empty : input = []
    · rw [empty]
      exact nil
    cases result : fromUtf8 input with
    | ok text => exact valid input text (utf8Chunks_ok empty result) (fromUtf8_ok result)
    | error e =>
      obtain ⟨text, isText, chunks⟩ := utf8Chunks_error result
      obtain ⟨other, isOther, inside, stopped, scanned⟩ := fromUtf8_error result
      rw [isText] at isOther
      cases isOther
      cases known : e.errorLen with
      | none =>
        rw [known] at stopped chunks
        have starved := utf8Scanner.scan_starved (utf8Scanner_starved.mpr stopped)
        rw [starved, append_nil] at scanned
        rw [Option.getD_none, take_length, drop_length, utf8Chunks_nil] at chunks
        refine truncated input text _ ?_ stopped chunks scanned
        rw [Ne, drop_eq_nil_iff]
        omega
      | some n =>
        rw [known] at stopped chunks
        have item : utf8Scanner.front (input.drop e.validUpTo) = .item .malformed n := by
          simp [utf8Scanner, stopped, Sequence.verdict]
        rw [utf8Scanner.scan_item item] at scanned
        have bounds := leading_invalid stopped
        refine invalid input text _ n stopped chunks scanned (ih _ ?_ _ rfl)
        simp only [length_drop] at bounds ⊢
        omega

theorem fromUtf8Lossy_eq_scan (input : List UInt8) :
    fromUtf8Lossy input = decoded input ++ restText (unfinished input) := by
  unfold fromUtf8Lossy decoded unfinished
  induction input using chunks_induction with
  | nil => simp [utf8Chunks_nil, restText]
  | valid input text chunks scanned =>
    rw [chunks, scanned]
    simp [Utf8Chunk.text, restText, Function.comp_def, Token.char]
  | truncated input text rest nonempty _ chunks scanned =>
    rw [chunks, scanned]
    simp [Utf8Chunk.text, restText, Function.comp_def, Token.char]
  | invalid input text rest n malformed chunks scanned ih =>
    have bounds := leading_invalid malformed
    have nonempty : rest.take n ≠ [] := ne_nil_of_length_pos (by rw [length_take]; omega)
    rw [chunks, flatMap_cons, ih, scanned]
    simp [Utf8Chunk.text, nonempty, Function.comp_def, Token.char]

theorem fromUtf8Lossy_append (input later : List UInt8) :
    fromUtf8Lossy (input ++ later) =
      decoded input ++ fromUtf8Lossy (unfinished input ++ later) := by
  rw [fromUtf8Lossy_eq_scan, fromUtf8Lossy_eq_scan, decoded_append, unfinished_append, append_assoc]

/-- A byte string that is unfinished as a whole. -/
theorem decoded_starved (starved : utf8Scanner.front input = .starved) :
    decoded input = [] ∧ unfinished input = input := by
  unfold decoded unfinished
  rw [utf8Scanner.scan_starved starved]
  exact ⟨rfl, rfl⟩

/-! ### The part before the unfinished rest -/

theorem follow_take_invalid (invalid : follow seen tests rest = .invalid n) (past : n < seen + m) :
    follow seen tests (rest.take m) = .invalid n := by
  induction tests generalizing seen rest m with
  | nil => cases invalid
  | cons test tests ih =>
    cases rest with
    | nil => cases invalid
    | cons byte later =>
      rw [follow] at invalid
      cases m with
      | zero =>
        split at invalid
        · have bounds := follow_bounds tests (seen + 1) later
          rw [invalid] at bounds
          omega
        · cases invalid
          omega
      | succ m =>
        rw [take_succ_cons, follow]
        split at invalid
        next passed =>
          rw [if_pos passed]
          exact ih invalid (by omega)
        next failed =>
          rw [if_neg failed]
          exact invalid

/-- A malformed sequence is recognised from its bytes and the one behind them. -/
theorem leading_take_invalid (invalid : leading input = .invalid n) (past : n < m) :
    leading (input.take m) = .invalid n := by
  cases input with
  | nil => cases invalid
  | cons first rest =>
    cases m with
    | zero => cases past
    | succ m =>
      rw [leading] at invalid
      rw [take_succ_cons, leading]
      split at invalid
      · exact invalid
      · exact follow_take_invalid invalid (by omega)

/-- The rest of a scan ends its input. -/
theorem unfinished_suffix (input : List UInt8) : unfinished input <:+ input := by
  unfold unfinished
  induction input using utf8Scanner.scan_induction with
  | starved input starved =>
    simp [utf8Scanner.scan_starved starved, suffix_rfl]
  | item input token width found ih =>
    rw [utf8Scanner.scan_item found]
    exact ih.trans (drop_suffix width input)

theorem drop_unfinished (input : List UInt8) :
    input.drop (input.length - (unfinished input).length) = unfinished input :=
  (suffix_iff_eq_drop.mp (unfinished_suffix input)).symm

theorem fromUtf8Lossy_cons (found : utf8Scanner.front input = .item token width) :
    fromUtf8Lossy input = token.char :: fromUtf8Lossy (input.drop width) := by
  rw [fromUtf8Lossy_eq_scan, fromUtf8Lossy_eq_scan]
  unfold decoded unfinished
  rw [utf8Scanner.scan_item found]
  rfl

/-- The item of a scanner in what is kept of its input. -/
theorem fromUtf8Lossy_take (found : utf8Scanner.front input = .item token width)
    (inside : width ≤ m) :
    fromUtf8Lossy (input.take m) =
      token.char :: fromUtf8Lossy ((input.drop width).take (m - width)) := by
  have bounds := verdict_width found
  have dropped : (input.take m).drop width = (input.drop width).take (m - width) :=
    drop_take
  rcases verdict_item found with ⟨seen, rfl⟩ | ⟨seen, rfl⟩
  · have kept : utf8Scanner.front (input.take m) =
        .item (.scalar (scalar (input.take width))) width := by
      simp [utf8Scanner, leading_take seen inside, Sequence.verdict, take_take,
        Nat.min_eq_left inside]
    rw [fromUtf8Lossy_cons kept, dropped]
  · rcases Nat.lt_or_eq_of_le inside with past | rfl
    · have kept : utf8Scanner.front (input.take m) = .item .malformed width := by
        simp [utf8Scanner, leading_take_invalid seen past, Sequence.verdict]
      rw [fromUtf8Lossy_cons kept, dropped]
    · have nonempty : input.take width ≠ [] := ne_nil_of_length_pos (by rw [length_take]; omega)
      rw [Nat.sub_self, take_zero, fromUtf8Lossy_nil]
      by_cases short : leading (input.take width) = .truncated
      · have starved := utf8Scanner.scan_starved (utf8Scanner_starved.mpr short)
        rw [fromUtf8Lossy_eq_scan, decoded, unfinished, starved, restText, if_neg nonempty]
        rfl
      · have same := leading_append (input.drop width) short
        rw [take_append_drop, seen] at same
        have kept : utf8Scanner.front (input.take width) = .item .malformed width := by
          simp [utf8Scanner, ← same, Sequence.verdict]
        rw [fromUtf8Lossy_cons kept, dropped, Nat.sub_self, take_zero, fromUtf8Lossy_nil]

/-- The text before the unfinished rest is that of the items. -/
theorem fromUtf8Lossy_finished (input : List UInt8) :
    fromUtf8Lossy (input.take (input.length - (unfinished input).length)) = decoded input := by
  unfold decoded unfinished
  induction input using utf8Scanner.scan_induction with
  | starved input starved =>
    rw [utf8Scanner.scan_starved starved, Nat.sub_self, take_zero, fromUtf8Lossy_nil]
    rfl
  | item input token width found ih =>
    have bounds := verdict_width found
    have carried := (unfinished_suffix (input.drop width)).length_le
    rw [length_drop] at carried
    unfold unfinished at carried
    rw [utf8Scanner.scan_item found]
    dsimp only
    rw [fromUtf8Lossy_take found (by omega), map_cons, ← ih, length_drop]
    congr 3
    omega

/-! ### Sizes -/

theorem utf8Size_ofNat (valid : n.isValidChar) :
    (Char.ofNat n).utf8Size =
      if n ≤ 0x7F then 1 else if n ≤ 0x7FF then 2 else if n ≤ 0xFFFF then 3 else 4 := by
  have value : (Char.ofNat n).val.toNat = n := by
    rw [Char.ofNat, dif_pos valid]
    rfl
  unfold Char.utf8Size
  simp only [UInt32.le_iff_toNat_le, value]
  rfl

/-- The followers of a complete sequence. -/
theorem follow_complete (complete : follow seen (test :: tests) rest = .complete n) :
    ∃ byte later, rest = byte :: later ∧ test byte = true ∧
      follow (seen + 1) tests later = .complete n := by
  cases rest with
  | nil => cases complete
  | cons byte later =>
    rw [follow] at complete
    split at complete
    next passed => exact ⟨byte, later, rfl, passed, complete⟩
    next => cases complete

theorem isContinuation_bounds (passed : isContinuation byte = true) :
    0x80 ≤ byte.toNat ∧ byte.toNat ≤ 0xBF := by
  simpa [isContinuation, UInt8.le_iff_toNat_le] using passed

/-- A complete sequence has the width of its scalar. -/
theorem scalar_utf8Size (complete : leading input = .complete n) :
    (scalar (input.take n)).utf8Size = n := by
  cases input with
  | nil => cases complete
  | cons first rest =>
    rw [leading, followers] at complete
    split_ifs at complete with one two three four
    · cases complete
      have small : first.toNat < 0x80 := by simpa [UInt8.lt_iff_toNat_lt] using one
      refine (utf8Size_ofNat (.inl ?_)).trans (if_pos ?_) <;> omega
    · obtain ⟨second, later, rfl, continues, done⟩ := follow_complete complete
      cases done
      simp [UInt8.le_iff_toNat_le] at two
      have bounds := isContinuation_bounds continues
      refine (utf8Size_ofNat (.inl ?_)).trans ((if_neg ?_).trans (if_pos ?_)) <;> omega
    · obtain ⟨second, later, rfl, restricted, complete⟩ := follow_complete complete
      obtain ⟨third, later, rfl, continues, done⟩ := follow_complete complete
      cases done
      have bounds := isContinuation_bounds continues
      simp [secondOfThree, UInt8.le_iff_toNat_le, ← UInt8.toNat_inj] at restricted
      refine (utf8Size_ofNat ?_).trans ((if_neg ?_).trans ((if_neg ?_).trans (if_pos ?_)))
      · unfold Nat.isValidChar
        omega
      all_goals omega
    · obtain ⟨second, later, rfl, restricted, complete⟩ := follow_complete complete
      obtain ⟨third, later, rfl, continues, complete⟩ := follow_complete complete
      obtain ⟨fourth, later, rfl, continuesToo, done⟩ := follow_complete complete
      cases done
      have bounds := isContinuation_bounds continues
      simp [secondOfFour, UInt8.le_iff_toNat_le, ← UInt8.toNat_inj] at restricted
      refine (utf8Size_ofNat ?_).trans ((if_neg ?_).trans ((if_neg ?_).trans (if_neg ?_)))
      · unfold Nat.isValidChar
        omega
      all_goals omega

theorem bytes_replacement : bytes [replacementCharacter] = 3 := by decide

theorem length_le_bytes_fromUtf8Lossy (input : List UInt8) :
    input.length ≤ bytes (fromUtf8Lossy input) := by
  rw [fromUtf8Lossy_eq_scan, bytes_append]
  unfold decoded unfinished
  induction input using utf8Scanner.scan_induction with
  | starved input starved =>
    have short := leading_truncated_length (utf8Scanner_starved.mp starved)
    rw [utf8Scanner.scan_starved starved]
    by_cases empty : input = []
    · simp [empty]
    · simp only [restText, if_neg empty, bytes_replacement]
      omega
  | item input token width found ih =>
    rw [utf8Scanner.scan_item found]
    have wide : width ≤ token.char.utf8Size := by
      rcases verdict_item found with ⟨seen, rfl⟩ | ⟨seen, rfl⟩
      · exact Nat.le_of_eq (scalar_utf8Size seen).symm
      · exact (leading_invalid seen).2.2
    rw [length_drop] at ih
    rw [map_cons, bytes_cons]
    dsimp only
    omega

end Nomifun.Library.Utf8
