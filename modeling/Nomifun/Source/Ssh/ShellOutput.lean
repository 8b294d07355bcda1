import Nomifun.Library.LossyUtf8

/-!
# The text of a remote shell

nomi-ssh, shell_output.rs:1-67, with the output limit of limits.rs:24 and 83-85. The bytes of a
shell arrive in packets that may end inside a character. An unfinished sequence at the end of a
packet waits for the next one, and what is decoded is limited in size together with it. A Rust
`String` is the list of its characters; the sizes stay far below the range of `usize`.

`appendComplete_eq` says what a call does in terms of the scanner: the text grows by the items, the
unfinished rest is kept.
-/
namespace Nomifun.Source.Ssh
open Library.Utf8 Library.ByteOffsets

def maxSshOutputBytes : Nat := 8 * 1024 * 1024

def validateOutputSize (actual : Nat) : Bool := actual ≤ maxSshOutputBytes

structure ShellOutput where
  text : List Char
  pending : List UInt8
  deriving DecidableEq

namespace ShellOutput

def default : ShellOutput := ⟨[], []⟩

/-- The bytes at the end that belong to a later packet. -/
def pendingLen (data : List UInt8) : Nat :=
  match (utf8Chunks data).getLast? with
  | none => 0
  | some chunk =>
    match fromUtf8 chunk.invalid with
    | .error ⟨_, none⟩ => chunk.invalid.length
    | _ => 0

/-- A call returns the size that is too large, and leaves the output in some state either way. -/
def appendComplete (output : ShellOutput) (data : List UInt8) : Except Nat Unit × ShellOutput :=
  let pending := pendingLen data
  let completeLen := data.length - pending
  let decoded := fromUtf8Lossy (data.take completeLen)
  let actual := bytes output.text + bytes decoded + pending
  if validateOutputSize actual then
    (.ok (), ⟨output.text ++ decoded, output.pending ++ data.drop completeLen⟩)
  else (.error actual, output)

/-- What was pending is taken out before the call. -/
def append (output : ShellOutput) (data : List UInt8) : Except Nat Unit × ShellOutput :=
  if output.pending = [] then output.appendComplete data
  else { output with pending := [] }.appendComplete (output.pending ++ data)

/-- An unfinished character at the end is replaced. -/
def finish (output : ShellOutput) : Except Nat Unit × ShellOutput :=
  let tail := fromUtf8Lossy output.pending
  let actual := bytes output.text + bytes tail
  if validateOutputSize actual then (.ok (), ⟨output.text ++ tail, []⟩)
  else (.error actual, output)

/-! ### The calls in terms of the scanner -/

theorem pendingLen_eq (data : List UInt8) : pendingLen data = (unfinished data).length := by
  unfold pendingLen unfinished
  induction data using chunks_induction with
  | nil => simp [utf8Chunks_nil]
  | valid input text chunks scanned =>
    rw [chunks, scanned]
    simp [fromUtf8_nil]
  | truncated input text rest nonempty truncated chunks scanned =>
    rw [chunks, scanned]
    simp [fromUtf8_truncated nonempty truncated]
  | invalid input text rest n malformed chunks scanned ih =>
    rw [chunks, scanned]
    cases more : rest.drop n with
    | nil =>
      -- The malformed sequence ends the data, and it is not an unfinished one.
      have whole : rest.take n = rest := List.take_of_length_le (List.drop_eq_nil_iff.mp more)
      rw [utf8Chunks_nil, whole]
      simp [fromUtf8_invalid malformed]
    | cons byte later =>
      rw [more] at ih
      have nonempty : utf8Chunks (byte :: later) ≠ [] := by
        rw [utf8Chunks, if_neg (List.cons_ne_nil _ _)]
        split <;> nofun
      rw [List.getLast?_cons_of_ne_nil nonempty]
      exact ih

theorem appendComplete_eq (output : ShellOutput) (data : List UInt8) :
    output.appendComplete data =
      if validateOutputSize (bytes output.text + bytes (decoded data) +
          (unfinished data).length) then
        (.ok (), ⟨output.text ++ decoded data, output.pending ++ unfinished data⟩)
      else (.error (bytes output.text + bytes (decoded data) + (unfinished data).length),
        output) := by
  unfold appendComplete
  dsimp only
  rw [pendingLen_eq, fromUtf8Lossy_finished, drop_unfinished]

/-- The output with one more packet. -/
def extended (output : ShellOutput) (data : List UInt8) : ShellOutput :=
  ⟨output.text ++ decoded (output.pending ++ data), unfinished (output.pending ++ data)⟩

theorem append_eq (output : ShellOutput) (data : List UInt8) :
    output.append data =
      if validateOutputSize (bytes (output.extended data).text +
          (output.extended data).pending.length) then (.ok (), output.extended data)
      else (.error (bytes (output.extended data).text + (output.extended data).pending.length),
        ⟨output.text, []⟩) := by
  unfold append extended
  rw [appendComplete_eq, appendComplete_eq, bytes_append]
  obtain ⟨text, pending⟩ := output
  split
  next none =>
    obtain rfl : pending = [] := none
    rfl
  next some => rfl

end ShellOutput

end Nomifun.Source.Ssh
