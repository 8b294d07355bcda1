import Nomifun.Library.Checks
import Nomifun.Source.Ssh.ShellOutput

/-!
# The text of a shell does not depend on its packets

Whatever packets the bytes of a shell arrive in, the text that is collected is their lossy decoding,
and the calls succeed exactly when that text is within the limit. A call counts the unfinished bytes
at the end of a packet as they are. They never count for more than what they come to, because a
decoded text is at least as long as its bytes.
-/
namespace Nomifun.Guarantees.ShellText
open Library Library.Utf8 Library.ByteOffsets Source.Ssh List

/-! ### Feeding packets -/

section

variable (output : ShellOutput) (packets : List (List UInt8))

/-- A call that succeeds leaves the next output. -/
def feed (data : List UInt8) : Except Nat ShellOutput := do
  (output.append data).1
  return (output.append data).2

def close : Except Nat ShellOutput := do
  output.finish.1
  return output.finish.2

def feedAll : Except Nat ShellOutput :=
  packets.foldlM feed output

/-- The packets of a shell and then the end of its output. -/
def readAll : Except Nat ShellOutput := do
  let output ← feedAll .default packets
  close output

/-- Only unfinished bytes are pending. -/
def Settled : Prop := utf8Scanner.front output.pending = .starved

end

theorem settled_default : Settled .default := utf8Scanner.front_nil

section

variable {output next : ShellOutput} {data later : List UInt8}

/-- A call that checks its size first succeeds within the limit. -/
theorem limited_eq_ok
    (is : call = if validateOutputSize size then (.ok (), within) else (.error size, output)) :
    (do call.1; return call.2) = Except.ok next ↔ size ≤ maxSshOutputBytes ∧ next = within := by
  rw [is, validateOutputSize]
  by_cases small : size ≤ maxSshOutputBytes
  · rw [if_pos (decide_eq_true small)]
    constructor
    · intro ok
      cases ok
      exact ⟨small, rfl⟩
    · rintro ⟨_, rfl⟩
      rfl
  · rw [if_neg (by simpa using small)]
    constructor
    · nofun
    · exact fun ⟨fits, _⟩ => absurd fits small

theorem feed_eq_ok : feed output data = .ok next ↔
    bytes (output.extended data).text + (output.extended data).pending.length ≤ maxSshOutputBytes ∧
      next = output.extended data :=
  limited_eq_ok (ShellOutput.append_eq ..)

theorem close_eq_ok : close output = .ok next ↔
    bytes output.text + bytes (fromUtf8Lossy output.pending) ≤ maxSshOutputBytes ∧
      next = ⟨output.text ++ fromUtf8Lossy output.pending, []⟩ :=
  limited_eq_ok rfl

theorem settled_feed (ok : feed output data = .ok next) : Settled next := by
  rw [(feed_eq_ok.mp ok).2]
  exact utf8Scanner.scan_carry_starved _

theorem decoded_extended : (output.extended data).text ++
      decoded ((output.extended data).pending ++ later) =
    output.text ++ decoded (output.pending ++ (data ++ later)) := by
  rw [ShellOutput.extended, ← append_assoc output.pending,
    decoded_append (output.pending ++ data), append_assoc]

theorem bytes_extended : bytes (output.extended data).text +
      bytes (fromUtf8Lossy ((output.extended data).pending ++ later)) =
    bytes output.text + bytes (fromUtf8Lossy (output.pending ++ (data ++ later))) := by
  rw [← append_assoc output.pending, fromUtf8Lossy_append (output.pending ++ data),
    bytes_append, ← Nat.add_assoc, ← bytes_append output.text]
  rfl

/-- A packet is accepted if everything up to a later point is within the limit. -/
theorem feed_succeeds
    (small : bytes output.text + bytes (fromUtf8Lossy (output.pending ++ (data ++ later))) ≤
      maxSshOutputBytes) : ∃ next, feed output data = .ok next := by
  rw [← bytes_extended] at small
  have covered := length_le_bytes_fromUtf8Lossy ((output.extended data).pending ++ later)
  rw [length_append] at covered
  exact ⟨_, feed_eq_ok.mpr ⟨by omega, rfl⟩⟩

end

/-! ### Runs -/

section

variable {output result : ShellOutput} {packets : List (List UInt8)}

theorem feedAll_ok (settled : Settled output) (ok : feedAll output packets = .ok result) :
    Settled result ∧ result.text = output.text ++ decoded (output.pending ++ packets.flatten) ∧
      result.pending = unfinished (output.pending ++ packets.flatten) := by
  induction packets generalizing output with
  | nil =>
    cases ok
    obtain ⟨nothing, kept⟩ := decoded_starved settled
    refine ⟨settled, ?_, ?_⟩
    · simp [nothing]
    · simp [kept]
  | cons data packets ih =>
    unfold feedAll at ok
    obtain ⟨next, fed, ok⟩ := bind_eq_ok.mp ok
    obtain ⟨settledResult, text, pending⟩ := ih (settled_feed fed) ok
    obtain ⟨_, rfl⟩ := feed_eq_ok.mp fed
    refine ⟨settledResult, text.trans decoded_extended, ?_⟩
    rw [pending, flatten_cons, ← append_assoc output.pending,
      unfinished_append (output.pending ++ data)]
    rfl

theorem feedAll_succeeds
    (small : bytes output.text + bytes (fromUtf8Lossy (output.pending ++ packets.flatten)) ≤
      maxSshOutputBytes) : ∃ result, feedAll output packets = .ok result := by
  induction packets generalizing output with
  | nil => exact ⟨output, rfl⟩
  | cons data packets ih =>
    obtain ⟨next, fed⟩ := feed_succeeds small
    have rest : bytes next.text + bytes (fromUtf8Lossy (next.pending ++ packets.flatten)) ≤
        maxSshOutputBytes := by
      obtain ⟨_, rfl⟩ := feed_eq_ok.mp fed
      rwa [bytes_extended]
    obtain ⟨result, ok⟩ := ih rest
    refine ⟨result, ?_⟩
    unfold feedAll
    rw [foldlM_cons]
    exact bind_eq_ok.mpr ⟨next, fed, ok⟩

theorem readAll_eq_ok : readAll packets = .ok result ↔
    bytes (fromUtf8Lossy packets.flatten) ≤ maxSshOutputBytes ∧
      result = ⟨fromUtf8Lossy packets.flatten, []⟩ := by
  -- The text and the pending bytes at the end of a run that succeeds.
  have ended {output : ShellOutput} (ok : feedAll .default packets = .ok output) :
      output.text ++ fromUtf8Lossy output.pending = fromUtf8Lossy packets.flatten := by
    obtain ⟨_, text, pending⟩ := feedAll_ok settled_default ok
    have whole := fromUtf8Lossy_append packets.flatten []
    rw [append_nil, append_nil] at whole
    rw [text, pending, whole]
    rfl
  constructor
  · intro ok
    obtain ⟨output, fed, closed⟩ := bind_eq_ok.mp ok
    obtain ⟨small, rfl⟩ := close_eq_ok.mp closed
    rw [← bytes_append, ended fed] at small
    exact ⟨small, by rw [ended fed]⟩
  · rintro ⟨small, rfl⟩
    have start : bytes ShellOutput.default.text +
        bytes (fromUtf8Lossy (ShellOutput.default.pending ++ packets.flatten)) ≤
          maxSshOutputBytes := by
      simpa [ShellOutput.default] using small
    obtain ⟨output, fed⟩ := feedAll_succeeds start
    refine bind_eq_ok.mpr ⟨output, fed, close_eq_ok.mpr ?_⟩
    rw [← bytes_append, ended fed]
    exact ⟨small, rfl⟩

end

/-- Whatever packets a shell sends, at most three bytes are pending after each call, whether it
succeeds or not. All calls succeed exactly when the lossy decoding of the bytes is within the limit,
and the text is then that decoding. -/
theorem shell_text_independent_of_packets (packets : List (List UInt8)) :
    (∀ seen data rest, packets = seen ++ data :: rest →
      ∀ output, feedAll .default seen = .ok output → (output.append data).2.pending.length ≤ 3) ∧
    (readAll packets).toOption =
      if bytes (fromUtf8Lossy packets.flatten) ≤ maxSshOutputBytes then
        some ⟨fromUtf8Lossy packets.flatten, []⟩
      else none := by
  refine ⟨fun seen data rest _ output _ => ?_, ?_⟩
  · rw [ShellOutput.append_eq]
    split
    · exact unfinished_length _
    · exact Nat.zero_le 3
  · by_cases small : bytes (fromUtf8Lossy packets.flatten) ≤ maxSshOutputBytes
    · rw [if_pos small, toOption_eq_some, readAll_eq_ok]
      exact ⟨small, rfl⟩
    · rw [if_neg small]
      cases ran : readAll packets with
      | error actual => rfl
      | ok result => exact absurd (readAll_eq_ok.mp ran).1 small

/-- A character of three bytes in two packets. -/
theorem split_character_text :
    (readAll [[0xE4], [0xB8, 0xAD]]).toOption = some ⟨['中'], []⟩ ∧
      ∀ output, feedAll .default [] = .ok output → (output.append [0xE4]).2.pending.length ≤ 3 := by
  obtain ⟨pending, text⟩ := shell_text_independent_of_packets [[0xE4], [0xB8, 0xAD]]
  refine ⟨text.trans (by decide +kernel), pending [] [0xE4] [[0xB8, 0xAD]] rfl⟩

end Nomifun.Guarantees.ShellText
