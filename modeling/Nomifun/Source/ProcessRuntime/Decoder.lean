import Nomifun.Library.MachineInt
import Nomifun.Library.Utf8

/-!
# Incremental stream decoder (nomi-process-runtime, io.rs:434-641)

The non-Windows build: `active_code_page` and `WindowsDecoder` are compiled out. A
Rust `String` is the list of its scalars. `decodeLoop` is the `while index < input.len()`
loop of `decode_text`, with `input` standing for the slice from `index` on.

A decoder is determined by the bytes it has seen, not by how they were grouped:
`decode_append` for two consecutive calls, `discardBounded_eq` for the bounded path of
discarded bytes, which decodes 4 KiB at a time and throws the text away.
-/
namespace Nomifun.Source.ProcessRuntime
open Library.MachineInt Library.Utf8 List

inductive OutputStream where
  | stdout | stderr | pty
  deriving DecidableEq

def utf8Label : String := "utf-8"

def decodeScratchBytes : Nat := 4 * 1024

def replacement : Char := Char.ofNat 0xFFFD

structure IncrementalDecoder where
  utf8Pending : List UInt8
  decodeErrors : Nat
  sourceEncoding : String
  observedBytes : Bool
  sawNonAsciiUtf8 : Bool

variable {d : IncrementalDecoder}

/-- `slice::chunks`. -/
def chunks (size : Nat) (bytes : List UInt8) : List (List UInt8) :=
  if bytes = [] ∨ size = 0 then [] else bytes.take size :: chunks size (bytes.drop size)
termination_by bytes.length
decreasing_by
  rename_i h
  simp only [not_or] at h
  have : 0 < bytes.length := List.length_pos_iff.mpr h.1
  simp only [List.length_drop]
  omega

namespace IncrementalDecoder

def new : IncrementalDecoder where
  utf8Pending := []
  decodeErrors := 0
  sourceEncoding := utf8Label
  observedBytes := false
  sawNonAsciiUtf8 := false

def isAscii (text : List Char) : Bool := text.all (fun c => c.toNat < 128)

def noteValid (d : IncrementalDecoder) (valid : List Char) : IncrementalDecoder :=
  { d with sawNonAsciiUtf8 := d.sawNonAsciiUtf8 || !isAscii valid }

def countError (d : IncrementalDecoder) : IncrementalDecoder :=
  { d with decodeErrors := saturatingAdd u64Max d.decodeErrors 1 }

/-- The text before the reported position. The source expects it to be UTF-8, which
`fromUtf8_error` establishes, so the empty text is never produced for an error. -/
def validPart (input : List UInt8) (e : Utf8Error) : List Char :=
  match fromUtf8 (input.take e.validUpTo) with
  | .ok text => text
  | .error _ => []

def decodeLoop (d : IncrementalDecoder) (text : List Char) (input : List UInt8) :
    IncrementalDecoder × List Char :=
  if input = [] then (d, text)
  else
    match _result : fromUtf8 input with
    | .ok valid => (d.noteValid valid, text ++ valid)
    | .error e =>
      let valid := validPart input e
      let rest := input.drop e.validUpTo
      match _length : e.errorLen with
      | none => ({ d.noteValid valid with utf8Pending := d.utf8Pending ++ rest }, text ++ valid)
      | some errorLen =>
        decodeLoop (d.noteValid valid).countError (text ++ valid ++ [replacement])
          (rest.drop errorLen)
termination_by input.length
decreasing_by
  obtain ⟨_, _, inside, stopped, _⟩ := fromUtf8_error _result
  rw [_length] at stopped
  have width := leading_invalid stopped
  simp only [List.length_drop] at width ⊢
  omega

section

variable (d : IncrementalDecoder) (bytes : List UInt8)

def decodeText : IncrementalDecoder × List Char :=
  decodeLoop { d with utf8Pending := [] } [] (d.utf8Pending ++ bytes)

def decode : IncrementalDecoder × List Char :=
  decodeText { d with observedBytes := d.observedBytes || !bytes.isEmpty } bytes

def discardBounded : IncrementalDecoder :=
  (chunks decodeScratchBytes bytes).foldl (fun d chunk => (d.decode chunk).1) d

def finish : IncrementalDecoder × List Char :=
  if d.utf8Pending = [] then (d, [])
  else ({ d with utf8Pending := [] }.countError, [replacement])

/-- The effect of one recognised sequence on the decoder's history. -/
def absorb : Token → IncrementalDecoder
  | .scalar c => d.noteValid [c]
  | .malformed => d.countError

end

def render : Token → Char
  | .scalar c => c
  | .malformed => replacement

variable (d)

theorem noteValid_nil : d.noteValid [] = d := by
  simp [noteValid, isAscii]

theorem noteValid_append (a b : List Char) :
    d.noteValid (a ++ b) = (d.noteValid a).noteValid b := by
  simp [noteValid, isAscii, Bool.or_assoc]

theorem foldl_absorb_scalars (text : List Char) :
    (text.map Token.scalar).foldl absorb d = d.noteValid text := by
  induction text generalizing d with
  | nil => simp [noteValid_nil]
  | cons c text ih =>
    simp only [map_cons, foldl_cons, absorb]
    rw [ih, ← noteValid_append]
    rfl

/-- `absorb` never touches the carry or the observation flag. -/
theorem foldl_absorb_with (tokens : List Token) (pending : List UInt8)
    (observed : Bool) :
    tokens.foldl absorb { d with utf8Pending := pending, observedBytes := observed } =
      { tokens.foldl absorb d with utf8Pending := pending, observedBytes := observed } := by
  induction tokens generalizing d with
  | nil => rfl
  | cons token tokens ih =>
    cases token with
    | scalar c => exact ih (d.noteValid [c])
    | malformed => exact ih d.countError

/-- The loop is the scan of its input: items enter the history and the text in order,
and the starved rest is appended to the carry. -/
theorem decodeLoop_eq (text : List Char) (input : List UInt8) :
    decodeLoop d text input = ({ (utf8Scanner.scan input).1.foldl absorb d with
          utf8Pending := d.utf8Pending ++ (utf8Scanner.scan input).2 },
        text ++ (utf8Scanner.scan input).1.map render) := by
  fun_induction decodeLoop d text input with
  | case1 d text => simp
  | case2 d text input nonempty valid accepted =>
    rw [fromUtf8_ok accepted, foldl_absorb_scalars]
    simp [noteValid, Function.comp_def, render]
  | case3 d text input nonempty e rejected valid rest incomplete =>
    obtain ⟨known, prefixed, inside, stopped, scanned⟩ := fromUtf8_error rejected
    rw [incomplete] at stopped
    have same : valid = known := by simp [valid, validPart, prefixed]
    have starved := utf8Scanner.scan_starved (utf8Scanner_starved.mpr stopped)
    rw [scanned, starved, same, append_nil, foldl_absorb_scalars]
    simp [rest, Function.comp_def, render]
  | case4 d text input nonempty e rejected valid rest errorLen malformed ih =>
    obtain ⟨known, prefixed, inside, stopped, scanned⟩ := fromUtf8_error rejected
    rw [malformed] at stopped
    have same : valid = known := by simp [valid, validPart, prefixed]
    have found : utf8Scanner.front rest = .item .malformed errorLen := by
      simp [utf8Scanner, rest, stopped, Sequence.verdict]
    rw [ih, scanned, same, utf8Scanner.scan_item found, foldl_append, foldl_absorb_scalars]
    simp [noteValid, countError, absorb, Function.comp_def, render]

theorem decode_eq (bytes : List UInt8) :
    d.decode bytes = ({ (utf8Scanner.scan (d.utf8Pending ++ bytes)).1.foldl absorb d with
          utf8Pending := (utf8Scanner.scan (d.utf8Pending ++ bytes)).2
          observedBytes := d.observedBytes || !bytes.isEmpty },
        (utf8Scanner.scan (d.utf8Pending ++ bytes)).1.map render) := by
  simp only [decode, decodeText, decodeLoop_eq, nil_append]
  rw [foldl_absorb_with d]

/-- Two consecutive calls are one call on the joined bytes: same final decoder, and
the texts concatenate. -/
theorem decode_append (xs ys : List UInt8) :
    d.decode (xs ++ ys) =
      (((d.decode xs).1.decode ys).1, (d.decode xs).2 ++ ((d.decode xs).1.decode ys).2) := by
  have history := foldl_absorb_with
    ((utf8Scanner.scan (d.utf8Pending ++ xs)).1.foldl absorb d)
    (utf8Scanner.scan ((utf8Scanner.scan (d.utf8Pending ++ xs)).2 ++ ys)).1
    (utf8Scanner.scan (d.utf8Pending ++ xs)).2 (d.observedBytes || !xs.isEmpty)
  have observed : (d.observedBytes || !(xs ++ ys).isEmpty) =
      (d.observedBytes || !xs.isEmpty || !ys.isEmpty) := by
    cases xs <;> simp
  simp only [decode_eq, observed]
  rw [← append_assoc, utf8Scanner.scan_append (d.utf8Pending ++ xs) ys, foldl_append,
    history, map_append]

variable {d}

/-- The carry of a decoder that is between calls is an unfinished sequence. -/
def Carries (d : IncrementalDecoder) : Prop := utf8Scanner.front d.utf8Pending = .starved

theorem carries_new : Carries new := utf8Scanner.front_nil

theorem carries_decode (d : IncrementalDecoder) (bytes : List UInt8) :
    Carries (d.decode bytes).1 := by
  rw [decode_eq]
  exact utf8Scanner.scan_carry_starved _

theorem decode_nil (h : Carries d) : d.decode [] = (d, []) := by
  simp [decode_eq, utf8Scanner.scan_starved h]

theorem chunks_flatten (size : Nat) (positive : 0 < size) (bytes : List UInt8) :
    (chunks size bytes).flatten = bytes := by
  fun_induction chunks size bytes with
  | case1 bytes done =>
    rcases done with rfl | zero
    · rfl
    · omega
  | case2 bytes more ih => rw [flatten_cons, ih, take_append_drop]

theorem foldl_decode (h : Carries d) (pieces : List (List UInt8)) :
    pieces.foldl (fun d piece => (d.decode piece).1) d = (d.decode pieces.flatten).1 := by
  induction pieces generalizing d with
  | nil => simp [decode_nil h]
  | cons piece pieces ih =>
    rw [foldl_cons, ih (carries_decode d piece), flatten_cons, decode_append]

/-- The bounded path leaves the decoder that ordinary decoding leaves. -/
theorem discardBounded_eq (h : Carries d) (bytes : List UInt8) :
    d.discardBounded bytes = (d.decode bytes).1 := by
  rw [discardBounded, foldl_decode h, chunks_flatten decodeScratchBytes (by decide)]

/-- The decoder that has seen `bytes` from the start as one string. -/
def replay (bytes : List UInt8) : IncrementalDecoder := (new.decode bytes).1

theorem replay_nil : replay [] = new := by
  rw [replay, decode_nil carries_new]

theorem carries_replay (bytes : List UInt8) : Carries (replay bytes) := carries_decode _ _

theorem decode_replay (xs ys : List UInt8) : ((replay xs).decode ys).1 = replay (xs ++ ys) := by
  rw [replay, replay, decode_append]

end IncrementalDecoder

structure StreamDecoders where
  (stdout stderr pty : IncrementalDecoder)

structure EncodingMetadata where
  sourceEncoding : String
  decodeErrors : Nat

namespace StreamDecoders

def new : StreamDecoders := ⟨.new, .new, .new⟩

/-- `for_stream_mut`, read; `setStream` writes through the same reference. -/
def forStream (ds : StreamDecoders) : OutputStream → IncrementalDecoder
  | .stdout => ds.stdout
  | .stderr => ds.stderr
  | .pty => ds.pty

def setStream (ds : StreamDecoders) (stream : OutputStream) (d : IncrementalDecoder) :
    StreamDecoders :=
  match stream with
  | .stdout => { ds with stdout := d }
  | .stderr => { ds with stderr := d }
  | .pty => { ds with pty := d }

def decode (ds : StreamDecoders) (stream : OutputStream) (bytes : List UInt8) :
    StreamDecoders × List Char :=
  let decoded := (ds.forStream stream).decode bytes
  (ds.setStream stream decoded.1, decoded.2)

def discardBounded (ds : StreamDecoders) (stream : OutputStream) (bytes : List UInt8) :
    StreamDecoders :=
  ds.setStream stream ((ds.forStream stream).discardBounded bytes)

def metadata (ds : StreamDecoders) : EncodingMetadata :=
  let decoders := [ds.stdout, ds.stderr, ds.pty]
  let sources := (decoders.filter (·.observedBytes)).map (·.sourceEncoding)
  { sourceEncoding :=
      match sources.getLast? with
      | none => utf8Label
      | some source => if sources.dropLast.all (· == source) then source else "mixed"
    decodeErrors := decoders.foldl (fun total d => saturatingAdd u64Max total d.decodeErrors) 0 }

def finish (ds : StreamDecoders) : StreamDecoders × List (OutputStream × List Char) :=
  (⟨ds.stdout.finish.1, ds.stderr.finish.1, ds.pty.finish.1⟩,
    [(.stdout, ds.stdout.finish.2), (.stderr, ds.stderr.finish.2), (.pty, ds.pty.finish.2)])

@[simp] theorem forStream_new (stream : OutputStream) : new.forStream stream = .new := by
  cases stream <;> rfl

@[simp] theorem forStream_setStream_self (ds : StreamDecoders) (stream : OutputStream)
    (d : IncrementalDecoder) : (ds.setStream stream d).forStream stream = d := by
  cases stream <;> rfl

theorem forStream_setStream_ne (ds : StreamDecoders) (d : IncrementalDecoder) (h : other ≠ stream) :
    (ds.setStream stream d).forStream other = ds.forStream other := by
  cases stream <;> cases other <;> simp_all [setStream, forStream]

theorem ext_forStream {a b : StreamDecoders}
    (h : ∀ stream, a.forStream stream = b.forStream stream) : a = b := by
  have stdout := h .stdout
  have stderr := h .stderr
  have pty := h .pty
  simp only [forStream] at stdout stderr pty
  cases a
  simp_all

end StreamDecoders
end Nomifun.Source.ProcessRuntime
