import Nomifun.Library.Serde
import Nomifun.Source.ProcessRuntime.Snapshot

/-!
# Frozen output receipts (nomi-process-runtime, io/frozen_output.rs)

A frozen output is validated before it is written and after it is read. The validator
repeats, check by check, what the ring and the decoders maintain; `validateState_frozen`
shows that a frozen ring passes every one of them. The derived readers and writers of
the state are codecs over JSON values, and reading back what was written restores the
state (`serialize_deserialize`).

`u64::try_from(usize)` cannot fail on the 64-bit target, so the two "too large" errors
of the validator have no branch here.
-/
namespace Nomifun.Source.ProcessRuntime
open Library.MachineInt Library.Utf8 Library.Json Library.Serde IncrementalDecoder Option List

variable {d : IncrementalDecoder} {ds : StreamDecoders}

def formatVersion : Nat := 1

def decoderScheme : String := "utf8_v1"

inductive FrozenOutputError where
  | unsupportedVersion (version : Nat)
  | unsupportedDecoder (scheme : String)
  | invalidState (reason : String)

def FrozenOutputError.message : FrozenOutputError → String
  | .unsupportedVersion version => "unsupported frozen process output version " ++ toString version
  | .unsupportedDecoder scheme => "unsupported frozen process output decoder " ++ scheme
  | .invalidState reason => "invalid frozen process output: " ++ reason

def invalid (reason : String) : Except FrozenOutputError Unit := .error (.invalidState reason)

/-- An empty carry, or one that `from_utf8` rejects as cut off at its very start. -/
def carryOk (pending : List UInt8) : Bool :=
  pending.length ≤ 3 && (pending.isEmpty ||
      match fromUtf8 pending with
      | .error e => e.validUpTo == 0 && e.errorLen.isNone
      | .ok _ => false)

def validateDecoder (d : IncrementalDecoder) (finalized : Bool) : Except FrozenOutputError Unit :=
  if !carryOk d.utf8Pending then invalid "invalid UTF-8 decoder carry"
  else if finalized && !d.utf8Pending.isEmpty then
    invalid "terminal decoder retains unfinished UTF-8 bytes"
  else if !d.observedBytes &&
      (d.decodeErrors != 0 || d.sawNonAsciiUtf8 || !d.utf8Pending.isEmpty) then
    invalid "unobserved stream contains decoder history"
  else if d.sourceEncoding != utf8Label then
    invalid "UTF-8 decoder encoding metadata is inconsistent"
  else .ok ()

def validateDecoders (ds : StreamDecoders) (finalized : Bool) : Except FrozenOutputError Unit := do
  validateDecoder ds.stdout finalized
  validateDecoder ds.stderr finalized
  validateDecoder ds.pty finalized

/-- The loop over the retained chunks, from the expected offset and the last sequence
number to the offset behind the last chunk. -/
def validateChunks (nextSeq offset : Nat) (previousSeq : Option Nat) :
    List StoredChunk → Except FrozenOutputError Nat
  | [] => .ok offset
  | chunk :: rest =>
    if chunk.bytes.isEmpty || chunk.start != offset then
      .error (.invalidState "retained raw chunks are empty or discontinuous")
    else if chunk.seq ≥ nextSeq || previousSeq.any (· ≥ chunk.seq) then
      .error (.invalidState "retained chunk sequence is not strictly increasing")
    else
      match checkedAdd u64Max offset chunk.bytes.length with
      | none => .error (.invalidState "raw chunk cursor overflows")
      | some offset => validateChunks nextSeq offset (some chunk.seq) rest

def validateState (s : OutputState) : Except FrozenOutputError Unit :=
  if !s.finalized then invalid "terminal EOF has not been frozen"
  else if s.baseOffset != s.droppedBytes then
    invalid "base offset differs from dropped raw bytes"
  else if checkedSub s.nextOffset s.baseOffset != some s.retained then
    invalid "retained byte count does not cover the raw cursor range"
  else if (checkedAdd u64Max s.nextSeq 2).isNone then
    invalid "terminal chunk sequence would overflow"
  else do
    let offset ← validateChunks s.nextSeq s.baseOffset none s.chunks
    if offset != s.nextOffset then
      invalid "retained chunks do not reach the original raw cursor"
    validateDecoders s.baseDecoders false
    validateDecoders s.decoders true

def FrozenOutput.validate (f : FrozenOutput) : Except FrozenOutputError Unit :=
  validateState f.state

def u64 : Codec Nat := unsigned u64Max

def usize : Codec Nat := unsigned u64Max

def u32 : Codec Nat := unsigned u32Max

def OutputStream.name : OutputStream → String
  | .stdout => "stdout"
  | .stderr => "stderr"
  | .pty => "pty"

def outputStream : Codec OutputStream :=
  unitVariants [("stdout", .stdout), ("stderr", .stderr), ("pty", .pty)] OutputStream.name

def storedChunkSpec : StructSpec where
  fields :=
    [u64.field "seq", u64.field "start", outputStream.field "stream", (list byte).field "bytes"]
  denyUnknown := true

def storedChunk : Codec StoredChunk where
  encode c := .object [
    ("seq", u64.encode c.seq),
    ("start", u64.encode c.start),
    ("stream", outputStream.encode c.stream),
    ("bytes", (list byte).encode c.bytes)]
  decode v := do
    let entries ← structEntries storedChunkSpec v
    return {
      seq := ← required entries "seq" u64
      start := ← required entries "start" u64
      stream := ← required entries "stream" outputStream
      bytes := ← required entries "bytes" (list byte) }

def incrementalDecoderSpec : StructSpec where
  fields :=
    [(list byte).field "utf8_pending", u64.field "decode_errors", text.field "source_encoding",
      boolean.field "observed_bytes", boolean.field "saw_non_ascii_utf8"]
  denyUnknown := true

def incrementalDecoder : Codec IncrementalDecoder where
  encode d := .object [
    ("utf8_pending", (list byte).encode d.utf8Pending),
    ("decode_errors", u64.encode d.decodeErrors),
    ("source_encoding", text.encode d.sourceEncoding),
    ("observed_bytes", boolean.encode d.observedBytes),
    ("saw_non_ascii_utf8", boolean.encode d.sawNonAsciiUtf8)]
  decode v := do
    let entries ← structEntries incrementalDecoderSpec v
    return {
      utf8Pending := ← required entries "utf8_pending" (list byte)
      decodeErrors := ← required entries "decode_errors" u64
      sourceEncoding := ← required entries "source_encoding" text
      observedBytes := ← required entries "observed_bytes" boolean
      sawNonAsciiUtf8 := ← required entries "saw_non_ascii_utf8" boolean }

def streamDecodersSpec : StructSpec where
  fields :=
    [incrementalDecoder.field "stdout", incrementalDecoder.field "stderr",
      incrementalDecoder.field "pty"]
  denyUnknown := true

def streamDecoders : Codec StreamDecoders where
  encode ds := .object [
    ("stdout", incrementalDecoder.encode ds.stdout),
    ("stderr", incrementalDecoder.encode ds.stderr),
    ("pty", incrementalDecoder.encode ds.pty)]
  decode v := do
    let entries ← structEntries streamDecodersSpec v
    return {
      stdout := ← required entries "stdout" incrementalDecoder
      stderr := ← required entries "stderr" incrementalDecoder
      pty := ← required entries "pty" incrementalDecoder }

def outputStateSpec : StructSpec where
  fields :=
    [u64.field "next_seq", u64.field "next_offset", u64.field "base_offset", usize.field "retained",
      u64.field "dropped_bytes", (list storedChunk).field "chunks", streamDecoders.field "decoders",
      streamDecoders.field "base_decoders", boolean.field "finalized"]
  denyUnknown := true

def outputState : Codec OutputState where
  encode s := .object [
    ("next_seq", u64.encode s.nextSeq),
    ("next_offset", u64.encode s.nextOffset),
    ("base_offset", u64.encode s.baseOffset),
    ("retained", usize.encode s.retained),
    ("dropped_bytes", u64.encode s.droppedBytes),
    ("chunks", (list storedChunk).encode s.chunks),
    ("decoders", streamDecoders.encode s.decoders),
    ("base_decoders", streamDecoders.encode s.baseDecoders),
    ("finalized", boolean.encode s.finalized)]
  decode v := do
    let entries ← structEntries outputStateSpec v
    return {
      nextSeq := ← required entries "next_seq" u64
      nextOffset := ← required entries "next_offset" u64
      baseOffset := ← required entries "base_offset" u64
      retained := ← required entries "retained" usize
      droppedBytes := ← required entries "dropped_bytes" u64
      chunks := ← required entries "chunks" (list storedChunk)
      decoders := ← required entries "decoders" streamDecoders
      baseDecoders := ← required entries "base_decoders" streamDecoders
      finalized := ← required entries "finalized" boolean }

/-- `BorrowedReceipt` when written, `OwnedReceipt` when read. -/
structure Receipt where
  version : Nat
  decoderScheme : String
  state : OutputState

def receiptSpec : StructSpec where
  fields :=
    [u32.field "version", text.field "decoder_scheme", outputState.field "state"]
  denyUnknown := true

def receipt : Codec Receipt where
  encode r := .object [
    ("version", u32.encode r.version),
    ("decoder_scheme", text.encode r.decoderScheme),
    ("state", outputState.encode r.state)]
  decode v := do
    let entries ← structEntries receiptSpec v
    return {
      version := ← required entries "version" u32
      decoderScheme := ← required entries "decoder_scheme" text
      state := ← required entries "state" outputState }

namespace FrozenOutput

def serialize (f : FrozenOutput) : Except FrozenOutputError Value := do
  f.validate
  return receipt.encode ⟨formatVersion, decoderScheme, f.state⟩

def deserialize (v : Value) : Except DecodeError FrozenOutput := do
  let r ← receipt.decode v
  if r.version ≠ formatVersion then
    .error (.custom (FrozenOutputError.unsupportedVersion r.version).message)
  else if r.decoderScheme ≠ decoderScheme then
    .error (.custom (FrozenOutputError.unsupportedDecoder r.decoderScheme).message)
  else
    match validate ⟨r.state⟩ with
    | .error e => .error (.custom e.message)
    | .ok () => .ok ⟨r.state⟩

end FrozenOutput

/-! ### Reading back what was written -/

theorem outputStream_roundTrips (stream : OutputStream) : outputStream.RoundTrips stream := by
  cases stream <;> rfl

theorem u64_roundTrips (h : n ≤ u64Max) : u64.RoundTrips n := unsigned_roundTrips h

theorem bytes_roundTrips (bytes : List UInt8) : (list byte).RoundTrips bytes :=
  list_roundTrips fun b _ => byte_roundTrips b

theorem storedChunk_roundTrips (seq_fits : c.seq ≤ u64Max) (start_fits : c.start ≤ u64Max) :
    storedChunk.RoundTrips c := by
  have seq := u64_roundTrips seq_fits
  have start := u64_roundTrips start_fits
  have stream := outputStream_roundTrips c.stream
  have bytes := bytes_roundTrips c.bytes
  have entries := structEntries_declared storedChunkSpec (by decide)
    (seq.field "seq" (start.field "start" (stream.field "stream" (bytes.field "bytes" .nil))))
  simp [Codec.RoundTrips, storedChunk, entries, bind, Except.bind, pure, Except.pure, required,
    lookup_cons, seq, start, stream, bytes]

theorem incrementalDecoder_roundTrips (errors_fit : d.decodeErrors ≤ u64Max) :
    incrementalDecoder.RoundTrips d := by
  have pending := bytes_roundTrips d.utf8Pending
  have errors := u64_roundTrips errors_fit
  have source := text_roundTrips d.sourceEncoding
  have observed := boolean_roundTrips d.observedBytes
  have nonAscii := boolean_roundTrips d.sawNonAsciiUtf8
  have entries := structEntries_declared incrementalDecoderSpec (by decide)
    (pending.field "utf8_pending" (errors.field "decode_errors" (source.field "source_encoding"
      (observed.field "observed_bytes" (nonAscii.field "saw_non_ascii_utf8" .nil)))))
  simp [Codec.RoundTrips, incrementalDecoder, entries, bind, Except.bind, pure, Except.pure,
    required, lookup_cons, pending, errors, source, observed, nonAscii]

theorem streamDecoders_roundTrips
    (errors_fit : ∀ stream, (ds.forStream stream).decodeErrors ≤ u64Max) :
    streamDecoders.RoundTrips ds := by
  have stdout := incrementalDecoder_roundTrips (errors_fit .stdout)
  have stderr := incrementalDecoder_roundTrips (errors_fit .stderr)
  have pty := incrementalDecoder_roundTrips (errors_fit .pty)
  simp only [StreamDecoders.forStream] at stdout stderr pty
  have entries := structEntries_declared streamDecodersSpec (by decide)
    (stdout.field "stdout" (stderr.field "stderr" (pty.field "pty" .nil)))
  simp [Codec.RoundTrips, streamDecoders, entries, bind, Except.bind, pure, Except.pure, required,
    lookup_cons, stdout, stderr, pty]

/-- Every number of the state fits the type it is written with. -/
structure Fits (s : OutputState) : Prop where
  nextSeq : s.nextSeq ≤ u64Max
  nextOffset : s.nextOffset ≤ u64Max
  baseOffset : s.baseOffset ≤ u64Max
  retained : s.retained ≤ u64Max
  droppedBytes : s.droppedBytes ≤ u64Max
  chunks : ∀ c ∈ s.chunks, c.seq ≤ u64Max ∧ c.start ≤ u64Max
  decoders : ∀ stream, (s.decoders.forStream stream).decodeErrors ≤ u64Max
  baseDecoders : ∀ stream, (s.baseDecoders.forStream stream).decodeErrors ≤ u64Max

theorem outputState_roundTrips (fits : Fits s) : outputState.RoundTrips s := by
  have nextSeq := u64_roundTrips fits.nextSeq
  have nextOffset := u64_roundTrips fits.nextOffset
  have baseOffset := u64_roundTrips fits.baseOffset
  have retained : usize.RoundTrips s.retained := unsigned_roundTrips fits.retained
  have droppedBytes := u64_roundTrips fits.droppedBytes
  have chunks := list_roundTrips fun c member =>
    storedChunk_roundTrips (fits.chunks c member).1 (fits.chunks c member).2
  have decoders := streamDecoders_roundTrips fits.decoders
  have baseDecoders := streamDecoders_roundTrips fits.baseDecoders
  have finalized := boolean_roundTrips s.finalized
  have entries := structEntries_declared outputStateSpec (by decide)
    (nextSeq.field "next_seq" (nextOffset.field "next_offset" (baseOffset.field "base_offset"
      (retained.field "retained" (droppedBytes.field "dropped_bytes" (chunks.field "chunks"
        (decoders.field "decoders" (baseDecoders.field "base_decoders"
          (finalized.field "finalized" .nil)))))))))
  simp [Codec.RoundTrips, outputState, entries, bind, Except.bind, pure, Except.pure, required,
    lookup_cons, nextSeq, nextOffset, baseOffset, retained, droppedBytes, chunks, decoders,
    baseDecoders, finalized]

theorem receipt_roundTrips {r : Receipt} (version_fits : r.version ≤ u32Max) (fits : Fits r.state) :
    receipt.RoundTrips r := by
  have version : u32.RoundTrips r.version := unsigned_roundTrips version_fits
  have scheme := text_roundTrips r.decoderScheme
  have state := outputState_roundTrips fits
  have entries := structEntries_declared receiptSpec (by decide)
    (version.field "version" (scheme.field "decoder_scheme" (state.field "state" .nil)))
  simp [Codec.RoundTrips, receipt, entries, bind, Except.bind, pure, Except.pure, required,
    lookup_cons, version, scheme, state]

/-- A frozen output that validates is written, and reading it back restores it. -/
theorem serialize_deserialize {f : FrozenOutput} (valid : f.validate = .ok ())
    (fits : Fits f.state) :
    ∃ value, f.serialize = .ok value ∧ FrozenOutput.deserialize value = .ok f := by
  have read := receipt_roundTrips (r := ⟨formatVersion, decoderScheme, f.state⟩)
    (show formatVersion ≤ u32Max by decide) fits
  refine ⟨receipt.encode ⟨formatVersion, decoderScheme, f.state⟩, ?_, ?_⟩
  · simp [FrozenOutput.serialize, valid, bind, Except.bind, pure, Except.pure]
  · simp [FrozenOutput.deserialize, read, bind, Except.bind, valid]

/-! ### A frozen ring is valid -/

/-- What decoding and finishing maintain of a decoder, whatever the bytes. -/
structure Sound (d : IncrementalDecoder) : Prop where
  carries : Carries d
  errors_le : d.decodeErrors ≤ u64Max
  source : d.sourceEncoding = utf8Label
  unobserved : d.observedBytes = false → d = new

theorem sound_new : Sound new where
  carries := carries_new
  errors_le := Nat.zero_le _
  source := rfl
  unobserved _ := rfl

theorem foldl_absorb_history (tokens : List Token) (d : IncrementalDecoder)
    (errors_le : d.decodeErrors ≤ u64Max) :
    (tokens.foldl absorb d).decodeErrors ≤ u64Max ∧
      (tokens.foldl absorb d).sourceEncoding = d.sourceEncoding := by
  induction tokens generalizing d with
  | nil => exact ⟨errors_le, rfl⟩
  | cons token tokens ih =>
    cases token with
    | scalar c => exact ih (d.noteValid [c]) errors_le
    | malformed => exact ih d.countError (saturatingAdd_le _ _ _)

theorem sound_decode (h : Sound d) (bytes : List UInt8) : Sound (d.decode bytes).1 := by
  have history := foldl_absorb_history (utf8Scanner.scan (d.utf8Pending ++ bytes)).1 d h.errors_le
  refine ⟨carries_decode d bytes, ?_, ?_, ?_⟩
  · rw [decode_eq]
    exact history.1
  · rw [decode_eq]
    exact history.2.trans h.source
  · intro unobserved
    have seen : d.observedBytes = false ∧ bytes = [] := by
      simpa [decode_eq] using unobserved
    rw [seen.2, decode_nil h.carries]
    exact h.unobserved seen.1

theorem sound_replay (bytes : List UInt8) : Sound (replay bytes) := sound_decode sound_new bytes

theorem finish_pending (d : IncrementalDecoder) : d.finish.1.utf8Pending = [] := by
  unfold finish
  split
  next empty => exact empty
  next => rfl

theorem sound_finish (h : Sound d) : Sound d.finish.1 := by
  unfold finish
  split
  next => exact h
  next pending =>
    refine ⟨utf8Scanner.front_nil, saturatingAdd_le _ _ _, h.source, ?_⟩
    intro unobserved
    have fresh : d = new := h.unobserved unobserved
    exact absurd (by rw [fresh]; rfl) pending

theorem carryOk_of_carries (h : Carries d) : carryOk d.utf8Pending := by
  have truncated := utf8Scanner_starved.mp h
  have short := leading_truncated_length truncated
  by_cases empty : d.utf8Pending = []
  · simp [carryOk, empty]
  · simp [carryOk, short, fromUtf8_truncated empty truncated]

theorem validateDecoder_sound (h : Sound d) (finalized : Bool)
    (closed : finalized = true → d.utf8Pending = []) : validateDecoder d finalized = .ok () := by
  have carry := carryOk_of_carries h.carries
  have terminal : (finalized && !d.utf8Pending.isEmpty) = false := by
    cases finalized
    · rfl
    · simp [closed rfl]
  have untouched : (!d.observedBytes &&
      (d.decodeErrors != 0 || d.sawNonAsciiUtf8 || !d.utf8Pending.isEmpty)) = false := by
    cases observed : d.observedBytes with
    | true => rfl
    | false =>
      rw [h.unobserved observed]
      rfl
  simp [validateDecoder, carry, terminal, untouched, h.source]

theorem validateDecoders_sound (h : ∀ stream, Sound (ds.forStream stream)) (finalized : Bool)
    (closed : finalized = true → ∀ stream, (ds.forStream stream).utf8Pending = []) :
    validateDecoders ds finalized = .ok () := by
  have each := fun stream =>
    validateDecoder_sound (h stream) finalized fun final => closed final stream
  have stdout := each .stdout
  have stderr := each .stderr
  have pty := each .pty
  simp only [StreamDecoders.forStream] at stdout stderr pty
  simp [validateDecoders, stdout, stderr, pty, bind, Except.bind]

theorem validateChunks_contiguous (fits : stop ≤ u64Max) (chunks : List StoredChunk) (offset : Nat)
    (previous : Option Nat) (covers : Contiguous offset chunks stop)
    (sorted : (chunks.map (·.seq)).Pairwise (· < ·))
    (below : ∀ seq ∈ chunks.map (·.seq), seq < nextSeq)
    (above : ∀ seq ∈ chunks.map (·.seq), ∀ p ∈ previous, p < seq) :
    validateChunks nextSeq offset previous chunks = .ok stop := by
  induction chunks generalizing offset previous with
  | nil => exact congrArg Except.ok covers
  | cons chunk rest ih =>
    obtain ⟨nonempty, start_eq, tail⟩ := covers
    rw [map_cons, pairwise_cons] at sorted
    have inside := tail.length_content
    have seq_lt : chunk.seq < nextSeq := below _ mem_cons_self
    have after_previous : previous.any (· ≥ chunk.seq) = false := by
      cases previous with
      | none => rfl
      | some p => simpa using above _ mem_cons_self p rfl
    have room : offset + chunk.bytes.length ≤ u64Max := by omega
    have rest_ok := ih _ (some chunk.seq) tail sorted.2
      (fun seq member => below seq (mem_cons_of_mem _ member))
      (fun seq member p same => by cases same; exact sorted.1 seq member)
    simp [validateChunks, nonempty, start_eq, seq_lt, after_previous, checkedAdd_of_le room,
      rest_ok]

theorem forStream_finish (ds : StreamDecoders) (stream : OutputStream) :
    ds.finish.1.forStream stream = (ds.forStream stream).finish.1 := by
  cases stream <;> rfl

section

variable {limit : Nat} {log : Log} {s : OutputState}

theorem finalize_live (live : s.finalized = false) :
    s.finalize = { s with decoders := s.decoders.finish.1, finalized := true } := by
  simp [OutputState.finalize, live]

theorem Ring.sound_base (ring : Ring limit log s) (stream : OutputStream) :
    Sound (s.baseDecoders.forStream stream) := by
  rw [ring.base_decoders stream]
  exact sound_replay _

theorem Ring.sound_finished (ring : Ring limit log s) (stream : OutputStream) :
    Sound (s.decoders.finish.1.forStream stream) := by
  rw [forStream_finish, ring.decoders stream]
  exact sound_finish (sound_replay _)

/-- Freezing a ring gives a state that passes every check of the validator. -/
theorem validateState_frozen (ring : Ring limit log s) (seq_fits : s.nextSeq + 2 ≤ u64Max) :
    validateState s.finalize = .ok () := by
  have retained_eq := ring.retained_eq
  have covered : checkedSub s.nextOffset s.baseOffset = some s.retained := by
    rw [checkedSub_of_le (by omega)]
    congr 1
    omega
  have chunks := validateChunks_contiguous (by rw [ring.next_eq]; exact ring.fits) s.chunks
    s.baseOffset none ring.covers ring.seq_sorted ring.seq_lt (by simp)
  have base := validateDecoders_sound ring.sound_base false (by simp)
  have final := validateDecoders_sound ring.sound_finished true fun _ stream => by
    rw [forStream_finish]
    exact finish_pending _
  simp [finalize_live ring.live, validateState, ring.base_eq_dropped ▸ covered,
    ring.base_eq_dropped, checkedAdd_of_le seq_fits, ring.base_eq_dropped ▸ chunks, base, final,
    bind, Except.bind]

theorem fits_frozen (ring : Ring limit log s) (seq_fits : s.nextSeq ≤ u64Max) :
    Fits s.finalize := by
  have fits := ring.fits
  have next_eq := ring.next_eq
  have retained_eq := ring.retained_eq
  have base_eq := ring.base_eq_dropped
  rw [finalize_live ring.live]
  refine ⟨seq_fits, ?_, ?_, ?_, ?_, ?_, ?_, ?_⟩
  · simp only; omega
  · simp only; omega
  · simp only; omega
  · simp only; omega
  · intro c member
    have seq_lt := ring.seq_lt c.seq (mem_map_of_mem member)
    have start_le := ring.covers.start_le c member
    omega
  · exact fun stream => (ring.sound_finished stream).errors_le
  · exact fun stream => (ring.sound_base stream).errors_le

theorem flushStream_isSome (s : OutputState) (chunks : List OutputChunk)
    (seq_fits : s.nextSeq + ordinal ≤ u64Max) (stream : OutputStream) (text : List Char) :
    (s.flushStream chunks ordinal stream text).isSome := by
  unfold OutputState.flushStream
  split_ifs <;> simp [checkedAdd_of_le seq_fits]

theorem flush_isSome (s : OutputState) (seq_fits : s.nextSeq + 2 ≤ u64Max)
    (chunks : List OutputChunk) (ds : StreamDecoders) : (s.flush chunks ds).isSome := by
  have each := fun (chunks : List OutputChunk) (ordinal : Nat) (small : ordinal ≤ 2) stream text =>
    isSome_iff_exists.mp
      (flushStream_isSome s chunks (show s.nextSeq + ordinal ≤ u64Max by omega) stream text)
  obtain ⟨first, flushed⟩ := each chunks 0 (by omega) .stdout ds.stdout.finish.2
  obtain ⟨second, flushed'⟩ := each first 1 (by omega) .stderr ds.stderr.finish.2
  obtain ⟨third, flushed''⟩ := each second 2 (by omega) .pty ds.pty.finish.2
  simp [OutputState.flush, StreamDecoders.finish, flushed, flushed', flushed'']

theorem snapshotFrom_frozen_isSome (ring : Ring limit log s) (seq_fits : s.nextSeq + 2 ≤ u64Max)
    (cursor : Nat) : (s.finalize.snapshotFrom cursor).isSome := by
  have carries := fun stream => (ring.sound_base stream).carries
  obtain ⟨ds', out, ran, _⟩ := snapshotChunks_visits
    (min (max cursor s.baseOffset) s.nextOffset) s.baseDecoders carries s.chunks s.baseOffset
    s.nextOffset ring.covers (by rw [ring.next_eq]; exact ring.fits) []
  obtain ⟨flushed, ran'⟩ := isSome_iff_exists.mp
    (flush_isSome s.finalize (by rw [finalize_live ring.live]; exact seq_fits) ([] ++ out) ds')
  rw [finalize_live ring.live] at ran' ⊢
  simp only [OutputState.snapshotFrom, ran, bind_eq_bind, bind_some, if_true, ran',
    Option.pure_def, isSome_some]

end

/-- A frozen buffer ignores pushes. -/
theorem pushAll_frozen (limit : Nat) (s : OutputState) (pushes : List (OutputStream × List UInt8)) :
    OutputBuffer.pushAll ⟨limit, .frozen s⟩ pushes = some ⟨limit, .frozen s⟩ := by
  induction pushes with
  | nil => rfl
  | cons p pushes ih => simpa [OutputBuffer.pushAll_cons, OutputBuffer.push] using ih

end Nomifun.Source.ProcessRuntime
