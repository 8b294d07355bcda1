import Nomifun.Source.ProcessRuntime.Decoder

/-!
# Bounded replay ring (nomi-process-runtime, io.rs:33-428)

`OutputBuffer` without its callbacks: the activity hook, the observer and the change
channel are told about a push but never touch the ring. `none` is a panic of the source
(`expect`, and the underflow of `retained -= drop_now`). The target is 64-bit, so
`usize` and `u64` share one bound. `OutputBufferState::Transition` exists only while
`freeze` holds the lock and is not representable here.
-/
namespace Nomifun.Source.ProcessRuntime
open Library.MachineInt

structure StoredChunk where
  seq : Nat
  start : Nat
  stream : OutputStream
  bytes : List UInt8

structure OutputState where
  (nextSeq nextOffset baseOffset retained droppedBytes : Nat)
  chunks : List StoredChunk
  (decoders baseDecoders : StreamDecoders)
  finalized : Bool

inductive OutputBufferState where
  | live (state : OutputState)
  | frozen (state : OutputState)

structure OutputBuffer where
  limit : Nat
  inner : OutputBufferState

/-- The read-only output a freeze hands out (io.rs:75-77). -/
structure FrozenOutput where
  state : OutputState

structure OutputChunk where
  seq : Nat
  start : Nat
  stream : OutputStream
  bytes : List UInt8
  text : List Char

structure OutputSnapshot where
  chunks : List OutputChunk
  (nextCursor retainedBytes droppedBytes : Nat)
  encoding : EncodingMetadata

namespace OutputState

def initial : OutputState where
  nextSeq := 0
  nextOffset := 0
  baseOffset := 0
  retained := 0
  droppedBytes := 0
  chunks := []
  decoders := .new
  baseDecoders := .new
  finalized := false

def finalize (s : OutputState) : OutputState :=
  if s.finalized then s else { s with decoders := s.decoders.finish.1, finalized := true }

def takeSeq (s : OutputState) : Option (Nat × OutputState) := do
  let nextSeq ← checkedAdd u64Max s.nextSeq 1
  return (s.nextSeq, { s with nextSeq })

/-- The eviction loop. Each turn empties the front chunk and goes on with the rest of
`count`, or trims it and has nothing left to drop. -/
def dropOldest (s : OutputState) (count : Nat) : Option OutputState :=
  if count = 0 then some s
  else
    match _front : s.chunks with
    | [] => none
    | oldest :: rest =>
      let dropNow := min count oldest.bytes.length
      let baseDecoders := (s.baseDecoders.decode oldest.stream (oldest.bytes.take dropNow)).1
      if dropNow = oldest.bytes.length then do
        let retained ← checkedSub s.retained dropNow
        dropOldest { s with chunks := rest, baseDecoders, retained } (count - dropNow)
      else do
        let start ← checkedAdd u64Max oldest.start dropNow
        let retained ← checkedSub s.retained dropNow
        dropOldest
          { s with
            chunks := { oldest with start, bytes := oldest.bytes.drop dropNow } :: rest
            baseDecoders, retained }
          (count - dropNow)
termination_by s.chunks.length + count
decreasing_by
  · simp only [_front, List.length_cons]
    omega
  · simp only [_front, List.length_cons]
    omega

variable (s : OutputState) (chunks : List OutputChunk)

def retain (limit seq start : Nat) (stream : OutputStream) (bytes : List UInt8)
    : Option (OutputState × Nat) :=
  if bytes = [] then some (s, 0)
  else do
    let keep := min bytes.length limit
    let droppedFromNew := bytes.length - keep
    let total ← checkedAdd u64Max s.retained keep
    let droppedFromOld := total - limit
    let s ← s.dropOldest droppedFromOld
    let s :=
      if droppedFromNew > 0 then
        { s with
          baseDecoders := s.baseDecoders.discardBounded stream (bytes.take droppedFromNew) }
      else s
    let s ←
      if keep > 0 then do
        let keptStart ← checkedAdd u64Max start droppedFromNew
        let retained ← checkedAdd u64Max s.retained keep
        pure { s with
          chunks := s.chunks ++ [⟨seq, keptStart, stream, bytes.drop droppedFromNew⟩]
          retained }
      else pure s
    let dropped ← checkedAdd u64Max droppedFromOld droppedFromNew
    let baseOffset ← checkedAdd u64Max s.baseOffset dropped
    let droppedBytes ← checkedAdd u64Max s.droppedBytes dropped
    return ({ s with baseOffset, droppedBytes }, dropped)

/-- The live branch of `OutputBuffer::push`. -/
def push (limit : Nat) (stream : OutputStream) (bytes : List UInt8) :
    Option (OutputState × Nat) := do
  let start := s.nextOffset
  let nextOffset ← checkedAdd u64Max s.nextOffset bytes.length
  let decoders := s.decoders.discardBounded stream bytes
  let (seq, s) ← { s with nextOffset, decoders }.takeSeq
  s.retain limit seq start stream bytes

/-- The loop of `snapshot_from_state` over the stored chunks. -/
def snapshotChunks (start : Nat) (decoders : StreamDecoders) (out : List OutputChunk) :
    List StoredChunk → Option (StreamDecoders × List OutputChunk)
  | [] => some (decoders, out)
  | stored :: rest => do
    let stop ← checkedAdd u64Max stored.start stored.bytes.length
    if stop ≤ start then
      snapshotChunks start (decoders.decode stored.stream stored.bytes).1 out rest
    else
      let sliceStart := start - stored.start
      let decoders :=
        if sliceStart > 0 then
          (decoders.decode stored.stream (stored.bytes.take sliceStart)).1
        else decoders
      let bytes := stored.bytes.drop sliceStart
      let chunkStart ← checkedAdd u64Max stored.start sliceStart
      let decoded := decoders.decode stored.stream bytes
      snapshotChunks start decoded.1
        (out ++ [⟨stored.seq, chunkStart, stored.stream, bytes, decoded.2⟩]) rest

/-- Append the flushed text to the last chunk of the stream. -/
def appendText (stream : OutputStream) (text : List Char) : List OutputChunk → List OutputChunk
  | [] => []
  | chunk :: rest =>
    if rest.any (·.stream = stream) then chunk :: appendText stream text rest
    else if chunk.stream = stream then { chunk with text := chunk.text ++ text } :: rest
    else chunk :: rest

/-- The terminal flush of one stream: onto its last returned chunk, else as an empty
chunk when the ring still holds bytes of the stream, else dropped. -/
def flushStream (ordinal : Nat) (stream : OutputStream) (text : List Char)
    : Option (List OutputChunk) :=
  if text = [] then some chunks
  else if chunks.any (·.stream = stream) then some (appendText stream text chunks)
  else if s.chunks.any (·.stream = stream) then do
    let seq ← checkedAdd u64Max s.nextSeq ordinal
    return chunks ++ [⟨seq, s.nextOffset, stream, [], text⟩]
  else some chunks

def flush (decoders : StreamDecoders) : Option (List OutputChunk) :=
  (decoders.finish.2.zipIdx).foldlM
    (fun chunks entry => s.flushStream chunks entry.2 entry.1.1 entry.1.2) chunks

/-- `snapshot_from_state`. -/
def snapshotFrom (cursor : Nat) : Option OutputSnapshot := do
  let start := min (max cursor s.baseOffset) s.nextOffset
  let (decoders, chunks) ← snapshotChunks start s.baseDecoders [] s.chunks
  let chunks ← if s.finalized then s.flush chunks decoders else pure chunks
  return {
    chunks
    nextCursor := s.nextOffset
    retainedBytes := s.retained
    droppedBytes := s.droppedBytes
    encoding := s.decoders.metadata }

end OutputState

namespace OutputBuffer

def new (limit : Nat) : OutputBuffer := ⟨limit, .live .initial⟩

/-- Returns the buffer after the call and the number of bytes the call dropped. -/
def push (b : OutputBuffer) (stream : OutputStream) (bytes : List UInt8) :
    Option (OutputBuffer × Nat) :=
  match b.inner with
  | .live s => (s.push b.limit stream bytes).map fun r => ({ b with inner := .live r.1 }, r.2)
  | .frozen _ => some (b, 0)

def freeze (b : OutputBuffer) : OutputBuffer × FrozenOutput :=
  match b.inner with
  | .live s => ({ b with inner := .frozen s.finalize }, ⟨s.finalize⟩)
  | .frozen s => (b, ⟨s⟩)

def snapshotFrom (b : OutputBuffer) (cursor : Nat) : Option OutputSnapshot :=
  match b.inner with
  | .live s => s.snapshotFrom cursor
  | .frozen s => s.snapshotFrom cursor

/-- Consecutive `push` calls; `none` once one of them has panicked. -/
def pushAll (b : OutputBuffer) (pushes : List (OutputStream × List UInt8)) : Option OutputBuffer :=
  pushes.foldlM (fun b p => (b.push p.1 p.2).map Prod.fst) b

end OutputBuffer

def FrozenOutput.snapshotFrom (f : FrozenOutput) (cursor : Nat) : Option OutputSnapshot :=
  f.state.snapshotFrom cursor

end Nomifun.Source.ProcessRuntime
