import Nomifun.Source.ProcessRuntime.Ring

/-!
# What a snapshot shows

`snapshotChunks` walks the ring once. Chunks before the cursor only advance the
decoders; the chunk the cursor falls into is split; everything behind is copied. The
walk therefore visits exactly the logged bytes from the cursor on, and the text of a
stream is what its decoder produces for those bytes after having taken in the earlier
ones (`snapshotChunks_visits`).
-/
namespace Nomifun.Source.ProcessRuntime
open Library.MachineInt IncrementalDecoder List

/-- The bytes a snapshot returns, with their streams. -/
def visited (out : List OutputChunk) : Log := out.flatMap fun c => tag c.stream c.bytes

theorem visited_bytes (out : List OutputChunk) :
    (visited out).map Prod.snd = out.flatMap (·.bytes) := by
  simp [visited, map_flatMap, tag, Function.comp_def]

/-- The text a snapshot returns for one stream. -/
def textOf (stream : OutputStream) (out : List OutputChunk) : List Char :=
  (out.filter (·.stream = stream)).flatMap (·.text)

/-- The text of `shown` from a decoder that has first taken in `passed`. -/
def textAfter (ds : StreamDecoders) (stream : OutputStream) (passed shown : Log) : List Char :=
  (((ds.forStream stream).decode (bytesOf stream passed)).1.decode (bytesOf stream shown)).2

theorem textOf_append (stream : OutputStream) (a b : List OutputChunk) :
    textOf stream (a ++ b) = textOf stream a ++ textOf stream b := by
  simp [textOf]

theorem textOf_singleton (stream : OutputStream) (chunk : OutputChunk) :
    textOf stream [chunk] = if chunk.stream = stream then chunk.text else [] := by
  by_cases same : chunk.stream = stream <;> simp [textOf, same]

/-- Having taken in `fed` first only moves it into the passed part. -/
theorem textAfter_fed (h : Fed ds ds' fed) (stream : OutputStream) (passed shown : Log) :
    textAfter ds' stream passed shown = textAfter ds stream (fed ++ passed) shown := by
  simp [textAfter, h stream, bytesOf_append, decode_append]

theorem textAfter_shown (ds : StreamDecoders) (stream : OutputStream) (passed a b : Log) :
    textAfter ds stream passed (a ++ b) =
      textAfter ds stream passed a ++ textAfter ds stream (passed ++ a) b := by
  simp [textAfter, bytesOf_append, decode_append]

theorem textAfter_tag (ds : StreamDecoders) (carries : ∀ stream, Carries (ds.forStream stream))
    (stream owner : OutputStream) (bytes : List UInt8) :
    textAfter ds stream [] (tag owner bytes) =
      if owner = stream then (ds.decode owner bytes).2 else [] := by
  simp only [textAfter, bytesOf_nil, decode_nil (carries stream)]
  split
  next same =>
    subst same
    rw [bytesOf_tag_self, StreamDecoders.decode]
  next other =>
    rw [bytesOf_tag_ne bytes (Ne.symm other), decode_nil (carries stream)]

/-- The result of walking `chunks`, which begin at offset `pos`, with a snapshot
starting at `start`. -/
structure Visits (start pos : Nat) (ds : StreamDecoders) (chunks : List StoredChunk)
    (ds' : StreamDecoders) (out : List OutputChunk) : Prop where
  decoders : Fed ds ds' (content chunks)
  bytes_eq : visited out = (content chunks).drop (start - pos)
  text_eq : ∀ stream, textOf stream out =
    textAfter ds stream ((content chunks).take (start - pos)) ((content chunks).drop (start - pos))

theorem snapshotChunks_visits (start : Nat) (ds : StreamDecoders)
    (carries : ∀ stream, Carries (ds.forStream stream)) (chunks : List StoredChunk)
    (pos stop : Nat) (covers : Contiguous pos chunks stop) (fits : stop ≤ u64Max)
    (before : List OutputChunk) :
    ∃ ds' out, OutputState.snapshotChunks start ds before chunks = some (ds', before ++ out) ∧
      Visits start pos ds chunks ds' out := by
  induction chunks generalizing ds pos before with
  | nil =>
    refine ⟨ds, [], by simp [OutputState.snapshotChunks], Fed.refl ds carries, by
      simp [visited, content], ?_⟩
    intro stream
    simp [textOf, textAfter, content, decode_nil (carries stream)]
  | cons chunk rest ih =>
    obtain ⟨nonempty, start_eq, tail⟩ := covers
    have tail_length := tail.length_content
    have stop_fits : chunk.start + chunk.bytes.length ≤ u64Max := by omega
    have fed := fed_decode ds carries chunk.stream
    simp only [OutputState.snapshotChunks, checkedAdd_of_le stop_fits, Option.bind_eq_bind,
      Option.bind_some]
    by_cases skipped : chunk.start + chunk.bytes.length ≤ start
    · obtain ⟨ds', out, ran, visits⟩ := ih _ (fed chunk.bytes).carries _ tail before
      have whole : chunk.bytes.length ≤ start - pos := by omega
      have shift : start - pos - chunk.bytes.length = start - (pos + chunk.bytes.length) := by omega
      refine ⟨ds', out, by rw [if_pos skipped, ran], ?_, ?_, ?_⟩
      · rw [content_cons]
        exact (fed chunk.bytes).trans visits.decoders
      · rw [content_cons, drop_tag_append _ whole, shift, visits.bytes_eq]
      · intro stream
        rw [content_cons, drop_tag_append _ whole, take_tag_append _ whole, shift,
          visits.text_eq stream, textAfter_fed (fed chunk.bytes)]
    · -- the cursor lies in this chunk or before it: the rest is shown whole
      have inside : start - chunk.start ≤ (tag chunk.stream chunk.bytes).length := by
        rw [tag_length]
        omega
      have split_fed : Fed ds
          (if start - chunk.start > 0 then
            (ds.decode chunk.stream (chunk.bytes.take (start - chunk.start))).1 else ds)
          ((tag chunk.stream chunk.bytes).take (start - chunk.start)) := by
        split
        next => rw [← tag_take]; exact fed _
        next unsplit =>
          obtain zero : start - chunk.start = 0 := by omega
          rw [zero, take_zero]
          exact Fed.refl ds carries
      rw [if_neg skipped, checkedAdd_of_le (by rw [tag_length] at inside; omega)]
      generalize (if start - chunk.start > 0 then
        (ds.decode chunk.stream (chunk.bytes.take (start - chunk.start))).1 else ds) = split at *
      have shown := fed_decode split split_fed.carries chunk.stream
        (chunk.bytes.drop (start - chunk.start))
      simp only [Option.bind_some]
      obtain ⟨ds', out, ran, visits⟩ := ih _ shown.carries _ tail _
      have past : start - (pos + chunk.bytes.length) = 0 := by omega
      have bytes_eq := visits.bytes_eq
      have text_eq := visits.text_eq
      simp only [past, drop_zero, take_zero] at bytes_eq text_eq
      refine ⟨ds', _ :: out, by rw [ran, append_assoc]; rfl, ?_, ?_, ?_⟩
      · have joined := split_fed.trans (shown.trans visits.decoders)
        rwa [← append_assoc, tag_drop, take_append_drop, ← content_cons] at joined
      · rw [content_cons, ← start_eq, drop_append_of_le_length inside, ← tag_drop, ← bytes_eq]
        rfl
      · intro stream
        rw [content_cons, ← start_eq, drop_append_of_le_length inside,
          take_append_of_le_length inside, ← tag_drop, ← singleton_append,
          textOf_append, textOf_singleton, textAfter_shown, text_eq stream]
        have head := textAfter_fed split_fed stream []
          (tag chunk.stream (chunk.bytes.drop (start - chunk.start)))
        have behind := textAfter_fed (split_fed.trans shown) stream [] (content rest)
        rw [textAfter_tag split split_fed.carries, append_nil] at head
        rw [append_nil] at behind
        rw [head, behind]

/-- A live ring answers every cursor: it shows the log from the cursor on, clipped to
what is still held, and decodes it from the base decoders. -/
theorem snapshotFrom_ring (ring : Ring limit log s) (cursor : Nat) :
    ∃ snap, s.snapshotFrom cursor = some snap ∧
      visited snap.chunks = log.drop (max cursor s.baseOffset) ∧
      (∀ stream, textOf stream snap.chunks = textAfter s.baseDecoders stream
          ((log.drop s.baseOffset).take (max cursor s.baseOffset - s.baseOffset))
          (log.drop (max cursor s.baseOffset))) ∧
      snap.encoding = s.decoders.metadata := by
  have carries := carries_of_replay ring.base_decoders
  have fits := ring.fits
  have next_eq := ring.next_eq
  obtain ⟨ds', out, ran, visits⟩ := snapshotChunks_visits
    (min (max cursor s.baseOffset) s.nextOffset) s.baseDecoders carries s.chunks s.baseOffset
    s.nextOffset ring.covers (by omega) []
  have shown : (content s.chunks).drop (min (max cursor s.baseOffset) s.nextOffset - s.baseOffset) =
      log.drop (max cursor s.baseOffset) := by
    rw [ring.content_eq, drop_drop]
    rcases Nat.le_total (max cursor s.baseOffset) s.nextOffset with inside | beyond
    · rw [Nat.min_eq_left inside, Nat.add_sub_cancel' (Nat.le_max_right _ _)]
    · rw [Nat.min_eq_right beyond, drop_eq_nil_iff.mpr (by omega), drop_eq_nil_iff.mpr (by omega)]
  have passed : (content s.chunks).take
    (min (max cursor s.baseOffset) s.nextOffset - s.baseOffset) =
      (log.drop s.baseOffset).take (max cursor s.baseOffset - s.baseOffset) := by
    rw [ring.content_eq]
    rcases Nat.le_total (max cursor s.baseOffset) s.nextOffset with inside | beyond
    · rw [Nat.min_eq_left inside]
    · rw [Nat.min_eq_right beyond, take_of_length_le (by rw [length_drop]; omega),
        take_of_length_le (by rw [length_drop]; omega)]
  refine ⟨_, by simp only [OutputState.snapshotFrom, ran, ring.live]; rfl, ?_, ?_, rfl⟩
  · exact visits.bytes_eq.trans shown
  · intro stream
    exact (visits.text_eq stream).trans (by rw [shown, passed])

/-- From cursor 0 a stream shows what its base decoder makes of the held bytes. -/
theorem snapshotFrom_zero (ring : Ring limit log s) :
    ∃ snap, s.snapshotFrom 0 = some snap ∧ (∀ stream, textOf stream snap.chunks =
        ((replay (bytesOf stream (log.take s.baseOffset))).decode
          (bytesOf stream (log.drop s.baseOffset))).2) ∧
      snap.encoding = s.decoders.metadata := by
  obtain ⟨snap, taken, _, text_eq, encoding_eq⟩ := snapshotFrom_ring ring 0
  refine ⟨snap, taken, ?_, encoding_eq⟩
  intro stream
  rw [text_eq stream, Nat.zero_max, Nat.sub_self, take_zero, textAfter, bytesOf_nil,
    ring.base_decoders stream, decode_nil (carries_replay _)]

end Nomifun.Source.ProcessRuntime
