import Nomifun.Source.ProcessRuntime.FrozenOutput

/-!
# Process output: what the bounded ring promises

A bounded ring keeps the newest bytes of everything a process has written. Over any
sequence of pushes the counters describe exactly which bytes those are, a snapshot
returns exactly those bytes, and the text it shows depends on the bytes of each stream
and not on how the process happened to write them.
-/
namespace Nomifun.Guarantees.ProcessOutput
open Library.MachineInt Source.ProcessRuntime IncrementalDecoder Option List

/-- Accounting of the ring after any sequence of pushes. A push fails only when the
sequence numbers run out, which no byte count prevents, since empty pushes take one. -/
theorem pushAll_accounts_for_every_byte (limit : Nat)
    (pushes : List (OutputStream × List UInt8))
    (total : (pushes.map (·.2.length)).sum < u64Max) :
    (((OutputBuffer.new limit).pushAll pushes).isSome ↔ pushes.length ≤ u64Max) ∧
    ∀ b, (OutputBuffer.new limit).pushAll pushes = some b → ∃ s, b.inner = .live s ∧
      s.retained = (s.chunks.map (·.bytes.length)).sum ∧
      s.retained ≤ limit ∧
      s.baseOffset = s.droppedBytes ∧
      s.nextOffset = (pushes.flatMap (·.2)).length ∧
      s.baseOffset + s.retained = s.nextOffset ∧
      Contiguous s.baseOffset s.chunks s.nextOffset ∧
      (s.chunks.map (·.seq)).Pairwise (· < ·) ∧
      ∀ cursor, ∃ snap, b.snapshotFrom cursor = some snap ∧ snap.chunks.flatMap (·.bytes) =
          (pushes.flatMap (·.2)).drop (max cursor s.baseOffset) := by
  refine ⟨?_, ?_⟩
  · rw [pushAll_new_isSome]
    omega
  · intro b ran
    obtain ⟨s, rfl, ring, _⟩ := pushAll_new ran
    have held := ring.covers.length_content
    have retained_eq := ring.retained_eq
    refine ⟨s, rfl, ?_, ring.retained_le, ring.base_eq_dropped, ?_, retained_eq, ring.covers,
      ring.seq_sorted, ?_⟩
    · rw [← content_length]
      omega
    · rw [ring.next_eq, ← logOf_bytes, length_map]
    · intro cursor
      obtain ⟨snap, taken, shown, _⟩ := snapshotFrom_ring ring cursor
      refine ⟨snap, taken, ?_⟩
      rw [← visited_bytes, shown, map_drop, logOf_bytes]

theorem pushAll_accounts_for_split_write :
    ∃ b, (OutputBuffer.new 3).pushAll [(.stdout, [65, 66]), (.stderr, [67, 68])] = some b ∧
      ∃ s, b.inner = .live s ∧ s.retained ≤ 3 ∧ s.nextOffset = 4 := by
  have accounts := pushAll_accounts_for_every_byte 3 [(.stdout, [65, 66]), (.stderr, [67, 68])]
    (by decide)
  obtain ⟨b, ran⟩ := isSome_iff_exists.mp (accounts.1.mpr (by decide))
  obtain ⟨s, live, _, bounded, _, next, _⟩ := accounts.2 b ran
  exact ⟨b, ran, s, live, bounded, next⟩

/-- The text of a stream is a function of its bytes. Both decoder sets are what one pass
over the stream's bytes leaves behind: the base decoders over the dropped ones, the
running decoders over all of them. So two runs that wrote the same bytes to a stream
and still hold the same part of them show the same text, whatever the pushes were. -/
theorem text_is_independent_of_push_boundaries (limit : Nat)
    (pushes : List (OutputStream × List UInt8)) :
    (((OutputBuffer.new limit).pushAll pushes).isSome ↔
      (pushes.map (·.2.length)).sum ≤ u64Max ∧ pushes.length ≤ u64Max) ∧
    ∀ b, (OutputBuffer.new limit).pushAll pushes = some b → ∃ s snap,
      b.inner = .live s ∧ b.snapshotFrom 0 = some snap ∧
      (∀ stream, s.baseDecoders.forStream stream =
        (new.decode (bytesOf stream ((logOf pushes).take s.droppedBytes))).1) ∧
      (s.droppedBytes = 0 → ∀ stream, textOf stream snap.chunks =
        (new.decode (bytesOf stream (logOf pushes))).2) ∧
      ∀ limit' pushes' b' s' snap', (OutputBuffer.new limit').pushAll pushes' = some b' →
        b'.inner = .live s' → b'.snapshotFrom 0 = some snap' →
        (∀ stream, bytesOf stream (logOf pushes) = bytesOf stream (logOf pushes') →
          s.decoders.forStream stream = s'.decoders.forStream stream ∧
          (bytesOf stream (content s.chunks) = bytesOf stream (content s'.chunks) →
            textOf stream snap.chunks = textOf stream snap'.chunks)) ∧
        ((∀ stream, bytesOf stream (logOf pushes) = bytesOf stream (logOf pushes')) →
          snap.encoding.decodeErrors = snap'.encoding.decodeErrors) := by
  refine ⟨pushAll_new_isSome limit pushes, ?_⟩
  intro b ran
  obtain ⟨s, rfl, ring, _⟩ := pushAll_new ran
  obtain ⟨snap, taken, text_eq, encoding_eq⟩ := snapshotFrom_zero ring
  refine ⟨s, snap, rfl, taken, ?_, ?_, ?_⟩
  · intro stream
    rw [ring.base_decoders stream, ring.base_eq_dropped, replay]
  · intro none_dropped stream
    rw [text_eq stream, ring.base_eq_dropped, none_dropped, take_zero, drop_zero,
      bytesOf_nil, replay_nil]
  · intro limit' pushes' b' s' snap' ran' live' taken'
    obtain ⟨_, rfl, ring', _⟩ := pushAll_new ran'
    cases live'
    obtain ⟨_, again, text_eq', encoding_eq'⟩ := snapshotFrom_zero ring'
    cases again.symm.trans taken'
    have same_decoder : ∀ stream, bytesOf stream (logOf pushes) = bytesOf stream (logOf pushes') →
        s.decoders.forStream stream = s'.decoders.forStream stream := by
      intro stream same_bytes
      rw [ring.decoders stream, ring'.decoders stream, same_bytes]
    refine ⟨?_, ?_⟩
    · intro stream same_bytes
      refine ⟨same_decoder stream same_bytes, ?_⟩
      intro same_held
      rw [ring.content_eq, ring'.content_eq] at same_held
      -- the dropped bytes agree too: they are what is left of the same string
      rw [← take_append_drop s.baseOffset (logOf pushes),
        ← take_append_drop s'.baseOffset (logOf pushes'), bytesOf_append, bytesOf_append,
        same_held] at same_bytes
      rw [text_eq stream, text_eq' stream, same_held, append_cancel_right same_bytes]
    · intro same_bytes
      have same_decoders : s.decoders = s'.decoders :=
        StreamDecoders.ext_forStream fun stream => same_decoder stream (same_bytes stream)
      rw [encoding_eq, encoding_eq', same_decoders]

theorem split_character_counts_as_whole :
    ∃ b b' snap snap',
      (OutputBuffer.new 1).pushAll [(.stdout, [0xE2, 0x82]), (.stdout, [0xAC])] = some b ∧
      (OutputBuffer.new 1).pushAll [(.stdout, [0xE2, 0x82, 0xAC])] = some b' ∧
      b.snapshotFrom 0 = some snap ∧ b'.snapshotFrom 0 = some snap' ∧
      snap.encoding.decodeErrors = snap'.encoding.decodeErrors := by
  have split := text_is_independent_of_push_boundaries 1
    [(.stdout, [0xE2, 0x82]), (.stdout, [0xAC])]
  have whole := text_is_independent_of_push_boundaries 1 [(.stdout, [0xE2, 0x82, 0xAC])]
  obtain ⟨b, ran⟩ := isSome_iff_exists.mp (split.1.mpr (by decide))
  obtain ⟨b', ran'⟩ := isSome_iff_exists.mp (whole.1.mpr (by decide))
  obtain ⟨s, snap, _, taken, _, _, compared⟩ := split.2 b ran
  obtain ⟨s', snap', live', taken', _⟩ := whole.2 b' ran'
  refine ⟨b, b', snap, snap', ran, ran', taken, taken', ?_⟩
  refine (compared 1 _ b' s' snap' ran' live' taken').2 ?_
  intro stream
  cases stream <;> decide

/-- Freezing any ring yields a receipt that can be written and read back without loss,
and from then on the buffer is that receipt: later pushes are ignored. -/
theorem frozen_output_survives_persistence (limit : Nat)
    (pushes : List (OutputStream × List UInt8)) (b : OutputBuffer) (s : OutputState)
    (ran : (OutputBuffer.new limit).pushAll pushes = some b) (live : b.inner = .live s)
    (seq_fits : s.nextSeq ≤ u64Max - 2) :
    validateState b.freeze.2.state = .ok () ∧
    (∃ value restored, b.freeze.2.serialize = .ok value ∧
      FrozenOutput.deserialize value = .ok restored ∧
      ∀ cursor, (restored.snapshotFrom cursor).isSome ∧
        restored.snapshotFrom cursor = b.freeze.2.snapshotFrom cursor) ∧
    ∀ later, ∃ after, b.freeze.1.pushAll later = some after ∧
      after.freeze.2 = b.freeze.2 ∧
      ∀ cursor, after.snapshotFrom cursor = b.freeze.1.snapshotFrom cursor ∧
        after.snapshotFrom cursor = b.freeze.2.snapshotFrom cursor := by
  obtain ⟨_, rfl, ring, _⟩ := pushAll_new ran
  cases live
  have room : s.nextSeq + 2 ≤ u64Max := by
    have : 2 ≤ u64Max := by decide
    omega
  have valid := validateState_frozen ring room
  obtain ⟨value, written, read⟩ :=
    serialize_deserialize (f := ⟨s.finalize⟩) valid (fits_frozen ring (by omega))
  refine ⟨valid, ⟨value, ⟨s.finalize⟩, written, read, ?_⟩, ?_⟩
  · exact fun cursor => ⟨snapshotFrom_frozen_isSome ring room cursor, rfl⟩
  · exact fun later => ⟨_, pushAll_frozen limit s.finalize later, rfl, fun _ => ⟨rfl, rfl⟩⟩

theorem cut_character_survives_persistence :
    ∃ b value restored, (OutputBuffer.new 1).pushAll [(.pty, [0xE2, 0x82])] = some b ∧
      b.freeze.2.serialize = .ok value ∧ FrozenOutput.deserialize value = .ok restored := by
  obtain ⟨b, ran⟩ := isSome_iff_exists.mp
    ((pushAll_new_isSome 1 [(.pty, [0xE2, 0x82])]).mpr (by decide))
  obtain ⟨s, final, _, seq_eq⟩ := pushAll_new ran
  obtain ⟨_, ⟨value, restored, written, read, _⟩, _⟩ :=
    frozen_output_survives_persistence 1 _ b s ran (by rw [final]) (by rw [seq_eq]; decide)
  exact ⟨b, value, restored, ran, written, read⟩

end Nomifun.Guarantees.ProcessOutput
