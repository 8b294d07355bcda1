import Nomifun.Source.ProcessRuntime.OutputBuffer

/-!
# What the ring holds

The abstract view of an output buffer is the log of everything ever pushed, one entry
per byte with the stream it came from. The ring holds a suffix of the log; the bytes
before it are gone and survive only in the base decoders. `Ring` states this for the
concrete state, and `push_ring` shows that a push extends the log and keeps it.
-/
namespace Nomifun.Source.ProcessRuntime
open Library.MachineInt IncrementalDecoder List

variable {stream : OutputStream} {bytes : List UInt8} {chunks : List StoredChunk} {s : OutputState}
  {limit start stop : Nat} {before after : StreamDecoders} {b : OutputBuffer}

abbrev Log := List (OutputStream × UInt8)

variable {log : Log}

def tag (stream : OutputStream) (bytes : List UInt8) : Log := bytes.map fun b => (stream, b)

def bytesOf (stream : OutputStream) (log : Log) : List UInt8 :=
  (log.filter (·.1 = stream)).map Prod.snd

def content (chunks : List StoredChunk) : Log := chunks.flatMap fun c => tag c.stream c.bytes

/-- The chunks are non-empty and cover the offsets from `start` up to `stop` in order,
without gap or overlap. -/
def Contiguous : Nat → List StoredChunk → Nat → Prop
  | start, [], stop => start = stop
  | start, chunk :: rest, stop =>
    chunk.bytes ≠ [] ∧ chunk.start = start ∧ Contiguous (start + chunk.bytes.length) rest stop

section

variable (stream) (bytes)

@[simp] theorem tag_length : (tag stream bytes).length = bytes.length := by simp [tag]

theorem tag_take (n : Nat) : tag stream (bytes.take n) = (tag stream bytes).take n := by simp [tag]

theorem tag_drop (n : Nat) : tag stream (bytes.drop n) = (tag stream bytes).drop n := by simp [tag]

end

theorem drop_tag_append (log : Log) (h : bytes.length ≤ n) :
    (tag stream bytes ++ log).drop n = log.drop (n - bytes.length) := by
  rw [drop_append, tag_length, drop_eq_nil_iff.mpr (by simpa using h), nil_append]

theorem take_tag_append (log : Log) (h : bytes.length ≤ n) :
    (tag stream bytes ++ log).take n = tag stream bytes ++ log.take (n - bytes.length) := by
  rw [take_append, tag_length, take_of_length_le (by simpa using h)]

theorem bytesOf_append (stream : OutputStream) (a b : Log) :
    bytesOf stream (a ++ b) = bytesOf stream a ++ bytesOf stream b := by
  simp [bytesOf]

@[simp] theorem bytesOf_nil (stream : OutputStream) : bytesOf stream [] = [] := rfl

theorem bytesOf_tag_self (stream : OutputStream) (bytes : List UInt8) :
    bytesOf stream (tag stream bytes) = bytes := by
  simp [bytesOf, tag, filter_map, Function.comp_def]

theorem bytesOf_tag_ne (bytes : List UInt8) (h : other ≠ stream) :
    bytesOf other (tag stream bytes) = [] := by
  simp [bytesOf, tag, filter_map, Ne.symm h]

@[simp] theorem content_cons (chunk : StoredChunk) (rest : List StoredChunk) :
    content (chunk :: rest) = tag chunk.stream chunk.bytes ++ content rest := by
  simp [content]

theorem content_length (chunks : List StoredChunk) :
    (content chunks).length = (chunks.map (·.bytes.length)).sum := by
  induction chunks with
  | nil => rfl
  | cons chunk rest ih => simp [ih]

theorem Contiguous.length_content (h : Contiguous start chunks stop) :
    start + (content chunks).length = stop := by
  induction chunks generalizing start with
  | nil => simpa [Contiguous, content] using h
  | cons chunk rest ih =>
    have tail := ih h.2.2
    simp only [content_cons, length_append, tag_length]
    omega

theorem Contiguous.start_le (h : Contiguous start chunks stop) : ∀ c ∈ chunks, c.start ≤ stop := by
  induction chunks generalizing start with
  | nil => simp
  | cons chunk rest ih =>
    intro c member
    rcases mem_cons.mp member with rfl | later
    · have inside := h.2.2.length_content
      have at_start := h.2.1
      omega
    · exact ih h.2.2 c later

theorem Contiguous.snoc {c : StoredChunk} (h : Contiguous start chunks stop)
    (nonempty : c.bytes ≠ []) (at_end : c.start = stop) :
    Contiguous start (chunks ++ [c]) (stop + c.bytes.length) := by
  induction chunks generalizing start with
  | nil =>
    simp only [Contiguous] at h
    exact ⟨nonempty, by omega, by simp [Contiguous, h]⟩
  | cons first rest ih => exact ⟨h.1, h.2.1, ih h.2.2⟩

theorem Contiguous.eq_nil (h : Contiguous start chunks start) : chunks = [] := by
  cases chunks with
  | nil => rfl
  | cons chunk rest =>
    have tail := h.2.2.length_content
    have := length_pos_iff.mpr h.1
    omega

/-- One stream of a decoder set has been fed the bytes of that stream from `fed`. -/
def Fed (before after : StreamDecoders) (fed : Log) : Prop :=
  ∀ stream, after.forStream stream = ((before.forStream stream).decode (bytesOf stream fed)).1

section

variable (ds : StreamDecoders) (carries : ∀ stream, Carries (ds.forStream stream))
  (stream : OutputStream) (bytes : List UInt8)
include carries

theorem fed_decode : Fed ds (ds.decode stream bytes).1 (tag stream bytes) := by
  intro other
  by_cases same : other = stream
  · subst same
    simp [StreamDecoders.decode, bytesOf_tag_self]
  · simp only [StreamDecoders.decode]
    rw [StreamDecoders.forStream_setStream_ne _ _ same, bytesOf_tag_ne bytes same,
      decode_nil (carries other)]

theorem discardBounded_eq_decode : ds.discardBounded stream bytes = (ds.decode stream bytes).1 := by
  rw [StreamDecoders.discardBounded, StreamDecoders.decode, discardBounded_eq (carries stream)]

theorem Fed.refl : Fed ds ds [] := by
  intro stream
  rw [bytesOf_nil, decode_nil (carries stream)]

end

theorem Fed.carries (h : Fed before after fed) : ∀ stream, Carries (after.forStream stream) := by
  intro stream
  rw [h stream]
  exact carries_decode _ _

theorem Fed.trans {a b c : StreamDecoders} (hab : Fed a b xs) (hbc : Fed b c ys) :
    Fed a c (xs ++ ys) := by
  intro stream
  rw [hbc stream, hab stream, bytesOf_append, decode_append]

/-- The effect of evicting `count` bytes from a contiguous ring: the chunks left and the
base decoders that have taken in the evicted bytes. -/
structure Evicted (s : OutputState) (base stop count : Nat) (left : List StoredChunk)
    (decoders : StreamDecoders) : Prop where
  covers : Contiguous (base + count) left stop
  content_eq : content left = (content s.chunks).drop count
  seqs : (left.map (·.seq)).Sublist (s.chunks.map (·.seq))
  base_decoders : Fed s.baseDecoders decoders ((content s.chunks).take count)

namespace OutputState

theorem dropOldest_zero (s : OutputState) : s.dropOldest 0 = some s := by
  rw [dropOldest, if_pos rfl]

theorem dropOldest_whole {count : Nat} (front : s.chunks = oldest :: rest) (positive : 0 < count)
    (whole : oldest.bytes.length ≤ count) (held : oldest.bytes.length ≤ s.retained) :
    s.dropOldest count = dropOldest
        { s with
          chunks := rest
          baseDecoders := (s.baseDecoders.decode oldest.stream oldest.bytes).1
          retained := s.retained - oldest.bytes.length }
        (count - oldest.bytes.length) := by
  conv => lhs; rw [dropOldest, if_neg (Nat.ne_of_gt positive)]
  split
  next empty => simp [front] at empty
  next oldest' rest' found =>
    rw [front] at found
    cases found
    simp only [Nat.min_eq_right whole, take_length, checkedSub_of_le held]
    rfl

theorem dropOldest_trim {count : Nat} (front : s.chunks = oldest :: rest) (positive : 0 < count)
    (short : count < oldest.bytes.length) (held : count ≤ s.retained)
    (fits : oldest.start + count ≤ u64Max) :
    s.dropOldest count = some
      { s with
        chunks :=
          { oldest with start := oldest.start + count, bytes := oldest.bytes.drop count } :: rest
        baseDecoders := (s.baseDecoders.decode oldest.stream (oldest.bytes.take count)).1
        retained := s.retained - count } := by
  rw [dropOldest, if_neg (Nat.ne_of_gt positive)]
  split
  next empty => simp [front] at empty
  next oldest' rest' found =>
    rw [front] at found
    cases found
    simp [Nat.min_eq_left (Nat.le_of_lt short), if_neg (Nat.ne_of_lt short), checkedAdd_of_le fits,
      checkedSub_of_le held, Option.bind_eq_bind, Option.bind_some, dropOldest_zero]

end OutputState

theorem Evicted.none (covers : Contiguous start s.chunks stop)
    (carries : ∀ stream, Carries (s.baseDecoders.forStream stream)) :
    Evicted s start stop 0 s.chunks s.baseDecoders :=
  ⟨covers, by simp, .refl _, by simpa using Fed.refl _ carries⟩

/-- Induction over the chunks of the ring: the front chunk is either consumed whole,
and eviction goes on behind it, or trimmed, and eviction stops inside it. -/
theorem dropOldest_evicts (s : OutputState) (count base stop : Nat)
    (covers : Contiguous base s.chunks stop) (fits : stop ≤ u64Max)
    (held : base + s.retained = stop) (enough : count ≤ s.retained)
    (carries : ∀ stream, Carries (s.baseDecoders.forStream stream)) :
    ∃ left decoders, s.dropOldest count = some
        { s with chunks := left, baseDecoders := decoders, retained := s.retained - count } ∧
      Evicted s base stop count left decoders := by
  induction hchunks : s.chunks generalizing s count base with
  | nil =>
    have none_held : s.retained = 0 := by
      rw [hchunks] at covers
      simp only [Contiguous] at covers
      omega
    obtain rfl : count = 0 := by omega
    exact ⟨_, _, s.dropOldest_zero, .none covers carries⟩
  | cons oldest rest ih =>
    rcases Nat.eq_zero_or_pos count with rfl | positive
    · exact ⟨_, _, s.dropOldest_zero, .none covers carries⟩
    rw [hchunks] at covers
    obtain ⟨nonempty, start_eq, tail⟩ := covers
    have tail_length := tail.length_content
    have fed := fed_decode s.baseDecoders carries oldest.stream
    by_cases whole : oldest.bytes.length ≤ count
    · rw [OutputState.dropOldest_whole hchunks positive whole (by omega)]
      obtain ⟨left, decoders, ran, evicted⟩ := ih
        { s with
          chunks := rest
          baseDecoders := (s.baseDecoders.decode oldest.stream oldest.bytes).1
          retained := s.retained - oldest.bytes.length }
        (count - oldest.bytes.length) (base + oldest.bytes.length) tail
        (by simp only; omega) (by simp only; omega) (fed oldest.bytes).carries rfl
      have retained_eq : s.retained - oldest.bytes.length - (count - oldest.bytes.length) =
          s.retained - count := by omega
      refine ⟨left, decoders, ?_, ?_, ?_, ?_, ?_⟩
      · rw [ran, retained_eq]
      · have := evicted.covers
        rwa [Nat.add_assoc, Nat.add_sub_cancel' whole] at this
      · rw [evicted.content_eq, hchunks, content_cons, drop_tag_append _ whole]
      · rw [hchunks]
        exact evicted.seqs.trans (sublist_cons_self _ _)
      · rw [hchunks, content_cons, take_tag_append _ whole]
        exact (fed oldest.bytes).trans evicted.base_decoders
    · have short : count < oldest.bytes.length := by omega
      refine ⟨_, _, OutputState.dropOldest_trim hchunks positive short enough (by omega),
        ?_, ?_, ?_, ?_⟩
      · refine ⟨by simpa using short, by simp only; omega, ?_⟩
        have stop_eq : base + count + (oldest.bytes.length - count) =
            base + oldest.bytes.length := by omega
        simpa only [length_drop, stop_eq] using tail
      · rw [hchunks, content_cons, content_cons, drop_append_of_le_length
          (by simpa using Nat.le_of_lt short), tag_drop]
      · simp [hchunks]
      · rw [hchunks, content_cons, take_append_of_le_length
          (by simpa using Nat.le_of_lt short), ← tag_take]
        exact fed (oldest.bytes.take count)

/-- The concrete state holds the suffix of `log` from `baseOffset` on, every counter
agrees with that, and both decoder sets are functions of the log. -/
structure Ring (limit : Nat) (log : Log) (s : OutputState) : Prop where
  live : s.finalized = false
  fits : log.length ≤ u64Max
  base_eq_dropped : s.baseOffset = s.droppedBytes
  next_eq : s.nextOffset = log.length
  retained_eq : s.baseOffset + s.retained = s.nextOffset
  retained_le : s.retained ≤ limit
  covers : Contiguous s.baseOffset s.chunks s.nextOffset
  content_eq : content s.chunks = log.drop s.baseOffset
  seq_sorted : (s.chunks.map (·.seq)).Pairwise (· < ·)
  seq_lt : ∀ seq ∈ s.chunks.map (·.seq), seq < s.nextSeq
  base_decoders : ∀ stream,
    s.baseDecoders.forStream stream = replay (bytesOf stream (log.take s.baseOffset))
  decoders : ∀ stream, s.decoders.forStream stream = replay (bytesOf stream log)

theorem ring_initial (limit : Nat) : Ring limit [] .initial where
  live := rfl
  fits := Nat.zero_le _
  base_eq_dropped := rfl
  next_eq := rfl
  retained_eq := rfl
  retained_le := Nat.zero_le _
  covers := rfl
  content_eq := rfl
  seq_sorted := List.Pairwise.nil
  seq_lt := by simp [OutputState.initial]
  base_decoders stream := by simp [OutputState.initial, replay_nil]
  decoders stream := by simp [OutputState.initial, replay_nil]

theorem carries_of_replay {decoders : StreamDecoders}
    (known : ∀ stream, decoders.forStream stream = replay (bytesOf stream seen))
    (stream : OutputStream) : Carries (decoders.forStream stream) := by
  rw [known]
  exact carries_replay _

theorem fed_replay (h : Fed before after fed)
    (known : ∀ stream, before.forStream stream = replay (bytesOf stream seen)) :
    ∀ stream, after.forStream stream = replay (bytesOf stream (seen ++ fed)) := by
  intro stream
  rw [h stream, known stream, decode_replay, bytesOf_append]

/-- Cutting inside the old log and inside the new bytes at once: the second cut is
only made when nothing of the old log is left. -/
theorem append_cut (log later : Log) (old new : Nat) (inside : old ≤ log.length)
    (exclusive : new = 0 ∨ old = log.length) :
    (log ++ later).take (old + new) = log.take old ++ later.take new ∧
      (log ++ later).drop (old + new) = log.drop old ++ later.drop new := by
  rcases exclusive with rfl | rfl
  · simp [take_append_of_le_length inside, drop_append_of_le_length inside]
  · simp [take_length_add_append]

/-- The state `retain` leaves behind once `old` bytes have been evicted and `new` of the
pushed ones have been passed over. -/
def retained (after : OutputState) (seq start : Nat) (stream : OutputStream)
    (bytes : List UInt8) (keep old new : Nat) : OutputState :=
  { after with
    baseDecoders :=
      if new > 0 then after.baseDecoders.discardBounded stream (bytes.take new)
      else after.baseDecoders
    chunks :=
      if keep > 0 then after.chunks ++ [⟨seq, start + new, stream, bytes.drop new⟩]
      else after.chunks
    retained := after.retained + keep
    baseOffset := after.baseOffset + (old + new)
    droppedBytes := after.droppedBytes + (old + new) }

theorem retain_eq {after : OutputState} {limit seq keep old new : Nat} (nonempty : bytes ≠ [])
    (keep_eq : keep = min bytes.length limit) (new_eq : new = bytes.length - keep)
    (old_eq : old = s.retained + keep - limit) (total : s.retained + keep ≤ u64Max)
    (evicted : s.dropOldest old = some after) (kept : after.retained + keep ≤ u64Max)
    (start_fits : start + new ≤ u64Max) (dropped : after.baseOffset + (old + new) ≤ u64Max)
    (same : after.baseOffset = after.droppedBytes) :
    s.retain limit seq start stream bytes =
      some (retained after seq start stream bytes keep old new, old + new) := by
  have sum_fits : old + new ≤ u64Max := by omega
  simp only [OutputState.retain, if_neg nonempty, ← keep_eq, ← new_eq, checkedAdd_of_le total,
    Option.bind_eq_bind, Option.bind_some, ← old_eq, evicted, checkedAdd_of_le start_fits,
    checkedAdd_of_le sum_fits]
  rw [same] at dropped
  by_cases keeps : keep > 0
  · by_cases fresh : new > 0 <;>
      simp [fresh, keeps, checkedAdd_of_le kept, checkedAdd_of_le dropped, retained, same]
  · obtain rfl : keep = 0 := by omega
    by_cases fresh : new > 0 <;> simp [fresh, checkedAdd_of_le dropped, retained, same]

/-- Passing over the head of a push feeds it to the base decoders, also when it is empty. -/
theorem fed_passed_over (ds : StreamDecoders) (carries : ∀ stream, Carries (ds.forStream stream))
    (stream : OutputStream) (bytes : List UInt8) (new : Nat) :
    Fed ds (if new > 0 then ds.discardBounded stream (bytes.take new) else ds)
      ((tag stream bytes).take new) := by
  split
  next =>
    rw [discardBounded_eq_decode ds carries, ← tag_take]
    exact fed_decode ds carries stream _
  next none_passed =>
    obtain rfl : new = 0 := by omega
    simpa using Fed.refl ds carries

theorem push_ring (ring : Ring limit log s) (stream : OutputStream) (bytes : List UInt8)
    (fits : log.length + bytes.length ≤ u64Max) (seq_fits : s.nextSeq + 1 ≤ u64Max) :
    ∃ after dropped, s.push limit stream bytes = some (after, dropped) ∧
      Ring limit (log ++ tag stream bytes) after ∧ after.nextSeq = s.nextSeq + 1 := by
  have next_eq := ring.next_eq
  have retained_eq := ring.retained_eq
  have carries := carries_of_replay ring.decoders
  have base_carries := carries_of_replay ring.base_decoders
  let entered : OutputState :=
    { s with
      nextOffset := s.nextOffset + bytes.length
      decoders := s.decoders.discardBounded stream bytes
      nextSeq := s.nextSeq + 1 }
  have enters : s.push limit stream bytes =
      entered.retain limit s.nextSeq s.nextOffset stream bytes := by
    simp [OutputState.push, OutputState.takeSeq, Option.bind_eq_bind,
      checkedAdd_of_le (show s.nextOffset + bytes.length ≤ u64Max by omega), Option.bind_some,
      checkedAdd_of_le seq_fits, Option.pure_def, entered]
  have decoders_eq : ∀ other, entered.decoders.forStream other =
      replay (bytesOf other (log ++ tag stream bytes)) := by
    apply fed_replay _ ring.decoders
    simp only [entered]
    rw [discardBounded_eq_decode s.decoders carries]
    exact fed_decode s.decoders carries stream bytes
  rw [enters]
  by_cases empty : bytes = []
  · subst empty
    refine ⟨entered, 0, by simp [OutputState.retain], ?_, rfl⟩
    have same_log : log ++ tag stream [] = log := by simp [tag]
    rw [same_log] at decoders_eq ⊢
    exact { ring with
      decoders := decoders_eq
      seq_lt := fun seq member => Nat.lt_succ_of_lt (ring.seq_lt seq member) }
  · obtain ⟨keep, keep_eq⟩ : ∃ keep, keep = min bytes.length limit := ⟨_, rfl⟩
    obtain ⟨new, new_eq⟩ : ∃ new, new = bytes.length - keep := ⟨_, rfl⟩
    obtain ⟨old, old_eq⟩ : ∃ old, old = s.retained + keep - limit := ⟨_, rfl⟩
    have bytes_pos : 0 < bytes.length := length_pos_iff.mpr empty
    obtain ⟨left, base, ran, evicted⟩ := dropOldest_evicts entered old s.baseOffset s.nextOffset
      ring.covers (by omega) retained_eq (by simp only [entered]; omega) base_carries
    have held : entered.retained = s.retained := rfl
    have exclusive : new = 0 ∨ s.baseOffset + old = log.length := by omega
    have inside : s.baseOffset + old ≤ log.length := by omega
    obtain ⟨taken, rest⟩ := append_cut log (tag stream bytes) _ _ inside exclusive
    rw [Nat.add_assoc] at taken rest
    refine ⟨_, _, retain_eq empty keep_eq new_eq old_eq (by omega) ran
      (by simp only [entered]; omega) (by omega) (by simp only [entered]; omega)
      ring.base_eq_dropped, ?_, rfl⟩
    have content_left : content left = log.drop (s.baseOffset + old) := by
      rw [evicted.content_eq]
      simp only [entered]
      rw [ring.content_eq, drop_drop]
    have left_nil : s.baseOffset + old = log.length → left = [] := by
      intro at_end
      have closed : Contiguous log.length left log.length := by
        simpa only [at_end, next_eq] using evicted.covers
      exact closed.eq_nil
    have seq_lt_left : ∀ seq ∈ left.map (·.seq), seq < s.nextSeq :=
      fun seq member => ring.seq_lt seq (evicted.seqs.subset member)
    constructor
    case live => exact ring.live
    case fits => simpa using fits
    case base_eq_dropped => simp [retained, entered, ring.base_eq_dropped]
    case next_eq => simp [retained, entered, next_eq]
    case retained_eq => simp only [retained, entered]; omega
    case retained_le => simp only [retained, entered]; omega
    case covers =>
      simp only [retained, entered]
      rcases exclusive with none_passed | at_end
      · have keeps : keep > 0 := by omega
        rw [if_pos keeps, none_passed]
        have appended :=
          evicted.covers.snoc (c := ⟨s.nextSeq, s.nextOffset, stream, bytes⟩) empty rfl
        simpa using appended
      · rw [left_nil at_end]
        split
        next keeps =>
          refine ⟨?_, by simp only; omega, ?_⟩
          · simp only [ne_eq, drop_eq_nil_iff]
            omega
          · simp only [Contiguous, length_drop]
            omega
        next => simp only [Contiguous]; omega
    case content_eq =>
      simp only [retained, entered]
      rw [rest, ← content_left, ← tag_drop]
      split
      next => simp [content]
      next none_kept =>
        have passed : bytes.drop new = [] := drop_eq_nil_iff.mpr (by omega)
        simp [passed, tag]
    case seq_sorted =>
      simp only [retained, entered]
      have sorted := ring.seq_sorted.sublist evicted.seqs
      split
      next => simpa [pairwise_append, sorted] using seq_lt_left
      next => exact sorted
    case seq_lt =>
      simp only [retained, entered]
      intro seq member
      split at member
      next =>
        simp only [map_append, map_cons, map_nil, mem_append, mem_singleton] at member
        rcases member with kept | rfl
        · exact Nat.lt_succ_of_lt (seq_lt_left seq kept)
        · exact Nat.lt_succ_self _
      next => exact Nat.lt_succ_of_lt (seq_lt_left seq member)
    case base_decoders =>
      simp only [retained, entered]
      rw [taken, take_add, ← ring.content_eq, append_assoc]
      apply fed_replay _ ring.base_decoders
      exact evicted.base_decoders.trans
        (fed_passed_over base evicted.base_decoders.carries stream bytes new)
    case decoders => exact decoders_eq

/-- Everything a sequence of pushes has written. -/
def logOf (pushes : List (OutputStream × List UInt8)) : Log :=
  pushes.flatMap fun p => tag p.1 p.2

variable (pushes : List (OutputStream × List UInt8))

@[simp] theorem logOf_cons (p : OutputStream × List UInt8) :
    logOf (p :: pushes) = tag p.1 p.2 ++ logOf pushes := by
  simp [logOf]

theorem logOf_bytes : (logOf pushes).map Prod.snd = pushes.flatMap (·.2) := by
  induction pushes with
  | nil => rfl
  | cons p pushes ih => simp [ih, tag, Function.comp_def]

theorem logOf_length : (logOf pushes).length = (pushes.map (·.2.length)).sum := by
  induction pushes with
  | nil => rfl
  | cons p pushes ih => simp [ih]

/-- A push that returns has passed both counter checks. -/
theorem push_bounds (pushed : s.push limit stream bytes = some result) :
    s.nextOffset + bytes.length ≤ u64Max ∧ s.nextSeq + 1 ≤ u64Max := by
  simp only [OutputState.push, OutputState.takeSeq, Option.bind_eq_bind,
    Option.bind_eq_some_iff] at pushed
  obtain ⟨nextOffset, offset_fits, taken, ⟨nextSeq, seq_fits, _⟩, _⟩ := pushed
  exact ⟨(checkedAdd_eq_some.mp offset_fits).1, (checkedAdd_eq_some.mp seq_fits).1⟩

theorem push_keeps_ring (ring : Ring limit log s)
    (pushed : s.push limit stream bytes = some result) :
    Ring limit (log ++ tag stream bytes) result.1 ∧ result.1.nextSeq = s.nextSeq + 1 := by
  obtain ⟨offset_fits, seq_fits⟩ := push_bounds pushed
  rw [ring.next_eq] at offset_fits
  obtain ⟨after, dropped, ran, kept, seq_eq⟩ := push_ring ring stream bytes offset_fits seq_fits
  cases ran.symm.trans pushed
  exact ⟨kept, seq_eq⟩

namespace OutputBuffer

theorem pushAll_cons (b : OutputBuffer) (p : OutputStream × List UInt8) :
    b.pushAll (p :: pushes) = (b.push p.1 p.2).bind fun r => r.1.pushAll pushes := by
  simp only [pushAll, foldlM_cons]
  cases b.push p.1 p.2 <;> rfl

theorem push_live (limit : Nat) (s : OutputState) (stream : OutputStream) (bytes : List UInt8) :
    push ⟨limit, .live s⟩ stream bytes =
      (s.push limit stream bytes).map fun r => (⟨limit, .live r.1⟩, r.2) := rfl

end OutputBuffer

/-- The run lemma: whatever has been pushed, the live ring holds it. -/
theorem pushAll_keeps_ring (ring : Ring limit log s)
    (ran : OutputBuffer.pushAll ⟨limit, .live s⟩ pushes = some b) :
    ∃ after, b = ⟨limit, .live after⟩ ∧ Ring limit (log ++ logOf pushes) after ∧
      after.nextSeq = s.nextSeq + pushes.length := by
  induction pushes generalizing log s with
  | nil =>
    cases ran
    exact ⟨s, rfl, by simpa [logOf] using ring, rfl⟩
  | cons p pushes ih =>
    rw [OutputBuffer.pushAll_cons, OutputBuffer.push_live, Option.bind_map,
      Option.bind_eq_some_iff] at ran
    obtain ⟨result, pushed, rest⟩ := ran
    obtain ⟨kept, seq_eq⟩ := push_keeps_ring ring pushed
    obtain ⟨after, final, held, seq_after⟩ := ih kept rest
    refine ⟨after, final, ?_, ?_⟩
    · rwa [logOf_cons, ← append_assoc]
    · rw [seq_after, length_cons]
      omega

variable {pushes} in
theorem pushAll_new (ran : (OutputBuffer.new limit).pushAll pushes = some b) :
    ∃ s, b = ⟨limit, .live s⟩ ∧ Ring limit (logOf pushes) s ∧ s.nextSeq = pushes.length := by
  obtain ⟨s, final, held, seq_eq⟩ := pushAll_keeps_ring pushes (ring_initial limit) ran
  exact ⟨s, final, by simpa using held, by simpa [OutputState.initial] using seq_eq⟩

/-- Pushes return exactly as long as both counters last: the offset counts bytes, and
every push takes a sequence number, an empty one too. -/
theorem pushAll_isSome (ring : Ring limit log s) (seq_fits : s.nextSeq ≤ u64Max) :
    (OutputBuffer.pushAll ⟨limit, .live s⟩ pushes).isSome ↔
      (log ++ logOf pushes).length ≤ u64Max ∧ s.nextSeq + pushes.length ≤ u64Max := by
  induction pushes generalizing log s with
  | nil => simpa [OutputBuffer.pushAll, logOf] using And.intro ring.fits seq_fits
  | cons p pushes ih =>
    rw [OutputBuffer.pushAll_cons, OutputBuffer.push_live, Option.bind_map, length_cons,
      logOf_cons, ← append_assoc]
    by_cases room : log.length + p.2.length ≤ u64Max ∧ s.nextSeq + 1 ≤ u64Max
    · obtain ⟨after, dropped, pushed, kept, seq_eq⟩ := push_ring ring p.1 p.2 room.1 room.2
      have rest := ih kept (by omega)
      rw [pushed, Option.bind_some]
      simp only [Function.comp_apply]
      rw [rest]
      omega
    · have stuck : s.push limit p.1 p.2 = none := by
        by_contra some_result
        obtain ⟨result, pushed⟩ := Option.ne_none_iff_exists'.mp some_result
        have bounds := push_bounds pushed
        rw [ring.next_eq] at bounds
        exact room bounds
      simp only [stuck, Option.bind_none, Option.isSome_none, Bool.false_eq_true, false_iff,
        length_append, tag_length]
      omega

theorem pushAll_new_isSome (limit : Nat) (pushes : List (OutputStream × List UInt8)) :
    ((OutputBuffer.new limit).pushAll pushes).isSome ↔
      (pushes.map (·.2.length)).sum ≤ u64Max ∧ pushes.length ≤ u64Max := by
  have runs := pushAll_isSome pushes (ring_initial limit) (Nat.zero_le _)
  have fresh : OutputState.initial.nextSeq = 0 := rfl
  rwa [fresh, Nat.zero_add, nil_append, logOf_length] at runs

end Nomifun.Source.ProcessRuntime
