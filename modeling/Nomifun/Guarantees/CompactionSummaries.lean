import Mathlib.Data.List.DropRight
import Nomifun.Source.AgentRuntime.CompactionSummary

/-!
# A compaction summary is the text of its deltas

A delta that runs over the limit with white space alone is cut. The summary is the trimmed text of
all deltas where that fits: what is cut then has no text behind it. Longer text fails, as it should,
unless the cut leaves room for the text of all later deltas. White space has at most three bytes, so
that this room is of one or two bytes.
-/
namespace Nomifun.Guarantees.CompactionSummaries
open Library Library.ByteOffsets Source.AgentRuntime Source.ChatModelBroker List

variable {text front tail summary last : List Char} {maxBytes room : Nat} {later : List (List Char)}
  {stream : List (Except SummaryError ChatModelEvent)}

/-! ### What a stream says -/

/-- The texts of the deltas of a stream, up to its end. -/
def texts : List (Except SummaryError ChatModelEvent) → List (List Char)
  | [] => []
  | .ok (.outputTextDelta text _) :: stream => text.toList :: texts stream
  | .ok (.completed _) :: _ => []
  | _ :: stream => texts stream

/-- What a stream needs apart from the room for its text: its events are admitted, it has text and
usage only, no empty delta, and it ends as completed. -/
def accepted (host : SummaryHost β) : β → List (Except SummaryError ChatModelEvent) → Bool
  | _, [] | _, .error _ :: _ => false
  | budget, .ok event :: stream =>
    (host.admitEvent budget event).toOption.any fun budget =>
      match event with
      | .outputTextDelta text _ => text.toList ≠ [] && accepted host budget stream
      | .completed reason => reason = .completed
      | .usage usage => (host.emitUsage usage).toOption.isSome && accepted host budget stream
      | .toolCallDelta .. | .toolCallCompleted _ | .toolCallRejected .. | .nativeResponsesItem ..
      | .outputAudioDelta .. => false
      | _ => accepted host budget stream

/-- The texts fit into some room: of each the white space at its end does not count, and what fits
of it is taken. -/
def fitsInto : Nat → List (List Char) → Bool
  | _, [] => true
  | room, text :: later =>
    bytes (trimEnd text) ≤ room && fitsInto (room - bytes (takeBytes room text)) later

/-- A text runs over the limit with white space alone, and the later ones are not blank and fit into
the room that its cut leaves. -/
def Shortened (maxBytes : Nat) (texts : List (List Char)) : Prop :=
  ∃ before text later, texts = before ++ text :: later ∧ bytes before.flatten ≤ maxBytes ∧
    maxBytes < bytes (before.flatten ++ text) ∧
    bytes (trimEnd (before.flatten ++ text)) ≤ maxBytes ∧
    fitsInto (maxBytes - bytes (takeBytes maxBytes (before.flatten ++ text))) later = true ∧
    trimEnd later.flatten ≠ []

/-! ### One delta -/

theorem trimEnd_append : trimEnd (front ++ tail) =
    if trimEnd tail = [] then trimEnd front else front ++ trimEnd tail := by
  simp only [trimEnd, reverse_append, dropWhile_append, List.isEmpty_iff, reverse_eq_nil_iff]
  split <;> simp

theorem trimEnd_starts : trimEnd text <+: text := rdropWhile_prefix ..

theorem bytes_le_of_starts (starts : front <+: text) : bytes front ≤ bytes text := by
  obtain ⟨rest, rfl⟩ := starts
  rw [bytes_append]
  exact Nat.le_add_right ..

theorem pushDelta_eq_ok : pushDelta maxBytes summary text = .ok last ↔ text ≠ [] ∧
    bytes (trimEnd (summary ++ text)) ≤ maxBytes ∧ last = takeBytes maxBytes (summary ++ text) := by
  have cut : takeBytes (floorBoundary (summary ++ text) maxBytes) (summary ++ text) =
      takeBytes maxBytes (summary ++ text) := by
    obtain ⟨rest, split⟩ := takeBytes_starts maxBytes (summary ++ text)
    have boundary := floorBoundary_append [] (summary ++ text) maxBytes
    simp only [nil_append, bytes_nil, Nat.zero_add] at boundary
    have taken := takeBytes_append (takeBytes maxBytes (summary ++ text)) rest
    rwa [split, ← boundary] at taken
  have shorter := bytes_le_of_starts (@trimEnd_starts (summary ++ text))
  simp only [pushDelta, last_guard_eq_ok, cut]
  refine and_congr_right fun _ => ?_
  by_cases long : bytes (summary ++ text) > maxBytes
  · rw [if_pos long, Except.ok.injEq, eq_comm (a := last)]
    exact and_congr_left fun _ => ⟨fun fits => by omega, fun fits => by omega⟩
  · rw [if_neg long, Except.ok.injEq, takeBytes_of_le (Nat.not_lt.mp long), eq_comm (a := last)]
    exact and_congr_left fun _ => ⟨fun _ => by omega, fun _ => by omega⟩

/-- What is cut is white space, if the text of all deltas fits. -/
theorem cut_keeps (fits : bytes (trimEnd (text ++ tail)) ≤ maxBytes) :
    trimEnd (takeBytes maxBytes text ++ tail) = trimEnd (text ++ tail) := by
  obtain ⟨lost, whole⟩ := takeBytes_starts maxBytes text
  by_cases nothing : lost = []
  · rw [nothing, append_nil] at whole
    rw [whole]
  rw [← whole, append_assoc] at fits
  -- The first character that is lost reaches over the limit.
  have blank : trimEnd (lost ++ tail) = [] := by
    by_contra left
    obtain ⟨c, rest, rfl⟩ := exists_cons_of_ne_nil nothing
    obtain ⟨d, more, trimmed⟩ := exists_cons_of_ne_nil left
    have starts := @trimEnd_starts (c :: rest ++ tail)
    rw [trimmed] at starts
    obtain ⟨rfl, -⟩ := cons_prefix_cons.mp starts
    rw [trimEnd_append, if_neg left, trimmed, bytes_append, bytes_cons] at fits
    obtain ⟨k, within⟩ := Nat.le.dest (show bytes (takeBytes maxBytes text ++ [d]) ≤ maxBytes by
      simp only [bytes_append, bytes_cons, bytes_nil]
      omega)
    have further := takeBytes_add (takeBytes maxBytes text ++ [d]) rest k
    rw [within, append_assoc, singleton_append, whole] at further
    have lengths := congrArg length further
    simp only [length_append, length_cons, length_nil] at lengths
    omega
  have blankTail : trimEnd tail = [] := by
    by_contra left
    rw [trimEnd_append, if_neg left] at blank
    exact left (append_eq_nil_iff.mp blank).2
  calc trimEnd (takeBytes maxBytes text ++ tail)
    _ = trimEnd (takeBytes maxBytes text) := by rw [trimEnd_append, if_pos blankTail]
    _ = trimEnd (takeBytes maxBytes text ++ (lost ++ tail)) := by rw [trimEnd_append, if_pos blank]
    _ = trimEnd (text ++ tail) := by rw [← append_assoc, whole]

/-- A delta behind a cut. -/
theorem pushDelta_behind (full : bytes front + room = maxBytes) :
    pushDelta maxBytes front text = .ok last ↔
      text ≠ [] ∧ bytes (trimEnd text) ≤ room ∧ last = front ++ takeBytes room text := by
  have shorter := bytes_le_of_starts (@trimEnd_starts front)
  rw [pushDelta_eq_ok, ← full, takeBytes_add, trimEnd_append]
  refine and_congr_right fun _ => and_congr_left fun _ => ?_
  split
  next blank =>
    rw [blank, bytes_nil]
    omega
  next =>
    rw [bytes_append]
    omega

/-! ### The deltas of a stream -/

section

variable (filled : [] ∉ later)
include filled

theorem folded_within (fits : bytes (summary ++ later.flatten) ≤ maxBytes) :
    later.foldlM (pushDelta maxBytes) summary = .ok (summary ++ later.flatten) := by
  induction later generalizing summary with
  | nil => simp [pure, Except.pure]
  | cons text later ih =>
    rw [mem_cons, not_or] at filled
    rw [flatten_cons, ← append_assoc] at fits ⊢
    have short : bytes (summary ++ text) ≤ maxBytes :=
      (bytes_le_of_starts (prefix_append ..)).trans fits
    rw [foldlM_cons, bind_eq_ok]
    refine ⟨_, pushDelta_eq_ok.mpr ⟨Ne.symm filled.1, ?_, ?_⟩, ih filled.2 fits⟩
    · exact (bytes_le_of_starts trimEnd_starts).trans short
    · rw [takeBytes_of_le short]

/-- Behind a cut the deltas are accepted exactly if they fit into what is left. -/
theorem folded_behind_iff (full : bytes front + room = maxBytes) :
    (∃ last, later.foldlM (pushDelta maxBytes) front = .ok last) ↔ fitsInto room later = true := by
  induction later generalizing front room with
  | nil => simp [fitsInto, pure, Except.pure]
  | cons text later ih =>
    rw [mem_cons, not_or] at filled
    have next : bytes (front ++ takeBytes room text) + (room - bytes (takeBytes room text)) =
        maxBytes := by
      have within := bytes_takeBytes_le room text
      rw [bytes_append]
      omega
    simp only [foldlM_cons, bind_eq_ok, pushDelta_behind full, fitsInto, Bool.and_eq_true,
      decide_eq_true_eq, ← ih filled.2 next]
    constructor
    · rintro ⟨last, _, ⟨_, short, rfl⟩, folded⟩
      exact ⟨short, last, folded⟩
    · rintro ⟨short, last, folded⟩
      exact ⟨last, _, ⟨Ne.symm filled.1, short, rfl⟩, folded⟩

end

theorem folded_keeps (folded : later.foldlM (pushDelta maxBytes) summary = .ok last)
    (fits : bytes (trimEnd (summary ++ later.flatten)) ≤ maxBytes) :
    trimEnd last = trimEnd (summary ++ later.flatten) := by
  induction later generalizing summary with
  | nil =>
    cases folded
    rw [flatten_nil, append_nil]
  | cons text later ih =>
    rw [foldlM_cons, bind_eq_ok] at folded
    obtain ⟨_, pushed, folded⟩ := folded
    obtain ⟨-, -, rfl⟩ := pushDelta_eq_ok.mp pushed
    rw [flatten_cons, ← append_assoc] at fits ⊢
    have kept := cut_keeps fits
    rw [← kept] at fits ⊢
    exact ih folded fits

/-- A summary is blank only if all the deltas are. -/
theorem folded_blank (folded : later.foldlM (pushDelta maxBytes) summary = .ok last)
    (blank : trimEnd last = []) : trimEnd (summary ++ later.flatten) = [] := by
  induction later generalizing summary with
  | nil =>
    cases folded
    rwa [flatten_nil, append_nil]
  | cons text later ih =>
    rw [foldlM_cons, bind_eq_ok] at folded
    obtain ⟨_, pushed, folded⟩ := folded
    obtain ⟨-, short, rfl⟩ := pushDelta_eq_ok.mp pushed
    have others := ih folded
    rw [trimEnd_append] at others
    split at others
    next nothing =>
      have kept := @cut_keeps (summary ++ text) [] maxBytes (by rwa [append_nil])
      rw [append_nil, append_nil] at kept
      rw [flatten_cons, ← append_assoc, trimEnd_append, if_pos nothing, ← kept, others]
    next more => exact absurd (append_eq_nil_iff.mp others).2 more

/-- Deltas whose text is too long are accepted only if they are shortened. -/
theorem folded_too_long (before : List (List Char)) (fits : bytes before.flatten ≤ maxBytes)
    (filled : [] ∉ later)
    (folded : later.foldlM (pushDelta maxBytes) before.flatten = .ok last)
    (long : maxBytes < bytes (trimEnd (before.flatten ++ later.flatten))) :
    Shortened maxBytes (before ++ later) := by
  induction later generalizing before with
  | nil =>
    have shorter := bytes_le_of_starts (@trimEnd_starts (before.flatten ++ [].flatten))
    rw [flatten_nil, append_nil] at long shorter
    omega
  | cons text later ih =>
    rw [mem_cons, not_or] at filled
    rw [foldlM_cons, bind_eq_ok] at folded
    obtain ⟨_, pushed, folded⟩ := folded
    obtain ⟨-, short, rfl⟩ := pushDelta_eq_ok.mp pushed
    rw [flatten_cons, ← append_assoc] at long
    by_cases within : bytes (before.flatten ++ text) ≤ maxBytes
    · have joined : (before ++ [text]).flatten = before.flatten ++ text := by simp
      rw [takeBytes_of_le within, ← joined] at folded
      have shortened := ih (before ++ [text]) (joined ▸ within) filled.2 folded (joined ▸ long)
      rwa [append_assoc, singleton_append] at shortened
    · have full := Nat.add_sub_cancel' (bytes_takeBytes_le maxBytes (before.flatten ++ text))
      refine ⟨before, text, later, rfl, fits, Nat.not_le.mp within, short,
        (folded_behind_iff filled.2 full).mp ⟨_, folded⟩, fun blank => ?_⟩
      rw [trimEnd_append, if_pos blank] at long
      omega

/-! ### The summary of a stream -/

theorem accepted_filled (ok : accepted host budget stream = true) : [] ∉ texts stream := by
  induction stream generalizing budget with
  | nil => exact not_mem_nil
  | cons item stream ih =>
    cases item with
    | error problem => cases ok
    | ok event =>
      simp only [accepted, Option.any_eq_true] at ok
      obtain ⟨budget, -, ok⟩ := ok
      cases event with
      | outputTextDelta text source =>
        simp only [Bool.and_eq_true, decide_eq_true_eq] at ok
        exact not_mem_cons_of_ne_of_not_mem (Ne.symm ok.1) (ih ok.2)
      | completed reason => exact not_mem_nil
      | usage usage => exact ih (Bool.and_eq_true_iff.mp ok).2
      | responseStarted | reasoningDelta | reasoningSignature | reasoningBlock
      | providerReasoningBlock | providerRoundId => exact ih ok
      | toolCallDelta | toolCallCompleted | toolCallRejected | nativeResponsesItem
      | outputAudioDelta => cases ok

theorem summaryLoop_ok_iff : summaryLoop host maxBytes budget summary stream =
      .ok (last, .completed) ↔ accepted host budget stream = true ∧
      (texts stream).foldlM (pushDelta maxBytes) summary = .ok last := by
  induction stream generalizing budget summary with
  | nil => simp [summaryLoop, accepted]
  | cons item stream ih =>
    cases item with
    | error problem => simp [summaryLoop, accepted, bind, Except.bind]
    | ok event =>
      simp only [summaryLoop, accepted, bind, Except.bind]
      cases host.admitEvent budget event with
      | error problem => simp [Except.toOption]
      | ok budget =>
        cases event with
        | outputTextDelta text source =>
          cases pushed : pushDelta maxBytes summary text.toList with
          | error problem => simp [texts, pushed, bind, Except.bind]
          | ok next =>
            have filled := (pushDelta_eq_ok.mp pushed).1
            simp [texts, pushed, bind, Except.bind, Except.toOption, ih, filled]
        | completed reason => simp [texts, pure, Except.pure, Except.toOption, and_comm]
        | usage usage =>
          cases emitted : host.emitUsage usage with
          | error problem => simp [Except.toOption, emitted]
          | ok done => simpa [Except.toOption, emitted, texts] using ih
        | responseStarted | reasoningDelta | reasoningSignature | reasoningBlock
        | providerReasoningBlock | providerRoundId => exact ih
        | toolCallDelta | toolCallCompleted | toolCallRejected | nativeResponsesItem
        | outputAudioDelta => simp [Except.toOption]

theorem taskSummary_eq_ok : taskSummary host maxBytes budget stream = .ok stored ↔
    ∃ last, accepted host budget stream = true ∧
      (texts stream).foldlM (pushDelta maxBytes) [] = .ok last ∧ trimEnd last ≠ [] ∧
      stored = trimEnd last := by
  simp only [taskSummary, bind_eq_ok, Prod.exists]
  constructor
  · rintro ⟨last, reason, ran, ok⟩
    cases reason with
    | completed =>
      obtain ⟨more, done⟩ := last_guard_eq_ok.mp ok
      obtain ⟨events, folded⟩ := summaryLoop_ok_iff.mp ran
      exact ⟨last, events, folded, more, (Except.ok.inj done).symm⟩
    | cancelled | maxOutputTokens | toolCalls | refusal => cases ok
  · rintro ⟨last, events, folded, more, rfl⟩
    exact ⟨last, .completed, summaryLoop_ok_iff.mpr ⟨events, folded⟩,
      last_guard_eq_ok.mpr ⟨more, rfl⟩⟩

theorem shortened_is_stored (events : accepted host budget stream = true)
    (shortened : Shortened maxBytes (texts stream)) :
    (∃ stored, taskSummary host maxBytes budget stream = .ok stored) ∧
      maxBytes < bytes (trimEnd (texts stream).flatten) := by
  obtain ⟨before, text, later, split, fits, long, short, room, left⟩ := shortened
  have filled := accepted_filled events
  simp only [split, mem_append, mem_cons, not_or] at filled
  obtain ⟨filledBefore, filledText, filledLater⟩ := filled
  have full := Nat.add_sub_cancel' (bytes_takeBytes_le maxBytes (before.flatten ++ text))
  obtain ⟨last, folded⟩ := (folded_behind_iff filledLater full).mpr room
  have whole : (texts stream).foldlM (pushDelta maxBytes) [] = .ok last := by
    have started := @folded_within [] _ _ filledBefore fits
    have pushed := pushDelta_eq_ok.mpr ⟨Ne.symm filledText, short, rfl⟩
    rw [split, foldlM_append]
    refine bind_eq_ok.mpr ⟨_, started, ?_⟩
    rw [foldlM_cons]
    exact bind_eq_ok.mpr ⟨_, pushed, folded⟩
  have tooLong : maxBytes < bytes (trimEnd (texts stream).flatten) := by
    rw [split, flatten_append, flatten_cons, ← append_assoc, trimEnd_append, if_neg left,
      bytes_append]
    omega
  refine ⟨⟨_, taskSummary_eq_ok.mpr ⟨last, events, whole, fun blank => ?_, rfl⟩⟩, tooLong⟩
  have nothing := folded_blank whole blank
  rw [nil_append] at nothing
  simp [nothing] at tooLong

/-- For every stream: the summary, if one is stored, is the trimmed text of all deltas and within
the limit, unless the stream is accepted and its text is shortened. -/
theorem summary_is_delta_text_iff (host : SummaryHost β) (maxBytes : Nat) (budget : β)
    (stream : List (Except SummaryError ChatModelEvent)) :
    (∀ stored, taskSummary host maxBytes budget stream = .ok stored →
        stored = trimEnd (texts stream).flatten ∧ bytes stored ≤ maxBytes) ↔
      ¬ (accepted host budget stream = true ∧ Shortened maxBytes (texts stream)) := by
  constructor
  · rintro whole ⟨events, shortened⟩
    obtain ⟨⟨stored, ok⟩, long⟩ := shortened_is_stored events shortened
    obtain ⟨rfl, fits⟩ := whole stored ok
    omega
  · intro kept stored ok
    obtain ⟨last, events, folded, -, rfl⟩ := taskSummary_eq_ok.mp ok
    have fits : bytes (trimEnd (texts stream).flatten) ≤ maxBytes := by
      by_contra long
      exact kept ⟨events, folded_too_long [] (Nat.zero_le _) (accepted_filled events) folded
        (Nat.not_le.mp long)⟩
    have same := folded_keeps folded fits
    exact ⟨same, same ▸ fits⟩

def unlimited : SummaryHost Unit := ⟨fun _ _ => .ok (), fun _ => .ok ()⟩

/-- A stream of text deltas that completes. -/
def textStream (texts : List String) : List (Except SummaryError ChatModelEvent) :=
  texts.map (fun text => .ok (.outputTextDelta text none)) ++ [.ok (.completed .completed)]

/-- The cut makes room for a letter. -/
theorem text_behind_cut_moves_up :
    taskSummary unlimited 4 () (textStream ["ab", "\u3000", "c"]) = .ok ['a', 'b', 'c'] ∧
      trimEnd (texts (textStream ["ab", "\u3000", "c"])).flatten = ['a', 'b', '\u3000', 'c'] := by
  decide

end Nomifun.Guarantees.CompactionSummaries
