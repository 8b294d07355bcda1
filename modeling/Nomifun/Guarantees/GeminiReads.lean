import Nomifun.Guarantees.EventProjections
import Nomifun.Source.ChatModelBroker.RawDecoders

/-!
# Reading a Gemini response

The frames of a response are read one by one. Their text and thoughts are passed on, and their calls
are kept until the response ends: nothing is proposed before, and nothing is finished.
-/
namespace Nomifun.Guarantees.GeminiCalls
open Library Library.Json Source.ChatModelBroker Source.ChatModelBroker.Gemini EventProjections List

/-! ### Events before the end -/

def finishOf : ChatModelEvent → Option ChatFinishReason
  | .completed reason => some reason
  | _ => none

def finishes (events : List ChatModelEvent) : List ChatFinishReason := events.filterMap finishOf

/-- Neither a proposal nor a completed event. -/
def Silent (event : ChatModelEvent) : Prop := proposalOf event = none ∧ finishOf event = none

section

variable {events : List ChatModelEvent}

theorem finishes_append (first second : List ChatModelEvent) :
    finishes (first ++ second) = finishes first ++ finishes second :=
  filterMap_append

section

variable (silent : ∀ event ∈ events, Silent event)
include silent

theorem finishes_silent : finishes events = [] :=
  filterMap_eq_nil_iff.mpr fun event member => (silent event member).2

theorem silent_unless [Decidable skipped] :
    ∀ event ∈ (if skipped then [] else events), Silent event := by
  split
  · nofun
  · exact silent

end

theorem silent_toList {kind : α → ChatModelEvent} (silent : ∀ a, Silent (kind a))
    (given : Option α) : ∀ event ∈ (given.map kind).toList, Silent event := by
  cases given with
  | none => nofun
  | some a => exact forall_mem_singleton.mpr (silent a)

theorem silent_usage (counts : Option ChatUsage) :
    ∀ event ∈ (counts.map (ChatModelEvent.usage ·)).toList, Silent event :=
  silent_toList (fun _ => ⟨rfl, rfl⟩) counts

theorem finishOf_proposalEvent (parser : ToolArgumentParser) (id name : String)
    (input : ToolArgumentInput) (metadata : Option Value) :
    finishOf (proposalEvent parser id name input metadata) = none := by
  unfold proposalEvent
  split <;> rfl

end

/-! ### What a frame adds -/

variable {host : DecoderHost} {streams : Streams} {frame : ProviderWireFrame}
  {stream after : Stream} {events : List ChatModelEvent} {reported : Option ChatFinishReason}

/-- What is kept of some calls. -/
def store (tools calls : List (String × RawToolCall)) : List (String × RawToolCall) :=
  calls.foldl (fun tools call => setEntry call.1 call.2 tools) tools

theorem store_append (tools first second : List (String × RawToolCall)) :
    store tools (first ++ second) = store (store tools first) second :=
  foldl_append

def candidateOf (data : Value) : Value :=
  (((data.member "candidates").bind Value.asArray).bind (·.head?)).getD .null

def reasonOrNone (v : Value) : Option ChatFinishReason := (geminiReason v).toOption.getD none

/-- The reason that a frame gives. -/
def reasonIn (data : Value) : Option ChatFinishReason :=
  (reasonOrNone data).orElse fun _ => reasonOrNone (candidateOf data)

/-- The parts with a function call, each with its position. -/
def callParts (parts : List (Value × Nat)) : List (Value × Nat) :=
  parts.filter fun part => (part.1.member "functionCall").isSome

/-- The parts of a frame that carry a call. -/
def partsIn (data : Value) : List (Value × Nat) :=
  callParts ((partsOf (candidateOf data)).toOption.getD []).zipIdx

def functionCallOf (part : Value × Nat) : Value := (part.1.member "functionCall").getD .null

/-- The call of a part, under the identifier that it is kept by. -/
def callOf (part : Value × Nat) : String × RawToolCall :=
  ((callIdOf (functionCallOf part) 0 part.2).toOption.getD "",
    { name := (((functionCallOf part).member "name").bind Value.asStr).getD ""
      arguments := (((functionCallOf part).member "args").filter (· ≠ .null)).getD (.object [])
      providerMetadata := ((signatureOf part.1).toOption.getD none).map fun text =>
        .object [("thoughtSignature", .string text)] })

theorem silent_delta [Decidable thought] : ∀ event ∈
    (if thought then [ChatModelEvent.reasoningDelta text] else [.outputTextDelta text none]),
    Silent event := by
  split <;> exact forall_mem_singleton.mpr ⟨rfl, rfl⟩

theorem readPart_reads (silent : ∀ event ∈ before.1, Silent event)
    (ok : readPart 0 before part = .ok result) :
    (∀ event ∈ result.1, Silent event) ∧
      result.2.tools = store before.2.tools ((callParts [part]).map callOf) := by
  unfold readPart at ok
  dsimp only at ok
  obtain ⟨_, ok⟩ := last_guard_eq_ok.mp ok
  obtain ⟨_, ok⟩ := last_guard_eq_ok.mp ok
  obtain ⟨signature, signed, ok⟩ := bind_eq_ok.mp ok
  split at ok
  next absent =>
    cases ok
    refine ⟨forall_mem_append.mpr ⟨forall_mem_append.mpr ⟨silent, silent_unless silent_delta⟩,
      silent_toList (fun _ => ⟨rfl, rfl⟩) _⟩, ?_⟩
    simp [absent, callParts, store]
  next functionCall present =>
    obtain ⟨later, isCall, ok⟩ := bind_eq_ok.mp ok
    cases ok
    unfold readFunctionCall at isCall
    obtain ⟨_, isCall⟩ := last_guard_eq_ok.mp isCall
    obtain ⟨_, isCall⟩ := last_guard_eq_ok.mp isCall
    obtain ⟨callId, identified, isCall⟩ := bind_eq_ok.mp isCall
    obtain ⟨_, isCall⟩ := last_guard_eq_ok.mp isCall
    cases isCall
    refine ⟨forall_mem_append.mpr ⟨silent, silent_unless silent_delta⟩, ?_⟩
    simp [present, callParts, store, callOf, functionCallOf, identified, signed, Except.toOption]

/-- What is read of a frame: no proposal yet, and its calls are kept. -/
def Reads (data : Value) (stream : Stream) (events : List ChatModelEvent) (after : Stream) : Prop :=
  (∀ event ∈ events, Silent event) ∧ after.tools = store stream.tools ((partsIn data).map callOf)

theorem readCandidates_reads
    (ok : readCandidates (data.member "candidates") stream = .ok (events, after, reported)) :
    Reads data stream events after ∧ reported = reasonOrNone (candidateOf data) := by
  have noCandidate (null : candidateOf data = .null) :
      Reads data stream [] stream ∧ none = reasonOrNone (candidateOf data) := by
    rw [Reads, partsIn, null]
    exact ⟨⟨nofun, rfl⟩, rfl⟩
  unfold readCandidates at ok
  split at ok
  next absent =>
    cases ok
    exact noCandidate (by simp [candidateOf, absent])
  next candidates present =>
    split at ok
    · cases ok
    next empty =>
      cases ok
      exact noCandidate (by simp [candidateOf, present, empty])
    next candidate single =>
      have isCandidate : candidateOf data = candidate := by simp [candidateOf, present, single]
      unfold readCandidate at ok
      obtain ⟨_, ok⟩ := last_guard_eq_ok.mp ok
      obtain ⟨parts, areParts, ok⟩ := bind_eq_ok.mp ok
      obtain ⟨⟨read, later⟩, isRead, ok⟩ := bind_eq_ok.mp ok
      obtain ⟨reason, isReason, ok⟩ := bind_eq_ok.mp ok
      cases ok
      have done := foldlM_history (fun seen state => (∀ event ∈ state.1, Silent event) ∧
        state.2.tools = store stream.tools ((callParts seen).map callOf))
        (fun seen state part next kept stepped => by
          obtain ⟨silent, stored⟩ := readPart_reads kept.1 stepped
          refine ⟨silent, ?_⟩
          rw [stored, kept.2, ← store_append, ← map_append, callParts, callParts, callParts,
            filter_append])
        ⟨by simp, rfl⟩ isRead
      refine ⟨⟨done.1, ?_⟩, by rw [isCandidate, reasonOrNone, isReason]; rfl⟩
      rw [partsIn, isCandidate, areParts]
      exact done.2
    · cases ok

theorem read_reads (ok : Gemini.read frame streams = .ok reading) :
    Reads frame.data ((streams.lookup reading.key).getD .default) reading.events reading.stream ∧
      reading.reported = reasonIn frame.data := by
  simp only [Gemini.read, bind_eq_ok] at ok
  obtain ⟨key, _, ⟨events, later, reported⟩, isRead, ok⟩ := ok
  cases ok
  unfold readFrame at isRead
  obtain ⟨⟨read, last, given⟩, candidates, ok⟩ := bind_eq_ok.mp isRead
  dsimp only at ok
  obtain ⟨_, ok⟩ := last_guard_eq_ok.mp ok
  obtain ⟨_, ok⟩ := last_guard_eq_ok.mp ok
  obtain ⟨reason, isReason, ok⟩ := bind_eq_ok.mp ok
  cases ok
  obtain ⟨⟨silent, stored⟩, rfl⟩ := readCandidates_reads candidates
  have own : reasonOrNone frame.data = reason := by rw [reasonOrNone, isReason]; rfl
  refine ⟨⟨forall_mem_append.mpr ⟨silent_unless ?_, silent⟩, stored⟩, by rw [reasonIn, own]⟩
  exact silent_toList (fun _ => ⟨rfl, rfl⟩) _

/-! ### The end -/

/-- Another reason proposes none of them. -/
theorem toolEvents_silent (reason : ChatFinishReason)
    (other : ¬(reason = .completed ∨ reason = .toolCalls)) :
    ∀ event ∈ toolEvents host reason stream, Silent event := by
  have neither : ¬(decide (reason = .completed) || decide (reason = .toolCalls)) = true := by
    simpa using other
  intro event member
  rw [toolEvents, if_neg neither] at member
  split at member
  · obtain ⟨call, _, rfl⟩ := mem_map.mp member
    exact ⟨rfl, rfl⟩
  · cases member

theorem toolEvents_unfinished (reason : ChatFinishReason) :
    finishes (toolEvents host reason stream) = [] := by
  by_cases proposing : reason = .completed ∨ reason = .toolCalls
  · have both : (decide (reason = .completed) || decide (reason = .toolCalls)) = true := by
      simpa using proposing
    rw [toolEvents, if_pos both]
    refine filterMap_eq_nil_iff.mpr fun event member => ?_
    obtain ⟨call, _, rfl⟩ := mem_map.mp member
    exact finishOf_proposalEvent ..
  · exact finishes_silent (toolEvents_silent reason proposing)

end Nomifun.Guarantees.GeminiCalls
