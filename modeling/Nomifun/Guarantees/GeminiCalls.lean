import Nomifun.Guarantees.GeminiReads
import Mathlib.Data.List.Dedup
import Mathlib.Data.List.Induction

/-!
# The calls of a Gemini response

The calls of a response are kept until it ends, ordered by identifier. A call without an identifier
is given one made of the position of its part in the frame, so calls at the same position of two
frames are kept as one. The order of the identifiers as texts need not be that of the calls.
-/
namespace Nomifun.Guarantees.GeminiCalls
open Library Library.Json Source.ChatModelBroker Source.ChatModelBroker.Gemini EventProjections List

/-! ### Calls by identifier -/

section

variable {key other : String} {call : RawToolCall} {tools calls : List (String × RawToolCall)}

theorem mem_setEntry :
    other ∈ (setEntry key call tools).map (·.1) ↔ other = key ∨ other ∈ tools.map (·.1) := by
  fun_induction setEntry key call tools with
  | case1 => simp
  | case2 => simp
  | case3 _ _ _ _ _ ih => simp [map_cons, mem_cons, ih, or_left_comm]
  | case4 name _ _ notBelow notAbove =>
    obtain rfl := le_antisymm (not_lt.mp notAbove) (not_lt.mp notBelow)
    simp

theorem setEntry_increasing (increasing : (tools.map (·.1)).Pairwise (· < ·)) :
    ((setEntry key call tools).map (·.1)).Pairwise (· < ·) := by
  fun_induction setEntry key call tools with
  | case1 => simp
  | case2 name _ rest below =>
    refine pairwise_cons.mpr ⟨fun later member => ?_, increasing⟩
    rcases mem_cons.mp member with rfl | further
    · exact below
    · exact below.trans (rel_of_pairwise_cons increasing further)
  | case3 name _ rest _ above ih =>
    obtain ⟨first, rest⟩ := pairwise_cons.mp increasing
    refine pairwise_cons.mpr ⟨fun later member => ?_, ih rest⟩
    rcases mem_setEntry.mp member with rfl | further
    · exact above
    · exact first later further
  | case4 name _ _ notBelow notAbove =>
    obtain rfl := le_antisymm (not_lt.mp notAbove) (not_lt.mp notBelow)
    exact increasing

theorem setEntry_perm (new : key ∉ tools.map (·.1)) :
    (setEntry key call tools).Perm ((key, call) :: tools) := by
  fun_induction setEntry key call tools with
  | case1 => exact .refl _
  | case2 => exact .refl _
  | case3 name old rest _ _ ih =>
    rw [map_cons, mem_cons, not_or] at new
    exact ((ih new.2).cons _).trans (.swap ..)
  | case4 name _ _ notBelow notAbove =>
    obtain rfl := le_antisymm (not_lt.mp notAbove) (not_lt.mp notBelow)
    exact absurd mem_cons_self new

theorem store_increasing (calls : List (String × RawToolCall)) :
    ((store [] calls).map (·.1)).Pairwise (· < ·) := by
  induction calls using reverseRecOn with
  | nil => exact .nil
  | append_singleton calls call ih =>
    rw [store_append]
    exact setEntry_increasing ih

theorem mem_store : key ∈ (store [] calls).map (·.1) ↔ key ∈ calls.map (·.1) := by
  induction calls using reverseRecOn with
  | nil => rfl
  | append_singleton calls call ih =>
    rw [store_append, map_append, mem_append, ← ih, or_comm]
    exact mem_setEntry.trans (or_congr_left mem_singleton.symm)

theorem store_perm (distinct : (calls.map (·.1)).Nodup) : (store [] calls).Perm calls := by
  induction calls using reverseRecOn with
  | nil => exact .refl _
  | append_singleton calls call ih =>
    rw [map_append, nodup_append] at distinct
    rw [store_append]
    have new : call.1 ∉ (store [] calls).map (·.1) := fun member =>
      distinct.2.2 _ (mem_store.mp member) _ mem_cons_self rfl
    exact (setEntry_perm new).trans (((ih distinct.1).cons call).trans
      (perm_append_singleton call calls).symm)

/-- As many are kept as there were only if no two had one identifier. -/
theorem nodup_of_length (all : (store [] calls).length = calls.length) :
    (calls.map (·.1)).Nodup := by
  have same : ((store [] calls).map (·.1)).Perm (calls.map (·.1)).dedup := by
    rw [perm_ext_iff_of_nodup ((store_increasing calls).imp ne_of_lt) (nodup_dedup _)]
    intro key
    rw [mem_store, mem_dedup]
  have length := same.length_eq
  rw [length_map, all, ← length_map (·.1)] at length
  exact dedup_eq_self.mp ((dedup_sublist _).eq_of_length length.symm)

end

/-! ### Whole responses -/

/-- The parts of some frames that carry a call. -/
def partsOver (frames : List ProviderWireFrame) : List (Value × Nat) :=
  frames.flatMap fun frame => partsIn frame.data

def callsOver (frames : List ProviderWireFrame) : List (String × RawToolCall) :=
  (partsOver frames).map callOf

/-- The identifiers of the calls of some frames. -/
def callIds (frames : List ProviderWireFrame) : List String := (callsOver frames).map (·.1)

section

variable {host : DecoderHost} {key : String} {frame : ProviderWireFrame}
  {events : List ChatModelEvent} {frames : List ProviderWireFrame}
  {outputs : List (List ChatModelEvent)} {reason : ChatFinishReason}

theorem responseKey_carried (carried : explicit.getD key = key) :
    responseKey explicit anonymous message [(key, stream)] = .ok key := by
  cases explicit with
  | none => rfl
  | some id => exact congrArg Except.ok carried

theorem decode_stores (carried : (explicitKey frame.data).getD key = key)
    (ok : decode host frame [(key, stream)] = .ok (events, post)) :
    ∃ before after, (∀ event ∈ before, Silent event) ∧
      after.tools = store stream.tools ((partsIn frame.data).map callOf) ∧
      (events = before ∧ post = [(key, after)] ∨
        events = before ++ completion host (reasonIn frame.data) after) := by
  obtain ⟨reading, isRead, ok⟩ := bind_eq_ok.mp ok
  obtain ⟨⟨silent, stored⟩, reported⟩ := read_reads isRead
  have sameKey : reading.key = key := by
    simp only [Gemini.read, responseKey_carried carried, bind_eq_ok] at isRead
    obtain ⟨found, isKey, _, _, isRead⟩ := isRead
    cases isRead
    exact (Except.ok.inj isKey).symm
  rw [sameKey, lookup_cons_self] at stored
  rw [← reported]
  refine ⟨reading.events, reading.stream, silent, stored, ?_⟩
  dsimp only at ok
  split at ok
  · cases ok
    exact .inr rfl
  · cases ok
    exact .inl ⟨rfl, by simp [sameKey]⟩

theorem run_stores
    (carried : ∀ frame ∈ frames, (explicitKey frame.data).getD key = key)
    (accepted : run host [(key, stream)] frames = .ok outputs)
    (unfinished : ∀ events ∈ outputs.dropLast, finishes events = [])
    (ended : finishes outputs.flatten ≠ []) :
    ∃ before after last, frames.getLast? = some last ∧ (∀ event ∈ before, Silent event) ∧
      after.tools = store stream.tools (callsOver frames) ∧
      outputs.flatten = before ++ completion host (reasonIn last.data) after := by
  induction frames generalizing stream outputs with
  | nil =>
    cases accepted
    exact absurd rfl ended
  | cons frame rest ih =>
    rw [Gemini.run] at accepted
    simp only [bind_eq_ok] at accepted
    obtain ⟨⟨events, next⟩, decoded, later, isLater, accepted⟩ := accepted
    cases accepted
    rw [forall_mem_cons] at carried
    obtain ⟨before, after, silent, stored, goesOn | ends⟩ := decode_stores carried.1 decoded
    · obtain ⟨rfl, rfl⟩ := goesOn
      rw [flatten_cons, finishes_append, finishes_silent silent] at ended
      have more : later ≠ [] := by
        rintro rfl
        exact ended rfl
      rw [dropLast_cons_of_ne_nil more, forall_mem_cons] at unfinished
      obtain ⟨beforeLater, final, last, isLast, silentLater, storedLater, flat⟩ :=
        ih carried.2 isLater unfinished.2 ended
      refine ⟨events ++ beforeLater, final, last, ?_,
        forall_mem_append.mpr ⟨silent, silentLater⟩, ?_, ?_⟩
      · rw [getLast?_cons, isLast, Option.getD_some]
      · rw [storedLater, stored, ← store_append, callsOver, ← map_append]
        rfl
      · rw [flatten_cons, flat, append_assoc]
    · cases rest with
      | nil =>
        cases isLater
        refine ⟨before, after, frame, rfl, silent, ?_, by rw [ends]; simp⟩
        rw [stored, callsOver, partsOver, flatMap_singleton]
      | cons following rest =>
        rw [Gemini.run] at isLater
        simp only [bind_eq_ok] at isLater
        obtain ⟨_, _, _, _, isLater⟩ := isLater
        cases isLater
        have none := unfinished events mem_cons_self
        simp [ends, finishes, completion, finishOf] at none

/-- A response that was decoded up to its completed event. The first frame opens it under its
identifier or as the anonymous one, and the others carry the same identifier or none. -/
structure Decoded (host : DecoderHost) (key : String) (frames : List ProviderWireFrame)
    (outputs : List (List ChatModelEvent)) (reason : ChatFinishReason) : Prop where
  accepted : run host [] frames = .ok outputs
  opened : (frames.head?.bind (explicitKey ·.data)).getD "__gemini_anonymous__" = key
  carried : ∀ frame ∈ frames, (explicitKey frame.data).getD key = key
  unfinished : ∀ events ∈ outputs.dropLast, finishes events = []
  ended : finishes outputs.flatten = [reason]

/-- The calls that are completed or rejected. -/
def proposals (outputs : List (List ChatModelEvent)) : List ChatModelEvent :=
  outputs.flatten.filter fun event => (proposalOf event).isSome

def proposalFor (host : DecoderHost) (call : String × RawToolCall) : ChatModelEvent :=
  proposalEvent host.argumentParser call.1 call.2.name (.jsonValue call.2.arguments)
    call.2.providerMetadata

/-- A response with this reason proposes its calls. -/
def proposes (reported : Option ChatFinishReason) : Bool :=
  reported ∈ [none, some .completed, some .toolCalls]

theorem finishReason_proposes (reported : Option ChatFinishReason) (stream : Stream) :
    (stream.finishReason reported = .completed ∨ stream.finishReason reported = .toolCalls) ↔
      proposes reported = true := by
  cases reported with
  | none => cases calls : stream.hasToolCalls <;> simp [Stream.finishReason, proposes]
  | some reason =>
    cases reason <;> cases calls : stream.hasToolCalls <;>
      simp [Stream.finishReason, proposes, calls]

theorem filter_silent (silent : ∀ event ∈ events, Silent event) :
    (events.filter fun event => (proposalOf event).isSome) = [] := by
  refine filter_eq_nil_iff.mpr fun event member => ?_
  simp [(silent event member).1]

theorem filter_toolEvents (reported : Option ChatFinishReason) (stream : Stream) :
    ((toolEvents host (stream.finishReason reported) stream).filter
      fun event => (proposalOf event).isSome) =
      if proposes reported then stream.tools.map (proposalFor host) else [] := by
  have same := finishReason_proposes reported stream
  by_cases proposing : proposes reported = true
  · rw [if_pos proposing, toolEvents, if_pos (by simpa using same.mpr proposing)]
    refine filter_eq_self.mpr fun event member => ?_
    obtain ⟨call, -, rfl⟩ := mem_map.mp member
    rw [proposalOf_proposalEvent]
    rfl
  · rw [if_neg proposing]
    exact filter_silent (toolEvents_silent _ (mt same.mp proposing))

/-- A response opens as if it had been open without anything read. -/
theorem decode_opens (opened : (explicitKey frame.data).getD "__gemini_anonymous__" = key) :
    decode host frame [(key, .default)] = decode host frame [] := by
  unfold decode Gemini.read responseKey
  subst opened
  cases explicitKey frame.data <;>
    simp [bind, Except.bind, pure, Except.pure, Stream.default] <;>
    cases readFrame frame.data ⟨true, false, none, []⟩ <;> simp

/-- A response proposes what it kept of its calls. -/
theorem Decoded.proposals_eq (decoded : Decoded host key frames outputs reason) :
    ∃ last, frames.getLast? = some last ∧
      (reason = .toolCalls → proposes (reasonIn last.data) = true) ∧
      proposals outputs = if proposes (reasonIn last.data) then
        (store [] (callsOver frames)).map (proposalFor host) else [] := by
  have started : run host [(key, .default)] frames = .ok outputs := by
    rw [← decoded.accepted]
    cases frames with
    | nil => rfl
    | cons frame rest => rw [Gemini.run, decode_opens decoded.opened, Gemini.run]
  obtain ⟨before, after, last, isLast, silent, stored, flat⟩ := run_stores decoded.carried
    started decoded.unfinished (by simp [decoded.ended])
  refine ⟨last, isLast, fun calls => ?_, ?_⟩
  · have ended := decoded.ended
    rw [flat, finishes_append, finishes_silent silent, completion, finishes_append, finishes_append,
      toolEvents_unfinished, finishes_silent (silent_usage _)] at ended
    rw [← finishReason_proposes _ after]
    exact .inr ((cons.inj ended).1.trans calls)
  · rw [proposals, flat, filter_append, filter_silent silent, completion, filter_append,
      filter_append, filter_silent (silent_usage _), filter_toolEvents, stored, append_nil]
    exact append_nil _

/-- The function call of a part carries no identifier. -/
def Unnamed (part : Value × Nat) : Prop :=
  (functionCallOf part).member "id" ∈ [none, some .null, some (.string "")]

instance (part : Value × Nat) : Decidable (Unnamed part) :=
  inferInstanceAs (Decidable (_ ∈ _))

/-- The identifier that a call is given. -/
def numbered (index : Nat) : String := "gemini-tool-" ++ toString 0 ++ "-" ++ toString index

theorem numbered_injective : Function.Injective numbered := by
  intro first second same
  have digits := (String.append_right_inj _).mp same
  have read := congrArg (fun text => Nat.ofDigitChars 10 text.toList 0) digits
  simpa using read

theorem callOf_unnamed (unnamed : Unnamed part) : (callOf part).1 = numbered part.2 := by
  simp only [Unnamed, mem_cons, not_mem_nil, or_false] at unnamed
  rcases unnamed with found | found | found
  all_goals
    rw [callOf, callIdOf, found]
    rfl

/-- Every call is proposed once, under an identifier of its own. -/
def AllProposed (host : DecoderHost) (frames : List ProviderWireFrame)
    (outputs : List (List ChatModelEvent)) : Prop :=
  ∃ ids : List String, ids.Nodup ∧ ids.length = (partsOver frames).length ∧
    (proposals outputs).Perm (zipWith (fun id part => proposalFor host (id, (callOf part).2)) ids
      (partsOver frames))

/-- The calls of a response, none of which carries an identifier, are all proposed, each with an
identifier of its own, exactly when no two of them are at the same position of their frames. -/
theorem unnamed_calls_proposed_iff (decoded : Decoded host key frames outputs .toolCalls)
    (unnamed : ∀ part ∈ partsOver frames, Unnamed part) :
    AllProposed host frames outputs ↔ ((partsOver frames).map (·.2)).Nodup := by
  have named : (callsOver frames).map (·.1) = ((partsOver frames).map (·.2)).map numbered := by
    rw [callsOver, map_map, map_map]
    exact map_congr_left fun part member => callOf_unnamed (unnamed part member)
  obtain ⟨last, -, proposing, proposed⟩ := decoded.proposals_eq
  rw [if_pos (proposing rfl)] at proposed
  rw [AllProposed, proposed]
  constructor
  · rintro ⟨ids, -, asMany, same⟩
    have length := same.length_eq
    rw [length_map, length_zipWith, asMany, min_self, ← length_map callOf] at length
    have distinct := nodup_of_length length
    rw [named] at distinct
    exact distinct.of_map _
  · intro distinct
    have keys := distinct.map numbered_injective
    rw [← named] at keys
    refine ⟨_, keys, by simp [callsOver], ((store_perm keys).map _).trans (.of_eq ?_)⟩
    simp [callsOver, zipWith_map_left]

/-- The first appearance of a call is before that of the other. -/
abbrev AppearsBefore (frames : List ProviderWireFrame) (first second : String) : Prop :=
  (callIds frames).idxOf first < (callIds frames).idxOf second

/-- The calls are proposed in the order in which they first appear. -/
abbrev InOrder (frames : List ProviderWireFrame) (outputs : List (List ChatModelEvent)) : Prop :=
  (((proposals outputs).filterMap proposalOf).map (·.1)).Pairwise (AppearsBefore frames)

/-- The calls of a response are proposed in the order in which they first appear exactly when the
reason with which it ends proposes none or their identifiers first appear in increasing order. -/
theorem calls_in_order_iff (decoded : Decoded host key frames outputs reason) :
    InOrder frames outputs ↔
      (proposes (frames.getLast?.bind fun last => reasonIn last.data) = true →
        ∀ first ∈ callIds frames, ∀ second ∈ callIds frames, first < second →
          AppearsBefore frames first second) := by
  obtain ⟨last, isLast, -, proposed⟩ := decoded.proposals_eq
  rw [isLast, Option.bind_some, InOrder, proposed]
  by_cases proposing : proposes (reasonIn last.data) = true
  · have increasing := store_increasing (callsOver frames)
    have ids : (((store [] (callsOver frames)).map (proposalFor host)).filterMap proposalOf).map
        (·.1) = (store [] (callsOver frames)).map (·.1) := by
      simp [Function.comp_def, proposalFor, proposalOf_proposalEvent]
    rw [if_pos proposing, ids, imp_iff_right proposing]
    constructor
    · intro ordered first isFirst second isSecond
      refine Pairwise.forall_of_forall_of_flip
        (R := fun first second => first < second → AppearsBefore frames first second)
        (fun _ _ same => absurd same (lt_irrefl _)) ?_ ?_ (mem_store.mpr isFirst)
        (mem_store.mpr isSecond)
      · exact ordered.imp fun {first second} before (_ : first < second) => before
      · exact increasing.imp fun below above => absurd above below.asymm
    · intro ordered
      refine increasing.imp_of_mem fun isFirst isSecond before => ?_
      exact ordered _ (mem_store.mp isFirst) _ (mem_store.mp isSecond) before
  · rw [if_neg proposing]
    exact iff_of_true .nil fun given => absurd given proposing

end

/-! ### Some responses -/

def finishHost : DecoderHost := ⟨fun _ => [], fun _ _ _ => none, fun _ => .ok (.object [])⟩

/-- Calls of the tool `n` in one frame, each with the given members. -/
def callFrame (calls : List (List (String × Value))) (ending : List (String × Value)) :
    ProviderWireFrame :=
  ⟨"message", .object [("candidates", .array [.object (("content", .object [("parts", .array
    (calls.map fun members => .object [("functionCall",
      .object (("name", .string "n") :: members))]))]) :: ending)])]⟩

def stop : List (String × Value) := [("finishReason", .string "STOP")]

def proposed (id : String) : ChatModelEvent := .toolCallCompleted ⟨id, "n", .object [], none⟩

/-- The events of a response that ends with some calls. -/
def ending (ids : List String) : List ChatModelEvent := ids.map proposed ++ [.completed .toolCalls]

theorem two_unnamed_calls : Decoded finishHost "__gemini_anonymous__" [callFrame [[], []] stop]
    [ending [numbered 0, numbered 1]] .toolCalls :=
  ⟨toOption_eq_some.mp (by decide), rfl, by decide +kernel, by decide, by decide +kernel⟩

theorem two_unnamed_calls_proposed :
    AllProposed finishHost [callFrame [[], []] stop] [ending [numbered 0, numbered 1]] :=
  (unnamed_calls_proposed_iff two_unnamed_calls (by decide)).mpr (by decide +kernel)

theorem two_unnamed_calls_in_order :
    InOrder [callFrame [[], []] stop] [ending [numbered 0, numbered 1]] :=
  (calls_in_order_iff two_unnamed_calls).mpr fun _ => by decide

/-- Two frames with a call each: the second call replaces the first. -/
theorem calls_of_two_frames_merge : ∃ frames outputs,
    Decoded finishHost "__gemini_anonymous__" frames outputs .toolCalls ∧
      (∀ part ∈ partsOver frames, Unnamed part) ∧ ¬AllProposed finishHost frames outputs := by
  refine ⟨[callFrame [[]] [], callFrame [[]] stop], [[], ending [numbered 0]],
    ⟨toOption_eq_some.mp (by decide), rfl, by decide +kernel, by decide, by decide +kernel⟩,
    by decide, ?_⟩
  rintro ⟨ids, -, asMany, same⟩
  have length := same.length_eq
  rw [length_zipWith, asMany] at length
  exact absurd length (by decide)

/-- The calls `b` and `a`, which are proposed as `a` and `b`. -/
theorem named_calls_out_of_order : ∃ frames outputs,
    Decoded finishHost "__gemini_anonymous__" frames outputs .toolCalls ∧
      ¬InOrder frames outputs := by
  refine ⟨[callFrame [[("id", .string "b")], [("id", .string "a")]] stop], [ending ["a", "b"]],
    ⟨toOption_eq_some.mp (by decide), rfl, by decide +kernel, by decide, by decide +kernel⟩,
    ?_⟩
  decide

end Nomifun.Guarantees.GeminiCalls
