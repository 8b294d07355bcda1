import Nomifun.Guarantees.EventProjections
import Nomifun.Source.ChatModelBroker.AnthropicDecoder

/-!
# Events of an Anthropic message

`Effect` says what a native event can do to the decoder and which canonical events it yields; every
accepted native event has one of these effects. From them follows by induction over the events of a
stream how its canonical events look: one start, one proposal for each tool block with the arguments
that were streamed for it, and a completed event last, when every block is closed.
-/
namespace Nomifun.Guarantees.AnthropicEvents
open Library Library.Json Library.Fragments Source.ChatModelBroker Anthropic EventProjections List
  Option

variable {decoder after : AnthropicDecoder} {events : List ChatModelEvent} {kind json text : String}
  {delta : Value} {id : String}

/-! ### Tool blocks -/

structure ToolBlock where
  id : String
  name : String
  input : Value

def toolBlockOf (block : Value) : Option ToolBlock :=
  if (block.member "type").bind Value.asStr = some "tool_use" then
    match (block.member "id").bind Value.asStr, (block.member "name").bind Value.asStr,
      block.member "input" with
    | some id, some name, some input => some ⟨id, name, input⟩
    | _, _, _ => none
  else none

/-- The tool block that a native event opens. -/
def openedBy (call : String × Value) : Option ToolBlock :=
  if call.1 = "content_block_start" then (call.2.member "content_block").bind toolBlockOf else none

/-- The native events that a frame stands for. -/
def frameCalls (frame : ProviderWireFrame) : List (String × Value) :=
  let data := normalized frame.data
  if isCompleteMessage frame data then (messageCalls data).toOption.getD []
  else [(frameKind frame data, data)]

def toolBlocks (frames : List ProviderWireFrame) : List ToolBlock :=
  (frames.flatMap frameCalls).filterMap openedBy

/-! ### Kinds of events -/

def isStarted : ChatModelEvent → Bool
  | .responseStarted _ => true
  | _ => false

/-- The proposal for a block with these streamed arguments. -/
def proposalFor (host : DecoderHost) (block : ToolBlock) (arguments : String) : ChatModelEvent :=
  proposalEvent host.argumentParser block.id block.name
    (if arguments.isEmpty then .jsonValue block.input else .jsonText arguments) none

/-- Neither a start nor a completed event, and nothing about tools. -/
structure Plain (event : ChatModelEvent) : Prop where
  notStarted : isStarted event = false
  notTerminal : event.isTerminal = false
  noArguments : argumentsPart event = none
  noProposal : proposalOf event = none

/-! ### What a native event does -/

/-- The tool block that is open. -/
def openTool : Option Block → List ToolBlock
  | some (.tool id name initial _) => [⟨id, name, initial⟩]
  | _ => []

section

variable (host : DecoderHost) (before : AnthropicDecoder)

/-- Fields that most events leave alone. -/
structure Keeps (before after : AnthropicDecoder) : Prop where
  started : after.started = before.started
  terminal : after.terminal = before.terminal
  callIds : after.callIds = before.callIds

/-- What may happen: the tool block that is opened, the events, and the decoder after it. -/
inductive Effect : Option ToolBlock → List ChatModelEvent → AnthropicDecoder → Prop where
  | start {id : Option String} {after : AnthropicDecoder} (fresh : before.started = false)
      (started : after.started = true) (terminal : after.terminal = before.terminal)
      (callIds : after.callIds = before.callIds) (active : after.active = before.active)
      (finish : after.finish = before.finish) : Effect none [.responseStarted id] after
  | ignored {after : AnthropicDecoder} (keeps : Keeps before after)
      (active : after.active = before.active) (finish : after.finish = before.finish) :
      Effect none [] after
  /-- A block that is no tool is opened, extended or closed. -/
  | content {events : List ChatModelEvent} {after : AnthropicDecoder} (keeps : Keeps before after)
      (begun : before.started = true) (plain : ∀ event ∈ events, Plain event)
      (noTool : openTool before.active = []) (noToolAfter : openTool after.active = [])
      (finish : after.finish = before.finish)
      (room : before.finish = none ∨ before.active ≠ none) : Effect none events after
  | openTool {block : ToolBlock} {after : AnthropicDecoder} (begun : before.started = true)
      (idle : before.active = none) (unfinished : before.finish = none)
      (fresh : block.id ∉ before.callIds) (started : after.started = before.started)
      (terminal : after.terminal = before.terminal)
      (callIds : after.callIds = block.id :: before.callIds)
      (active : after.active = some (.tool block.id block.name block.input ""))
      (finish : after.finish = before.finish) :
      Effect (some block) [.toolCallDelta block.id block.name ""] after
  | extendTool {block : ToolBlock} {json text : String} {after : AnthropicDecoder}
      (keeps : Keeps before after) (begun : before.started = true)
      (current : before.active = some (.tool block.id block.name block.input json))
      (active : after.active = some (.tool block.id block.name block.input (json ++ text)))
      (finish : after.finish = before.finish) :
      Effect none (if text.isEmpty then [] else [.toolCallDelta block.id block.name text]) after
  | closeTool {block : ToolBlock} {json : String} {after : AnthropicDecoder}
      (keeps : Keeps before after) (begun : before.started = true)
      (current : before.active = some (.tool block.id block.name block.input json))
      (active : after.active = none) (finish : after.finish = before.finish) :
      Effect none [proposalFor host block json] after
  /-- No more content, and perhaps the reason for it. -/
  | finish {after : AnthropicDecoder} (keeps : Keeps before after)
      (idle : before.active = none) (active : after.active = none)
      (unfinished : before.finish = none)
      (completed : after.finish = some .completed → before.callIds = [])
      (toolCalls : after.finish = some .toolCalls → before.callIds ≠ []) : Effect none [] after
  | stop {usage : ChatUsage} {reason : ChatFinishReason} {after : AnthropicDecoder}
      (begun : before.started = true) (idle : before.active = none) (active : after.active = none)
      (finished : before.finish = some reason) (finish : after.finish = some reason)
      (started : after.started = before.started) (callIds : after.callIds = before.callIds)
      (terminal : after.terminal = true) : Effect none [.usage usage, .completed reason] after

end

section

variable {host : DecoderHost} {data value : Value}

theorem identity_ok (ok : Anthropic.identity v key = .ok text) :
    (v.member key).bind Value.asStr = some text := by
  simp only [Anthropic.identity, invalid, last_guard_eq_ok, bind_eq_ok] at ok
  obtain ⟨value, found, _, same⟩ := ok
  rw [← Except.ok.inj same, requireAs_ok found]

theorem textDelta_plain (ok : textDelta text decoder = .ok events) :
    ∀ event ∈ events, Plain event := by
  unfold textDelta at ok
  split at ok
  · cases ok
    nofun
  · split at ok
    · cases ok
    · cases ok
      simp only [mem_singleton, forall_eq]
      exact ⟨rfl, rfl, rfl, rfl⟩

theorem startThinking_noTool (ok : startThinking value = .ok block) :
    openTool (some block) = [] := by
  simp only [startThinking, invalid, last_guard_eq_ok, bind_eq_ok] at ok
  obtain ⟨text, _, _, rest⟩ := ok
  split at rest
  · cases rest
    rfl
  · split at rest
    · cases rest
      rfl
    · cases rest
  · cases rest

theorem startRedacted_noTool (ok : startRedacted value = .ok block) :
    openTool (some block) = [] := by
  simp only [startRedacted, invalid, last_guard_eq_ok, bind_eq_ok] at ok
  obtain ⟨data, _, _, rest⟩ := ok
  cases rest
  rfl

/-- A block of another type is no tool block. -/
theorem toolBlockOf_eq_none (found : (value.member "type").bind Value.asStr = some kind)
    (other : kind ≠ "tool_use") : toolBlockOf value = none := by
  unfold toolBlockOf
  rw [found, if_neg (by simpa using other)]

theorem misplaced_false (ok : misplaced data decoder = .ok false) :
    decoder.active = none ∧ decoder.finish = none := by
  unfold misplaced at ok
  split at ok
  · cases ok
  next accepted =>
    simp only [Bool.or_eq_true, isSome_iff_ne_none, not_or, ne_eq, not_not] at accepted
    exact accepted.1.1.1

/-- A delta for a block that is no tool. -/
theorem deltaFor_plain (noTool : openTool (some block) = [])
    (ok : deltaFor block kind delta decoder = .ok (events, post)) :
    openTool (some post) = [] ∧ ∀ event ∈ events, Plain event := by
  cases block with
  | text =>
    simp only [deltaFor] at ok
    split at ok
    · simp only [bind_eq_ok] at ok
      obtain ⟨text, _, deltas, isDelta, rest⟩ := ok
      cases rest
      exact ⟨rfl, textDelta_plain isDelta⟩
    · cases ok
  | thinking text signature =>
    simp only [deltaFor] at ok
    split at ok
    · simp only [invalid, last_guard_eq_ok, bind_eq_ok] at ok
      obtain ⟨_, more, _, _, rest⟩ := ok
      cases rest
      exact ⟨rfl, by simp⟩
    · split at ok
      · obtain ⟨more, _, rest⟩ := bind_eq_ok.mp ok
        obtain ⟨_, rest⟩ := last_guard_eq_ok.mp rest
        cases rest
        exact ⟨rfl, by simp⟩
      · cases ok
  | tool id name initial json => cases noTool
  | redactedThinking data => cases ok

/-- A delta for a tool block. -/
theorem deltaFor_tool
    (ok : deltaFor (.tool id name initial json) kind delta decoder = .ok (events, post)) :
    ∃ text, post = .tool id name initial (json ++ text) ∧
      events = if text.isEmpty then [] else [.toolCallDelta id name text] := by
  simp only [deltaFor] at ok
  split at ok
  · simp only [invalid, last_guard_eq_ok, bind_eq_ok] at ok
    obtain ⟨_, text, _, _, rest⟩ := ok
    cases rest
    exact ⟨text, rfl, rfl⟩
  · cases ok

theorem messageStart_effect (ok : messageStart data decoder = .ok (events, after)) :
    Effect host decoder none events after := by
  simp only [messageStart, invalid, last_guard_eq_ok, bind_eq_ok] at ok
  obtain ⟨fresh, message, _, kind, _, _, role, _, _, content, _, _, id, _, counts, _, _, _, usage,
      _, rest⟩ := ok
  cases rest
  exact .start (Bool.eq_false_iff.mpr fresh) rfl rfl rfl rfl rfl

/-- A reason that speaks of tools agrees with the tool blocks. -/
theorem finishReason_tools (ok : finishReason callIds reason = .ok finish) :
    (finish = .completed → callIds = []) ∧ (finish = .toolCalls → callIds ≠ []) := by
  unfold finishReason at ok
  split at ok
  next =>
    split at ok
    next none_called =>
      cases ok
      simp only [Bool.and_eq_true, List.isEmpty_iff] at none_called
      exact ⟨fun _ => none_called.2, nofun⟩
    next =>
    split at ok
    next called =>
      cases ok
      simp only [Bool.and_eq_true, Bool.not_eq_true', isEmpty_eq_false_iff] at called
      exact ⟨nofun, fun _ => called.2⟩
    next =>
    split at ok
    · cases ok
      exact ⟨nofun, nofun⟩
    · split at ok
      · cases ok
        exact ⟨nofun, nofun⟩
      · split at ok <;> cases ok
  next => cases ok

theorem stopReason_tools (ok : stopReason delta decoder = .ok finish) :
    (finish = some .completed → decoder.callIds = []) ∧
      (finish = some .toolCalls → decoder.callIds ≠ []) := by
  unfold stopReason at ok
  split at ok
  next =>
    cases ok
    exact ⟨nofun, nofun⟩
  next =>
    obtain ⟨reason, isReason, rest⟩ := bind_eq_ok.mp ok
    obtain ⟨_, rest⟩ := last_guard_eq_ok.mp rest
    cases rest
    obtain ⟨completed, toolCalls⟩ := finishReason_tools isReason
    exact ⟨fun same => completed (Option.some.inj same),
      fun same => toolCalls (Option.some.inj same)⟩

theorem messageDelta_effect (ok : messageDelta data decoder = .ok (events, after)) :
    Effect host decoder none events after := by
  unfold messageDelta at ok
  obtain ⟨accepted, rest⟩ := last_guard_eq_ok.mp ok
  simp only [Bool.or_eq_true, isSome_iff_ne_none, not_or, ne_eq, not_not] at accepted
  simp only [invalid, last_guard_eq_ok, bind_eq_ok] at rest
  obtain ⟨delta, _, _, finish, isFinish, usage, _, rest⟩ := rest
  cases rest
  obtain ⟨completed, toolCalls⟩ := stopReason_tools isFinish
  exact .finish ⟨rfl, rfl, rfl⟩ accepted.1 accepted.1 accepted.2 completed toolCalls

theorem openedBy_other (other : kind ≠ "content_block_start") (data : Value) :
    openedBy (kind, data) = none := if_neg other

section

variable (begun : decoder.started = true)
include begun

theorem startTool_effect (idle : decoder.active = none)
    (unfinished : decoder.finish = none)
    (kind : (value.member "type").bind Value.asStr = some "tool_use")
    (ok : startTool host value decoder = .ok (events, after)) :
    Effect host decoder (toolBlockOf value) events after := by
  simp only [startTool, invalid, last_guard_eq_ok, bind_eq_ok] at ok
  obtain ⟨id, isId, name, isName, room, initial, isInitial, _, _, rest⟩ := ok
  have block : toolBlockOf value = some ⟨id, name, initial⟩ := by
    simp only [toolBlockOf, kind, identity_ok isId, identity_ok isName, requireField_ok isInitial,
      if_true]
  have fresh : id ∉ decoder.callIds := fun member => room (by simp [member])
  rw [block]
  cases rest
  exact .openTool begun idle unfinished fresh rfl rfl rfl rfl rfl

theorem startBlock_effect (ok : startBlock host data decoder = .ok (events, after)) :
    Effect host decoder (openedBy ("content_block_start", data)) events after := by
  unfold startBlock at ok
  obtain ⟨refused, placed, rest⟩ := bind_eq_ok.mp ok
  obtain ⟨fits, rest⟩ := last_guard_eq_ok.mp rest
  obtain ⟨idle, unfinished⟩ := misplaced_false (Bool.eq_false_iff.mpr fits ▸ placed)
  simp only [bind_eq_ok] at rest
  obtain ⟨block, isBlock, kind, isKind, rest⟩ := rest
  have opened : openedBy ("content_block_start", data) = toolBlockOf block := by
    simp only [openedBy, if_true, requireField_ok isBlock, bind_some]
  rw [opened]
  -- What the three kinds of blocks that are no tools have in common.
  have other {started : Block} (noTool : kind ≠ "tool_use") (plain : ∀ event ∈ events, Plain event)
      (noToolAfter : openTool (some started) = []) :
      Effect host decoder (toolBlockOf block) events { decoder with active := some started } := by
    rw [toolBlockOf_eq_none (requireAs_ok isKind) noTool]
    exact .content ⟨rfl, rfl, rfl⟩ begun plain (by rw [idle]; rfl) noToolAfter rfl (.inl unfinished)
  split at rest
  next is =>
    simp only [bind_eq_ok] at rest
    obtain ⟨text, _, delta, isDelta, rest⟩ := rest
    cases rest
    exact other (by rw [is]; decide) (textDelta_plain isDelta) rfl
  next =>
  split at rest
  next is =>
    obtain ⟨thinking, isThinking, rest⟩ := bind_eq_ok.mp rest
    cases rest
    exact other (by rw [is]; decide) (by simp) (startThinking_noTool isThinking)
  next =>
  split at rest
  next is => exact startTool_effect begun idle unfinished (is ▸ requireAs_ok isKind) rest
  next =>
  split at rest
  next is =>
    obtain ⟨redacted, isRedacted, rest⟩ := bind_eq_ok.mp rest
    cases rest
    exact other (by rw [is]; decide) (by simp) (startRedacted_noTool isRedacted)
  next => cases rest

theorem blockDelta_effect (ok : blockDelta data decoder = .ok (events, after)) :
    Effect host decoder none events after := by
  simp only [blockDelta, invalid, last_guard_eq_ok, bind_eq_ok] at ok
  obtain ⟨position, _, _, delta, _, kind, _, rest⟩ := ok
  split at rest
  · cases rest
  next block current =>
    obtain ⟨⟨deltas, next⟩, isDelta, rest⟩ := bind_eq_ok.mp rest
    cases rest
    by_cases noTool : openTool (some block) = []
    · obtain ⟨noToolAfter, plain⟩ := deltaFor_plain noTool isDelta
      exact .content ⟨rfl, rfl, rfl⟩ begun plain (current ▸ noTool) noToolAfter rfl
        (.inr (by simp [current]))
    · cases block with
      | tool id name initial json =>
        obtain ⟨text, rfl, rfl⟩ := deltaFor_tool isDelta
        exact @Effect.extendTool host decoder ⟨id, name, initial⟩ json text _ ⟨rfl, rfl, rfl⟩ begun
          current rfl rfl
      | _ => exact absurd rfl noTool

theorem stopBlock_effect (ok : stopBlock host data decoder = .ok (events, after)) :
    Effect host decoder none events after := by
  simp only [stopBlock, invalid, last_guard_eq_ok, bind_eq_ok] at ok
  obtain ⟨position, _, _, rest⟩ := ok
  split at rest
  · cases rest
  next block current =>
    have busy : decoder.active ≠ none := by simp [current]
    have reasoning (block : ChatProviderReasoning) :
        ∀ event ∈ [ChatModelEvent.providerReasoningBlock block], Plain event := by
      simp only [mem_singleton, forall_eq]
      exact ⟨rfl, rfl, rfl, rfl⟩
    cases block with
    | text =>
      cases rest
      exact .content ⟨rfl, rfl, rfl⟩ begun (by simp) (by rw [current]; rfl) rfl rfl (.inr busy)
    | redactedThinking data =>
      cases rest
      exact .content ⟨rfl, rfl, rfl⟩ begun (reasoning _) (by rw [current]; rfl) rfl rfl (.inr busy)
    | thinking text signature =>
      simp only [closeBlock] at rest
      split at rest
      · cases rest
        exact .content ⟨rfl, rfl, rfl⟩ begun (by simp) (by rw [current]; rfl) rfl rfl (.inr busy)
      · cases rest
        exact .content ⟨rfl, rfl, rfl⟩ begun (reasoning _) (by rw [current]; rfl) rfl rfl
          (.inr busy)
    | tool id name initial json =>
      cases rest
      exact @Effect.closeTool host decoder ⟨id, name, initial⟩ json _ ⟨rfl, rfl, rfl⟩ begun current
        rfl rfl

theorem messageStop_effect (ok : messageStop decoder = .ok (events, after)) :
    Effect host decoder none events after := by
  unfold messageStop at ok
  obtain ⟨accepted, rest⟩ := last_guard_eq_ok.mp ok
  simp only [isSome_iff_ne_none, ne_eq, not_not] at accepted
  split at rest
  · cases rest
  next reason finished =>
    cases rest
    exact .stop begun accepted accepted finished finished rfl rfl rfl

theorem lifecycle_effect (ok : lifecycle host kind data decoder = .ok (events, after)) :
    Effect host decoder (openedBy (kind, data)) events after := by
  unfold lifecycle at ok
  split at ok
  next is => exact is ▸ startBlock_effect begun ok
  next other =>
    rw [openedBy_other other]
    split at ok
    · exact blockDelta_effect begun ok
    · split at ok
      · exact stopBlock_effect begun ok
      · split at ok
        · exact messageDelta_effect ok
        · split at ok
          · exact messageStop_effect begun ok
          · cases ok

end

/-- Every accepted native event has an effect, and none is accepted after the last. -/
theorem decodeNative_effect (ok : decodeNative host kind data decoder = .ok (events, after)) :
    decoder.terminal = false ∧ ∃ budget,
      Effect host { decoder with budget := budget } (openedBy (kind, data)) events after := by
  simp only [decodeNative, invalid, last_guard_eq_ok, bind_eq_ok] at ok
  obtain ⟨budget, _, live, rest⟩ := ok
  refine ⟨Bool.eq_false_iff.mpr live, budget, ?_⟩
  split at rest
  · cases rest
  next =>
    split at rest
    next is =>
      rw [is, openedBy_other (by decide)]
      exact messageStart_effect rest
    next =>
      split at rest
      next unknown =>
        cases rest
        have other : kind ≠ "content_block_start" := by
          rintro rfl
          simp [isLifecycle] at unknown
        rw [openedBy_other other]
        exact .ignored ⟨rfl, rfl, rfl⟩ rfl rfl
      next =>
        obtain ⟨begun, rest⟩ := last_guard_eq_ok.mp rest
        simp only [Bool.not_eq_true', Bool.not_eq_false] at begun
        refine lifecycle_effect ?_ rest
        exact begun

end

/-! ### What the events of a stream look like -/

/-- The call was announced under this name. -/
def Announced (id name : String) (events : List ChatModelEvent) : Prop :=
  ∃ text, .toolCallDelta id name text ∈ events

/-- The block has its proposal, made from the streamed arguments and after they were announced. -/
def Closed (host : DecoderHost) (events : List ChatModelEvent) (block : ToolBlock) : Prop :=
  ∃ before after, events = before ++ proposalFor host block (argumentsOf block.id events) :: after ∧
    Announced block.id block.name before

def proposedIds (events : List ChatModelEvent) : List String :=
  (events.filterMap proposalOf).map (·.1)

/-- The canonical events after some native events, with the tool blocks these opened. -/
structure Formed (host : DecoderHost) (opened : List ToolBlock) (events : List ChatModelEvent)
    (decoder : AnthropicDecoder) : Prop where
  start : decoder.started = false ∧ events = [] ∨
    ∃ id rest, decoder.started = true ∧ events = .responseStarted id :: rest ∧
      ∀ event ∈ rest, isStarted event = false
  callIds : decoder.callIds = (opened.map (·.id)).reverse
  distinct : (opened.map (·.id)).Nodup
  tools : ∃ closed, opened = closed ++ openTool decoder.active ∧
    proposedIds events = closed.map (·.id) ∧ ∀ block ∈ closed, Closed host events block
  /-- What was streamed for the open block. -/
  current : ∀ id name input json, decoder.active = some (.tool id name input json) →
    argumentsOf id events = json ∧ Announced id name events
  known : ∀ event ∈ events, ∀ id text, argumentsPart event = some (id, text) →
    id ∈ opened.map (·.id)
  ended : decoder.terminal = true → ∃ before reason, events = before ++ [.completed reason] ∧
    (∀ event ∈ before, event.isTerminal = false) ∧ decoder.finish = some reason
  unended : decoder.terminal = false → ∀ event ∈ events, event.isTerminal = false
  idle : decoder.finish ≠ none → decoder.active = none
  completed : decoder.finish = some .completed → opened = []
  toolCalls : decoder.finish = some .toolCalls → opened ≠ []

section

variable {host : DecoderHost} {opened : List ToolBlock} {more : List ChatModelEvent}
  {block : ToolBlock}

theorem formed_new : Formed host [] [] new where
  start := .inl ⟨rfl, rfl⟩
  callIds := rfl
  distinct := nodup_nil
  tools := ⟨[], rfl, rfl, nofun⟩
  current := nofun
  known := nofun
  ended := nofun
  unended _ := nofun
  idle := fun ne => absurd rfl ne
  completed := nofun
  toolCalls := nofun

theorem Closed.append (closed : Closed host events block)
    (foreign : argumentsOf block.id more = "") : Closed host (events ++ more) block := by
  obtain ⟨before, after, split, announced⟩ := closed
  refine ⟨before, after ++ more, ?_, announced⟩
  rw [argumentsOf_append, foreign, String.append_empty]
  nth_rewrite 1 [split]
  simp

theorem proposedIds_append (first second : List ChatModelEvent) :
    proposedIds (first ++ second) = proposedIds first ++ proposedIds second := by
  simp [proposedIds]

theorem proposedIds_plain (none_proposed : ∀ event ∈ more, proposalOf event = none) :
    proposedIds (events ++ more) = proposedIds events := by
  simp [proposedIds, filterMap_eq_nil_iff.mpr none_proposed]

theorem forall_append {holds : ChatModelEvent → Prop} (first : ∀ event ∈ events, holds event)
    (second : ∀ event ∈ more, holds event) : ∀ event ∈ events ++ more, holds event :=
  forall_mem_append.mpr ⟨first, second⟩

theorem not_ended (live : decoder.terminal = false) {result : Prop}
    (ended : decoder.terminal = true) : result := by
  rw [live] at ended
  cases ended

theorem openedBy_one (call : String × Value) :
    [call].filterMap openedBy = (openedBy call).toList := by
  cases opens : openedBy call with
  | none => simp [opens]
  | some block => simp [opens]

theorem ping_keeps (ok : ping host frame data decoder = .ok after) :
    Keeps decoder after ∧ after.active = decoder.active ∧ after.finish = decoder.finish := by
  unfold ping at ok
  obtain ⟨budget, _, rest⟩ := bind_eq_ok.mp ok
  dsimp only at rest
  obtain ⟨_, rest⟩ := last_guard_eq_ok.mp rest
  cases rest
  exact ⟨⟨rfl, rfl, rfl⟩, rfl, rfl⟩

theorem openedBy_unknown (unknown : isKnownKind kind = false) (data : Value) :
    openedBy (kind, data) = none := by
  refine openedBy_other ?_ data
  rintro rfl
  cases unknown

theorem openedBy_normalized (other : isNativeFrame kind data = false) :
    openedBy (kind, data) = none := by
  simp only [isNativeFrame, Bool.or_eq_false_iff, isSome_eq_false_iff, isNone_iff_eq_none] at other
  simp only [openedBy, other.1.1.1.2, bind_none, ite_self]

/-- A frame that is no complete message stands for one native event. -/
theorem frameCalls_single (single : ¬ isCompleteMessage frame (normalized frame.data) = true) :
    (frameCalls frame).filterMap openedBy =
      (openedBy (frameKind frame (normalized frame.data), normalized frame.data)).toList := by
  simp [frameCalls, if_neg single, openedBy_one]

theorem frameCalls_complete (complete : isCompleteMessage frame (normalized frame.data) = true)
    (stands : messageCalls (normalized frame.data) = .ok calls) : frameCalls frame = calls := by
  simp [frameCalls, if_pos complete, stands, Except.toOption, getD_some]

variable (formed : Formed host opened events decoder)
include formed

theorem Formed.start_append (begun : decoder.started = true)
    (notStarted : ∀ event ∈ more, isStarted event = false) :
    decoder.started = false ∧ events ++ more = [] ∨
      ∃ id rest, decoder.started = true ∧ events ++ more = .responseStarted id :: rest ∧
        ∀ event ∈ rest, isStarted event = false := by
  rcases formed.start with ⟨unstarted, _⟩ | ⟨id, rest, _, rfl, once⟩
  · rw [begun] at unstarted
    cases unstarted
  · exact .inr ⟨id, rest ++ more, begun, rfl, forall_append once notStarted⟩

theorem Formed.known_append {blocks : List ToolBlock} (part : opened <+: blocks)
    (knownMore : ∀ event ∈ more, ∀ id text, argumentsPart event = some (id, text) →
      id ∈ blocks.map (·.id)) :
    ∀ event ∈ events ++ more, ∀ id text, argumentsPart event = some (id, text) →
      id ∈ blocks.map (·.id) :=
  forall_append (fun event member id text found =>
    (part.map _).mem (formed.known event member id text found)) knownMore

/-- Nothing has been streamed for a call that is not yet known. -/
theorem Formed.arguments_fresh (fresh : id ∉ opened.map (·.id)) : argumentsOf id
    events = "" :=
  collected_eq_empty fun event member text found => fresh (formed.known event member id text found)

theorem Formed.callIds_eq_nil : decoder.callIds = [] ↔ opened = [] := by
  rw [formed.callIds, reverse_eq_nil_iff, map_eq_nil_iff]

/-! #### One effect -/

/-- Fields that do not matter here may change. -/
theorem Formed.ignored (keeps : Keeps decoder after) (active : after.active = decoder.active)
    (finish : after.finish = decoder.finish) : Formed host opened events after := by
  obtain ⟨started, terminal, callIds⟩ := keeps
  cases decoder
  cases after
  subst started terminal callIds active finish
  exact { formed with start := formed.start }

theorem Formed.unfinished (busy : decoder.active ≠ none) : decoder.finish = none :=
  Classical.not_not.mp fun finished => busy (formed.idle finished)

/-- The open block is not among the closed ones. -/
theorem Formed.open_not_closed
    (current : decoder.active = some (.tool block.id block.name block.input json))
    (split : opened = closed ++ openTool decoder.active) :
    ∀ other ∈ closed, other.id ≠ block.id := by
  intro other member same
  have distinct := formed.distinct
  rw [split, current, map_append] at distinct
  have apart := (nodup_append.mp distinct).2.2
  exact apart other.id (mem_map_of_mem member) block.id (mem_singleton.mpr rfl) same

section

variable (live : decoder.terminal = false)
include live

theorem Formed.started {id : Option String} (fresh : decoder.started = false) :
    Formed host opened (events ++ [.responseStarted id]) { decoder with started := true } := by
  obtain rfl : events = [] := by
    rcases formed.start with ⟨_, none_yet⟩ | ⟨_, _, begun, _⟩
    · exact none_yet
    · rw [fresh] at begun
      cases begun
  obtain ⟨closed, split, proposed, each⟩ := formed.tools
  obtain rfl : closed = [] := map_eq_nil_iff.mp proposed.symm
  exact { formed with
    start := .inr ⟨id, [], rfl, rfl, nofun⟩
    tools := ⟨[], split, rfl, nofun⟩
    current id name input json current := by
      obtain ⟨_, _, announced⟩ := formed.current id name input json current
      cases announced
    known := formed.known_append (prefix_refl _) (by simp [argumentsPart])
    ended := not_ended live
    unended _ := forall_append (formed.unended live) (by simp [ChatModelEvent.isTerminal]) }

section

variable (begun : decoder.started = true)
include begun

theorem Formed.toolOpened (idle : decoder.active = none)
    (unfinished : decoder.finish = none) (fresh : block.id ∉ decoder.callIds) :
    Formed host (opened ++ [block]) (events ++ [.toolCallDelta block.id block.name ""])
      { decoder with
        callIds := block.id :: decoder.callIds
        active := some (.tool block.id block.name block.input "") } := by
  have new : block.id ∉ opened.map (·.id) := by
    rwa [formed.callIds, mem_reverse] at fresh
  -- The announcement carries no arguments, whatever the call.
  have silent (id : String) : argumentsOf id [.toolCallDelta block.id block.name ""] = "" := by
    rw [argumentsOf, collected_singleton]
    simp [fragment, argumentsPart]
  obtain ⟨closed, split, proposed, each⟩ := formed.tools
  have noTool : openTool decoder.active = [] := by rw [idle]; rfl
  rw [noTool, append_nil] at split
  refine ⟨formed.start_append begun (by simp [isStarted]), ?_, ?_, ⟨closed, ?_, ?_, ?_⟩, ?_,
    formed.known_append (prefix_append _ _) (by simp [argumentsPart]), not_ended live,
    fun _ => forall_append (formed.unended live) (by simp [ChatModelEvent.isTerminal]),
    fun ne => absurd unfinished ne, by simp [unfinished], by simp [unfinished]⟩
  · simp [formed.callIds]
  · rw [map_append]
    refine nodup_append.mpr ⟨formed.distinct, (by simp), ?_⟩
    rintro id earlier _ member rfl
    rw [map_singleton, mem_singleton] at member
    exact new (member ▸ earlier)
  · rw [split]
    rfl
  · rw [proposedIds_plain (by simp [proposalOf]), proposed]
  · exact fun other member => (each other member).append (silent other.id)
  · rintro id name input json ⟨⟩
    refine ⟨?_, "", mem_append_right _ mem_cons_self⟩
    rw [argumentsOf_append, silent, formed.arguments_fresh new]
    rfl

/-- The message goes on: only what concerns the tool blocks is left to show. -/
theorem Formed.continued {next : Option Block} (unfinished : decoder.finish = none)
    (quiet : ∀ event ∈ more, isStarted event = false ∧ event.isTerminal = false)
    (known : ∀ event ∈ more, ∀ id text, argumentsPart event = some (id, text) → id ∈ opened.map
      (·.id))
    (tools : ∃ closed, opened = closed ++ openTool next ∧ proposedIds (events ++ more) =
      closed.map (·.id) ∧ ∀ block ∈ closed, Closed host (events ++ more) block)
    (current : ∀ id name input json, next = some (.tool id name input json) → argumentsOf
      id (events ++ more) = json ∧ Announced id name (events ++ more)) :
    Formed host opened (events ++ more) { decoder with active := next } :=
  { formed with
    start := formed.start_append begun fun event member => (quiet event member).1
    tools := tools
    current := current
    known := formed.known_append (prefix_refl _) known
    ended := not_ended live
    unended _ := forall_append (formed.unended live) fun event member => (quiet event member).2
    idle ne := absurd unfinished ne }

theorem Formed.content (plain : ∀ event ∈ more, Plain event) (noTool : openTool decoder.active = [])
    (noToolAfter : openTool post = []) (room : decoder.finish = none ∨ decoder.active ≠ none) :
    Formed host opened (events ++ more) { decoder with active := post } := by
  obtain ⟨closed, split, proposed, each⟩ := formed.tools
  refine formed.continued live begun (room.elim id formed.unfinished)
    (fun event member => ⟨(plain event member).notStarted, (plain event member).notTerminal⟩)
    (fun event member id text found => ?_)
    ⟨closed, by rw [noToolAfter, ← noTool]; exact split, ?_, fun block member => ?_⟩
    fun id name input json current => ?_
  · rw [(plain event member).noArguments] at found
    cases found
  · rw [proposedIds_plain fun event member => (plain event member).noProposal, proposed]
  · exact (each block member).append
      (arguments_plain fun event inMore => (plain event inMore).noArguments)
  · rw [current] at noToolAfter
    cases noToolAfter

theorem Formed.stopped {usage : ChatUsage} {reason : ChatFinishReason}
    (idle : decoder.active = none)
    (finished : decoder.finish = some reason) :
    Formed host opened (events ++ [.usage usage, .completed reason])
      { decoder with terminal := true } := by
  obtain ⟨closed, split, proposed, each⟩ := formed.tools
  have silent (id : String) : argumentsOf id [.usage usage, .completed reason] = "" :=
    arguments_plain (by simp [argumentsPart])
  refine { formed with
    start := formed.start_append begun (by simp [isStarted])
    tools := ⟨closed, split, ?_, fun other member => (each other member).append (silent other.id)⟩
    current := by rw [idle]; nofun
    known := formed.known_append (prefix_refl _) (by simp [argumentsPart])
    ended _ := ⟨events ++ [.usage usage], reason, by simp, ?_, finished⟩
    unended := nofun }
  · rw [proposedIds_plain (by simp [proposalOf]), proposed]
  · exact forall_append (formed.unended live) (by simp [ChatModelEvent.isTerminal])

variable (current : decoder.active = some (.tool block.id block.name block.input json))
include current

theorem Formed.toolExtended :
    Formed host opened (events ++ [.toolCallDelta block.id block.name text])
      { decoder with active := some (.tool block.id block.name block.input (json ++ text)) } := by
  obtain ⟨closed, split, proposed, each⟩ := formed.tools
  have apart := formed.open_not_closed current split
  have own : block.id ∈ opened.map (·.id) := by
    rw [split, current]
    simp [openTool]
  refine formed.continued live begun (formed.unfinished (by rw [current]; nofun))
    (by simp [isStarted, ChatModelEvent.isTerminal]) (fun event member id found isPart => ?_)
    ⟨closed, ?_, ?_, fun other member => (each other member).append ?_⟩
    ?_
  · rw [mem_singleton] at member
    subst member
    cases isPart
    exact own
  · rw [split, current]
    rfl
  · rw [proposedIds_plain (by simp [proposalOf]), proposed]
  · rw [argumentsOf, collected_singleton]
    simp [fragment, argumentsPart, Ne.symm (apart other member)]
  · rintro id name input streamed ⟨⟩
    refine ⟨?_, text, mem_append_right _ mem_cons_self⟩
    have fragment : fragment argumentsPart block.id (.toolCallDelta block.id block.name text) =
        text :=
      fragment_of_part rfl
    rw [argumentsOf_append, (formed.current _ _ _ _ current).1, argumentsOf, collected_singleton,
      fragment]

theorem Formed.toolClosed : Formed host opened (events ++ [proposalFor host block json])
      { decoder with active := none } := by
  obtain ⟨closed, split, proposed, each⟩ := formed.tools
  obtain ⟨streamed, announced⟩ := formed.current _ _ _ _ current
  have proposal : proposalOf (proposalFor host block json) = some (block.id, block.name) :=
    proposalOf_proposalEvent _ _ _ _ _
  have noPart : argumentsPart (proposalFor host block json) = none :=
    argumentsPart_proposalEvent _ _ _ _ _
  have silent (id : String) : argumentsOf id [proposalFor host block json] = "" :=
    arguments_plain (by simp [noPart])
  have quiet : isStarted (proposalFor host block json) = false ∧
      (proposalFor host block json).isTerminal = false := by
    cases made : proposalFor host block json <;>
      first | exact ⟨rfl, rfl⟩ | simp [made, proposalOf] at proposal
  refine formed.continued live begun (formed.unfinished (by rw [current]; nofun))
    (by simpa using quiet) (by simp [noPart]) ⟨closed ++ [block], ?_, ?_, fun other member => ?_⟩
    nofun
  · rw [split, current, append_assoc]
    rfl
  · rw [proposedIds_append, proposed, map_append]
    simp [proposedIds, proposal]
  · rcases mem_append.mp member with earlier | here
    · exact (each other earlier).append (silent other.id)
    · rw [mem_singleton] at here
      subst here
      refine ⟨events, [], ?_, announced⟩
      rw [argumentsOf_append, silent, String.append_empty, streamed]

end

theorem Formed.reasonGiven (idle : decoder.active = none)
    (completed : finish = some .completed → decoder.callIds = [])
    (toolCalls : finish = some .toolCalls → decoder.callIds ≠ []) :
    Formed host opened events { decoder with finish := finish } :=
  { formed with
    ended := not_ended live
    idle _ := idle
    completed same := formed.callIds_eq_nil.mp (completed same)
    toolCalls same none_opened := toolCalls same (formed.callIds_eq_nil.mpr none_opened) }

/-- One native event. -/
theorem Formed.effect (effect : Effect host decoder made more after) :
    Formed host (opened ++ made.toList) (events ++ more) after := by
  cases effect with
  | start fresh started terminal callIds active finish =>
    rw [toList_none, append_nil]
    exact (formed.started live fresh).ignored ⟨started, terminal, callIds⟩ active finish
  | ignored keeps active finish =>
    rw [toList_none, append_nil, append_nil]
    exact formed.ignored keeps active finish
  | content keeps begun plain noTool noToolAfter finish room =>
    rw [toList_none, append_nil]
    exact (formed.content live begun plain noTool noToolAfter room).ignored
      ⟨keeps.1, keeps.2, keeps.3⟩ rfl finish
  | openTool begun idle unfinished fresh started terminal callIds active finish =>
    exact (formed.toolOpened live begun idle unfinished fresh).ignored ⟨started, terminal, callIds⟩
      active finish
  | @extendTool block json text _ keeps begun current active finish =>
    rw [toList_none, append_nil]
    cases empty : text.isEmpty with
    | true =>
      have same : json ++ text = json := by
        rw [String.isEmpty_iff.mp empty, String.append_empty]
      rw [same] at active
      simp only [if_true, append_nil]
      exact formed.ignored keeps (active.trans current.symm) finish
    | false =>
      simp only [Bool.false_eq_true, if_false]
      exact (formed.toolExtended live begun current).ignored ⟨keeps.1, keeps.2, keeps.3⟩ active
        finish
  | closeTool keeps begun current active finish =>
    rw [toList_none, append_nil]
    exact (formed.toolClosed live begun current).ignored ⟨keeps.1, keeps.2, keeps.3⟩ active finish
  | finish keeps idle active unfinished completed toolCalls =>
    rw [toList_none, append_nil, append_nil]
    exact (formed.reasonGiven live idle completed toolCalls).ignored ⟨keeps.1, keeps.2, keeps.3⟩
      (active.trans idle.symm) rfl
  | stop begun idle active finished finish started callIds terminal =>
    rw [toList_none, append_nil]
    exact (formed.stopped live begun idle finished).ignored ⟨started, terminal, callIds⟩
      (active.trans idle.symm) (finish.trans finished.symm)

end

/-! #### Frames and streams -/

theorem Formed.native (ok : decodeNative host kind data decoder = .ok (more, after)) :
    Formed host (opened ++ (openedBy (kind, data)).toList) (events ++ more) after := by
  obtain ⟨live, budget, effect⟩ := decodeNative_effect ok
  have now : Formed host opened events { decoder with budget := budget } :=
    formed.ignored ⟨rfl, rfl, rfl⟩ rfl rfl
  exact now.effect live effect

/-- A series of native events. -/
theorem Formed.calls {calls : List (String × Value)}
    (ok : calls.foldlM (decodeCall host) ([], decoder) = .ok (more, after)) :
    Formed host (opened ++ calls.filterMap openedBy) (events ++ more) after := by
  refine foldlM_history
    (fun seen state => Formed host (opened ++ seen.filterMap openedBy) (events ++ state.1) state.2)
    (fun seen state call next now stepped => ?_) (by simpa using formed) ok
  obtain ⟨⟨new, later⟩, decoded, rest⟩ := bind_eq_ok.mp stepped
  cases rest
  have step := now.native decoded
  rwa [append_assoc, append_assoc, ← openedBy_one, ← filterMap_append] at step

theorem Formed.mode (native : Option Bool) :
    Formed host opened events { decoder with native := native } :=
  formed.ignored ⟨rfl, rfl, rfl⟩ rfl rfl

/-- One frame. -/
theorem Formed.frame {frame : ProviderWireFrame} {result : Option (List ChatModelEvent)}
    (ok : decode host frame decoder = .ok (result, after)) :
    Formed host (opened ++ (frameCalls frame).filterMap openedBy) (events ++ result.getD [])
      after := by
  unfold decode at ok
  dsimp only at ok
  split at ok
  next complete =>
    obtain ⟨⟨new, later⟩, decoded, rest⟩ := bind_eq_ok.mp ok
    cases rest
    unfold decodeCompleteMessage at decoded
    obtain ⟨_, decoded⟩ := last_guard_eq_ok.mp decoded
    obtain ⟨calls, stands, folded⟩ := bind_eq_ok.mp decoded
    rw [frameCalls_complete complete stands]
    exact formed.calls folded
  next single =>
    rw [frameCalls_single single]
    split at ok
    next isPing =>
      obtain ⟨later, pinged, rest⟩ := bind_eq_ok.mp ok
      cases rest
      obtain ⟨keeps, active, finish⟩ := ping_keeps pinged
      rw [isPing, openedBy_other (by decide)]
      simpa using formed.ignored keeps active finish
    next =>
      split at ok
      next unknown =>
        cases ok
        simp only [Bool.and_eq_true, Bool.not_eq_true'] at unknown
        rw [openedBy_unknown unknown.1.1.1]
        simpa using formed
      next =>
        obtain ⟨unmixed, ok⟩ := last_guard_eq_ok.mp ok
        split at ok
        next leaves =>
          cases ok
          have other : isNativeFrame (frameKind frame (normalized frame.data))
              (normalized frame.data) = false := by
            cases mode : decoder.native with
            | none => simpa [mode] using leaves
            | some native =>
              cases native with
              | true => simp [mode] at leaves
              | false => simpa [mode] using unmixed
          rw [openedBy_normalized other]
          simpa using formed.mode _
        next =>
          obtain ⟨_, ok⟩ := last_guard_eq_ok.mp ok
          obtain ⟨⟨new, later⟩, decoded, rest⟩ := bind_eq_ok.mp ok
          cases rest
          exact (formed.mode _).native decoded

theorem Formed.proposed_nodup : (proposedIds events).Nodup := by
  obtain ⟨closed, split, proposed, _⟩ := formed.tools
  have distinct := formed.distinct
  rw [split, map_append] at distinct
  exact proposed ▸ (nodup_append.mp distinct).1

/-- Every proposal is that of a closed block. -/
theorem Formed.proposal (split : events = before ++ event :: later)
    (proposal : proposalOf event = some (id, name)) :
    Announced id name before ∧ ∃ block ∈ opened, block.id = id ∧ block.name = name ∧
      event = proposalFor host block (argumentsOf id events) := by
  obtain ⟨closed, parts, proposed, each⟩ := formed.tools
  have among : id ∈ closed.map (·.id) := by
    rw [← proposed, proposedIds, List.mem_map]
    refine ⟨(id, name), mem_filterMap.mpr ⟨event, ?_, proposal⟩, rfl⟩
    rw [split]
    exact mem_append_right _ mem_cons_self
  obtain ⟨block, isClosed, rfl⟩ := mem_map.mp among
  obtain ⟨earlier, rest, found, announced⟩ := each block isClosed
  have own : proposalOf (proposalFor host block (argumentsOf block.id events)) =
      some (block.id, block.name) := proposalOf_proposalEvent _ _ _ _ _
  -- The block's proposal is the only one of its call, so it is this event.
  have distinct := formed.proposed_nodup
  rw [proposedIds, map_filterMap, split] at distinct
  obtain ⟨rfl, same⟩ := split_unique distinct (split.symm.trans found) (by rw [proposal]; rfl)
    (by rw [own]; rfl)
  rw [same, own] at proposal
  obtain ⟨_, rfl⟩ := Prod.mk.inj (Option.some.inj proposal)
  refine ⟨announced, block, ?_, rfl, rfl, same⟩
  rw [parts]
  exact mem_append_left _ isClosed

/-- A completed event is the last. -/
theorem Formed.last {before later : List ChatModelEvent} {reason : ChatFinishReason}
    (split : events = before ++ .completed reason :: later) :
    later = [] ∧ decoder.active = none ∧ proposedIds events = opened.map (·.id) ∧
      (reason = .completed → opened = []) ∧ (reason = .toolCalls → opened ≠ []) := by
  have isEvent : .completed reason ∈ events := by
    rw [split]
    exact mem_append_right _ mem_cons_self
  have terminal : decoder.terminal = true := by
    cases live : decoder.terminal with
    | true => rfl
    | false => cases formed.unended live _ isEvent
  obtain ⟨content, final, all, noOther, finish⟩ := formed.ended terminal
  have atEnd : later = [] ∧ final = reason := by
    rcases eq_nil_or_concat later with none_later | ⟨more, last, rfl⟩
    · subst none_later
      rw [split] at all
      have last := (append_inj' all rfl).2
      simp only [cons.injEq, ChatModelEvent.completed.injEq, and_true] at last
      exact ⟨rfl, last.symm⟩
    · rw [split, concat_eq_append, ← cons_append, ← append_assoc] at all
      have same := (append_inj' all rfl).1
      have early : .completed reason ∈ content := by
        rw [← same]
        exact mem_append_right _ mem_cons_self
      cases noOther _ early
  obtain ⟨rfl, rfl⟩ := atEnd
  have idle : decoder.active = none := formed.idle (by rw [finish]; nofun)
  obtain ⟨closed, parts, proposed, _⟩ := formed.tools
  rw [idle, show openTool none = [] from rfl, append_nil] at parts
  refine ⟨rfl, idle, ?_, ?_, ?_⟩
  · rw [proposed, parts]
  · rintro rfl
    exact formed.completed finish
  · rintro rfl
    exact formed.toolCalls finish

omit formed in
theorem run_formed (accepted : run host frames = .ok (events, decoder)) :
    Formed host (toolBlocks frames) events decoder := by
  refine foldlM_history (fun seen state => Formed host (toolBlocks seen) state.1 state.2)
    (fun seen state frame next now stepped => ?_) formed_new accepted
  obtain ⟨⟨result, later⟩, decoded, rest⟩ := bind_eq_ok.mp stepped
  cases rest
  have step := now.frame decoded
  simpa [toolBlocks] using step

end

/-! ### The guarantee -/

/-- The events of every accepted stream: the start is first and unique; a call has at most one
proposal, after an announcement under the same name, and it is what the parser makes of the
arguments streamed for the call or, without any, of the initial input of its block; a completed
event is last, and then no block is open, every tool block has its proposal, and the reason agrees
with whether there are any. Tool blocks have distinct identifiers. -/
theorem anthropic_events_are_consistent (host : DecoderHost) (frames : List ProviderWireFrame)
    (events : List ChatModelEvent) (decoder : AnthropicDecoder)
    (accepted : run host frames = .ok (events, decoder)) :
    (events = [] ∨ ∃ id rest, events = .responseStarted id :: rest ∧
      ∀ event ∈ rest, isStarted event = false) ∧
    ((toolBlocks frames).map (·.id)).Nodup ∧
    (proposedIds events).Nodup ∧
    (∀ before event after id name, events = before ++ event :: after →
      proposalOf event = some (id, name) →
      Announced id name before ∧
      ∃ block ∈ toolBlocks frames, block.id = id ∧ block.name = name ∧
        event = proposalFor host block (argumentsOf id events)) ∧
    (∀ before reason after, events = before ++ .completed reason :: after →
      after = [] ∧ decoder.active = none ∧
      proposedIds events = (toolBlocks frames).map (·.id) ∧
      (reason = .completed → toolBlocks frames = []) ∧
      (reason = .toolCalls → toolBlocks frames ≠ [])) := by
  have formed := run_formed accepted
  refine ⟨?_, formed.distinct, formed.proposed_nodup, ?_, ?_⟩
  · rcases formed.start with ⟨_, none_yet⟩ | ⟨id, rest, _, all, once⟩
    · exact .inl none_yet
    · exact .inr ⟨id, rest, all, once⟩
  · intro before event after id name split proposal
    exact formed.proposal split proposal
  · intro before reason after split
    exact formed.last split

/-! A message with one tool call. -/

def toolHost : DecoderHost := ⟨fun _ => [], fun _ _ _ => none, fun _ => .ok (.object [])⟩

def toolMessage : List ProviderWireFrame :=
  let event := fun (kind : String) (members : List (String × Value)) =>
    ProviderWireFrame.mk kind (.object (("type", .string kind) :: members))
  [event "message_start" [("message", .object [("id", .string "m"), ("type", .string "message"),
      ("role", .string "assistant"), ("content", .array []), ("usage", .object [])])],
    event "content_block_start" [("index", .nat 0), ("content_block", .object
      [("type", .string "tool_use"), ("id", .string "c"), ("name", .string "n"),
        ("input", .object [])])],
    event "content_block_delta" [("index", .nat 0), ("delta", .object
      [("type", .string "input_json_delta"), ("partial_json", .string "[]")])],
    event "content_block_stop" [("index", .nat 0)],
    event "message_delta" [("delta", .object [("stop_reason", .string "tool_use")])],
    event "message_stop" []]

theorem toolMessage_is_consistent : ∃ events decoder,
    run toolHost toolMessage = .ok (events, decoder) ∧ proposedIds events = ["c"] ∧
      (proposedIds events).Nodup := by
  have proposed : ((run toolHost toolMessage).toOption.map fun result => proposedIds result.1) =
      some ["c"] := by decide +kernel
  obtain ⟨⟨events, decoder⟩, accepted, ids⟩ := map_eq_some_iff.mp proposed
  have ok := toOption_eq_some.mp accepted
  exact ⟨events, decoder, ok, ids,
    (anthropic_events_are_consistent toolHost toolMessage events decoder ok).2.2.1⟩

end Nomifun.Guarantees.AnthropicEvents
