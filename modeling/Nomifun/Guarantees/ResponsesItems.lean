import Mathlib.Data.List.Induction
import Nomifun.Guarantees.EventProjections
import Nomifun.Source.ChatModelBroker.ResponsesDecoder

/-!
# Items of an OpenAI response

`Change` says what a native event can do to an open item and which canonical events it yields for
it. What was streamed for an item is a fact about the events so far (`Streamed`) that every change
keeps: an open item has collected the text of its parts and its arguments, a closed one those of its
snapshot.
-/
namespace Nomifun.Guarantees.ResponsesEvents
open Library Library.Json Library.Fragments Source.ChatModelBroker Responses EventProjections List
  Option

/-! ### Items of a stream -/

def textMember (v : Value) (key : String) : Option String := (v.member key).bind Value.asStr

/-- The position and the value of the item that a native event carries. -/
def itemOf (data : Value) : Option (Nat × Value) :=
  match (data.member "output_index").bind Value.asU64, data.member "item" with
  | some position, some item => some (position, item)
  | _, _ => none

section

variable (call : String × Value) (frames : List ProviderWireFrame)

def addedBy : Option (Nat × Value) :=
  if call.1 = "response.output_item.added" then itemOf call.2 else none

def doneBy : Option (Nat × Value) :=
  if call.1 = "response.output_item.done" then itemOf call.2 else none

/-- The native event ends the response as completed, under its own name or as `response.done`. -/
def endsCompleted : Bool :=
  (call.2.member "response").any fun response =>
    call.1 = "response.completed" ||
      (call.1 = "response.done" && textMember response "status" = some "completed")

/-- The native events that a frame stands for. -/
def frameCalls (frame : ProviderWireFrame) : List (String × Value) :=
  if isCompleteResponse frame then
    (responseCalls ((textMember frame.data "status").getD "") frame.data).filterMap Except.toOption
  else [(frameKind frame, frame.data)]

/-- The items that `response.output_item.added` announces. -/
def addedItems : List (Nat × Value) :=
  (frames.flatMap frameCalls).filterMap addedBy

/-- The snapshots that `response.output_item.done` carries. -/
def doneItems : List (Nat × Value) :=
  (frames.flatMap frameCalls).filterMap doneBy

def endedCompleted : Bool :=
  (frames.flatMap frameCalls).any endsCompleted

end

/-- The text or the refusal of a part. -/
def partTextOf (part : Value) : Option String :=
  if textMember part "type" = some "output_text" then textMember part "text"
  else if textMember part "type" = some "refusal" then textMember part "refusal"
  else none

/-- The text of a part in the snapshot of a message. -/
def contentText (snapshot : Value) (contentIndex : Nat) : Option String :=
  ((snapshot.member "content").bind Value.asArray).bind fun parts =>
    parts[contentIndex]?.bind partTextOf

/-! ### What a native event does to an item -/

/-- Nothing about text or tools, and no completed event. -/
structure Plain (event : ChatModelEvent) : Prop where
  noText : textPart event = none
  noArguments : argumentsPart event = none
  noProposal : proposalOf event = none
  notTerminal : event.isTerminal = false

abbrev sourceOf (item : Item) (position contentIndex : Nat) : ChatOutputTextSource :=
  ⟨item.id, some position, contentIndex⟩

section

variable (host : DecoderHost) (position : Nat) (item : Item)

/-- The snapshot is one of this item. -/
structure SnapshotOf (snapshot : Value) : Prop where
  id : textMember snapshot "id" = some item.id
  kind : textMember snapshot "type" = some item.kind

/-- What may happen to an open item: the events, and the item after it. -/
inductive Change : List ChatModelEvent → Item → Prop where
  | text {kind : PartKind} {contentIndex : Nat} {delta : String} {finished : List PartKey}
      (message : item.kind = "message") :
      Change (if delta.isEmpty then []
          else [.outputTextDelta delta (some (sourceOf item position contentIndex))])
        { item with
          parts := ((kind, contentIndex), (item.part (kind, contentIndex)).getD "" ++ delta) ::
            item.parts
          finishedParts := finished }
  | reasoning {parts : List (PartKey × String)} {finished : List PartKey}
      (reasoning : item.kind = "reasoning") :
      Change [] { item with
        parts := parts
        finishedParts := finished }
  | record {added closed : List PartKey} {argumentsDone : Bool} :
      Change [] { item with
        argumentsDone := argumentsDone
        addedParts := added
        closedParts := closed }
  | arguments {id name delta : String} {done : Bool} (callId : item.callId = some id)
      (called : item.name = some name) :
      Change (if delta.isEmpty then [] else [.toolCallDelta id name delta])
        { item with
          arguments := item.arguments ++ delta
          argumentsDone := done }
  | closeCall {snapshot : Value} {id name suffix : String} (call : item.kind = "function_call")
      (own : SnapshotOf item snapshot) (callId : item.callId = some id)
      (called : item.name = some name) (readsId : textMember snapshot "call_id" = some id)
      (readsName : textMember snapshot "name" = some name)
      (readsArguments : textMember snapshot "arguments" = some (item.arguments ++ suffix)) :
      Change ((if suffix.isEmpty then [] else [.toolCallDelta id name suffix]) ++
          if isCutOff snapshot then []
          else [proposalEvent host.argumentParser id name
            (.jsonText (item.arguments ++ suffix)) none])
        { item with snapshot := some snapshot }
  /-- Parts stand at their index, what was streamed for one is its text, and none is missing. -/
  | closeMessage {snapshot : Value} {parts : List (PartKey × String)}
      (message : item.kind = "message") (own : SnapshotOf item snapshot)
      (reads : ∀ index, contentText snapshot index = parts[index]?.map (·.2))
      (indices : ∀ (index : Nat) (entry : PartKey × String), parts[index]? = some entry →
        entry.1.2 = index)
      (agrees : ∀ entry ∈ parts, ∀ text, item.part entry.1 = some text → text = entry.2)
      (covers : ∀ key, (item.part key).isSome → ∃ text, (key, text) ∈ parts) :
      Change (unstreamed position parts item) { item with snapshot := some snapshot }
  | closeOther {snapshot : Value} {events : List ChatModelEvent} (other : item.kind ≠ "message")
      (noCall : item.kind ≠ "function_call") (own : SnapshotOf item snapshot)
      (plain : ∀ event ∈ events, Plain event) :
      Change events { item with snapshot := some snapshot }

end

/-! ### What was streamed for an item -/

/-- What the events say about the item at a position. -/
structure Streamed (host : DecoderHost) (events : List ChatModelEvent) (position : Nat)
    (item : Item) : Prop where
  own : ∀ snapshot, item.snapshot = some snapshot → SnapshotOf item snapshot
  called : item.kind = "function_call" → ∃ id name, item.callId = some id ∧ item.name = some name
  /-- At an index with parts of only one kind the events carry the text of that part. -/
  openText : item.kind = "message" → item.snapshot = none → ∀ kind index,
    (∀ other, other ≠ kind → item.part (other, index) = none) →
    textOf (sourceOf item position index) events = (item.part (kind, index)).getD ""
  closedText : item.kind = "message" → ∀ snapshot, item.snapshot = some snapshot → ∀ index,
    textOf (sourceOf item position index) events = (contentText snapshot index).getD ""
  openCall : item.snapshot = none → ∀ id, item.callId = some id →
    argumentsOf id events = item.arguments ∧ proposalsOf id events = []
  closedCall : item.kind = "function_call" → ∀ snapshot, item.snapshot = some snapshot →
    ∀ id name, item.callId = some id → item.name = some name →
    textMember snapshot "call_id" = some id ∧ textMember snapshot "name" = some name ∧
    ∃ arguments, textMember snapshot "arguments" = some arguments ∧
      argumentsOf id events = arguments ∧
      (isCutOff snapshot = false → proposalsOf id events =
        [proposalEvent host.argumentParser id name (.jsonText arguments) none])

variable {host : DecoderHost} {events more : List ChatModelEvent} {position : Nat}
  {item item' : Item} {parts : List (PartKey × String)} {snapshot : Value} {index : Nat}

/-- Events about other items change nothing. -/
theorem Streamed.append (streamed : Streamed host events position item)
    (noText : ∀ index, textOf (sourceOf item position index) more = "")
    (noCall : ∀ id, item.callId = some id → argumentsOf id more = "" ∧ proposalsOf id more = []) :
    Streamed host (events ++ more) position item where
  own := streamed.own
  called := streamed.called
  openText message isOpen kind index alone := by
    rw [textOf_append, noText, String.append_empty]
    exact streamed.openText message isOpen kind index alone
  closedText message snapshot closed index := by
    rw [textOf_append, noText, String.append_empty]
    exact streamed.closedText message snapshot closed index
  openCall isOpen id callId := by
    obtain ⟨noArguments, noProposal⟩ := noCall id callId
    rw [argumentsOf_append, noArguments, String.append_empty, proposalsOf_append, noProposal,
      append_nil]
    exact streamed.openCall isOpen id callId
  closedCall call snapshot closed id name callId called := by
    obtain ⟨noArguments, noProposal⟩ := noCall id callId
    rw [argumentsOf_append, noArguments, String.append_empty, proposalsOf_append, noProposal,
      append_nil]
    exact streamed.closedCall call snapshot closed id name callId called

theorem textOf_plain (plain : ∀ event ∈ more, Plain event) : textOf source more = "" :=
  text_plain fun event member => (plain event member).noText

/-- An event that is sent or not. -/
theorem forall_sent [Decidable held] {holds : ChatModelEvent → Prop} (sent : holds event) :
    ∀ other ∈ (if held then [] else [event]), holds other := by
  intro other member
  rw [mem_ite_nil_left, mem_singleton] at member
  rw [member.2]
  exact sent

/-- A delta adds itself to its own part, also when it is empty and not sent. -/
theorem textOf_delta (delta : String) (source own : ChatOutputTextSource) :
    textOf source (if delta.isEmpty then [] else [.outputTextDelta delta (some own)]) =
      if own = source then delta else "" := by
  by_cases empty : delta = ""
  · simp [empty, Fragments.collected]
  · rw [if_neg (by simpa using empty), textOf, collected_singleton]
    simp [fragment, textPart]

theorem argumentsOf_delta (delta id own name : String) :
    argumentsOf id (if delta.isEmpty then [] else [.toolCallDelta own name delta]) =
      if own = id then delta else "" := by
  by_cases empty : delta = ""
  · simp [empty, Fragments.collected]
  · rw [if_neg (by simpa using empty), argumentsOf, collected_singleton]
    simp [fragment, argumentsPart]

theorem proposalsOf_delta (delta id own name : String) :
    proposalsOf id (if delta.isEmpty then [] else [.toolCallDelta own name delta]) = [] :=
  proposalsOf_eq_nil (forall_sent rfl)

/-- Text is not about calls. -/
theorem unstreamed_event (member : event ∈ unstreamed position parts item) :
    ∃ entry ∈ parts, item.part entry.1 = none ∧ entry.2 ≠ "" ∧
      event = .outputTextDelta entry.2 (some (sourceOf item position entry.1.2)) := by
  obtain ⟨⟨key, text⟩, isPart, made⟩ := mem_filterMap.mp member
  dsimp only at made
  split at made
  next sent =>
    simp only [Bool.and_eq_true, isNone_iff_eq_none, Bool.not_eq_true',
      String.isEmpty_eq_false_iff] at sent
    exact ⟨(key, text), isPart, sent.1, sent.2, (Option.some.inj made).symm⟩
  next => cases made

/-- The parts of a snapshot stand at their indices, so at most one has a given index. -/
theorem textOf_unstreamed
    (indices : ∀ (index : Nat) (entry : PartKey × String), parts[index]? = some entry →
      entry.1.2 = index) :
    textOf (sourceOf item position index) (unstreamed position parts item) =
      match parts[index]? with
      | none => ""
      | some (key, text) => if item.part key = none then text else "" := by
  have single (entry : PartKey × String) :
      textOf (sourceOf item position index) (unstreamed position [entry] item) =
        if entry.1.2 = index ∧ item.part entry.1 = none then entry.2 else "" := by
    obtain ⟨⟨kind, own⟩, text⟩ := entry
    by_cases unsent : item.part (kind, own) = none
    · by_cases empty : text = ""
      · simp [unstreamed, unsent, empty, Fragments.collected]
      · simp [unstreamed, unsent, empty, Fragments.collected, fragment, textPart]
    · simp [unstreamed, unsent, Fragments.collected]
  induction parts using reverseRecOn with
  | nil => rfl
  | append_singleton parts entry ih =>
    have own : entry.1.2 = parts.length := indices _ _ getElem?_concat_length
    have before := ih fun place other isThere => indices place other
      ((getElem?_append_left (List.getElem?_eq_some_iff.mp isThere).1).trans isThere)
    have parted : unstreamed position (parts ++ [entry]) item =
        unstreamed position parts item ++ unstreamed position [entry] item := filterMap_append
    rw [parted, textOf_append, before, single, own]
    rcases Nat.lt_trichotomy index parts.length with earlier | rfl | later
    · rw [getElem?_append_left earlier, if_neg (by omega), String.append_empty]
    · simp
    · rw [getElem?_eq_none later.le, getElem?_eq_none (by rwa [length_append]), if_neg (by omega)]
      rfl

theorem part_cons {key other : PartKey} {text : String}
    (parts : item'.parts = (other, text) :: item.parts) :
    item'.part key = if key = other then some text else item.part key := by
  by_cases same : key = other
  · simp [Item.part, parts, same]
  · simp [Item.part, parts, same, lookup_cons, beq_eq_false_iff_ne.mpr same]

/-! #### One change -/

/-- What most changes leave alone. -/
structure SameItem (item item' : Item) : Prop where
  id : item'.id = item.id
  kind : item'.kind = item.kind
  callId : item'.callId = item.callId
  name : item'.name = item.name

theorem Change.same (change : Change host position item more item') : SameItem item item' := by
  cases change <;> exact ⟨rfl, rfl, rfl, rfl⟩

/-- A part of a message that has been streamed, or one of its snapshot. -/
def HasPart (item : Item) (index : Nat) : Prop :=
  match item.snapshot with
  | none => ∃ kind, (item.part (kind, index)).isSome
  | some snapshot => (contentText snapshot index).isSome

/-- An event about this call. -/
def AboutCall (id : String) (event : ChatModelEvent) : Prop :=
  (∃ text, argumentsPart event = some (id, text)) ∨ ∃ name, proposalOf event = some (id, name)

/-- What an event of a change can be: text for a part of the item, something about its call, or
neither. -/
inductive ItemEvent (position : Nat) (item item' : Item) : ChatModelEvent → Prop where
  | text {delta : String} {index : Nat} (message : item.kind = "message")
      (has : HasPart item' index) :
      ItemEvent position item item' (.outputTextDelta delta (some (sourceOf item position index)))
  | call {event : ChatModelEvent} {id : String} (callId : item.callId = some id)
      (about : ∀ other, AboutCall other event → other = id) (noText : textPart event = none)
      (notTerminal : event.isTerminal = false) : ItemEvent position item item' event
  | plain {event : ChatModelEvent} (plain : Plain event) : ItemEvent position item item' event

theorem itemEvent_delta {id name delta : String} (callId : item.callId = some id) :
    ∀ event ∈ (if delta.isEmpty then [] else [.toolCallDelta id name delta]),
      ItemEvent position item item' event := by
  refine forall_sent (.call callId ?_ rfl rfl)
  rintro other (⟨text, found⟩ | ⟨_, found⟩)
  · exact (Prod.mk.inj (Option.some.inj found)).1.symm
  · cases found

theorem itemEvent_proposal {id name : String} (callId : item.callId = some id)
    (input : ToolArgumentInput) :
    ItemEvent position item item' (proposalEvent host.argumentParser id name input none) := by
  refine .call callId ?_ (textPart_proposalEvent ..) (isTerminal_proposalEvent ..)
  rintro other (⟨text, found⟩ | ⟨_, found⟩)
  · rw [argumentsPart_proposalEvent] at found
    cases found
  · rw [proposalOf_proposalEvent] at found
    exact (Prod.mk.inj (Option.some.inj found)).1.symm

section

variable (change : Change host position item more item') (isOpen : item.snapshot = none)
include change isOpen

theorem Change.event {event : ChatModelEvent}
    (member : event ∈ more) : ItemEvent position item item' event := by
  cases change with
  | @text kind contentIndex delta finished message =>
    refine forall_sent (.text message ?_) event member
    simp only [isOpen]
    refine ⟨kind, ?_⟩
    rw [part_cons rfl, if_pos rfl]
    rfl
  | reasoning reasoning => cases member
  | record => cases member
  | arguments callId called => exact itemEvent_delta callId event member
  | closeCall call own callId called readsId readsName readsArguments =>
    rcases mem_append.mp member with delta | proposal
    · exact itemEvent_delta callId event delta
    · exact forall_sent (itemEvent_proposal callId _) event proposal
  | closeMessage message own reads indices agrees covers =>
    obtain ⟨entry, isPart, _, _, rfl⟩ := unstreamed_event member
    refine .text message ?_
    obtain ⟨place, isThere⟩ := mem_iff_getElem?.mp isPart
    simp [HasPart, reads, indices place entry isThere, isThere]
  | closeOther other noCall own plain => exact .plain (plain event member)

theorem Change.notTerminal : ∀ event ∈ more, event.isTerminal = false := by
  intro event member
  cases change.event isOpen member with
  | text message has => rfl
  | call callId about noText notTerminal => exact notTerminal
  | plain plain => exact plain.notTerminal

/-- Arguments and proposals are for the call of the item. -/
theorem Change.calls {event : ChatModelEvent}
    (member : event ∈ more) {id : String} (about : AboutCall id event) : item.callId = some id := by
  cases change.event isOpen member with
  | text message has => simp [AboutCall, argumentsPart, proposalOf] at about
  | call callId only noText notTerminal => rw [callId, only id about]
  | plain plain => simp [AboutCall, plain.noArguments, plain.noProposal] at about

/-- Text is for a part of the item. -/
theorem Change.texts {text : String} (member : .outputTextDelta text source ∈ more) :
    item.kind = "message" ∧ ∃ index, source = some (sourceOf item position index) ∧
      HasPart item' index := by
  cases change.event isOpen member with
  | @text _ index message has => exact ⟨message, index, rfl, has⟩
  | call callId about noText notTerminal => cases noText
  | plain plain => cases plain.noText

/-- A part stays, and a snapshot has the parts that were streamed. -/
theorem Change.hasPart (message : item.kind = "message") (has : HasPart item index) :
    HasPart item' index := by
  simp only [HasPart, isOpen] at has
  obtain ⟨kind, isPart⟩ := has
  cases change with
  | text message =>
    simp only [isOpen]
    refine ⟨kind, ?_⟩
    rw [part_cons rfl]
    split
    · rfl
    · exact isPart
  | reasoning reasoning => simp [message] at reasoning
  | record | arguments =>
    simp only [HasPart, isOpen]
    exact ⟨kind, isPart⟩
  | closeCall call own callId called readsId readsName readsArguments => simp [message] at call
  | closeMessage message own reads indices agrees covers =>
    obtain ⟨text, listed⟩ := covers _ isPart
    obtain ⟨place, isThere⟩ := mem_iff_getElem?.mp listed
    obtain rfl : index = place := indices place _ isThere
    simp [HasPart, reads, isThere]
  | closeOther other noCall own plain => exact absurd message other

end

/-- The item is closed by its snapshot. -/
theorem Streamed.closed (streamed : Streamed host events position item)
    (own : SnapshotOf item snapshot) (text : item.kind = "message" → ∀ index,
      textOf (sourceOf item position index) (events ++ more) = (contentText snapshot index).getD "")
    (call : item.kind = "function_call" → ∀ id name, item.callId = some id → item.name = some name →
      textMember snapshot "call_id" = some id ∧ textMember snapshot "name" = some name ∧
      ∃ arguments, textMember snapshot "arguments" = some arguments ∧
        argumentsOf id (events ++ more) = arguments ∧
        (isCutOff snapshot = false → proposalsOf id (events ++ more) =
          [proposalEvent host.argumentParser id name (.jsonText arguments) none])) :
    Streamed host (events ++ more) position { item with snapshot := some snapshot } where
  own other closed := by
    cases closed
    exact ⟨own.id, own.kind⟩
  called := streamed.called
  openText _ still := nomatch still
  closedText message other closed := by
    cases closed
    exact text message
  openCall still := nomatch still
  closedCall isCall other closed := by
    cases closed
    exact call isCall

variable (streamed : Streamed host events position item) (isOpen : item.snapshot = none)
include streamed isOpen

/-- The item of a change under the same identity, still open and with the same arguments. -/
theorem Streamed.opened (same : SameItem item item') (stillOpen : item'.snapshot = none)
    (text : item.kind = "message" → ∀ kind index,
      (∀ other, other ≠ kind → item'.part (other, index) = none) →
      textOf (sourceOf item' position index) (events ++ more) = (item'.part (kind, index)).getD "")
    (arguments : ∀ id, item.callId = some id →
      item.arguments ++ argumentsOf id more = item'.arguments ∧ proposalsOf id more = []) :
    Streamed host (events ++ more) position item' where
  own := by
    rw [stillOpen]
    nofun
  called := by
    rw [same.kind, same.callId, same.name]
    exact streamed.called
  openText message _ := by
    rw [same.kind] at message
    exact text message
  closedText _ := by
    rw [stillOpen]
    nofun
  openCall _ id callId := by
    rw [same.callId] at callId
    obtain ⟨before, none_yet⟩ := streamed.openCall isOpen id callId
    obtain ⟨extended, none_more⟩ := arguments id callId
    rw [argumentsOf_append, proposalsOf_append, before, extended, none_yet, none_more]
    exact ⟨rfl, rfl⟩
  closedCall _ := by
    rw [stillOpen]
    nofun

/-- No text is streamed for an index without parts. -/
theorem Streamed.noText (message : item.kind = "message")
    (none_there : ∀ kind, item.part (kind, index) = none) :
    textOf (sourceOf item position index) events = "" := by
  rw [streamed.openText message isOpen .outputText index fun other _ => none_there other,
    none_there, getD_none]

theorem Streamed.text (message : item.kind = "message") {kind : PartKind} {contentIndex : Nat}
    {delta : String} {finished : List PartKey} :
    Streamed host (events ++ if delta.isEmpty then []
        else [.outputTextDelta delta (some (sourceOf item position contentIndex))]) position
      { item with
        parts := ((kind, contentIndex), (item.part (kind, contentIndex)).getD "" ++ delta) ::
          item.parts
        finishedParts := finished } := by
  refine streamed.opened isOpen ⟨rfl, rfl, rfl, rfl⟩ isOpen ?_ ?_
  · intro _ other index alone
    have parts {key : PartKey} := @part_cons item { item with
        parts := ((kind, contentIndex), (item.part (kind, contentIndex)).getD "" ++ delta) ::
          item.parts
        finishedParts := finished } key (kind, contentIndex) _ rfl
    simp only [parts] at alone ⊢
    rw [textOf_append, textOf_delta]
    by_cases here : index = contentIndex
    · subst here
      -- The part that grows is the only one at its index.
      obtain rfl : kind = other := by
        by_contra different
        simpa using alone kind different
      have before := streamed.openText message isOpen kind index fun third different => by
        simpa [different] using alone third different
      simp [before]
    · have before := streamed.openText message isOpen other index fun third different => by
        simpa [here] using alone third different
      have elsewhere : sourceOf item position contentIndex ≠ sourceOf item position index := by
        simpa using fun same => here same.symm
      simp [before, here, elsewhere]
  · intro id callId
    rw [arguments_plain (forall_sent rfl), String.append_empty]
    exact ⟨rfl, proposalsOf_eq_nil (forall_sent rfl)⟩

theorem Streamed.arguments {id name delta : String} {done : Bool}
    (callId : item.callId = some id) :
    Streamed host (events ++ if delta.isEmpty then [] else [.toolCallDelta id name delta]) position
      { item with
        arguments := item.arguments ++ delta
        argumentsDone := done } := by
  refine streamed.opened isOpen ⟨rfl, rfl, rfl, rfl⟩ isOpen ?_ ?_
  · intro message kind index alone
    rw [textOf_append, text_plain (forall_sent rfl), String.append_empty]
    exact streamed.openText message isOpen kind index alone
  · intro other isOther
    obtain rfl : id = other := Option.some.inj (callId.symm.trans isOther)
    rw [argumentsOf_delta, if_pos rfl, proposalsOf_delta]
    exact ⟨rfl, rfl⟩

/-- Nothing is streamed when only the record of the parts changes. -/
theorem Streamed.recorded (same : SameItem item item')
    (stillOpen : item'.snapshot = none) (arguments : item'.arguments = item.arguments)
    (parts : item.kind = "message" → item'.parts = item.parts) :
    Streamed host (events ++ []) position item' := by
  refine streamed.opened isOpen same stillOpen ?_ ?_
  · intro message kind index alone
    have reads (key : PartKey) : item'.part key = item.part key := by
      rw [Item.part, Item.part, parts message]
    simp only [reads] at alone ⊢
    rw [append_nil, sourceOf, same.id]
    exact streamed.openText message isOpen kind index alone
  · intro id _
    exact ⟨(String.append_empty).trans arguments.symm, rfl⟩

theorem Streamed.callClosed {id name suffix : String}
    (call : item.kind = "function_call") (own : SnapshotOf item snapshot)
    (callId : item.callId = some id) (called : item.name = some name)
    (readsId : textMember snapshot "call_id" = some id)
    (readsName : textMember snapshot "name" = some name)
    (readsArguments : textMember snapshot "arguments" = some (item.arguments ++ suffix)) :
    Streamed host (events ++ ((if suffix.isEmpty then [] else [.toolCallDelta id name suffix]) ++
        if isCutOff snapshot then []
        else [proposalEvent host.argumentParser id name
          (.jsonText (item.arguments ++ suffix)) none]))
      position { item with snapshot := some snapshot } := by
  refine streamed.closed own (fun message => ?_) fun _ id' name' callId' called' => ?_
  · rw [message] at call
    simp at call
  · cases callId.symm.trans callId'
    cases called.symm.trans called'
    obtain ⟨before, none_yet⟩ := streamed.openCall isOpen id callId
    refine ⟨readsId, readsName, item.arguments ++ suffix, readsArguments, ?_, fun whole => ?_⟩
    · rw [argumentsOf_append, argumentsOf_append, argumentsOf_delta, if_pos rfl, before,
        arguments_plain (forall_sent (argumentsPart_proposalEvent ..)), String.append_empty]
    · rw [proposalsOf_append, proposalsOf_append, none_yet, proposalsOf_delta, nil_append,
        nil_append, whole, if_neg Bool.false_ne_true,
        proposalsOf_singleton (proposalOf_proposalEvent ..)]

theorem Streamed.messageClosed (message : item.kind = "message")
    (own : SnapshotOf item snapshot)
    (reads : ∀ index, contentText snapshot index = parts[index]?.map (·.2))
    (indices : ∀ (index : Nat) (entry : PartKey × String), parts[index]? = some entry →
      entry.1.2 = index)
    (agrees : ∀ entry ∈ parts, ∀ text, item.part entry.1 = some text → text = entry.2)
    (covers : ∀ key, (item.part key).isSome → ∃ text, (key, text) ∈ parts) :
    Streamed host (events ++ unstreamed position parts item) position
      { item with snapshot := some snapshot } := by
  refine streamed.closed own (fun _ index => ?_) fun call => ?_
  · have listed {kind : PartKind} (isPart : item.part (kind, index) ≠ none) :
        ∃ text, parts[index]? = some ((kind, index), text) := by
      obtain ⟨text, isListed⟩ := covers _ (isSome_iff_ne_none.mpr isPart)
      obtain ⟨place, isThere⟩ := mem_iff_getElem?.mp isListed
      obtain rfl : index = place := indices place _ isThere
      exact ⟨text, isThere⟩
    rw [textOf_append, textOf_unstreamed indices, reads]
    cases found : parts[index]? with
    | none =>
      have nothing : ∀ kind, item.part (kind, index) = none := by
        intro kind
        by_contra isPart
        obtain ⟨text, isThere⟩ := listed isPart
        rw [found] at isThere
        cases isThere
      rw [streamed.noText isOpen message nothing]
      rfl
    | some entry =>
      obtain ⟨⟨kind, place⟩, text⟩ := entry
      obtain rfl : place = index := indices index _ found
      have alone : ∀ other, other ≠ kind → item.part (other, place) = none := by
        intro other different
        by_contra isPart
        obtain ⟨more, isThere⟩ := listed isPart
        rw [found] at isThere
        simp only [Option.some.injEq, Prod.mk.injEq, and_true] at isThere
        exact different isThere.1.symm
      rw [streamed.openText message isOpen kind place alone]
      cases streamedText : item.part (kind, place) with
      | none => simp [streamedText]
      | some streamedText' =>
        have same := agrees _ (mem_of_getElem? found) streamedText' streamedText
        simp [same, streamedText]
  · rw [call] at message
    simp at message

/-- What was streamed for an item stays true of it through a change. -/
theorem Streamed.change (change : Change host position item more item') :
    Streamed host (events ++ more) position item' := by
  cases change with
  | text message => exact streamed.text isOpen message
  | reasoning reasoning =>
    refine streamed.recorded isOpen ⟨rfl, rfl, rfl, rfl⟩ isOpen rfl fun message => ?_
    simp [message] at reasoning
  | record => exact streamed.recorded isOpen ⟨rfl, rfl, rfl, rfl⟩ isOpen rfl fun _ => rfl
  | arguments callId called => exact streamed.arguments isOpen callId
  | closeCall call own callId called readsId readsName readsArguments =>
    exact streamed.callClosed isOpen call own callId called readsId readsName readsArguments
  | closeMessage message own reads indices agrees covers =>
    exact streamed.messageClosed isOpen message own reads indices agrees covers
  | closeOther other noCall own plain =>
    exact streamed.closed own (fun message => absurd message other) fun call => absurd call noCall

end Nomifun.Guarantees.ResponsesEvents
