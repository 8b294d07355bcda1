import Nomifun.Guarantees.ResponsesItems

/-!
# Effects of native events

`Effect` says what a native event can do to the decoder of an OpenAI response: nothing that matters,
add an item, change an open one or end the response. Every accepted native event has such an effect.
-/
namespace Nomifun.Guarantees.ResponsesEvents
open Library Library.Json Library.RustText Source.ChatModelBroker Responses List

/-! ### What a native event does -/

section

variable (host : DecoderHost) (before : ResponsesDecoder)

/-- Fields that most events leave alone. -/
structure Keeps (before after : ResponsesDecoder) : Prop where
  preserve : after.preserve = before.preserve
  terminal : after.terminal = before.terminal
  incompleteItem : before.incompleteItem = true → after.incompleteItem = true

/-- Kinds of items that every consumer admits. -/
def Admitted (kind : String) : Prop :=
  kind = "message" ∨ kind = "function_call" ∨ kind = "reasoning"

/-- The value announced the item. -/
structure Announces (value : Value) (item : Item) : Prop where
  id : textMember value "id" = some item.id
  kind : textMember value "type" = some item.kind
  callId : item.kind = "function_call" → textMember value "call_id" = item.callId

/-- An item that was just added. -/
structure Fresh (preserve : Bool) (value : Value) (item : Item) : Prop where
  admitted : preserve = false → Admitted item.kind
  announced : Announces value item
  isOpen : item.snapshot = none
  noParts : item.parts = []

/-- What may happen: the item that is added, the snapshot that is taken, whether the response ends
as completed, the events, and the decoder after it. -/
inductive Effect : Option (Nat × Value) → Option (Nat × Value) → Bool → List ChatModelEvent →
    ResponsesDecoder → Prop where
  | quiet {events : List ChatModelEvent} {after : ResponsesDecoder} (keeps : Keeps before after)
      (items : after.items = before.items) (calls : after.calls = before.calls)
      (plain : ∀ event ∈ events, Plain event) : Effect none none false events after
  | add {value : Value} {item : Item} {after : ResponsesDecoder} (keeps : Keeps before after)
      (fresh : Fresh before.preserve value item) (noCall : item.kind ≠ "function_call")
      (unnamed : item.callId = none)
      (items : after.items = before.items ++ [item]) (calls : after.calls = before.calls) :
      Effect (some (before.items.length, value)) none false [] after
  | addCall {value : Value} {item : Item} {id name : String} {after : ResponsesDecoder}
      (keeps : Keeps before after) (fresh : Fresh before.preserve value item)
      (call : item.kind = "function_call")
      (callId : item.callId = some id) (called : item.name = some name)
      (new : id ∉ before.calls) (items : after.items = before.items ++ [item])
      (calls : after.calls = id :: before.calls) :
      Effect (some (before.items.length, value)) none false
        [.toolCallDelta id name item.arguments] after
  | change {position : Nat} {item item' : Item} {events : List ChatModelEvent}
      {after : ResponsesDecoder} (keeps : Keeps before after)
      (found : before.items[position]? = some item) (isOpen : item.snapshot = none)
      (change : Change host position item events item')
      (items : after.items = before.items.set position item') (calls : after.calls = before.calls)
      (cutOff : Admitted item.kind → ∀ snapshot, item'.snapshot = some snapshot →
        isCutOff snapshot = true → after.incompleteItem = true) :
      Effect none (item'.snapshot.map (position, ·)) false events after
  | finish {complete : Bool} {usage : List ChatModelEvent} {reason : ChatFinishReason}
      {after : ResponsesDecoder} (preserve : after.preserve = before.preserve)
      (items : after.items = before.items) (calls : after.calls = before.calls)
      (incompleteItem : after.incompleteItem = before.incompleteItem)
      (whole : complete = true → before.incompleteItem = false)
      (closed : ∀ item ∈ before.items, item.snapshot.isSome)
      (plain : ∀ event ∈ usage, Plain event) (terminal : after.terminal = true) :
      Effect none none complete (usage ++ [.completed reason]) after

end

variable {host : DecoderHost} {decoder after : ResponsesDecoder} {data value : Value}
  {events : List ChatModelEvent} {position : Nat} {item : Item} {kind : String}

/-- A check that passed. -/
theorem checked [Decidable refused] :
    (if refused then invalid message else post) = .ok result ↔ ¬ refused ∧ post = .ok result :=
  last_guard_eq_ok

theorem string_ok (ok : Responses.string value key = .ok text) :
    textMember value key = some text := requireAs_ok ok

theorem identity_ok (ok : Responses.identity value key = .ok text) :
    textMember value key = some text := by
  simp only [Responses.identity, checked, bind_eq_ok] at ok
  obtain ⟨found, isFound, _, rest⟩ := ok
  exact Except.ok.inj rest ▸ string_ok isFound

theorem itemOf_ok (isItem : Responses.field data "item" = .ok value)
    (isPosition : Responses.index data "output_index" = .ok position) :
    itemOf data = some (position, value) := by
  simp [itemOf, requireField_ok isItem, requireAs_ok isPosition]

theorem openItem_ok (ok : openItem data decoder = .ok (position, item)) :
    Responses.index data "output_index" = .ok position ∧
      decoder.items[position]? = some item ∧ item.snapshot = none := by
  obtain ⟨place, isPlace, rest⟩ := bind_eq_ok.mp ok
  split at rest
  · cases rest
  next found isFound =>
    simp only [checked, bind_eq_ok] at rest
    obtain ⟨isOpen, id, _, _, _, _, _, _, rest⟩ := rest
    cases rest
    exact ⟨isPlace, isFound, by simpa using isOpen⟩

theorem toolDelta_ok (ok : item.toolDelta delta = .ok event) :
    ∃ id name, item.callId = some id ∧ item.name = some name ∧
      event = .toolCallDelta id name delta := by
  unfold Item.toolDelta at ok
  split at ok
  · cases ok
  · cases ok
  next id name callId called =>
    cases ok
    exact ⟨id, name, callId, called, rfl⟩

/-- A text that is the whole begins with what came before it. -/
theorem addition_done (ok : addition true before text contradiction = .ok rest) :
    text = before ++ rest := by
  simp only [addition, if_true] at ok
  split at ok
  · cases ok
  next stripped =>
    cases ok
    exact stripStart_eq_some stripped

/-- An open item is replaced by what it changed into. -/
theorem effect_setItem (found : decoder.items[position]? = some item)
    (isOpen : item.snapshot = none) (stillOpen : item'.snapshot = none)
    (change : Change host position item events item') :
    Effect host decoder none none false events (setItem position item' decoder) := by
  have effect := @Effect.change host decoder position item item' events
    (setItem position item' decoder) ⟨rfl, rfl, id⟩ found isOpen change rfl rfl
    (by simp [stillOpen])
  rwa [stillOpen] at effect

theorem argumentsEvent_effect (ok : argumentsEvent done data decoder = .ok (events, after)) :
    Effect host decoder none none false events after := by
  obtain ⟨⟨position, item⟩, isItem, rest⟩ := bind_eq_ok.mp ok
  obtain ⟨_, found, isOpen⟩ := openItem_ok isItem
  dsimp only at rest
  simp only [checked, bind_eq_ok] at rest
  obtain ⟨_, text, _, delta, _, _, rest⟩ := rest
  split at rest
  next empty =>
    cases rest
    obtain rfl : delta = "" := by simpa using empty
    refine effect_setItem found isOpen isOpen ?_
    rw [String.append_empty]
    exact .record
  next filled =>
    obtain ⟨event, isEvent, rest⟩ := bind_eq_ok.mp rest
    cases rest
    obtain ⟨id, name, callId, called, rfl⟩ := toolDelta_ok isEvent
    refine effect_setItem found isOpen isOpen ?_
    have change := @Change.arguments host position item id name delta done callId called
    rwa [if_neg filled] at change

theorem textEvent_effect (ok : textEvent part done data decoder = .ok (events, after)) :
    Effect host decoder none none false events after := by
  simp only [textEvent, bind_eq_ok] at ok
  obtain ⟨outputIndex, isIndex, ⟨position, item⟩, isItem, rest⟩ := ok
  obtain ⟨samePlace, found, isOpen⟩ := openItem_ok isItem
  obtain rfl : outputIndex = position := Except.ok.inj (isIndex.symm.trans samePlace)
  simp only [checked, bind_eq_ok] at rest
  obtain ⟨kind, partIndex, _, _, _, text, _, delta, _, rest⟩ := rest
  cases rest
  simp only [ne_eq, not_not] at kind
  cases reasoning : part.isReasoning with
  | true =>
    simp only [reasoning, if_true, Bool.true_or] at kind ⊢
    exact effect_setItem found isOpen isOpen (.reasoning kind)
  | false =>
    simp only [reasoning, Bool.false_eq_true, if_false, Bool.false_or] at kind ⊢
    exact effect_setItem found isOpen isOpen (.text kind)

theorem partEvent_effect
    (ok : partEvent summary reasoningPart done data decoder = .ok (events, after)) :
    Effect host decoder none none false events after := by
  obtain ⟨⟨position, item⟩, isItem, rest⟩ := bind_eq_ok.mp ok
  obtain ⟨_, found, isOpen⟩ := openItem_ok isItem
  dsimp only at rest
  simp only [checked, bind_eq_ok] at rest
  obtain ⟨partIndex, _, _, part, _, ⟨kind, text⟩, _, rest⟩ := rest
  split at rest <;>
    obtain ⟨_, rest⟩ := checked.mp rest <;>
    cases rest <;>
    exact effect_setItem found isOpen isOpen .record

theorem addItem_effect (ok : addItem data decoder = .ok (events, after)) :
    Effect host decoder (itemOf data) none false events after := by
  obtain ⟨excessive, isIndex, rest⟩ := bind_eq_ok.mp ok
  obtain ⟨fits, rest⟩ := checked.mp rest
  have place : Responses.index data "output_index" = .ok decoder.items.length := by
    split at isIndex
    · exact absurd (Except.ok.inj isIndex).symm fits
    · obtain ⟨index, found, rfl⟩ := map_eq_ok.mp isIndex
      simpa [found] using fits
  obtain ⟨value, isValue, rest⟩ := bind_eq_ok.mp rest
  obtain ⟨id, isId, rest⟩ := bind_eq_ok.mp rest
  obtain ⟨kind, isKind, rest⟩ := bind_eq_ok.mp rest
  obtain ⟨_, rest⟩ := checked.mp rest
  obtain ⟨hosted, rest⟩ := checked.mp rest
  rw [itemOf_ok isValue place]
  have fresh {arguments : String} {callId name : Option String}
      (isCall : kind = "function_call" → textMember value "call_id" = callId) :
      Fresh decoder.preserve value
        ⟨id, kind, callId, name, arguments, false, [], [], [], [], none⟩ := by
    refine ⟨fun drops => ?_, ⟨identity_ok isId, identity_ok isKind, isCall⟩, rfl, rfl⟩
    simp only [drops, Bool.and_eq_true, Bool.not_eq_true', Bool.or_eq_false_iff,
      decide_eq_false_iff_not, Bool.not_false, and_true, not_and, not_not] at hosted
    by_cases message : kind = "message"
    · exact .inl message
    · by_cases call : kind = "function_call"
      · exact .inr (.inl call)
      · exact .inr (.inr (hosted ⟨message, call⟩))
  dsimp only at rest
  split at rest
  next call =>
    simp only [addFunctionCall, checked, bind_eq_ok] at rest
    obtain ⟨callId, isCall, room, name, _, arguments, _, _, rest⟩ := rest
    cases rest
    refine @Effect.addCall host decoder value ⟨id, kind, some callId, some name, arguments, false,
      [], [], [], [], none⟩ callId name _ ⟨rfl, rfl, fun same => same⟩
      (fresh fun _ => identity_ok isCall) call rfl rfl ?_ rfl rfl
    exact fun member => room (by simp [member])
  next noCall =>
    have added : Effect host decoder (some (decoder.items.length, value)) none false []
        { decoder with items := decoder.items ++ [⟨id, kind, none, none, "", false, [], [], [], [],
          none⟩] } :=
      .add ⟨rfl, rfl, fun same => same⟩ (fresh fun call => absurd call noCall) noCall rfl rfl rfl
    split at rest
    · simp only [bind_eq_ok] at rest
      obtain ⟨role, _, content, _, rest⟩ := rest
      split at rest
      · cases rest
        exact added
      · cases rest
    · obtain ⟨_, rest⟩ := checked.mp rest
      cases rest
      exact added

/-! #### Snapshots -/

theorem cutOff_ok (ok : Responses.cutOff status message = .ok incomplete) :
    incomplete = (status = some "incomplete" || status = some "in_progress" : Bool) := by
  unfold Responses.cutOff at ok
  split at ok
  next completed =>
    cases ok
    simp [completed]
  next =>
    split at ok
    next cut =>
      cases ok
      exact cut.symm
    next => cases ok

theorem messageIncomplete_ok (ok : messageIncomplete value = .ok incomplete) :
    incomplete = isCutOff value := by
  simp only [messageIncomplete, checked, bind_eq_ok] at ok
  obtain ⟨role, _, _, status, isStatus, rest⟩ := ok
  rw [cutOff_ok rest, ← string_ok isStatus]
  rfl

theorem reasoningIncomplete_ok (ok : reasoningIncomplete value = .ok incomplete) :
    incomplete = isCutOff value := by
  unfold reasoningIncomplete at ok
  split at ok
  next found =>
    cases ok
    simp [isCutOff, found]
  next found =>
    cases ok
    simp [isCutOff, found, Value.asStr]
  next status _ found =>
    rw [cutOff_ok ok, isCutOff, found, Option.bind_some]

theorem partText_ok {kind : PartKind} (ok : partText part false = .ok (kind, text)) :
    partTextOf part = some text := by
  obtain ⟨name, isName, rest⟩ := bind_eq_ok.mp ok
  simp only [Bool.false_eq_true, if_false] at rest
  rw [partTextOf, string_ok isName]
  split at rest
  next is =>
    obtain ⟨found, isFound, rest⟩ := bind_eq_ok.mp rest
    cases rest
    rw [if_pos (by rw [is]), string_ok isFound]
  next isNot =>
    split at rest
    next is =>
      obtain ⟨found, isFound, rest⟩ := bind_eq_ok.mp rest
      cases rest
      rw [if_neg (by simpa using isNot), if_pos (by rw [is]), string_ok isFound]
    next => cases rest

/-- The parts of a message's snapshot: its texts, each at its index and as it was streamed. -/
theorem snapshotParts_ok {parts : List (PartKey × String)}
    (ok : snapshotParts false value item = .ok parts) :
    (∀ index, contentText value index = parts[index]?.map (·.2)) ∧
    (∀ (index : Nat) (entry : PartKey × String), parts[index]? = some entry →
      entry.1.2 = index) ∧
    ∀ entry ∈ parts, ∀ text, item.part entry.1 = some text → text = entry.2 := by
  simp only [snapshotParts, checked, bind_eq_ok] at ok
  obtain ⟨contents, isContents, _, rest⟩ := ok
  have related := mapM_eq_ok.mp rest
  have sameLength : contents.length = parts.length := by
    simpa using related.length_eq
  have reads : (value.member "content").bind Value.asArray = some contents :=
    requireAs_ok isContents
  -- What the loop makes of one part.
  have each (index : Nat) (entry : PartKey × String) (isEntry : parts[index]? = some entry) :
      ∃ part, contents[index]? = some part ∧ entry.1.2 = index ∧ partTextOf part = some entry.2 ∧
        ∀ text, item.part entry.1 = some text → text = entry.2 := by
    obtain ⟨inside, _⟩ := List.getElem?_eq_some_iff.mp isEntry
    obtain ⟨part, isPart⟩ : ∃ part, contents[index]? = some part :=
      ⟨_, getElem?_eq_getElem (show index < contents.length by omega)⟩
    have made := getElem?_of_forall₂ related (by rw [getElem?_zipIdx, isPart]; rfl) isEntry
    simp only [checked, bind_eq_ok] at made
    obtain ⟨⟨kind, text⟩, isText, agrees, made⟩ := made
    cases made
    refine ⟨part, isPart, Nat.zero_add index, partText_ok isText, fun other streamed => ?_⟩
    simp only [Nat.zero_add] at streamed agrees
    simpa [streamed] using agrees
  refine ⟨fun index => ?_, fun index entry isEntry => ?_, fun entry member => ?_⟩
  · rw [contentText, reads, Option.bind_some]
    cases isEntry : parts[index]? with
    | none =>
      have beyond : contents[index]? = none := by
        rw [List.getElem?_eq_none_iff] at isEntry ⊢
        omega
      rw [beyond]
      rfl
    | some entry =>
      obtain ⟨part, isPart, _, text, _⟩ := each index entry isEntry
      rw [isPart, Option.bind_some, text]
      rfl
  · obtain ⟨_, _, place, _, _⟩ := each index entry isEntry
    exact place
  · obtain ⟨index, isEntry⟩ := mem_iff_getElem?.mp member
    obtain ⟨_, _, _, _, agrees⟩ := each index entry isEntry
    exact agrees

theorem mismatch_ok (ok : mismatch value item = .ok false) :
    item.snapshot = none ∧ SnapshotOf item value := by
  unfold mismatch at ok
  split at ok
  · cases ok
  next isOpen =>
    obtain ⟨id, isId, rest⟩ := bind_eq_ok.mp ok
    split at rest
    · cases rest
    next same =>
      obtain ⟨kind, found, rest⟩ := map_eq_ok.mp rest
      simp only [decide_eq_false_iff_not, not_not] at rest same
      exact ⟨by simpa using isOpen, by rw [identity_ok isId, same], by rw [identity_ok found, rest]⟩

theorem finishFunctionCall_change (call : item.kind = "function_call") (own : SnapshotOf item value)
    (ok : finishFunctionCall host value item = .ok closed) :
    Change host position item closed.events { item with snapshot := some value } ∧
      closed.incomplete = isCutOff value := by
  simp only [finishFunctionCall, checked, bind_eq_ok] at ok
  obtain ⟨status, isStatus, incomplete, isIncomplete, callId, isCallId, differs, isSame, same,
      arguments, isArguments, _, suffix, isSuffix, deltas, isDeltas, rest⟩ := ok
  have cut : incomplete = isCutOff value := by
    rw [cutOff_ok isIncomplete, ← string_ok isStatus]
    rfl
  have whole : arguments = item.arguments ++ suffix := addition_done isSuffix
  -- The snapshot repeats the identity and the name of the call.
  obtain ⟨name, isName, sameId, sameName⟩ : ∃ name, Responses.identity value "name" = .ok name ∧
      item.callId = some callId ∧ item.name = some name := by
    split at isSame
    · exact absurd (Except.ok.inj isSame).symm same
    next sameId =>
      obtain ⟨name, found, rfl⟩ := map_eq_ok.mp isSame
      simp only [decide_not, Bool.not_eq_true', decide_eq_false_iff_not, not_not] at same sameId
      exact ⟨name, found, sameId.symm, same.symm⟩
  have sent : deltas = if suffix.isEmpty then [] else [.toolCallDelta callId name suffix] := by
    split at isDeltas
    next empty =>
      rw [if_pos empty]
      exact (Except.ok.inj isDeltas).symm
    next filled =>
      rw [if_neg filled]
      simp only [Item.toolDelta, sameId, sameName, Except.map, Except.ok.injEq] at isDeltas
      exact isDeltas.symm
  have change := @Change.closeCall host position item value callId name suffix call own sameId
    sameName (identity_ok isCallId) (identity_ok isName) (by rw [string_ok isArguments, whole])
  simp only [sameId, sameName] at rest
  split at rest
  next yes =>
    cases rest
    refine ⟨?_, yes.symm.trans cut⟩
    rwa [← cut, if_pos yes, append_nil, ← sent] at change
  next no =>
    cases rest
    refine ⟨?_, (Bool.eq_false_iff.mpr no).symm.trans cut⟩
    rwa [← cut, if_neg no, ← sent, ← whole] at change

theorem finishMessage_change (message : item.kind = "message") (own : SnapshotOf item value)
    (ok : finishMessage position value item = .ok closed) :
    Change host position item closed.events { item with snapshot := some value } ∧
      closed.incomplete = isCutOff value := by
  simp only [finishMessage, checked, bind_eq_ok] at ok
  obtain ⟨incomplete, isIncomplete, parts, isParts, nothingLost, rest⟩ := ok
  cases rest
  obtain ⟨reads, indices, agrees⟩ := snapshotParts_ok isParts
  refine ⟨.closeMessage message own reads indices agrees fun key isPart => ?_,
    messageIncomplete_ok isIncomplete⟩
  -- A streamed part that the snapshot lacks would have been an error.
  obtain ⟨text, isText⟩ := Option.isSome_iff_exists.mp isPart
  obtain ⟨newer, older, split, _⟩ := lookup_eq_some_iff.mp isText
  have streamed : key ∈ item.parts.map (·.1) := by simp [split]
  by_contra missing
  refine nothingLost (any_eq_true.mpr ⟨key, by simp [streamed], ?_⟩)
  simp only [decide_eq_true_eq, mem_map, not_exists, not_and]
  rintro ⟨other, text⟩ listed rfl
  exact missing ⟨text, listed⟩

theorem reasoningEvents_plain (ok : reasoningEvents host v summary item = .ok events) :
    ∀ event ∈ events, Plain event := by
  unfold reasoningEvents at ok
  dsimp only at ok
  split at ok
  next =>
    split at ok
    · cases ok
      nofun
    next =>
      split at ok
      · cases ok
      · cases ok
        intro event member
        rcases mem_append.mp member with delta | block
        · rw [mem_ite_nil_right] at delta
          rw [mem_singleton.mp delta.2]
          exact ⟨rfl, rfl, rfl, rfl⟩
        · rw [mem_singleton.mp block]
          exact ⟨rfl, rfl, rfl, rfl⟩
  next =>
    obtain ⟨encrypted, _, rest⟩ := bind_eq_ok.mp ok
    cases rest
    intro event member
    split at member
    · rw [mem_singleton.mp member]
      exact ⟨rfl, rfl, rfl, rfl⟩
    · cases member

theorem finishReasoning_change (reasoning : item.kind = "reasoning") (own : SnapshotOf item value)
    (ok : finishReasoning host value item = .ok closed) :
    Change host position item closed.events { item with snapshot := some value } ∧
      closed.incomplete = isCutOff value := by
  simp only [finishReasoning, checked, bind_eq_ok] at ok
  obtain ⟨incomplete, isIncomplete, parts, _, raw, _, _, _, events, isEvents, rest⟩ := ok
  cases rest
  exact ⟨.closeOther (by simp [reasoning]) (by simp [reasoning]) own
    (reasoningEvents_plain isEvents), reasoningIncomplete_ok isIncomplete⟩

theorem finishItem_effect (drops : decoder.preserve = false)
    (ok : finishItem host data decoder = .ok (events, after)) :
    Effect host decoder none (itemOf data) false events after := by
  simp only [finishItem, bind_eq_ok] at ok
  obtain ⟨value, isValue, position, isPosition, rest⟩ := ok
  split at rest
  · cases rest
  next item found =>
  simp only [checked, bind_eq_ok] at rest
  obtain ⟨differs, isSame, same, closed, isClosed, rest⟩ := rest
  obtain ⟨isOpen, own⟩ := mismatch_ok (Bool.eq_false_iff.mpr same ▸ isSame)
  rw [itemOf_ok isValue isPosition]
  cases rest
  simp only [drops, Bool.false_eq_true, if_false, append_nil]
  obtain ⟨change, cut⟩ : Change host position item closed.events
      { item with snapshot := some value } ∧
      (Admitted item.kind → closed.incomplete = isCutOff value) := by
    unfold closing at isClosed
    split at isClosed
    next call => exact (finishFunctionCall_change call own isClosed).imp_right fun cut _ => cut
    next noCall =>
      split at isClosed
      next message => exact (finishMessage_change message own isClosed).imp_right fun cut _ => cut
      next noMessage =>
        split at isClosed
        next reasoning =>
          exact (finishReasoning_change reasoning own isClosed).imp_right fun cut _ => cut
        next noReasoning =>
          cases isClosed
          refine ⟨.closeOther noMessage noCall own (by simp), fun admitted => ?_⟩
          rcases admitted with message | call | reasoning
          · exact absurd message noMessage
          · exact absurd call noCall
          · exact absurd reasoning noReasoning
  refine @Effect.change host decoder position item { item with snapshot := some value }
    closed.events _ ⟨rfl, rfl, fun was => ?_⟩ found isOpen change rfl rfl ?_
  · simp [was]
  · intro admitted snapshot isSnapshot isCut
    cases isSnapshot
    simp [cut admitted, isCut]

theorem usageEvents_plain (ok : usageEvents response = .ok events) :
    ∀ event ∈ events, Plain event := by
  unfold usageEvents at ok
  split at ok
  · cases ok
    nofun
  next =>
    simp only [checked] at ok
    obtain ⟨_, _, ok⟩ := ok
    cases ok
    simp only [mem_singleton, forall_eq]
    exact ⟨rfl, rfl, rfl, rfl⟩

theorem finishResponse_effect {complete : Bool}
    (ok : finishResponse complete data decoder = .ok (events, after)) :
    (data.member "response").isSome ∧ Effect host decoder none none complete events after := by
  simp only [finishResponse, checked, bind_eq_ok] at ok
  obtain ⟨response, isResponse, _, _, whole, status, _, _, output, _, same, reason, _, usage,
      isUsage, rest⟩ := ok
  cases rest
  refine ⟨by rw [requireField_ok isResponse]; rfl, .finish rfl rfl rfl rfl (fun isComplete => ?_)
    (fun item member => ?_) (usageEvents_plain isUsage) rfl⟩
  · simpa [isComplete] using whole
  · simp only [Bool.or_eq_true, decide_eq_true_eq, Bool.not_eq_true', not_or, ne_eq, not_not,
      Bool.not_eq_false, all_eq_true] at same
    -- Every item is compared with the value at its position.
    obtain ⟨position, isThere⟩ := mem_iff_getElem?.mp member
    obtain ⟨inside, _⟩ := List.getElem?_eq_some_iff.mp isThere
    obtain ⟨value, isValue⟩ : ∃ value, output[position]? = some value :=
      ⟨_, getElem?_eq_getElem (show position < output.length by omega)⟩
    have paired : (value, item) ∈ output.zip decoder.items :=
      mem_of_getElem? (getElem?_zip_eq_some.mpr ⟨isValue, isThere⟩)
    have corroborated := same.2 (value, item) paired
    simp only [corroborates] at corroborated
    cases found : item.snapshot with
    | none => simp [found] at corroborated
    | some snapshot => rfl

/-! #### Native events -/

theorem addedBy_other (other : kind ≠ "response.output_item.added") (data : Value) :
    addedBy (kind, data) = none := if_neg other

theorem doneBy_other (other : kind ≠ "response.output_item.done") (data : Value) :
    doneBy (kind, data) = none := if_neg other

theorem lifecycle_effect {kind : String} (drops : decoder.preserve = false)
    (ok : lifecycle host kind data decoder = .ok (events, after)) :
    Effect host decoder (addedBy (kind, data)) (doneBy (kind, data))
        (decide (kind = "response.completed")) events after ∧
      (kind = "response.completed" → (data.member "response").isSome) := by
  -- An event of a kind that neither adds nor closes an item and does not end the response.
  have other (noAdd : kind ≠ "response.output_item.added")
      (noDone : kind ≠ "response.output_item.done") (noEnd : kind ≠ "response.completed")
      (effect : Effect host decoder none none false events after) :
      Effect host decoder (addedBy (kind, data)) (doneBy (kind, data))
          (decide (kind = "response.completed")) events after ∧
        (kind = "response.completed" → (data.member "response").isSome) := by
    rw [addedBy_other noAdd, doneBy_other noDone, decide_eq_false noEnd]
    exact ⟨effect, fun same => absurd same noEnd⟩
  unfold lifecycle at ok
  split at ok
  next progress =>
    simp only [bind_eq_ok] at ok
    obtain ⟨response, _, _, _, rest⟩ := ok
    cases rest
    simp only [Bool.or_eq_true, decide_eq_true_eq] at progress
    refine other ?_ ?_ ?_ (.quiet ⟨rfl, rfl, fun same => same⟩ rfl rfl (by simp)) <;>
      rcases progress with rfl | rfl <;> decide
  next =>
  split at ok
  next is =>
    subst is
    rw [doneBy_other (by decide)]
    exact ⟨addItem_effect ok, fun same => by simp at same⟩
  next noAdd =>
  split at ok
  next is =>
    subst is
    exact ⟨finishItem_effect drops ok, fun same => by simp at same⟩
  next noDone =>
  split at ok
  next is => exact other noAdd noDone (by rw [is]; decide) (argumentsEvent_effect ok)
  next =>
  split at ok
  next is => exact other noAdd noDone (by rw [is]; decide) (argumentsEvent_effect ok)
  next =>
  split at ok
  next is =>
    subst is
    obtain ⟨present, effect⟩ := @finishResponse_effect host decoder after data events true ok
    exact ⟨effect, fun _ => present⟩
  next noEnd =>
  split at ok
  next =>
    exact other noAdd noDone noEnd
      (@finishResponse_effect host decoder after data events false ok).2
  next =>
  split at ok
  next => exact other noAdd noDone noEnd (textEvent_effect ok)
  next =>
  split at ok
  next => exact other noAdd noDone noEnd (partEvent_effect ok)
  next =>
    cases ok
    exact other noAdd noDone noEnd (.quiet ⟨rfl, rfl, fun same => same⟩ rfl rfl (by simp))

/-- Only content events are given an item. -/
theorem withItemId_ok (ok : withItemId kind data decoder = .ok normalized) :
    normalized = data ∨ kind = "response.content_part.added" ∨ kind = "response.content_part.done" ∨
      kind = "response.content_part.delta" := by
  unfold withItemId at ok
  split at ok
  next content =>
    simp only [Bool.and_eq_true, Bool.or_eq_true, decide_eq_true_eq] at content
    exact .inr (or_assoc.mp content.1)
  next =>
    cases ok
    exact .inl rfl

theorem announcedKind_ok (ok : announcedKind data decoder = .ok kind) :
    kind = "response.output_text.delta" ∨ kind = "response.refusal.delta" ∨
      kind = "response.reasoning_text.delta" := by
  simp only [announcedKind, bind_eq_ok] at ok
  obtain ⟨item, _, index, _, rest⟩ := ok
  split at rest
  · cases rest
    exact .inl rfl
  · cases rest
    exact .inr (.inl rfl)
  · split at rest
    · cases rest
      exact .inr (.inr rfl)
    · cases rest
  · cases rest

/-- The native name of an event says the same about items and about the end. -/
theorem nativeKind_ok (ok : nativeKind kind data decoder = .ok (kind', data')) :
    addedBy (kind', data') = addedBy (kind, data) ∧ doneBy (kind', data') = doneBy (kind, data) ∧
      ((kind' = "response.completed" → (data'.member "response").isSome) →
        endsCompleted (kind, data) = decide (kind' = "response.completed")) := by
  obtain ⟨normalized, isNormalized, rest⟩ := bind_eq_ok.mp ok
  split at rest
  next is =>
    obtain ⟨announced, isAnnounced, rest⟩ := bind_eq_ok.mp rest
    cases rest
    rcases announcedKind_ok isAnnounced with rfl | rfl | rfl <;>
      simp [is, addedBy, doneBy, endsCompleted]
  next =>
  split at rest
  next is =>
    simp only [bind_eq_ok] at rest
    obtain ⟨response, isResponse, status, isStatus, terminal, isTerminal, output, _, rest⟩ := rest
    cases rest
    subst is
    have ends : endsCompleted ("response.done", data) = decide (status = "completed") := by
      simp [endsCompleted, requireField_ok isResponse, string_ok isStatus]
    rw [ends]
    split at isTerminal
    next completed =>
      cases isTerminal
      simp [addedBy, doneBy, completed]
    next notCompleted =>
      split at isTerminal
      · cases isTerminal
        simp [addedBy, doneBy, notCompleted]
      · cases isTerminal
  next notDone =>
    cases rest
    rcases withItemId_ok isNormalized with rfl | rfl | rfl | rfl
    · refine ⟨rfl, rfl, fun present => ?_⟩
      by_cases completed : kind = "response.completed"
      · obtain ⟨response, isResponse⟩ := Option.isSome_iff_exists.mp (present completed)
        simp [endsCompleted, isResponse, completed]
      · simp [endsCompleted, completed, notDone]
    · simp [addedBy, doneBy, endsCompleted]
    · simp [addedBy, doneBy, endsCompleted]
    · simp [addedBy, doneBy, endsCompleted]

theorem create_effect (ok : create data decoder = .ok (events, after)) :
    Effect host decoder none none false events after := by
  simp only [create, checked, bind_eq_ok] at ok
  obtain ⟨_, response, _, id, _, rest⟩ := ok
  cases rest
  refine .quiet ⟨rfl, rfl, fun same => same⟩ rfl rfl ?_
  simp only [mem_singleton, forall_eq]
  exact ⟨rfl, rfl, rfl, rfl⟩

/-- Every accepted native event has an effect, and none is accepted after the last. The budget and
the sequence are none of the fields that an effect looks at. -/
theorem decodeNative_effect (drops : decoder.preserve = false)
    (ok : decodeNative host kind data decoder = .ok (events, after)) :
    decoder.terminal = false ∧ ∃ budget sequence,
      Effect host { decoder with budget := budget, sequence := sequence } (addedBy (kind, data))
        (doneBy (kind, data)) (endsCompleted (kind, data)) events after := by
  simp only [decodeNative, checked, bind_eq_ok] at ok
  obtain ⟨budget, _, live, rest⟩ := ok
  split at rest
  · cases rest
  obtain ⟨sequence, _, rest⟩ := bind_eq_ok.mp rest
  refine ⟨Bool.eq_false_iff.mpr live, budget, sequence, ?_⟩
  split at rest
  next is =>
    have quiet : endsCompleted (kind, data) = false := by simp [endsCompleted, is]
    rw [addedBy_other (by rw [is]; decide), doneBy_other (by rw [is]; decide), quiet]
    exact create_effect rest
  next =>
  simp only [checked, bind_eq_ok] at rest
  obtain ⟨_, _, ⟨kind', data'⟩, isNative, rest⟩ := rest
  obtain ⟨effect, present⟩ := @lifecycle_effect host
    { decoder with budget := budget, sequence := sequence } after data' events kind' drops rest
  obtain ⟨sameAdded, sameDone, sameEnd⟩ := nativeKind_ok isNative
  rwa [← sameAdded, ← sameDone, sameEnd present]

end Nomifun.Guarantees.ResponsesEvents
