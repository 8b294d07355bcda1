import Nomifun.Guarantees.ResponsesEffects

/-!
# Events of an OpenAI response

By induction over the native events of a stream every item has streamed what its state says, the
items and snapshots are those that the native events carry, and a completed event comes last, when
every item is closed.
-/
namespace Nomifun.Guarantees.ResponsesEvents
open Library Library.Json Library.Fragments Source.ChatModelBroker Responses EventProjections List
  Option Bool

variable {position : Nat} {item other : Item} {id : String}

/-! ### What the events of a stream look like -/

/-- The canonical events after some native events, with the items these added, the snapshots they
carried and whether one of them ended the response as completed. -/
structure Formed (host : DecoderHost) (added done : List (Nat × Value)) (complete : Bool)
    (events : List ChatModelEvent) (decoder : ResponsesDecoder) : Prop where
  drops : decoder.preserve = false
  admitted : ∀ item ∈ decoder.items, Admitted item.kind
  items : ∀ position item, decoder.items[position]? = some item → Streamed host events position item
  added : ∀ position value, (position, value) ∈ added → ∃ item,
    decoder.items[position]? = some item ∧ Announces value item
  done : ∀ position value, (position, value) ∈ done ↔ ∃ item,
    decoder.items[position]? = some item ∧ item.snapshot = some value
  /-- A call belongs to one item. -/
  owners : ∀ (i j : Nat) (first second : Item) id, decoder.items[i]? = some first →
    decoder.items[j]? = some second →
    first.callId = some id → second.callId = some id → i = j
  known : ∀ item ∈ decoder.items, ∀ id, item.callId = some id → id ∈ decoder.calls
  owned : ∀ id ∈ decoder.calls, ∃ item ∈ decoder.items,
    item.kind = "function_call" ∧ item.callId = some id
  texts : ∀ text source, .outputTextDelta text source ∈ events → ∃ position item index,
    decoder.items[position]? = some item ∧ item.kind = "message" ∧
      source = some (sourceOf item position index) ∧ HasPart item index
  calls : ∀ event ∈ events, ∀ id, AboutCall id event → id ∈ decoder.calls
  cutOff : ∀ item ∈ decoder.items, ∀ snapshot, item.snapshot = some snapshot →
    isCutOff snapshot = true → decoder.incompleteItem = true
  ended : decoder.terminal = true →
    (∃ before reason, events = before ++ [.completed reason] ∧
      ∀ event ∈ before, event.isTerminal = false) ∧
    (∀ item ∈ decoder.items, item.snapshot.isSome) ∧
    (complete = true → decoder.incompleteItem = false)
  unended : decoder.terminal = false → complete = false ∧ ∀ event ∈ events, event.isTerminal = false

section

variable {host : DecoderHost} {added done : List (Nat × Value)} {complete : Bool}
  {events more : List ChatModelEvent} {decoder after : ResponsesDecoder} {items : List Item}
  {item' : Item}

theorem formed_new : Formed host [] [] false [] (new false) where
  drops := rfl
  admitted := nofun
  items := nofun
  added := nofun
  done position value := by simp [new]
  owners := nofun
  known := nofun
  owned := nofun
  texts := nofun
  calls := nofun
  cutOff := nofun
  ended := nofun
  unended _ := ⟨rfl, nofun⟩

theorem textOf_foreign (foreign : ∀ text, .outputTextDelta text (some source) ∉ more) :
    textOf source more = "" := by
  refine collected_eq_empty fun event member text found => ?_
  cases event with
  | outputTextDelta other own =>
    obtain ⟨rfl, rfl⟩ := Prod.mk.inj (Option.some.inj found)
    exact foreign other member
  | _ => cases found

theorem calls_foreign (foreign : ∀ event ∈ more, ¬ AboutCall id event) :
    argumentsOf id more = "" ∧ proposalsOf id more = [] := by
  constructor
  · exact collected_eq_empty fun event member text found =>
      foreign event member (.inl ⟨text, found⟩)
  · refine filter_eq_nil_iff.mpr fun event member isProposal => ?_
    cases found : proposalOf event with
    | none => simp [found] at isProposal
    | some proposal =>
      obtain ⟨own, name⟩ := proposal
      obtain rfl : own = id := by simpa [found] using isProposal
      exact foreign event member (.inr ⟨name, found⟩)

theorem SameItem.announces (same : SameItem item item') (announced : Announces value item) :
    Announces value item' := by
  obtain ⟨id, kind, callId, -⟩ := same
  refine ⟨id ▸ announced.id, kind ▸ announced.kind, ?_⟩
  rw [kind, callId]
  exact announced.callId

theorem plain_aboutNone (plain : ∀ event ∈ more, Plain event) :
    ∀ event ∈ more, ¬ AboutCall id event := by
  rintro event member (⟨text, found⟩ | ⟨name, found⟩)
  · rw [(plain event member).noArguments] at found
    cases found
  · rw [(plain event member).noProposal] at found
    cases found

theorem not_ended (live : decoder.terminal = false) {result : Prop}
    (ended : decoder.terminal = true) : result := by
  rw [live] at ended
  cases ended

theorem plain_noText (plain : ∀ event ∈ more, Plain event) (text : String)
    (source : Option ChatOutputTextSource) : .outputTextDelta text source ∉ more := by
  intro member
  cases (plain _ member).noText

/-- What stands where after an item was added. -/
theorem getElem?_added (found : (items ++ [item])[position]? = some other) :
    items[position]? = some other ∨ position = items.length ∧ other = item := by
  rcases Nat.lt_trichotomy position items.length with earlier | rfl | beyond
  · rw [getElem?_append_left earlier] at found
    exact .inl found
  · rw [getElem?_append_right (Nat.le_refl _), Nat.sub_self] at found
    exact .inr ⟨rfl, (Option.some.inj found).symm⟩
  · rw [getElem?_eq_none (by simp; omega)] at found
    cases found

theorem getElem?_earlier (found : items[position]? = some other) :
    (items ++ [item])[position]? = some other := by
  obtain ⟨inside, _⟩ := List.getElem?_eq_some_iff.mp found
  rw [getElem?_append_left inside, found]

/-- What stands where after an item was replaced. -/
theorem getElem?_replaced (old : items[position]? = some item)
    (found : (items.set position item')[place]? = some other) :
    place = position ∧ other = item' ∨ place ≠ position ∧ items[place]? = some other := by
  by_cases here : place = position
  · subst here
    obtain ⟨inside, _⟩ := List.getElem?_eq_some_iff.mp old
    rw [getElem?_set_self inside] at found
    exact .inl ⟨rfl, (Option.some.inj found).symm⟩
  · rw [getElem?_set_ne (fun same => here same.symm)] at found
    exact .inr ⟨here, found⟩

theorem forall_replaced {holds : Item → Prop} (old : items[position]? = some item)
    (kept : ∀ other ∈ items, holds other) (new : holds item') :
    ∀ other ∈ items.set position item', holds other := by
  intro other member
  obtain ⟨place, found⟩ := mem_iff_getElem?.mp member
  rcases getElem?_replaced old found with ⟨_, rfl⟩ | ⟨_, earlier⟩
  · exact new
  · exact kept other (mem_of_getElem? earlier)

theorem forall_added {holds : Item → Prop} (kept : ∀ other ∈ items, holds other)
    (new : holds item) : ∀ other ∈ items ++ [item], holds other :=
  forall_mem_append.mpr ⟨kept, forall_mem_singleton.mpr new⟩

section

variable (formed : Formed host added done complete events decoder) {value : Value}
include formed

/-- Only these fields matter. -/
theorem Formed.relabel (preserve : after.preserve = decoder.preserve)
    (items : after.items = decoder.items) (calls : after.calls = decoder.calls)
    (terminal : after.terminal = decoder.terminal)
    (incompleteItem : after.incompleteItem = decoder.incompleteItem) :
    Formed host added done complete events after := by
  cases after
  subst preserve items calls terminal incompleteItem
  exact { formed with drops := formed.drops }

theorem Formed.calls_append {calls : List String} (kept : ∀ id ∈ decoder.calls, id ∈ calls)
    (new : ∀ event ∈ more, ∀ id, AboutCall id event → id ∈ calls) :
    ∀ event ∈ events ++ more, ∀ id, AboutCall id event → id ∈ calls :=
  forall_mem_append.mpr
    ⟨fun event earlier id about => kept id (formed.calls event earlier id about), new⟩

theorem Formed.unended_append (live : decoder.terminal = false)
    (notTerminal : ∀ event ∈ more, event.isTerminal = false) :
    complete = false ∧ ∀ event ∈ events ++ more, event.isTerminal = false :=
  (formed.unended live).imp_right fun none_yet => forall_mem_append.mpr ⟨none_yet, notTerminal⟩

/-- Events about no item. -/
theorem Formed.plain (plain : ∀ event ∈ more, Plain event) (position : Nat) (item : Item)
    (found : decoder.items[position]? = some item) : Streamed host (events ++ more) position item :=
  (formed.items position item found).append (fun _ => textOf_plain plain)
    fun _ _ => calls_foreign (plain_aboutNone plain)

theorem Formed.texts_plain (none_more : ∀ text source, .outputTextDelta text source ∉ more)
    (text : String) (source : Option ChatOutputTextSource)
    (member : .outputTextDelta text source ∈ events ++ more) :
    ∃ position item index, decoder.items[position]? = some item ∧ item.kind = "message" ∧
      source = some (sourceOf item position index) ∧ HasPart item index := by
  rcases mem_append.mp member with earlier | later
  · exact formed.texts text source earlier
  · exact absurd later (none_more text source)

/-! #### One effect -/

/-- A completed event is the last, and every item is closed. -/
theorem Formed.last {reason : ChatFinishReason} (completed : .completed reason ∈ events) :
    (∃ before, events = before ++ [.completed reason] ∧
      ∀ event ∈ before, event.isTerminal = false) ∧
    (∀ item ∈ decoder.items, item.snapshot.isSome) ∧
    (complete = true → decoder.incompleteItem = false) := by
  have terminal : decoder.terminal = true := by
    cases live : decoder.terminal with
    | true => rfl
    | false => cases (formed.unended live).2 _ completed
  obtain ⟨⟨before, final, all, noOther⟩, closed, whole⟩ := formed.ended terminal
  have same : final = reason := by
    rw [all, mem_append, mem_singleton] at completed
    rcases completed with earlier | last
    · cases noOther _ earlier
    · exact (ChatModelEvent.completed.inj last).symm
  exact ⟨⟨before, same ▸ all, noOther⟩, closed, whole⟩

/-- The item of a snapshot. -/
theorem Formed.closedItem (isDone : (position, snapshot) ∈ done) :
    ∃ item, decoder.items[position]? = some item ∧ item.snapshot = some snapshot ∧
      SnapshotOf item snapshot ∧ Streamed host events position item := by
  obtain ⟨item, found, closed⟩ := (formed.done position snapshot).mp isDone
  have streamed := formed.items position item found
  exact ⟨item, found, closed, streamed.own snapshot closed, streamed⟩

omit formed in
/-- The snapshot of a call has its id. -/
theorem Streamed.snapshot_callId (streamed : Streamed host events position item)
    (call : item.kind = "function_call") (closed : item.snapshot = some snapshot) :
    textMember snapshot "call_id" = item.callId := by
  obtain ⟨id, name, callId, called⟩ := streamed.called call
  obtain ⟨readsId, -⟩ := streamed.closedCall call snapshot closed id name callId called
  rw [readsId, callId]

/-- Nothing has been streamed for an item that is not yet there. -/
theorem Formed.text_ahead (item : Item) (index : Nat) : textOf
    (sourceOf item decoder.items.length index) events = "" := by
  refine textOf_foreign fun text member => ?_
  obtain ⟨position, other, place, found, _, same, _⟩ := formed.texts _ _ member
  obtain ⟨inside, _⟩ := List.getElem?_eq_some_iff.mp found
  simp only [Option.some.injEq, ChatOutputTextSource.mk.injEq] at same
  omega

variable (live : decoder.terminal = false)
include live

section

variable (keeps : Keeps decoder after)
include keeps

theorem Formed.quiet (items : after.items = decoder.items) (calls : after.calls = decoder.calls)
    (plain : ∀ event ∈ more, Plain event) :
    Formed host added done complete (events ++ more) after := by
  obtain ⟨preserve, terminal, incompleteItem⟩ := keeps
  cases after
  subst preserve terminal items calls
  exact { formed with
    items := formed.plain plain
    texts := formed.texts_plain (plain_noText plain)
    calls := formed.calls_append (fun _ member => member)
      fun event member _ about => absurd about (plain_aboutNone plain event member)
    cutOff item member snapshot isSnapshot cut :=
      incompleteItem (formed.cutOff item member snapshot isSnapshot cut)
    ended := not_ended live
    unended _ := formed.unended_append live fun event member => (plain event member).notTerminal }

/-- An item is added; the events about calls are about calls that were not known before. -/
theorem Formed.itemAdded (fresh : Fresh decoder.preserve value item)
    (items : after.items = decoder.items ++ [item]) (kept : ∀ id ∈ decoder.calls, id ∈ after.calls)
    (owned : ∀ id ∈ after.calls, id ∈ decoder.calls ∨
      item.kind = "function_call" ∧ item.callId = some id)
    (callId : ∀ id, item.callId = some id → id ∉ decoder.calls ∧ id ∈ after.calls)
    (own : Streamed host (events ++ more) decoder.items.length item)
    (about : ∀ event ∈ more, ∀ id, AboutCall id event → item.callId = some id)
    (noText : ∀ text source, .outputTextDelta text source ∉ more)
    (notTerminal : ∀ event ∈ more, event.isTerminal = false) :
    Formed host (added ++ [(decoder.items.length, value)]) done complete (events ++ more)
      after := by
  obtain ⟨preserve, terminal, incompleteItem⟩ := keeps
  cases after
  subst preserve terminal items
  exact { formed with
    admitted := forall_added formed.admitted (fresh.admitted formed.drops)
    items := by
      intro position other found
      rcases getElem?_added found with earlier | ⟨rfl, rfl⟩
      · refine (formed.items position other earlier).append
          (fun index => textOf_foreign fun text => noText text _) fun id owned => ?_
        refine calls_foreign fun event member isAbout => ?_
        -- The call of the new item is not one of an earlier item.
        have isKnown := formed.known other (mem_of_getElem? earlier) id owned
        exact (callId id (about event member id isAbout)).1 isKnown
      · exact own
    added := by
      intro position other member
      rcases mem_append.mp member with earlier | isNew
      · obtain ⟨item', found, same⟩ := formed.added position other earlier
        exact ⟨item', getElem?_earlier found, same⟩
      · cases mem_singleton.mp isNew
        exact ⟨item, by simp, fresh.announced⟩
    done := by
      intro position other
      rw [formed.done position other]
      constructor
      · rintro ⟨item', found, same⟩
        exact ⟨item', getElem?_earlier found, same⟩
      · rintro ⟨item', found, same⟩
        rcases getElem?_added found with earlier | ⟨_, rfl⟩
        · exact ⟨item', earlier, same⟩
        · rw [fresh.isOpen] at same
          cases same
    owners := by
      intro i j first second id isFirst isSecond hasFirst hasSecond
      rcases getElem?_added isFirst with earlier | ⟨atEnd, rfl⟩ <;>
        rcases getElem?_added isSecond with earlier' | ⟨atEnd', rfl⟩
      · exact formed.owners i j first second id earlier earlier' hasFirst hasSecond
      · exact absurd (formed.known first (mem_of_getElem? earlier) id hasFirst)
          (callId id hasSecond).1
      · exact absurd (formed.known second (mem_of_getElem? earlier') id hasSecond)
          (callId id hasFirst).1
      · rw [atEnd, atEnd']
    known := forall_added
      (fun other earlier id owned => kept id (formed.known other earlier id owned))
      fun id owned => (callId id owned).2
    owned := by
      intro id member
      rcases owned id member with earlier | isNew
      · obtain ⟨owner, listed, is⟩ := formed.owned id earlier
        exact ⟨owner, mem_append_left _ listed, is⟩
      · exact ⟨item, mem_append_right _ mem_cons_self, isNew⟩
    texts := by
      intro text source member
      obtain ⟨position, other, index, found, rest⟩ := formed.texts_plain noText text source member
      exact ⟨position, other, index, getElem?_earlier found, rest⟩
    calls := formed.calls_append kept
      fun event member id isAbout => (callId id (about event member id isAbout)).2
    cutOff := by
      refine forall_added (fun other earlier snapshot isSnapshot cut =>
        incompleteItem (formed.cutOff other earlier snapshot isSnapshot cut)) ?_
      rw [fresh.isOpen]
      nofun
    ended := not_ended live
    unended _ := formed.unended_append live notTerminal }

/-- An item without a call. -/
theorem Formed.plainAdded (fresh : Fresh decoder.preserve value item)
    (noCall : item.kind ≠ "function_call") (unnamed : item.callId = none)
    (items : after.items = decoder.items ++ [item]) (calls : after.calls = decoder.calls) :
    Formed host (added ++ [(decoder.items.length, value)]) done complete (events ++ []) after := by
  refine formed.itemAdded live keeps fresh items (fun id member => calls ▸ member)
    (fun id member => .inl (calls ▸ member)) ?_ ?_ (by simp) (by simp) (by simp)
  · rw [unnamed]
    simp
  · refine ⟨?_, fun call => absurd call noCall, fun _ _ kind index _ => ?_, ?_, ?_, fun call => ?_⟩
    · rw [fresh.isOpen]
      simp
    · rw [append_nil, formed.text_ahead, Item.part, fresh.noParts]
      rfl
    · rw [fresh.isOpen]
      simp
    · rw [unnamed]
      simp
    · exact absurd call noCall

/-- A function call, announced with the arguments it starts with. -/
theorem Formed.callAdded (fresh : Fresh decoder.preserve value item)
    (call : item.kind = "function_call") (callId : item.callId = some id)
    (called : item.name = some name) (new : id ∉ decoder.calls)
    (items : after.items = decoder.items ++ [item]) (calls : after.calls = id :: decoder.calls) :
    Formed host (added ++ [(decoder.items.length, value)]) done complete
      (events ++ [.toolCallDelta id name item.arguments]) after := by
  have silent : argumentsOf id events = "" ∧ proposalsOf id events = [] :=
    calls_foreign fun event member about => new (formed.calls event member id about)
  refine formed.itemAdded live keeps fresh items ?_ ?_ ?_ ?_ ?_ ?_ ?_
  · rw [calls]
    exact fun _ member => mem_cons_of_mem _ member
  · rw [calls]
    rintro other (_ | ⟨_, earlier⟩)
    · exact .inr ⟨call, callId⟩
    · exact .inl earlier
  · intro other isOther
    cases callId.symm.trans isOther
    rw [calls]
    exact ⟨new, mem_cons_self⟩
  · refine ⟨?_, fun _ => ⟨id, name, callId, called⟩, fun message => ?_, fun message => ?_,
      fun _ other isOther => ?_, fun _ snapshot closed => ?_⟩
    · rw [fresh.isOpen]
      nofun
    · simp [call] at message
    · simp [call] at message
    · cases callId.symm.trans isOther
      rw [argumentsOf_append, silent.1, proposalsOf_append, silent.2,
        argumentsOf, collected_singleton]
      exact ⟨fragment_of_part rfl, rfl⟩
    · rw [fresh.isOpen] at closed
      cases closed
  · intro event member other about
    rw [mem_singleton.mp member] at about
    rcases about with ⟨text, found⟩ | ⟨_, found⟩
    · cases found
      exact callId
    · cases found
  · intro text source member
    cases mem_singleton.mp member
  · intro event member
    rw [mem_singleton.mp member]
    rfl

theorem Formed.changed {item' : Item} (found : decoder.items[position]? = some item)
    (isOpen : item.snapshot = none) (change : Change host position item more item')
    (items : after.items = decoder.items.set position item') (calls : after.calls = decoder.calls)
    (cutOff : Admitted item.kind → ∀ snapshot, item'.snapshot = some snapshot → isCutOff snapshot =
      true → after.incompleteItem = true) :
    Formed host added (done ++ (item'.snapshot.map (position, ·)).toList) complete (events ++ more)
      after := by
  obtain ⟨preserve, terminal, incompleteItem⟩ := keeps
  cases after
  subst preserve terminal items calls
  have same := change.same
  have inside : position < decoder.items.length := (List.getElem?_eq_some_iff.mp found).1
  have isKnown : ∀ id, item.callId = some id → id ∈ decoder.calls :=
    formed.known item (mem_of_getElem? found)
  have here : (decoder.items.set position item')[position]? = some item' :=
    getElem?_set_self inside
  have elsewhere {place : Nat} (different : place ≠ position) :
      (decoder.items.set position item')[place]? = decoder.items[place]? :=
    getElem?_set_ne fun same => different same.symm
  -- The identity of a new item is that of an old one.
  have predecessor {place : Nat} {other : Item}
      (new : (decoder.items.set position item')[place]? = some other) :
      ∃ old, decoder.items[place]? = some old ∧ SameItem old other := by
    rcases getElem?_replaced found new with ⟨rfl, rfl⟩ | ⟨_, old⟩
    · exact ⟨item, found, same⟩
    · exact ⟨other, old, rfl, rfl, rfl, rfl⟩
  constructor
  · exact formed.drops
  · refine forall_replaced found formed.admitted ?_
    rw [same.kind]
    exact formed.admitted item (mem_of_getElem? found)
  · intro place other new
    rcases getElem?_replaced found new with ⟨rfl, rfl⟩ | ⟨different, old⟩
    · exact (formed.items place item found).change isOpen change
    · refine (formed.items place other old).append
        (fun index => textOf_foreign fun text member => ?_)
        fun id owned => calls_foreign fun event member about => ?_
      · obtain ⟨_, index', own, _⟩ := change.texts isOpen member
        simp only [Option.some.injEq, ChatOutputTextSource.mk.injEq] at own
        exact different own.2.1
      · exact different (formed.owners place position other item id old found owned
          (change.calls isOpen member about))
  · intro place value member
    obtain ⟨other, old, isId⟩ := formed.added place value member
    by_cases at_position : place = position
    · subst at_position
      cases found.symm.trans old
      exact ⟨item', here, same.announces isId⟩
    · exact ⟨other, (elsewhere at_position).trans old, isId⟩
  · intro place value
    rw [mem_append, formed.done place value]
    constructor
    · rintro (⟨other, old, closed⟩ | new)
      · have different : place ≠ position := by
          rintro rfl
          cases found.symm.trans old
          rw [isOpen] at closed
          cases closed
        exact ⟨other, (elsewhere different).trans old, closed⟩
      · obtain ⟨snapshot, closed, isPair⟩ := map_eq_some_iff.mp (mem_toList.mp new)
        cases isPair
        exact ⟨item', here, closed⟩
    · rintro ⟨other, new, closed⟩
      rcases getElem?_replaced found new with ⟨rfl, rfl⟩ | ⟨_, old⟩
      · exact .inr (by simp [closed])
      · exact .inl ⟨other, old, closed⟩
  · intro i j first second id isFirst isSecond hasFirst hasSecond
    obtain ⟨oldFirst, wasFirst, sameFirst⟩ := predecessor isFirst
    obtain ⟨oldSecond, wasSecond, sameSecond⟩ := predecessor isSecond
    exact formed.owners i j oldFirst oldSecond id wasFirst wasSecond
      (sameFirst.callId ▸ hasFirst) (sameSecond.callId ▸ hasSecond)
  · exact forall_replaced found formed.known fun id owned => isKnown id (same.callId ▸ owned)
  · intro id member
    obtain ⟨owner, listed, call, owns⟩ := formed.owned id member
    obtain ⟨place, old⟩ := mem_iff_getElem?.mp listed
    by_cases at_position : place = position
    · subst at_position
      cases found.symm.trans old
      exact ⟨item', mem_of_getElem? here, same.kind.trans call, same.callId.trans owns⟩
    · exact ⟨owner, mem_of_getElem? ((elsewhere at_position).trans old), call, owns⟩
  · intro text source member
    rcases mem_append.mp member with earlier | later
    · obtain ⟨place, other, index, old, message, own, has⟩ := formed.texts text source earlier
      by_cases at_position : place = position
      · subst at_position
        cases found.symm.trans old
        refine ⟨place, item', index, here, same.kind.trans message, ?_,
          change.hasPart isOpen message has⟩
        rw [own, sourceOf, sourceOf, same.id]
      · exact ⟨place, other, index, (elsewhere at_position).trans old, message, own, has⟩
    · obtain ⟨message, index, own, has⟩ := change.texts isOpen later
      refine ⟨position, item', index, here, same.kind.trans message, ?_, has⟩
      rw [own, sourceOf, sourceOf, same.id]
  · exact formed.calls_append (fun _ member => member)
      fun event member id about => isKnown id (change.calls isOpen member about)
  · exact forall_replaced found (fun other old snapshot closed cut =>
      incompleteItem (formed.cutOff other old snapshot closed cut))
      (cutOff (formed.admitted item (mem_of_getElem? found)))
  · exact not_ended live
  · exact fun _ => formed.unended_append live (change.notTerminal isOpen)

end

theorem Formed.finished (preserve : after.preserve = decoder.preserve)
    (items : after.items = decoder.items) (calls : after.calls = decoder.calls)
    (incompleteItem : after.incompleteItem = decoder.incompleteItem)
    (whole : ends = true → decoder.incompleteItem = false)
    (closed : ∀ item ∈ decoder.items, item.snapshot.isSome) (plain : ∀ event ∈ usage, Plain event)
    (terminal : after.terminal = true) :
    Formed host added done (complete || ends) (events ++ (usage ++ [.completed reason])) after := by
  cases after
  subst preserve items calls incompleteItem terminal
  obtain ⟨incomplete, none_yet⟩ := formed.unended live
  have aboutNone {id : String} : ∀ event ∈ usage ++ [.completed reason], ¬ AboutCall id event := by
    refine forall_mem_append.mpr ⟨plain_aboutNone plain, ?_⟩
    simp [AboutCall, argumentsPart, proposalOf]
  have noText (text : String) (source : Option ChatOutputTextSource) :
      .outputTextDelta text source ∉ usage ++ [.completed reason] := by
    intro member
    rcases mem_append.mp member with counted | last
    · exact plain_noText plain text source counted
    · cases mem_singleton.mp last
  refine { formed with
    items := fun position item found => (formed.items position item found).append
      (fun _ => textOf_foreign fun text => noText text _) fun _ _ => calls_foreign aboutNone
    texts := formed.texts_plain noText
    calls := formed.calls_append (fun _ member => member)
      fun event member _ about => absurd about (aboutNone event member)
    ended := fun _ => ⟨⟨events ++ usage, reason, by rw [append_assoc],
      forall_mem_append.mpr ⟨none_yet, fun event counted => (plain event counted).notTerminal⟩⟩,
      closed, ?_⟩
    unended := by simp }
  rw [incomplete]
  exact whole

end

/-! #### Runs -/

/-- The canonical events after these native events. -/
def FormedBy (host : DecoderHost) (calls : List (String × Value)) (events : List ChatModelEvent)
    (decoder : ResponsesDecoder) : Prop :=
  Formed host (calls.filterMap addedBy) (calls.filterMap doneBy) (calls.any endsCompleted) events
    decoder

variable {calls : List (String × Value)}

section

variable (formed : FormedBy host calls events decoder)
include formed

theorem FormedBy.native (ok : decodeNative host kind data decoder = .ok (more, after)) :
    FormedBy host (calls ++ [(kind, data)]) (events ++ more) after := by
  obtain ⟨live, budget, sequence, effect⟩ := decodeNative_effect formed.drops ok
  have formed : FormedBy host calls events
      { decoder with budget := budget, sequence := sequence } :=
    Formed.relabel formed rfl rfl rfl rfl rfl
  unfold FormedBy
  simp only [filterMap_append, filterMap_cons, any_append, any_cons, any_nil, Bool.or_false]
  generalize addedBy (kind, data) = isAdded at effect
  generalize doneBy (kind, data) = isDone at effect
  generalize endsCompleted (kind, data) = ends at effect
  cases effect with
  | quiet keeps items calls plain =>
    simpa using Formed.quiet formed live keeps items calls plain
  | add keeps fresh noCall unnamed items calls =>
    simpa using Formed.plainAdded formed live keeps fresh noCall unnamed items calls
  | addCall keeps fresh call callId called new items calls =>
    simpa using Formed.callAdded formed live keeps fresh call callId called new items calls
  | @change position item item' _ _ keeps found isOpen change items calls cutOff =>
    have changed := Formed.changed formed live keeps found isOpen change items calls cutOff
    cases closed : item'.snapshot <;> simpa [closed] using changed
  | finish preserve items calls incompleteItem whole closed plain terminal =>
    simpa using Formed.finished formed live preserve items calls incompleteItem whole closed plain
      terminal

/-- A native event that says nothing about items or the end. -/
theorem FormedBy.skip (noAdd : addedBy call = none) (noDone : doneBy call = none)
    (noEnd : endsCompleted call = false) : FormedBy host (calls ++ [call]) events decoder := by
  unfold FormedBy
  simp only [filterMap_append, filterMap_cons, filterMap_nil, any_append,
    any_cons, any_nil, Bool.or_false, noAdd, noDone, noEnd, append_nil]
  exact formed

/-- The native events of a complete response, of which each was read off without an error. -/
theorem FormedBy.script {script : List Call}
    (ok : script.foldlM (decodeCall host) ([], decoder) = .ok (more, after)) :
    FormedBy host (calls ++ script.filterMap Except.toOption) (events ++ more) after := by
  refine foldlM_history (fun seen state => FormedBy host
    (calls ++ seen.filterMap Except.toOption) (events ++ state.1) state.2)
    (fun seen state call next now stepped => ?_) (by simpa using formed) ok
  obtain ⟨⟨kind, data⟩, isCall, rest⟩ := bind_eq_ok.mp stepped
  obtain ⟨⟨new, later⟩, decoded, rest⟩ := bind_eq_ok.mp rest
  cases rest
  subst isCall
  simpa [Except.toOption] using now.native decoded

end

theorem frameCalls_single (single : ¬ isCompleteResponse frame = true) :
    frameCalls frame = [(frameKind frame, frame.data)] := if_neg single

/-- A frame of a stream that is not native says nothing about items. -/
theorem FormedBy.normalized (formed : FormedBy host calls events decoder)
    (other : isNativeFrame frame = false) :
    FormedBy host (calls ++ [(frameKind frame, frame.data)]) events decoder := by
  simp only [isNativeFrame, or_eq_false_iff, isSome_eq_false_iff, isNone_iff_eq_none] at other
  have noItem : itemOf frame.data = none := by
    simp [itemOf, other.2, bind_none]
  refine formed.skip ?_ ?_ ?_
  · simp [addedBy, noItem]
  · simp [doneBy, noItem, ite_self]
  · simp [endsCompleted, other.1.2, any_none]

/-- One frame. -/
theorem FormedBy.frame (formed : FormedBy host calls events decoder) {frame : ProviderWireFrame}
    {result : Option (List ChatModelEvent)}
    (ok : decode host frame decoder = .ok (result, after)) :
    FormedBy host (calls ++ frameCalls frame) (events ++ result.getD []) after := by
  have mode (native : Option Bool) : FormedBy host calls events { decoder with native := native } :=
    Formed.relabel formed rfl rfl rfl rfl rfl
  unfold decode at ok
  obtain ⟨_, ok⟩ := checked.mp ok
  split at ok
  next complete =>
    obtain ⟨⟨new, later⟩, decoded, rest⟩ := bind_eq_ok.mp ok
    cases rest
    obtain ⟨_, decoded⟩ := checked.mp decoded
    obtain ⟨status, isStatus, decoded⟩ := bind_eq_ok.mp decoded
    obtain ⟨_, decoded⟩ := checked.mp decoded
    have stands : frameCalls frame =
        (responseCalls status frame.data).filterMap Except.toOption := by
      rw [frameCalls, if_pos complete, string_ok isStatus, getD_some]
    rw [stands]
    exact formed.script decoded
  next single =>
    rw [frameCalls_single single]
    dsimp only at ok
    obtain ⟨unmixed, ok⟩ := checked.mp ok
    split at ok
    next leaves =>
      cases ok
      have other : isNativeFrame frame = false := by
        cases isMode : decoder.native with
        | none => simpa [isMode] using leaves
        | some native =>
          cases native with
          | true => simp [isMode] at leaves
          | false => simpa [isMode] using unmixed
      simpa using (mode _).normalized other
    next =>
    split at ok
    next sentinel =>
      split at ok
      · cases ok
        have isKind : frameKind frame = "done" := by
          simp [frameKind, isUnnamed, sentinel]
        rw [isKind]
        simpa using (mode _).skip (addedBy_other (by decide) _) (doneBy_other (by decide) _)
          (by simp [endsCompleted])
      · cases ok
    next =>
      obtain ⟨_, ok⟩ := checked.mp ok
      obtain ⟨⟨new, later⟩, decoded, rest⟩ := bind_eq_ok.mp ok
      cases rest
      exact (mode _).native decoded

theorem run_formed (accepted : run host false frames = .ok (events, decoder)) :
    FormedBy host (frames.flatMap frameCalls) events decoder := by
  refine foldlM_history (s := ([], new false))
    (fun seen state => FormedBy host (seen.flatMap frameCalls) state.1 state.2)
    (fun seen state frame next now stepped => ?_) formed_new accepted
  obtain ⟨⟨result, later⟩, decoded, rest⟩ := bind_eq_ok.mp stepped
  cases rest
  simpa using now.frame decoded

end

/-! ### The guarantee -/

/-- The events of every accepted stream with a completed event. Every added item is closed by a
snapshot with its id, its type and, if it is a call, its call id. The text streamed for a part of a
message is its text in the snapshot, and no text is streamed for anything else. The arguments
streamed for a call are those of its snapshot, and whatever is streamed or proposed for a call has
the id of such a snapshot. If the response ends as completed, then no snapshot is of an item that
was cut off, and each call has exactly one proposal, which is what the parser makes of these
arguments. The completed event is the last. -/
theorem responses_events_agree_with_snapshots (host : DecoderHost)
    (frames : List ProviderWireFrame) (events : List ChatModelEvent) (decoder : ResponsesDecoder)
    (reason : ChatFinishReason) (accepted : run host false frames = .ok (events, decoder))
    (completed : .completed reason ∈ events) :
    (∀ position item, (position, item) ∈ addedItems frames → ∃ snapshot,
      (position, snapshot) ∈ doneItems frames ∧
      textMember snapshot "id" = textMember item "id" ∧
      textMember snapshot "type" = textMember item "type" ∧
      (textMember item "type" = some "function_call" →
        textMember snapshot "call_id" = textMember item "call_id")) ∧
    (∀ position snapshot id, (position, snapshot) ∈ doneItems frames →
      textMember snapshot "type" = some "message" → textMember snapshot "id" = some id →
      ∀ index, textOf ⟨id, some position, index⟩ events = (contentText snapshot index).getD "") ∧
    (∀ text source, .outputTextDelta text source ∈ events → ∃ position snapshot id index,
      (position, snapshot) ∈ doneItems frames ∧ textMember snapshot "type" = some "message" ∧
      textMember snapshot "id" = some id ∧ source = some ⟨id, some position, index⟩ ∧
      (contentText snapshot index).isSome) ∧
    (∀ position snapshot, (position, snapshot) ∈ doneItems frames →
      textMember snapshot "type" = some "function_call" → ∃ id name arguments,
        textMember snapshot "call_id" = some id ∧ textMember snapshot "name" = some name ∧
        textMember snapshot "arguments" = some arguments ∧ argumentsOf id events = arguments ∧
        (endedCompleted frames = true → proposalsOf id events =
          [proposalEvent host.argumentParser id name (.jsonText arguments) none])) ∧
    (∀ event ∈ events, ∀ id, AboutCall id event → ∃ position snapshot,
      (position, snapshot) ∈ doneItems frames ∧ textMember snapshot "type" = some "function_call" ∧
      textMember snapshot "call_id" = some id) ∧
    (endedCompleted frames = true → ∀ position snapshot,
      (position, snapshot) ∈ doneItems frames → isCutOff snapshot = false) ∧
    (∃ before, events = before ++ [.completed reason] ∧
      ∀ event ∈ before, event.isTerminal = false) := by
  have formed : Formed host (addedItems frames) (doneItems frames) (endedCompleted frames) events
      decoder := run_formed accepted
  obtain ⟨last, closed, whole⟩ := formed.last completed
  have notCut (ends : endedCompleted frames = true) (position : Nat) (snapshot : Value)
      (isDone : (position, snapshot) ∈ doneItems frames) : isCutOff snapshot = false := by
    obtain ⟨item, found, isSnapshot, _⟩ := formed.closedItem isDone
    by_contra cut
    have incomplete := formed.cutOff item (mem_of_getElem? found) snapshot isSnapshot
      (not_eq_false _ ▸ cut)
    rw [whole ends] at incomplete
    cases incomplete
  refine ⟨?_, ?_, ?_, ?_, ?_, notCut, last⟩
  · intro position value isAdded
    obtain ⟨item, found, announced⟩ := formed.added position value isAdded
    obtain ⟨snapshot, isSnapshot⟩ :=
      isSome_iff_exists.mp (closed item (mem_of_getElem? found))
    have streamed := formed.items position item found
    have own := streamed.own snapshot isSnapshot
    refine ⟨snapshot, (formed.done position snapshot).mpr ⟨item, found, isSnapshot⟩,
      own.id.trans announced.id.symm, own.kind.trans announced.kind.symm, fun isCall => ?_⟩
    have call : item.kind = "function_call" := Option.some.inj (announced.kind.symm.trans isCall)
    rw [announced.callId call]
    exact streamed.snapshot_callId call isSnapshot
  · intro position snapshot id isDone isMessage isId index
    obtain ⟨item, found, isSnapshot, own, streamed⟩ := formed.closedItem isDone
    obtain rfl : item.id = id := Option.some.inj (own.id.symm.trans isId)
    exact streamed.closedText (Option.some.inj (own.kind.symm.trans isMessage)) snapshot isSnapshot
      index
  · intro text source member
    obtain ⟨position, item, index, found, message, isSource, has⟩ := formed.texts text source member
    obtain ⟨snapshot, isSnapshot⟩ :=
      isSome_iff_exists.mp (closed item (mem_of_getElem? found))
    have own := (formed.items position item found).own snapshot isSnapshot
    simp only [HasPart, isSnapshot] at has
    exact ⟨position, snapshot, item.id, index,
      (formed.done position snapshot).mpr ⟨item, found, isSnapshot⟩, by rw [own.kind, message],
      own.id, isSource, has⟩
  · intro position snapshot isDone isCall
    obtain ⟨item, found, isSnapshot, own, streamed⟩ := formed.closedItem isDone
    have call : item.kind = "function_call" := Option.some.inj (own.kind.symm.trans isCall)
    obtain ⟨id, name, callId, called⟩ := streamed.called call
    obtain ⟨readsId, readsName, arguments, readsArguments, collectedArguments, proposed⟩ :=
      streamed.closedCall call snapshot isSnapshot id name callId called
    exact ⟨id, name, arguments, readsId, readsName, readsArguments, collectedArguments,
      fun ends => proposed (notCut ends position snapshot isDone)⟩
  · intro event member id about
    obtain ⟨item, listed, call, callId⟩ := formed.owned id (formed.calls event member id about)
    obtain ⟨position, found⟩ := mem_iff_getElem?.mp listed
    obtain ⟨snapshot, isSnapshot⟩ := isSome_iff_exists.mp (closed item listed)
    have streamed := formed.items position item found
    exact ⟨position, snapshot, (formed.done position snapshot).mpr ⟨item, found, isSnapshot⟩,
      (streamed.own snapshot isSnapshot).kind.trans (congrArg some call),
      (streamed.snapshot_callId call isSnapshot).trans callId⟩

/-! A response with a message and a function call. -/

def responseHost : DecoderHost := ⟨fun _ => [], fun _ _ _ => none, fun _ => .ok (.object [])⟩

def toolResponse : List ProviderWireFrame :=
  let event := fun (kind : String) (members : List (String × Value)) =>
    ProviderWireFrame.mk kind (.object (members ++ [("type", .string kind)]))
  let message := Value.object [("content", .array [.object [("text", .string "hi"),
      ("type", .string "output_text")]]), ("id", .string "m"), ("role", .string "assistant"),
    ("status", .string "completed"), ("type", .string "message")]
  let call := Value.object [("arguments", .string "[]"), ("call_id", .string "c"),
    ("id", .string "f"), ("name", .string "n"), ("status", .string "completed"),
    ("type", .string "function_call")]
  [event "response.created" [("response", .object [("id", .string "r")])],
    event "response.output_item.added" [("item", .object [("content", .array []),
      ("id", .string "m"), ("role", .string "assistant"), ("type", .string "message")]),
      ("output_index", .nat 0)],
    event "response.output_text.delta" [("content_index", .nat 0), ("delta", .string "h"),
      ("item_id", .string "m"), ("output_index", .nat 0)],
    event "response.output_text.delta" [("content_index", .nat 0), ("delta", .string "i"),
      ("item_id", .string "m"), ("output_index", .nat 0)],
    event "response.output_item.done" [("item", message), ("output_index", .nat 0)],
    event "response.output_item.added" [("item", .object [("arguments", .string ""),
      ("call_id", .string "c"), ("id", .string "f"), ("name", .string "n"),
      ("type", .string "function_call")]), ("output_index", .nat 1)],
    event "response.output_item.done" [("item", call), ("output_index", .nat 1)],
    event "response.completed" [("response", .object [("id", .string "r"),
      ("output", .array [message, call]), ("status", .string "completed")])]]

theorem toolResponse_agrees_with_snapshots : ∃ events decoder,
    run responseHost false toolResponse = .ok (events, decoder) ∧
      .completed .toolCalls ∈ events ∧
      (∀ event ∈ events, ∀ id, AboutCall id event → id = "c") ∧
      ∃ before, events = before ++ [.completed .toolCalls] := by
  have ran : ((run responseHost false toolResponse).toOption.map fun result =>
      decide (.completed .toolCalls ∈ result.1)) = some true := by decide +kernel
  obtain ⟨⟨events, decoder⟩, accepted, member⟩ := map_eq_some_iff.mp ran
  have ok := toOption_eq_some.mp accepted
  have completed := of_decide_eq_true member
  obtain ⟨_, _, _, _, calls, _, before, all, _⟩ := responses_events_agree_with_snapshots
    responseHost toolResponse events decoder .toolCalls ok completed
  refine ⟨events, decoder, ok, completed, fun event member id about => ?_, before, all⟩
  obtain ⟨position, snapshot, isDone, call, callId⟩ := calls event member id about
  have single : ∀ entry ∈ doneItems toolResponse, textMember entry.2 "type" =
      some "function_call" → textMember entry.2 "call_id" = some "c" := by decide
  exact Option.some.inj (callId.symm.trans (single _ isDone call))

end Nomifun.Guarantees.ResponsesEvents
