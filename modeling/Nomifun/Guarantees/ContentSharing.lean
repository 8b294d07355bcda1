import Nomifun.Guarantees.DeliveredInputs
import Nomifun.Guarantees.EffectLifecycle

/-!
# Shared content reads back

The store moves the bodies of tool calls and results out of an event, replaces delivered inputs by
references, and writes both kinds of references into an envelope. Reading the event at any later
time gives the value that was appended.
-/
namespace Nomifun.Guarantees.ContentSharing
open Library Library.Json Library.JsonPointer Library.MachineInt Library.Serde Source.AgentContracts
  Source.AgentSession Guarantees.TurnLifecycle Guarantees.EffectLifecycle List

variable {platform : Platform} {outer : Outer σ} {store after later : Store (Records σ)}
  {append : SessionEventAppend} {prepared : Prepared SessionPayloadRecord}
  {session : AgentSessionId} {facts : List Fact} {state : Factoring} {seq : Nat}

/-! ### The reference record -/

theorem kind_roundTrips (kind : SharedToolContentKind) :
    SharedToolContentKind.codec.RoundTrips kind :=
  unitVariants_roundTrips (by cases kind <;> rfl)

theorem reference_roundTrips {reference : SharedToolContentReference}
    (small : reference.byteLen ≤ u64Max) :
    SharedToolContentReference.codec.RoundTrips reference := by
  have size := unsigned_roundTrips small
  have digest := text_roundTrips reference.digest
  have kind := kind_roundTrips reference.kind
  have payloadId := text_roundTrips reference.payloadId
  have place := text_roundTrips reference.pointer
  have entries := structEntries_written SharedToolContentReference.spec (by decide) (by decide)
    (size.field "byte_len" (digest.field "digest"
      (kind.field "kind" (payloadId.field "payload_id"
        (place.field "pointer" .nil))))) (by simp [SharedToolContentReference.spec])
  exact bind_eq_ok.mpr ⟨_, entries, bind_eq_ok.mpr ⟨_, place, bind_eq_ok.mpr ⟨_, kind,
    bind_eq_ok.mpr ⟨_, payloadId, bind_eq_ok.mpr ⟨_, digest, bind_eq_ok.mpr ⟨_, size, rfl⟩⟩⟩⟩⟩⟩

theorem inputReference_roundTrips (small : reference.index ≤ u64Max) :
    InputReference.codec.RoundTrips reference := by
  have claim := text_roundTrips reference.claimEventId
  have fields := list_roundTrips fun name (_ : name ∈ reference.fields) => text_roundTrips name
  have index := unsigned_roundTrips small
  have input := text_roundTrips reference.inputEventId
  have entries := structEntries_written InputReference.spec (by decide) (by decide)
    (claim.field "claim_event_id" (fields.field "fields"
      (index.field "index"
        (input.field "input_event_id" .nil)))) (by simp [InputReference.spec])
  exact bind_eq_ok.mpr ⟨_, entries, bind_eq_ok.mpr ⟨_, index, bind_eq_ok.mpr ⟨_, claim,
    bind_eq_ok.mpr ⟨_, input, bind_eq_ok.mpr ⟨_, fields, rfl⟩⟩⟩⟩⟩

theorem metadata_roundTrips {references : List SharedToolContentReference}
    (small : ∀ reference ∈ references, reference.byteLen ≤ u64Max)
    (indices : ∀ source ∈ sources, source.index ≤ u64Max) :
    ContentReferences.codec.RoundTrips ⟨1, references, sources⟩ := by
  have version : (unsigned u8Max).RoundTrips 1 := unsigned_roundTrips (by decide)
  have bodies := list_roundTrips fun reference member =>
    reference_roundTrips (small reference member)
  have inputs := list_roundTrips fun source member =>
    inputReference_roundTrips (indices source member)
  cases sources with
  | nil =>
    have entries := structEntries_written ContentReferences.spec (by decide) (by decide)
      (bodies.field "references" (version.field "version" .nil))
      (by simp [ContentReferences.spec])
    exact bind_eq_ok.mpr ⟨_, entries, bind_eq_ok.mpr ⟨_, version, bind_eq_ok.mpr ⟨_, bodies,
      bind_eq_ok.mpr ⟨_, rfl, rfl⟩⟩⟩⟩
  | cons source sources =>
    have entries := structEntries_written ContentReferences.spec (by decide) (by decide)
      (.cons (declares_defaultedField inputs "input_sources")
        (bodies.field "references" (version.field "version" .nil)))
      (by simp [ContentReferences.spec])
    exact bind_eq_ok.mpr ⟨_, entries, bind_eq_ok.mpr ⟨_, version, bind_eq_ok.mpr ⟨_, bodies,
      bind_eq_ok.mpr ⟨_, inputs, rfl⟩⟩⟩⟩

/-! ### The envelope -/

/-- The value that an event carries, inline or in the payload stored with it. -/
def Carries (prepared : Prepared SessionPayloadRecord) (v : Value) : Prop :=
  prepared.payload = .inlineJson v ∨ ∃ id payload, prepared.payload = .stored id ∧
    prepared.envelope = some payload ∧ payloadBodyToValue payload.body = v

section

variable {kind : String} {v w : Value}

theorem sealEnvelope_ok (ok : sealEnvelope platform append state sources = .ok prepared) :
    ∃ entries, state.value = .object entries ∧ prepared.contents = state.contents ∧
      Carries prepared (.object (insertEntry sharedToolContentKey
        (ContentReferences.codec.encode ⟨1, state.references, sources⟩) entries)) := by
  simp only [sealEnvelope, bind_eq_ok, orInvalidPayload_ok] at ok
  obtain ⟨entries, isObject, bytes, canonical, ok⟩ := ok
  refine ⟨entries, ?_, ?_⟩
  · cases found : state.value with
    | object members => simpa [found, Value.asObject] using isObject
    | null | bool | number | string | array => simp [found, Value.asObject] at isObject
  · split at ok
    next =>
      cases ok
      exact ⟨rfl, .inl rfl⟩
    next =>
      cases ok
      exact ⟨rfl, .inr ⟨_, _, rfl, rfl, rfl⟩⟩

/-- The event is stored with the value that it carries. -/
theorem storedValue_of_carries (carries : Carries prepared v)
    (stored : insertPrepared platform outer store (preparedAppend append prepared) prepared =
      .ok after) (extends' : Extends after later) :
    storedValue platform outer later (recordFromAppend (preparedAppend append prepared) seq) =
      .ok v := by
  rcases carries with inline | ⟨id, payload, reference, enveloped, rfl⟩
  · simp only [storedValue, preparedAppend, inline]
    rfl
  · obtain ⟨supplied, found, valid, ordinary⟩ := (insertPrepared_ok stored).2.2 payload enveloped
    obtain ⟨bytes, logical, -, length, digest⟩ := validatePayloadContents_ok valid
    simp only [validateSuppliedPayload, invalidPayload, bind_eq_ok, guard_eq_ok, last_guard_eq_ok,
      orInvalidPayload_ok, referencedPayload, preparedAppend, reference,
        Option.some.injEq] at supplied
    obtain ⟨_, rfl, same, owned, -⟩ := supplied
    obtain rfl := not_not.mp same
    simp only [storedValue, recordFromAppend, preparedAppend, reference, invalidPayload, bind_eq_ok,
      guard_eq_ok, orInvalidPayload_ok]
    refine ⟨payload, extends'.payloads _ _ found, (), ?_, ?_, bytes, logical, ?_, rfl⟩
    · simp [validateDirectReference, ordinary]
    · exact fun other => owned (Ne.symm other)
    · simp [length, digest]

theorem slots_blank (listed : ∀ fact ∈ facts, fact.slot ∈ slots kind w)
    (named : ∀ fact ∈ facts, tokens fact.slot.1 = some fact.path) :
    slots kind (blank (facts.map (·.path)) w) = slots kind w := by
  induction facts generalizing w with
  | nil => rfl
  | cons fact facts ih =>
    rw [forall_mem_cons] at listed named
    obtain ⟨head, rest, known, -, same⟩ : ∃ head rest, tokens fact.slot.1 = some (head :: rest) ∧
      _ ∧ ∀ x, slots kind (JsonPointer.set x (head :: rest) w) = slots kind w := slot_path listed.1
    rw [named.1, Option.some.injEq] at known
    have emptied : slots kind (JsonPointer.set .null fact.path w) = slots kind w := by
      rw [known, same]
    have later : ∀ other ∈ facts, other.slot ∈ slots kind (JsonPointer.set .null fact.path w) := by
      rw [emptied]
      exact listed.2
    rw [map_cons, blank_cons, ih later named.2, emptied]

theorem blank_invariant (inv : Value → Prop)
    (keeps : ∀ path ∈ paths, ∀ w, inv w → inv (JsonPointer.set .null path w)) (start : inv w) :
    inv (blank paths w) := by
  induction paths generalizing w with
  | nil => exact start
  | cons path paths ih =>
    rw [forall_mem_cons] at keeps
    exact ih keeps.2 (keeps.1 w start)

namespace Factored

variable (factored : Factored platform session w (slots kind w) state facts)
include factored

theorem listed : ∀ fact ∈ facts, fact.slot ∈ slots kind w :=
  fun _ member => factored.chosen.subset (mem_map_of_mem member)

theorem slots_value : slots kind state.value = slots kind w := by
  rw [factored.value]
  exact slots_blank factored.listed fun fact member => (factored.each fact member).named

theorem apart : (facts.map (·.path)).Pairwise Apart := by
  have separate : (facts.map (·.slot)).Pairwise Separate :=
    (slots_separate kind w).sublist factored.chosen
  rw [pairwise_map] at separate ⊢
  refine separate.imp_of_mem fun {first second} one two ⟨p, q, left, right, apart⟩ => ?_
  rw [(factored.each first one).named, Option.some.injEq] at left
  rw [(factored.each second two).named, Option.some.injEq] at right
  rwa [left, right]

theorem member_value : state.value.member sharedToolContentKey = w.member sharedToolContentKey := by
  rw [factored.value]
  refine blank_invariant (fun v => v.member sharedToolContentKey = w.member sharedToolContentKey)
    (fun path member v same => ?_) rfl
  obtain ⟨fact, chosen, rfl⟩ := mem_map.mp member
  obtain ⟨head, rest, known, heads, -⟩ : ∃ head rest, tokens fact.slot.1 = some (head :: rest) ∧
    (head = "event" ∨ head = "output") ∧ _ := slot_path (factored.listed fact chosen)
  rw [(factored.each fact chosen).named, Option.some.injEq] at known
  rw [known, member_set_ne (by rcases heads with rfl | rfl <;> decide), same]

theorem kept (orderly : ordered w = true) (numbers : finite w = true) :
    ordered state.value = true ∧ finite state.value = true := by
  rw [factored.value]
  exact ⟨blank_invariant (ordered · = true) (fun _ _ _ before => ordered_set before rfl) orderly,
    blank_invariant (finite · = true) (fun _ _ _ before => finite_set before rfl) numbers⟩

end Factored

theorem InputsPrepared.member_value
    (prepared : InputsPrepared platform outer store append v w sources) :
    w.member sharedToolContentKey = v.member sharedToolContentKey := by
  cases prepared with
  | none => rfl
  | delivered => exact member_set_ne (by decide)

/-- Bodies are moved out of events only that deliver no inputs. -/
theorem InputsPrepared.eq_of_slots
    (prepared : InputsPrepared platform outer store append v w sources)
    (some : slots append.semanticEvent.kind w ≠ []) : w = v := by
  cases prepared with
  | none => rfl
  | delivered delivery =>
    exact absurd (delivery_slots (isDelivery_set.trans delivery)) some

theorem Shortened.index
    (shortened : Shortened platform outer store session operation entry (input, some reference)) :
    reference.index = entry.2 := by
  cases shortened
  rfl

theorem InputsPrepared.index_lt
    (prepared : InputsPrepared platform outer store append v w sources) :
    ∀ source ∈ sources, source.index < 16 := by
  intro source member
  cases prepared with
  | none => cases member
  | delivered delivery found few each =>
    obtain ⟨⟨input, reference⟩, listed, rfl⟩ := mem_filterMap.mp member
    obtain ⟨entry, indexed, shortened⟩ := exists_of_forall₂ each listed
    rw [shortened.index]
    have inside := (mem_zipIdx (x := entry.1) (i := entry.2) indexed).2.1
    omega

end

/-! ### The event reads back -/

section

variable {supplied : Option SessionPayloadRecord} {event : SessionEventRecord} {v w : Value}
  {bytes : List UInt8}

/-- What the store makes of an event that may share content: it leaves the event alone, or it moves
bodies and inputs out and writes the references into an envelope. -/
theorem prepareContent_ok (supported : sharesContent append.semanticEvent.kind = true)
    (carried : ownValue append supplied = some v)
    (ok : prepareContent platform outer store append supplied = .ok prepared) :
    v.member sharedToolContentKey = none ∧
      (prepared = ⟨append.semanticEvent.payload, supplied, []⟩ ∨
        ∃ w sources state facts, InputsPrepared platform outer store append v w sources ∧
          Factored platform append.agentSessionId w (slots append.semanticEvent.kind w) state
            facts ∧
          (state.references ≠ [] ∨ sources ≠ []) ∧
          sealEnvelope platform append state sources = .ok prepared) := by
  simp only [prepareContent, supported, carried, Bool.not_true] at ok
  obtain ⟨free, ok⟩ := last_guard_eq_ok.mp ok
  refine ⟨by simpa using free, ?_⟩
  simp only [bind_eq_ok] at ok
  obtain ⟨⟨w, sources⟩, delivers, state, factors, ok⟩ := ok
  split at ok
  next => exact .inl (Except.ok.inj ok).symm
  next shares =>
    obtain ⟨facts, factored⟩ := factorSlots_ok factors
    refine .inr ⟨w, sources, state, facts, prepareInputs_ok delivers, factored, ?_, ok⟩
    simp only [Bool.and_eq_true, List.isEmpty_iff, not_and_or] at shares
    exact shares

/-- The event as it was given carries its own value. -/
theorem carries_ownValue (carried : ownValue append supplied = some v) :
    Carries ⟨append.semanticEvent.payload, supplied, []⟩ v := by
  unfold ownValue at carried
  cases payload : append.semanticEvent.payload with
  | empty => simp [payload] at carried
  | inlineJson value =>
    simp only [payload, Option.some.injEq] at carried
    exact .inl (congrArg _ carried)
  | stored id =>
    cases supplied with
    | none => simp [payload] at carried
    | some record =>
      simp only [payload, Option.some.injEq] at carried
      exact .inr ⟨id, record, rfl, rfl, carried⟩

/-- Putting the bodies and then the inputs back into an envelope. -/
theorem expand_restores (delivers : InputsPrepared platform outer store append v w sources)
    (factored : Factored platform append.agentSessionId w (slots append.semanticEvent.kind w) state
      facts) (shares : state.references ≠ [] ∨ sources ≠ [])
    (isObject : state.value = .object entries) (free : v.member sharedToolContentKey = none)
    (orderly : ordered v = true) (numbers : finite v = true)
    (bounded : size platform.floatText v ≤ maxSinglePayloadBytes)
    (session : event.agentSessionId = append.agentSessionId)
    (operation : event.correlationId = append.semanticEvent.correlationId)
    (kind : event.kind = append.semanticEvent.kind) (extends' : Extends store later)
    (newest : ∀ known ∈ store.events, known.agentSessionId = event.agentSessionId →
      known.seq < event.seq)
    (short : ∀ fact ∈ facts, fact.bytes.length ≤ canonicalPayloadMaxBytes)
    (stored : ∀ fact ∈ facts,
      later.rest.payloads[(fact.record platform append.agentSessionId).payloadId]? =
        some (fact.record platform append.agentSessionId)) (m : Value) :
    expand platform outer later event (.object (insertEntry sharedToolContentKey m entries))
      ⟨1, state.references, sources⟩ = .ok v := by
  obtain ⟨orderlyW, numbersW⟩ := delivers.kept orderly numbers
  have unreserved : entries.lookup sharedToolContentKey = none := by
    have same := factored.member_value.trans delivers.member_value
    rwa [isObject, free] at same
  have allowed : slots event.kind (.object (insertEntry sharedToolContentKey m entries)) =
      slots append.semanticEvent.kind w := by
    rw [slots_insertEntry, ← isObject, kind, factored.slots_value]
  have stripped : Value.object ((insertEntry sharedToolContentKey m entries).filter
      (·.1 ≠ sharedToolContentKey)) = state.value := by
    rw [filter_insertEntry unreserved, isObject]
  obtain ⟨orderlyState, numbersState⟩ := factored.kept orderlyW numbersW
  obtain ⟨shortBytes, shortCanonical, shortLength⟩ :=
    canonicalBytes_ordered platform orderlyState numbersState
  obtain ⟨bytes, canonical, length⟩ := canonicalBytes_ordered platform orderly numbers
  rw [← session] at stored
  obtain ⟨seen, bodies⟩ : ∃ seen, state.references.foldlM
      (hydrateReference platform later event (slots append.semanticEvent.kind w))
      ⟨state.value, shortBytes.length, []⟩ = .ok ⟨w, size platform.floatText w, seen⟩ := by
    rw [shortLength, factored.references, factored.value, ← session]
    cases facts with
    | nil => exact ⟨[], rfl⟩
    | cons fact rest =>
      have same : w = v := delivers.eq_of_slots
        (ne_nil_of_mem (factored.listed fact mem_cons_self))
      exact hydrateReferences_restore orderlyW numbersW (same ▸ bounded) factored.each
        factored.apart factored.listed (by simp) short stored
  have few : state.references.length ≤ maxReferences := by
    rw [factored.references, length_map]
    exact factored.bounded
  simp only [expand, invalidPayload, guard_eq_ok, bind_eq_ok]
  refine ⟨?_, _, rfl, shortBytes, stripped ▸ shortCanonical, ⟨w, size platform.floatText w, seen⟩,
    ?_, v, ?_, bytes, canonical, ?_, rfl⟩
  · simpa [List.isEmpty_iff, few] using not_and_or.mpr shares
  · rw [allowed, stripped]
    exact bodies
  · exact delivers.restores orderly extends' session operation kind newest
  · rw [length]
    exact not_lt.mpr bounded

theorem Extends.trans (first : Extends store between) (second : Extends between later) :
    Extends store later where
  events := first.events.trans second.events
  payloads id payload found := second.payloads id payload (first.payloads id payload found)
  owners session owner owned := second.owners session owner (first.owners session owner owned)
  sessions session row live := by
    obtain ⟨row', live'⟩ := first.sessions session row live
    exact second.sessions session row' live'

theorem extends_of_grows (grows : Grows store after) : Extends store after where
  events := by rw [grows.same]
  payloads := grows.keeps
  owners session owner owned := by rwa [grows.same]
  sessions session row live := ⟨row, by rwa [grows.same]⟩

section

variable {seq : Nat} (supported : sharesContent append.semanticEvent.kind = true)
  (version : append.semanticEvent.kindVersion = 1)
  (carried : ownValue append supplied = some v) (orderly : ordered v = true)
  (canonical : canonicalJsonBytes platform v = .ok bytes)
  (bounded : bytes.length ≤ maxSinglePayloadBytes)
  (prepares : prepareContent platform outer store append supplied = .ok prepared)
  (stored : insertPrepared platform outer store (preparedAppend append prepared) prepared =
    .ok after)
  (newest : ∀ event ∈ store.events, event.agentSessionId = append.agentSessionId →
    event.seq < seq) (extends' : Extends after later)
include supported version carried orderly canonical bounded prepares stored newest extends'

/-- What the store makes of an event puts the given value together again. -/
theorem prepareContent_hydrates :
    ∃ raw, Carries prepared raw ∧
      hydrate platform outer later (recordFromAppend (preparedAppend append prepared) seq) raw =
        .ok v := by
  have numbers : finite v = true := finite_of_canonicalJsonBytes canonical
  obtain ⟨_, again, length⟩ := canonicalJsonBytes_ordered platform orderly numbers
  rw [canonical, Except.ok.injEq] at again
  rw [again, length] at bounded
  obtain ⟨grows, contents, -⟩ := insertPrepared_ok stored
  obtain ⟨free, rfl | ⟨w, sources, state, facts, delivers, factored, shares, sealed⟩⟩ :=
    prepareContent_ok supported carried prepares
  · refine ⟨v, carries_ownValue carried, ?_⟩
    rw [hydrate, free]
  · obtain ⟨entries, isObject, moved, carries⟩ := sealEnvelope_ok sealed
    refine ⟨_, carries, ?_⟩
    have kept : ∀ fact ∈ facts, fact.record platform append.agentSessionId ∈ prepared.contents := by
      intro fact member
      rw [moved, factored.contents]
      exact mem_map_of_mem member
    have short : ∀ fact ∈ facts, fact.bytes.length ≤ canonicalPayloadMaxBytes := by
      intro fact member
      obtain ⟨_, -, within, length, -⟩ := validatePayloadContents_ok
        (contents _ (kept fact member)).valid
      exact length.trans_le within
    have found : (Value.object (insertEntry sharedToolContentKey (ContentReferences.codec.encode
        ⟨1, state.references, sources⟩) entries)).member sharedToolContentKey =
          some (ContentReferences.codec.encode ⟨1, state.references, sources⟩) := by
      rw [Value.member, lookup_insertEntry, if_pos rfl]
    have decoded : fromValue ContentReferences.codec.decode
        (ContentReferences.codec.encode ⟨1, state.references, sources⟩) =
          .ok ⟨1, state.references, sources⟩ := by
      rw [fromValue, metadata_roundTrips]
      · rw [factored.references, forall_mem_map]
        exact fun fact member => (short fact member).trans (by decide)
      · exact fun source member => (delivers.index_lt source member).le.trans (by decide)
    have exactKind : (recordFromAppend (preparedAppend append prepared) seq).kind =
      append.semanticEvent.kind := rfl
    have exactVersion : (recordFromAppend (preparedAppend append prepared) seq).kindVersion = 1 :=
      version
    simp only [hydrate, found, exactKind, exactVersion, supported, decoded]
    exact expand_restores delivers factored shares isObject free orderly numbers bounded rfl rfl rfl
      ((extends_of_grows grows).trans extends') newest short
      (fun fact member => extends'.payloads _ _ (contents _ (kept fact member)).found) _

/-- An event of a sharing kind that the store took, with the payloads it made of it, reads back as
the value that was given, at that time and at any later one. The places of tool bodies are found
again, each gets its own body, and the inputs are those of the events that accepted them. -/
theorem shared_content_reads_back :
    ∃ raw,
      storedValue platform outer later (recordFromAppend (preparedAppend append prepared) seq) =
        .ok raw ∧
      hydrate platform outer later (recordFromAppend (preparedAppend append prepared) seq) raw =
        .ok v := by
  obtain ⟨raw, carries, hydrated⟩ := prepareContent_hydrates supported version carried orderly
    canonical bounded prepares stored newest extends'
  exact ⟨raw, storedValue_of_carries carries stored extends', hydrated⟩

end

/-- The number that an event of a session gets is above all numbers given before. -/
theorem newest_of_run (fresh : Fresh start session)
    (run : Relation.ReflTransGen (Step platform around session) start store)
    (found : store.sessions[session]? = some row) (next : row.nextSeq = some seq) :
    ∀ event ∈ store.events, event.agentSessionId = session → event.seq < seq := by
  have sound := run_sound fresh run
  have number : seq = (store.eventsOf session).length + 1 := by
    simpa [Store.view, found, next] using sound.nextSeq
  intro event member same
  have listed : event ∈ store.eventsOf session := mem_filter.mpr ⟨member, by simp [same]⟩
  have ranged : event.seq ∈ List.range' 1 (store.eventsOf session).length :=
    sound.numbered ▸ mem_map_of_mem listed
  rw [mem_range'_1] at ranged
  omega

/-- What is written after the payloads takes nothing away. -/
theorem committed_extends (grows : Grows store grown)
    (committed : Committed platform (canonical platform outer) now append prepared grown.rest value
      store after event) : Extends grown after := by
  obtain ⟨row, -, -, sessions⟩ := committed.written.session
  obtain ⟨owners, payloads, -⟩ := committed.records
  refine ⟨?_, fun id payload known => by rwa [payloads], fun session owner owned => ?_,
    fun session row live => ?_⟩
  · rw [committed.written.events, grows.same]
    exact prefix_append _ _
  · rw [owners]
    rwa [grows.same] at owned
  · rw [grows.same] at live
    simp only [Store.sessionRowById, sessions, StringMap.get_insert] at live ⊢
    by_cases own : append.agentSessionId = session
    · simp [own]
    · exact ⟨row, by simpa [own] using live⟩

theorem appends_extends (appends : Appends platform (canonical platform outer) store after) :
    Extends store after := by
  obtain ⟨_, _, _, _, _, ok⟩ := appends
  rcases appendEventWithPolicy_outcome ok with
    rfl | ⟨_, _, -, ⟨inserts, rfl⟩ | ⟨_, _, -, committed⟩⟩
  · exact ⟨prefix_rfl, fun _ _ => id, fun _ _ => id, fun _ row live => ⟨row, live⟩⟩
  · obtain ⟨grown, -, rfl, grows⟩ := insertPayloads_grows inserts
    have written := extends_of_grows grows
    exact ⟨prefix_rfl, written.payloads, written.owners, fun _ row live => ⟨row, live⟩⟩
  · obtain ⟨grown, -, rfl, grows⟩ := insertPayloads_grows committed.inserts
    exact (extends_of_grows grows).trans (committed_extends grows committed)

/-- In a store that appends have led to, the next event that shares content reads back as it was
given once its append is committed, then and after any further appends. -/
theorem committed_content_reads_back (fresh : Fresh start append.agentSessionId)
    (run : Relation.ReflTransGen (Step platform (canonical platform outer) append.agentSessionId)
      start store) (supported : sharesContent append.semanticEvent.kind = true)
    (version : append.semanticEvent.kindVersion = 1)
    (carried : ownValue append (suppliedPayload store append payload) = some v)
    (orderly : ordered v = true) (canonical' : canonicalJsonBytes platform v = .ok bytes)
    (bounded : bytes.length ≤ maxSinglePayloadBytes)
    (prepares : prepareAppend platform outer store append payload = .ok prepared)
    (committed : Committed platform (canonical platform outer) now (preparedAppend append prepared)
      prepared inserted value store after event)
    (further : Relation.ReflTransGen (Appends platform (canonical platform outer)) after later) :
    payloadValueForEvent platform outer later event = .ok v := by
  obtain ⟨grown, stored, rfl, grows⟩ := insertPayloads_grows committed.inserts
  obtain ⟨_, -, shared⟩ := bind_eq_ok.mp prepares
  obtain ⟨row, found, next, -⟩ := committed.written.session
  have extends' : Extends grown later := by
    induction further with
    | refl => exact committed_extends grows committed
    | tail _ appends ih => exact ih.trans (appends_extends appends)
  have newest := newest_of_run fresh run found next
  obtain ⟨raw, carries, hydrated⟩ := prepareContent_hydrates supported version carried orderly
    canonical' bounded shared stored newest extends'
  rw [committed.recorded]
  exact bind_eq_ok.mpr ⟨raw, storedValue_of_carries carries stored extends', hydrated⟩

end

/-! ### A tool result -/

def longOutput : Value := .array (List.replicate 205 .null)

def settledCall : Value :=
  .object [("output", .object [("call_id", .string "call"), ("output", longOutput)])]

def toolResult : SessionEventAppend :=
  ⟨sessionId, "1", "runtime", "1", ⟨"tool/result-recorded", 1, "turn", none,
    .inlineJson settledCall⟩⟩

theorem toolResult_shares :
    ((prepareContent host onLocalHost ledgerStart toolResult none).toOption.bind fun prepared =>
      (insertPrepared host onLocalHost ledgerStart (preparedAppend toolResult prepared)
        prepared).toOption.map fun _ => prepared.contents.length) = some 1 := by
  decide +kernel

theorem toolResult_reads_back : ∃ prepared after raw,
    prepareContent host onLocalHost ledgerStart toolResult none = .ok prepared ∧
    prepared.contents.length = 1 ∧
    storedValue host onLocalHost after (recordFromAppend (preparedAppend toolResult prepared) 1) =
      .ok raw ∧
    hydrate host onLocalHost after (recordFromAppend (preparedAppend toolResult prepared) 1) raw =
      .ok settledCall := by
  obtain ⟨prepared, prepares, rest⟩ := Option.bind_eq_some_iff.mp toolResult_shares
  obtain ⟨after, stored, moved⟩ := Option.map_eq_some_iff.mp rest
  obtain ⟨bytes, canonical, length⟩ := canonicalJsonBytes_ordered host
    (show ordered settledCall = true by decide) (show finite settledCall = true by decide)
  have unchanged : Extends after after :=
    ⟨prefix_refl _, fun _ _ found => found, fun _ _ owned => owned, fun _ row live => ⟨row, live⟩⟩
  have bounded : bytes.length ≤ maxSinglePayloadBytes := by
    rw [length]
    decide +kernel
  obtain ⟨raw, reads⟩ := shared_content_reads_back
    (show sharesContent toolResult.semanticEvent.kind = true by decide) rfl rfl (by decide)
      canonical
    bounded (toOption_eq_some.mp prepares) (toOption_eq_some.mp stored)
    (fun event member => absurd member not_mem_nil) unchanged
  exact ⟨prepared, after, raw, toOption_eq_some.mp prepares, moved, reads⟩

/-- The result in a session that runs. -/
def lateResult : SessionEventAppend := { toolResult with eventId := "8" }

theorem lateResult_commits :
    ((run appendLocally ledgerStart (uncertainEffect.take 4)).bind fun store =>
      (appendLocally store lateResult).map fun after =>
        decide (store.events.length < after.events.length)) = some true := by
  decide +kernel

theorem lateResult_reads_back : ∃ after event,
    payloadValueForEvent host onLocalHost after event = .ok settledCall := by
  obtain ⟨store, ran, rest⟩ := Option.bind_eq_some_iff.mp lateResult_commits
  obtain ⟨after, appended, grown⟩ := Option.map_eq_some_iff.mp rest
  simp only [appendLocally, Option.map_eq_some_iff, toOption_eq_some] at appended
  obtain ⟨⟨_, _⟩, ok, rfl⟩ := appended
  obtain ⟨bytes, canonical, length⟩ := canonicalJsonBytes_ordered host
    (show ordered settledCall = true by decide) (show finite settledCall = true by decide)
  rcases appendEventWithPolicy_outcome ok with
    rfl | ⟨_, _, prepares, ⟨-, rfl⟩ | ⟨_, event, -, committed⟩⟩
  · simp at grown
  · simp at grown
  · refine ⟨_, event, committed_content_reads_back
      ⟨created_fresh.row, created_fresh.head, rfl, rfl⟩
      ((appendLocally_reaches ran).lift id fun _ _ appends => .inl appends) rfl rfl rfl
      (by decide) canonical ?_ prepares committed .refl⟩
    rw [length]
    decide +kernel

end Nomifun.Guarantees.ContentSharing
