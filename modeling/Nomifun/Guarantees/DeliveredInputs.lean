import Nomifun.Guarantees.ContentSlots

/-!
# Inputs delivered to a turn

The inputs of a delivery are shortened to references to the events that accepted them. Events and
payloads are never changed, so the references find the same inputs at any later time.
-/
namespace Nomifun.Guarantees.ContentSharing
open Library Library.Json Library.JsonPointer Source.AgentContracts Source.AgentSession List

variable {platform : Platform} {event : SessionEventRecord} {value : Value}
  {session : AgentSessionId} {operation : String}

/-! ### Reading at a later time -/

/-- A store some time later: events and payloads were added, and no session has lost its row. -/
structure Extends {σ : Type} (store later : Store (Records σ)) : Prop where
  events : store.events <+: later.events
  payloads : ∀ (id : String) (payload : SessionPayloadRecord),
    store.rest.payloads[id]? = some payload → later.rest.payloads[id]? = some payload
  owners : ∀ (session : AgentSessionId) (owner : PrincipalRef),
    store.rest.owners[session]? = some owner → later.rest.owners[session]? = some owner
  sessions : ∀ (session : AgentSessionId) (row : SessionRow),
    store.sessionRowById session = .ok row → ∃ row', later.sessionRowById session = .ok row'

section

variable {store later : Store (Records σ)}

theorem orInvalidPayload_ok {value : Option α} {a : α} :
    orInvalidPayload value message = .ok a ↔ value = some a := by
  cases value <;> simp [orInvalidPayload, invalidPayload]

variable (extends' : Extends store later)
include extends'

theorem Extends.find (found : store.events.find? test = some event) :
    later.events.find? test = some event := by
  obtain ⟨more, grown⟩ := extends'.events
  rw [← grown, find?_append, found, Option.some_or]

theorem Extends.storedValue_ok (ok : storedValue platform outer store event = .ok value) :
    storedValue platform outer later event = .ok value := by
  unfold storedValue at ok ⊢
  cases payload : event.payload with
  | empty => simpa only [payload] using ok
  | inlineJson inline => simpa only [payload] using ok
  | stored id =>
    simp only [payload, bind_eq_ok, orInvalidPayload_ok] at ok ⊢
    obtain ⟨record, found, rest⟩ := ok
    exact ⟨record, extends'.payloads id record found, rest⟩

theorem Extends.plainValue_ok (ok : plainValue platform outer store event = .ok value) :
    plainValue platform outer later event = .ok value := by
  obtain ⟨raw, read, plain⟩ := bind_eq_ok.mp ok
  exact bind_eq_ok.mpr ⟨raw, extends'.storedValue_ok read, plain⟩

/-- An accepted input is found again, also from an event after the claim. -/
theorem Extends.originalInput_ok {seq : Nat}
    (newest : ∀ event ∈ store.events, event.agentSessionId = session → event.seq < seq)
    (ok : originalInput platform outer store session claimId operation none = .ok original) :
    originalInput platform outer later session claimId operation (some seq) = .ok original := by
  simp only [originalInput, bind_eq_ok, guard_eq_ok, invalidPayload, orInvalidPayload_ok] at ok ⊢
  obtain ⟨claim, claimed, exact', payload, read, target, id, named, source, found, accepted, _,
    row, ok⟩ := ok
  have same : claim.agentSessionId = session := by
    simp only [Bool.or_eq_true, decide_eq_true_eq, not_or, not_not] at exact'
    exact exact'.1.1.1.1.1
  refine ⟨claim, extends'.find claimed, ?_, payload, extends'.plainValue_ok read, target, id, named,
    source, extends'.find found, accepted, ?_⟩
  · have earlier := newest claim (mem_of_find?_eq_some claimed) same
    simpa [not_le.mpr earlier] using exact'
  · obtain ⟨row', stillRow⟩ := extends'.sessions session _ row
    refine ⟨row', stillRow, ?_⟩
    cases owned : store.rest.owners[session]? with
    | none => simp [owned] at ok
    | some owner =>
      simp only [owned, extends'.owners session owner owned, guard_eq_ok, bind_eq_ok] at ok ⊢
      obtain ⟨unified, value, plain, done⟩ := ok
      exact ⟨unified, value, extends'.plainValue_ok plain, done⟩

end

/-! ### Delivered inputs -/

/-- A delivered input and what was kept of it. -/
inductive Shortened {σ : Type} (platform : Platform) (outer : Outer σ) (store : Store (Records σ))
    (session : AgentSessionId) (operation : String) :
    Value × Nat → Value × Option InputReference → Prop
  | whole {input : Value} {index : Nat} : Shortened platform outer store session operation
      (input, index) (input, none)
  | referenced {object : List (String × Value)} {index : Nat} {receipt : String}
      {original : EventId × Value} {fields : List String} :
      originalInput platform outer store session receipt operation none = .ok original →
      (object.lookup "receipt_operation_id").bind Value.asStr = some receipt →
      (object.lookup "message_id").bind Value.asStr = some original.1 →
      fields.Sublist deliveredFieldNames → "text" ∈ fields →
      (∀ name ∈ fields, ∃ value, object.lookup name = some value ∧
        inputField original.2 name = .ok value) →
      Shortened platform outer store session operation (.object object, index)
        (.object (object.filter fun entry => entry.1 ∉ fields),
          some ⟨index, receipt, original.1, fields⟩)

variable {σ : Type} {outer : Outer σ} {store later : Store (Records σ)}
  {append : SessionEventAppend} {object : List (String × Value)} {fields : List String}

theorem repeatedFields_ok (ok : repeatedFields original object = .ok fields) :
    fields.Sublist deliveredFieldNames ∧ ∀ name ∈ fields, ∃ value,
      object.lookup name = some value ∧ inputField original name = .ok value := by
  refine foldlM_history (fun seen fields => fields.Sublist seen ∧ ∀ name ∈ fields, ∃ value,
      object.lookup name = some value ∧ inputField original name = .ok value)
    (fun seen fields name next before stepped => ?_) ⟨.slnil, by simp⟩ ok
  cases found : object.lookup name with
  | none =>
    simp only [found] at stepped
    cases stepped
    exact ⟨before.1.trans (sublist_append_left seen [name]), before.2⟩
  | some value =>
    simp only [found, invalidPayload, bind_eq_ok, guard_eq_ok, not_not] at stepped
    obtain ⟨field, read, rfl, done⟩ := stepped
    cases done
    refine ⟨before.1.append (.refl _), ?_⟩
    rw [forall_mem_append, forall_mem_singleton]
    exact ⟨before.2, value, found, read⟩

theorem prepareInput_ok (ok : prepareInput platform outer store append entry = .ok result) :
    Shortened platform outer store append.agentSessionId append.semanticEvent.correlationId entry
      result := by
  simp only [prepareInput, bind_eq_ok, orInvalidPayload_ok] at ok
  obtain ⟨receipt, named, ok⟩ := ok
  split at ok
  next =>
    cases ok
    exact .whole
  next claim found =>
    split at ok
    next =>
      cases ok
      exact .whole
    next =>
      simp only [invalidPayload, bind_eq_ok, guard_eq_ok, not_not] at ok
      obtain ⟨original, accepted, message, object, isObject, fields, repeated, text, done⟩ := ok
      cases done
      obtain ⟨input, index⟩ := entry
      obtain ⟨sublist, each⟩ := repeatedFields_ok repeated
      cases input with
      | object entries =>
        cases isObject
        exact .referenced accepted named message sublist text each
      | null | bool | number | string | array => cases isObject

/-- The fields `seen` are back in their places. -/
structure Restoring (object : List (String × Value)) (fields seen : List String)
    (state : List String × List (String × Value)) : Prop where
  names : ∀ name ∈ state.1, name ∈ seen
  increasing : Increasing state.2
  lookups : ∀ name, state.2.lookup name =
    if name ∉ fields ∨ name ∈ seen then object.lookup name else none

theorem Restoring.start (increasing : Increasing object) :
    Restoring object fields [] ([], object.filter fun entry => entry.1 ∉ fields) where
  names := by simp
  increasing := increasing.filter _
  lookups name := by
    have found := lookup_filter (fun name => name ∉ fields) object name
    simpa only [decide_eq_true_eq, not_mem_nil, or_false] using found

theorem Restoring.insert (restoring : Restoring object fields seen state)
    (found : object.lookup name = some value) :
    Restoring object fields (seen ++ [name]) (name :: state.1, insertEntry name value state.2) where
  names other member := by
    rcases mem_cons.mp member with rfl | before
    · exact mem_append_right seen (mem_singleton_self _)
    · exact mem_append_left [name] (restoring.names other before)
  increasing := restoring.increasing.insert
  lookups other := by
    rw [lookup_insertEntry, restoring.lookups]
    by_cases same : other = name
    · simp [same, found]
    · simp [same]

/-- Fields that were taken out are put back in their places. -/
theorem restoreFields_restores (increasing : Increasing object) (distinct : fields.Nodup)
    (each : ∀ name ∈ fields, ∃ value, object.lookup name = some value ∧
      inputField original name = .ok value) :
    restoreFields original fields (object.filter fun entry => entry.1 ∉ fields) = .ok object := by
  rw [restoreFields, bind_eq_ok]
  refine (foldlM_succeeds (Restoring object fields) (fun seen state name rest split before => ?_)
    (Restoring.start increasing)).imp fun state ⟨done, restored⟩ => ⟨done, congrArg Except.ok ?_⟩
  · have member : name ∈ fields := split ▸ mem_append_right seen mem_cons_self
    have new : name ∉ seen := fun again =>
      disjoint_of_nodup_append (split ▸ distinct) again mem_cons_self
    obtain ⟨value, found, read⟩ := each name member
    refine ⟨_, ?_, before.insert found⟩
    have missing : state.2.lookup name = none := by
      rw [before.lookups]
      simp [member, new]
    simp only [restoreField, invalidPayload, guard_eq_ok, bind_eq_ok]
    refine ⟨?_, value, read, rfl⟩
    have unnamed : name ∉ state.1 := fun again => new (before.names name again)
    simp [missing, unnamed]
  · refine ext_of_lookup restored.increasing increasing fun name => ?_
    rw [restored.lookups, if_pos (or_iff_not_imp_left.mpr not_not.mp)]

section

variable (extends' : Extends store later)
  (newest : ∀ known ∈ store.events, known.agentSessionId = event.agentSessionId →
    known.seq < event.seq)
include extends' newest

/-- What a later read finds for a delivered input. -/
theorem hydrateInput_restores {after : List Value} {input short : Value}
    (orderly : ordered input = true)
    (shortened : Shortened platform outer store event.agentSessionId event.correlationId
      (input, before.length) (short, some reference)) (unseen : before.length ∉ indices) :
    hydrateInput platform outer later event (indices, before ++ short :: after) reference =
      .ok (before.length :: indices, before ++ input :: after) := by
  generalize entry : (input, before.length) = pair at shortened
  generalize result : (short, some reference) = kept at shortened
  cases shortened with
  | whole => cases (Prod.mk.inj result).2
  | @referenced object index receipt original fields accepted named message sublist text each =>
    cases entry
    obtain ⟨rfl, same⟩ := Prod.mk.inj result
    cases same
    have kept {name : String} (other : name ∉ deliveredFieldNames) :
        (object.filter fun entry => entry.1 ∉ fields).lookup name = object.lookup name := by
      have outside : name ∉ fields := fun member => other (sublist.mem member)
      simpa [outside] using lookup_filter (fun name => name ∉ fields) object name
    have increasing : Increasing object := by
      simpa [keysIncrease] using (hereditary_object.mp orderly).1
    have distinct : fields.Nodup := List.Nodup.sublist sublist (by decide)
    have atMost : fields.length ≤ 3 := sublist.length_le
    simp only [hydrateInput, invalidPayload, bind_eq_ok, guard_eq_ok, orInvalidPayload_ok]
    refine ⟨?_, object.filter fun entry => entry.1 ∉ fields, ?_, ?_, original,
      extends'.originalInput_ok newest accepted, ?_, object,
      restoreFields_restores increasing distinct each, ?_⟩
    · simp [unseen, ne_nil_of_mem text, atMost, text]
    · simp [Value.asObject]
    · rw [kept (by decide), kept (by decide)]
      simp [named, message]
    · exact fun different => different rfl
    · simp [pure, Except.pure]

theorem hydrateInput_loop {inputs : List Value} (orderly : ∀ input ∈ inputs, ordered input = true)
    (shortened : List.Forall₂
      (Shortened platform outer store event.agentSessionId event.correlationId)
      (inputs.zipIdx before.length) delivered)
    (earlier : ∀ index ∈ indices, index < before.length) :
    ∃ indices', (delivered.filterMap (·.2)).foldlM (hydrateInput platform outer later event)
      (indices, before ++ delivered.map (·.1)) = .ok (indices', before ++ inputs) := by
  induction inputs generalizing before delivered indices with
  | nil =>
    cases shortened
    exact ⟨indices, rfl⟩
  | cons input inputs ih =>
    rw [forall_mem_cons] at orderly
    cases shortened with
    | @cons _ result _ delivered first rest =>
      obtain ⟨short, reference⟩ := result
      have next (indices : List Nat)
          (still : ∀ index ∈ indices, index < (before ++ [input]).length) :=
        @ih delivered indices (before ++ [input]) orderly.2 (by simpa using rest) still
      simp only [append_assoc, singleton_append] at next
      have grown {index : Nat} (inside : index < before.length) :
          index < (before ++ [input]).length := by
        rw [length_append]
        omega
      cases reference with
      | none =>
        cases first
        simpa using next indices fun index member => grown (earlier index member)
      | some reference =>
        have unseen : before.length ∉ indices := fun member => (earlier _ member).false
        obtain ⟨indices', done⟩ := next (before.length :: indices) (by
          rw [forall_mem_cons]
          exact ⟨by simp, fun index member => grown (earlier index member)⟩)
        refine ⟨indices', ?_⟩
        rw [show ((short, some reference) :: delivered).filterMap (·.2) =
          reference :: delivered.filterMap (·.2) from rfl, foldlM_cons, bind_eq_ok]
        exact ⟨_, hydrateInput_restores extends' newest orderly.1 first unseen, done⟩

end

/-- What the store makes of the inputs of an event. -/
inductive InputsPrepared (platform : Platform) (outer : Outer σ) (store : Store (Records σ))
    (append : SessionEventAppend) (v : Value) : Value → List InputReference → Prop
  | none : isDelivery append.semanticEvent.kind v = false →
      InputsPrepared platform outer store append v v []
  | delivered {inputs : List Value} {delivered : List (Value × Option InputReference)} :
      isDelivery append.semanticEvent.kind v = true →
      pointer v "/event/inputs" = some (.array inputs) → inputs.length ≤ 16 →
      List.Forall₂ (Shortened platform outer store append.agentSessionId
        append.semanticEvent.correlationId) inputs.zipIdx delivered →
      InputsPrepared platform outer store append v
        (set (.array (delivered.map (·.1))) ["event", "inputs"] v) (delivered.filterMap (·.2))

theorem prepareInputs_ok {prepared : Value × List InputReference}
    (ok : prepareInputs platform outer store append v = .ok prepared) :
    InputsPrepared platform outer store append v prepared.1 prepared.2 := by
  unfold prepareInputs at ok
  split at ok
  next other =>
    cases ok
    exact .none (by simpa using other)
  next delivery =>
    simp only [bind_eq_ok, orInvalidPayload_ok, invalidPayload, guard_eq_ok, mapM_eq_ok] at ok
    obtain ⟨inputs, read, few, delivered, each, done⟩ := ok
    cases done
    obtain ⟨w, found, isArray⟩ := Option.bind_eq_some_iff.mp read
    cases w with
    | array items =>
      cases isArray
      refine .delivered (by simpa using delivery) found (not_lt.mp few) ?_
      exact each.imp fun entry result => prepareInput_ok
    | null | bool | number | string | object => cases isArray

variable {v w : Value} {references : List InputReference}

theorem delivery_slots (delivery : isDelivery kind w = true) : slots kind w = [] := by
  simp only [isDelivery, Bool.and_eq_true, Bool.or_eq_true, decide_eq_true_eq] at delivery
  obtain ⟨rfl, inputs | deferred⟩ := delivery
  · simp [slots, progressSlots_eq, inputs]
  · simp [slots, progressSlots_eq, deferred]

theorem isDelivery_set : isDelivery kind (set x ["event", "inputs"] v) = isDelivery kind v := by
  have same : textAt (set x ["event", "inputs"] v) "/event/event" = textAt v "/event/event" :=
    textAt_set_apart (q := ["event", "event"]) rfl (.later (.here (by decide)))
  rw [isDelivery, same, isDelivery]

theorem hereditary_filter (all : hereditary test (.object object) = true)
    (here : test (.object (object.filter keep)) = true) :
    hereditary test (.object (object.filter keep)) = true :=
  hereditary_object.mpr ⟨here, fun entry member =>
    (hereditary_object.mp all).2 entry (mem_of_mem_filter member)⟩

/-- Shortening keeps the order of the maps and finite numbers. -/
theorem Shortened.kept (shortened : Shortened platform outer store session operation entry result)
    (orderly : ordered entry.1 = true) (numbers : finite entry.1 = true) :
    ordered result.1 = true ∧ finite result.1 = true := by
  cases shortened with
  | whole => exact ⟨orderly, numbers⟩
  | referenced =>
    refine ⟨hereditary_filter orderly ?_, hereditary_filter numbers rfl⟩
    have increasing : Increasing _ := of_decide_eq_true (hereditary_object.mp orderly).1
    exact decide_eq_true (increasing.filter _)

variable (prepared : InputsPrepared platform outer store append v w references)
  (orderly : ordered v = true)
include prepared orderly

theorem InputsPrepared.kept (numbers : finite v = true) : ordered w = true ∧ finite w = true := by
  cases prepared with
  | none => exact ⟨orderly, numbers⟩
  | @delivered inputs delivered delivery found few each =>
    have read : resolve v ["event", "inputs"] = some (.array inputs) := found
    have orderlyInputs := (hereditary_array.mp (hereditary_resolve orderly read)).2
    have finiteInputs := (hereditary_array.mp (hereditary_resolve numbers read)).2
    have shortened : ∀ short ∈ delivered.map (·.1), ordered short = true ∧ finite short = true := by
      rw [forall_mem_map]
      intro result member
      obtain ⟨entry, listed, shortens⟩ := exists_of_forall₂ each member
      have input : entry.1 ∈ inputs := fst_mem_of_mem_zipIdx listed
      exact shortens.kept (orderlyInputs _ input) (finiteInputs _ input)
    refine ⟨ordered_set orderly ?_, finite_set numbers ?_⟩
    · exact hereditary_array.mpr ⟨rfl, fun short member => (shortened short member).1⟩
    · exact hereditary_array.mpr ⟨rfl, fun short member => (shortened short member).2⟩

/-- The inputs are put back as they were. -/
theorem InputsPrepared.restores (extends' : Extends store later)
    (session : event.agentSessionId = append.agentSessionId)
    (operation : event.correlationId = append.semanticEvent.correlationId)
    (kind : event.kind = append.semanticEvent.kind)
    (newest : ∀ known ∈ store.events, known.agentSessionId = event.agentSessionId →
      known.seq < event.seq) : hydrateInputs platform outer later event w references = .ok v := by
  cases prepared with
  | none => rfl
  | @delivered inputs delivered delivery found few each =>
    have read : resolve v ["event", "inputs"] = some (.array inputs) := found
    have orderlyInputs := (hereditary_array.mp (hereditary_resolve orderly read)).2
    rw [← session, ← operation] at each
    have loop : ∃ indices', (delivered.filterMap (·.2)).foldlM
        (hydrateInput platform outer later event) ([], [] ++ delivered.map (·.1)) =
          .ok (indices', [] ++ inputs) :=
      hydrateInput_loop extends' newest orderlyInputs each (by simp)
    obtain ⟨indices', done⟩ := loop
    have back : set (.array inputs) ["event", "inputs"]
        (set (.array (delivered.map (·.1))) ["event", "inputs"] v) = v := by
      rw [JsonPointer.set_set, set_resolve read]
    rw [hydrateInputs]
    split
    next empty =>
      rw [isEmpty_iff.mp empty] at done
      have whole : delivered.map (·.1) = inputs := (Prod.mk.inj (Except.ok.inj done)).2
      rw [whole, set_resolve read]
      rfl
    next =>
      have count : (delivered.filterMap (·.2)).length ≤ 16 :=
        (length_filterMap_le _ _).trans (by rwa [← each.length_eq, length_zipIdx])
      have shorts : pointer (set (.array (delivered.map (·.1))) ["event", "inputs"] v)
          "/event/inputs" = some (.array (delivered.map (·.1))) := resolve_set_same read
      simp only [invalidPayload, guard_eq_ok, bind_eq_ok]
      refine ⟨?_, _, ?_, (indices', inputs), done, congrArg Except.ok back⟩
      · rw [kind, isDelivery_set, delivery]
        simp [count]
      · rw [shorts]
        rfl

end Nomifun.Guarantees.ContentSharing
