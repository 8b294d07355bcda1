import Nomifun.Source.AgentSession.Canonical

/-!
# The slots of shared content

The store looks for the places of tool bodies once in the value that it is given and once in the
value with these places emptied. Both searches find the same places, which lie apart from each
other, so putting the bodies back one after the other gives the value, with a count of bytes that
is its size at every round.
-/
namespace Nomifun.Guarantees.ContentSharing
open Library Library.Json Library.JsonPointer Library.MachineInt Source.AgentContracts
  Source.AgentSession List

/-! ### Slots -/

/-- The place of a part of a retained message. -/
def partPath (itemIndex partIndex : Nat) (field : String) : List String :=
  ["event", "retained_context", toString itemIndex, "message", "content", toString partIndex, field]

/-- Two slots whose places part ways. -/
def Separate (first second : String × SharedToolContentKind) : Prop :=
  ∃ p q, tokens first.1 = some p ∧ tokens second.1 = some q ∧ Apart p q

section

variable {v x : Value} {path : List String} {rest : List String} {q : List String}

theorem toString_ne {m n : Nat} (different : m ≠ n) : toString m ≠ toString n := by
  intro same
  have parsed : parseIndex (toString m) = some n := parseIndex_eq_some.mpr same
  rw [parseIndex_eq_some.mpr rfl] at parsed
  exact different (Option.some.inj parsed)

theorem place_partPath (itemIndex partIndex : Nat) (field : String) :
    "/event/retained_context/" ++ toString itemIndex ++ "/message/content/" ++
      toString partIndex ++ "/" ++ field = place (partPath itemIndex partIndex field) := by
  apply String.toList_injective
  simp [place, partPath]

theorem tokens_partPath (itemIndex partIndex : Nat) (plain : Plain field) :
    tokens (place (partPath itemIndex partIndex field)) =
      some (partPath itemIndex partIndex field) := by
  apply tokens_place
  simp only [partPath, forall_mem_cons]
  exact ⟨by decide, by decide, plain_toString itemIndex, by decide, by decide,
    plain_toString partIndex, plain, by simp⟩

/-- What a slot of a retained message is. -/
theorem partSlot_eq_some (found : partSlot itemIndex entry = some slot) :
    ∃ field, (field = "arguments" ∨ field = "output") ∧
      tokens slot.1 = some (partPath itemIndex entry.2 field) := by
  unfold partSlot at found
  simp only [place_partPath] at found
  split at found
  · cases found
    exact ⟨"arguments", .inl rfl, tokens_partPath itemIndex entry.2 (by decide)⟩
  · cases found
    exact ⟨"output", .inr rfl, tokens_partPath itemIndex entry.2 (by decide)⟩
  · cases found

theorem mem_itemSlots (member : slot ∈ itemSlots entry) :
    ∃ partIndex field, (field = "arguments" ∨ field = "output") ∧
      tokens slot.1 = some (partPath entry.2 partIndex field) := by
  unfold itemSlots at member
  split at member
  · cases member
  · split at member
    · obtain ⟨part, -, found⟩ := mem_filterMap.mp member
      exact ⟨part.2, partSlot_eq_some found⟩
    · cases member

theorem separate_parts (itemIndex : Nat) (different : first.2 ≠ second.2)
    (foundFirst : partSlot itemIndex first = some slotFirst)
    (foundSecond : partSlot itemIndex second = some slotSecond) :
    Separate slotFirst slotSecond := by
  obtain ⟨_, -, tokensFirst⟩ := partSlot_eq_some foundFirst
  obtain ⟨_, -, tokensSecond⟩ := partSlot_eq_some foundSecond
  refine ⟨_, _, tokensFirst, tokensSecond, ?_⟩
  exact .later (.later (.later (.later (.later (.here (toString_ne different))))))

theorem pairwise_zipIdx (items : List α) (start : Nat) :
    (items.zipIdx start).Pairwise fun first second => first.2 ≠ second.2 := by
  induction items generalizing start with
  | nil => exact .nil
  | cons item items ih =>
    rw [zipIdx_cons, pairwise_cons]
    refine ⟨fun entry member => ?_, ih (start + 1)⟩
    have later := (mem_zipIdx (x := entry.1) (i := entry.2) member).1
    omega

theorem itemSlots_separate (entry : Value × Nat) : (itemSlots entry).Pairwise Separate := by
  unfold itemSlots
  split
  · exact .nil
  · split
    · rw [pairwise_filterMap]
      refine (pairwise_zipIdx _ 0).imp fun different slotFirst foundFirst slotSecond foundSecond =>
        ?_
      exact separate_parts entry.2 different foundFirst foundSecond
    · exact .nil

theorem pointer_set_apart (read : tokens at' = some q) (apart : Apart path q) :
    pointer (set x path v) at' = pointer v at' := by
  rw [pointer, pointer, read, Option.bind_some, Option.bind_some, resolve_set_apart apart]

theorem textAt_set_apart {at' : String} (read : tokens at' = some q) (apart : Apart path q) :
    textAt (set x path v) at' = textAt v at' := by
  rw [textAt, pointer_set_apart read apart, textAt]

/-- The slots of the retained messages. -/
def retainedSlots (v : Value) : List (String × SharedToolContentKind) :=
  match (pointer v "/event/retained_context").bind Value.asArray with
  | some items => items.zipIdx.flatMap itemSlots
  | none => []

theorem progressSlots_eq (v : Value) : progressSlots v =
    match textAt v "/event/event" with
    | some "host_tool_settled" | some "tool_completed" | some "tool_outcome_reconciled" =>
      if (textAt v "/event/result/call_id").isSome then [("/event/result/output", .toolOutput)]
      else []
    | some "tool_call_completed" => [("/event/call/arguments", .toolArguments)]
    | some "context_compacted" => retainedSlots v
    | _ => [] := rfl

theorem retainedSlots_separate (v : Value) : (retainedSlots v).Pairwise Separate := by
  unfold retainedSlots
  split
  · rw [pairwise_flatMap]
    refine ⟨fun entry _ => itemSlots_separate entry, ?_⟩
    refine (pairwise_zipIdx _ 0).imp fun different slotFirst memberFirst slotSecond
      memberSecond => ?_
    obtain ⟨_, _, -, tokensFirst⟩ := mem_itemSlots memberFirst
    obtain ⟨_, _, -, tokensSecond⟩ := mem_itemSlots memberSecond
    exact ⟨_, _, tokensFirst, tokensSecond, .later (.later (.here (toString_ne different)))⟩
  · exact .nil

theorem slots_separate (kind : String) (v : Value) : (slots kind v).Pairwise Separate := by
  have single (given : Bool) (slot : String × SharedToolContentKind) :
      (if given then [slot] else []).Pairwise Separate := by
    cases given with
    | false => exact .nil
    | true => exact pairwise_singleton _ _
  unfold slots
  split
  · exact single _ _
  · split
    · exact .nil
    · rw [progressSlots_eq]
      split
      · exact single _ _
      · exact single _ _
      · exact single _ _
      · exact pairwise_singleton _ _
      · exact retainedSlots_separate v
      · exact .nil

theorem progressSlots_congr (event : textAt w "/event/event" = textAt v "/event/event")
    (call : textAt w "/event/result/call_id" = textAt v "/event/result/call_id")
    (retained : retainedSlots w = retainedSlots v) : progressSlots w = progressSlots v := by
  simp [progressSlots_eq, event, call, retained]

/-- A write apart from the texts that decide which slots there are. -/
theorem progressSlots_set (event : Apart path ["event", "event"])
    (call : Apart path ["event", "result", "call_id"])
    (retained : retainedSlots (set x path v) = retainedSlots v) :
    progressSlots (set x path v) = progressSlots v :=
  progressSlots_congr (textAt_set_apart rfl event) (textAt_set_apart rfl call) retained

theorem retainedSlots_apart (apart : Apart path ["event", "retained_context"]) :
    retainedSlots (set x path v) = retainedSlots v := by
  rw [retainedSlots, pointer_set_apart rfl apart, retainedSlots]

theorem member_set_ne {head key : String} (different : head ≠ key) :
    (set x (head :: rest) v).member key = v.member key := by
  rw [JsonPointer.set]
  cases v with
  | object entries =>
    cases child (.object entries) head with
    | none => rfl
    | some old => exact lookup_replaceMember_other different
  | array items =>
    cases child (.array items) head with
    | none => rfl
    | some old =>
      unfold put
      cases parseIndex head <;> rfl
  | null | bool | number | string => rfl

/-- What an array becomes when something is written into one of its items. -/
theorem asArray_set (w : Value) : (set x (toString index :: rest) w).asArray =
    w.asArray.map (·.modify index (set x rest)) := by
  have parsed : parseIndex (toString index) = some index := parseIndex_eq_some.mpr rfl
  cases w with
  | array items =>
    rw [JsonPointer.set, child, parsed, Option.bind_some]
    cases found : items[index]? <;>
      simp only [Value.asArray, put, parsed, modify_eq_set_getElem?, Option.map_some, found] <;> rfl
  | object entries =>
    rw [JsonPointer.set]
    cases child (.object entries) (toString index) <;> rfl
  | null | bool | number | string => rfl

/-- The items of an array, read by a function that does not see what is written into one of them. -/
theorem items_set {f : Value × Nat → β} (at' : String) (read : tokens at' = some p)
    (unseen : ∀ item, f (set x rest item, index) = f (item, index)) :
    ((pointer (set x (p ++ toString index :: rest) v) at').bind Value.asArray).map
        (·.zipIdx.map f) =
      ((pointer v at').bind Value.asArray).map (·.zipIdx.map f) := by
  have below : pointer (set x (p ++ toString index :: rest) v) at' =
      (pointer v at').map (set x (toString index :: rest)) := by
    rw [pointer, pointer, read]
    exact resolve_set_below
  rw [below, Option.bind_map]
  cases pointer v at' with
  | none => rfl
  | some w =>
    simp only [Option.bind_some, Function.comp, asArray_set, Option.map_map]
    congr 1
    funext items
    refine ext_getElem? fun position => ?_
    simp only [Function.comp, getElem?_map, getElem?_zipIdx, getElem?_modify]
    cases items[position]? with
    | none => rfl
    | some item =>
      by_cases here : index = position
      · subst here
        simp [unseen]
      · simp [here]

theorem partSlot_set (part : Value) (itemIndex partIndex : Nat)
    (body : field = "arguments" ∨ field = "output") :
    partSlot itemIndex (set x [field] part, partIndex) = partSlot itemIndex (part, partIndex) := by
  have typed : (set x [field] part).member "type" = part.member "type" := by
    refine member_set_ne ?_
    rcases body with rfl | rfl <;> decide
  simp [partSlot, typed]

theorem itemSlots_set (item : Value) (index partIndex : Nat)
    (body : field = "arguments" ∨ field = "output") :
    itemSlots (set x ["message", "content", toString partIndex, field] item, index) =
      itemSlots (item, index) := by
  have kind : (set x ["message", "content", toString partIndex, field] item).member "kind" =
      item.member "kind" := member_set_ne (by decide)
  have parts := items_set (f := partSlot index) (v := item) "/message/content" rfl
    fun part => partSlot_set (x := x) part index partIndex body
  have read (w : Value) : itemSlots (w, index) =
      if (w.member "kind").bind Value.asStr ≠ some "message" then [] else
        (((pointer w "/message/content").bind Value.asArray).map
          (·.zipIdx.map (partSlot index))).elim [] (·.filterMap id) := by
    unfold itemSlots
    cases (pointer w "/message/content").bind Value.asArray <;> simp
  rw [read, read, kind]
  split
  · rfl
  · exact congrArg (·.elim [] (·.filterMap id)) parts

theorem retainedSlots_set (itemIndex partIndex : Nat)
    (body : field = "arguments" ∨ field = "output") :
    retainedSlots (set x (partPath itemIndex partIndex field) v) = retainedSlots v := by
  have items := items_set (f := itemSlots) (v := v) "/event/retained_context" rfl
    fun item => itemSlots_set (x := x) item itemIndex partIndex body
  have read (w : Value) : retainedSlots w =
      (((pointer w "/event/retained_context").bind Value.asArray).map
        (·.zipIdx.map itemSlots)).elim [] flatten := by
    unfold retainedSlots
    cases (pointer w "/event/retained_context").bind Value.asArray <;> simp [flatMap_def]
  rw [read, read]
  exact congrArg (·.elim [] flatten) items

theorem mem_progressSlots (member : slot ∈ progressSlots v) :
    tokens slot.1 = some ["event", "result", "output"] ∨
    tokens slot.1 = some ["event", "call", "arguments"] ∨
    ∃ itemIndex partIndex field, (field = "arguments" ∨ field = "output") ∧
      tokens slot.1 = some (partPath itemIndex partIndex field) := by
  have settled (listed : slot ∈ if (textAt v "/event/result/call_id").isSome then
      [("/event/result/output", SharedToolContentKind.toolOutput)] else []) :
      tokens slot.1 = some ["event", "result", "output"] := by
    split at listed
    · obtain rfl := mem_singleton.mp listed
      rfl
    · cases listed
  rw [progressSlots_eq] at member
  split at member
  · exact .inl (settled member)
  · exact .inl (settled member)
  · exact .inl (settled member)
  · obtain rfl := mem_singleton.mp member
    exact .inr (.inl rfl)
  · unfold retainedSlots at member
    split at member
    · obtain ⟨item, -, listed⟩ := mem_flatMap.mp member
      obtain ⟨partIndex, field, body, named⟩ := mem_itemSlots listed
      exact .inr (.inr ⟨item.2, partIndex, field, body, named⟩)
    · cases member
  · cases member

/-- Writing to a slot does not change which slots there are. -/
theorem slot_path (member : slot ∈ slots kind v) :
    ∃ head rest, tokens slot.1 = some (head :: rest) ∧ (head = "event" ∨ head = "output") ∧
      ∀ x, slots kind (set x (head :: rest) v) = slots kind v := by
  unfold slots at member
  split at member
  next result =>
    split at member
    next =>
      obtain rfl := mem_singleton.mp member
      refine ⟨"output", ["output"], rfl, .inr rfl, fun x => ?_⟩
      have call : textAt (set x ["output", "output"] v) "/output/call_id" =
          textAt v "/output/call_id" :=
        textAt_set_apart (q := ["output", "call_id"]) rfl (.later (.here (by decide)))
      simp only [slots, if_pos result, call]
    next => cases member
  next other =>
    split at member
    next => cases member
    next progress =>
      have stays {head : String} {rest : List String}
          (same : ∀ x, progressSlots (set x (head :: rest) v) = progressSlots v) (x : Value) :
          slots kind (set x (head :: rest) v) = slots kind v := by
        rw [slots, if_neg other, same, slots, if_neg other, if_neg progress]
      rcases mem_progressSlots member with named | named
        | ⟨itemIndex, partIndex, field, body, named⟩
      · refine ⟨"event", ["result", "output"], named, .inl rfl, stays fun x => ?_⟩
        exact progressSlots_set (.later (.here (by decide)))
          (.later (.later (.here (by decide)))) (retainedSlots_apart (.later (.here (by decide))))
      · refine ⟨"event", ["call", "arguments"], named, .inl rfl, stays fun x => ?_⟩
        exact progressSlots_set (.later (.here (by decide))) (.later (.here (by decide)))
          (retainedSlots_apart (.later (.here (by decide))))
      · refine ⟨"event", _, named, .inl rfl, stays fun x => ?_⟩
        exact progressSlots_set (.later (.here (by decide))) (.later (.here (by decide)))
          (retainedSlots_set itemIndex partIndex body)

theorem pointer_insertEntry {at' key head : String} (read : tokens at' = some (head :: rest))
    (different : head ≠ key) :
    pointer (.object (insertEntry key m entries)) at' = pointer (.object entries) at' := by
  rw [pointer, pointer, read, Option.bind_some, Option.bind_some, resolve, resolve, child, child,
    lookup_insertEntry, if_neg different]

/-- The reference record is not in the way of the slots. -/
theorem slots_insertEntry (kind : String) (m : Value) (entries : List (String × Value)) :
    slots kind (.object (insertEntry sharedToolContentKey m entries)) =
      slots kind (.object entries) := by
  have same {at' : String} {rest : List String} {head : String}
      (read : tokens at' = some (head :: rest)) (different : head ≠ sharedToolContentKey) :
      textAt (.object (insertEntry sharedToolContentKey m entries)) at' =
        textAt (.object entries) at' := by
    rw [textAt, pointer_insertEntry read different, textAt]
  have output : textAt (.object (insertEntry sharedToolContentKey m entries)) "/output/call_id" =
      textAt (.object entries) "/output/call_id" := same rfl (by decide)
  have progress : progressSlots (.object (insertEntry sharedToolContentKey m entries)) =
      progressSlots (.object entries) := by
    refine progressSlots_congr (same rfl (by decide)) (same rfl (by decide)) ?_
    rw [retainedSlots, pointer_insertEntry rfl (by decide), retainedSlots]
  simp [slots, output, progress]

end

/-! ### Factoring -/

/-- A body that was moved to a payload of its own. -/
structure Fact where
  slot : String × SharedToolContentKind
  path : List String
  body : Value
  bytes : List UInt8

namespace Fact

section

variable (platform : Platform) (session : AgentSessionId) (fact : Fact)

def digest : DigestHex := digestBytes platform fact.bytes

def reference : SharedToolContentReference :=
  ⟨fact.slot.1, fact.slot.2, fact.slot.2.id session (fact.digest platform), fact.digest platform,
    fact.bytes.length⟩

def record : SessionPayloadRecord :=
  ⟨fact.slot.2.id session (fact.digest platform), session, fact.slot.2.mediaType,
    fact.bytes.length, fact.digest platform, .json fact.body⟩

end

/-- The body is what the value holds at the slot. -/
structure Of (platform : Platform) (v : Value) (fact : Fact) : Prop where
  named : tokens fact.slot.1 = some fact.path
  found : resolve v fact.path = some fact.body
  typed : fact.slot.2.accepts fact.body = true
  bytes : canonicalBytes platform fact.body = .ok fact.bytes
  large : sharedToolContentMinBytes ≤ fact.bytes.length

end Fact

/-- What the loop over the slots has made of a value. -/
structure Factored (platform : Platform) (session : AgentSessionId) (v : Value)
    (seen : List (String × SharedToolContentKind)) (state : Factoring) (facts : List Fact) :
    Prop where
  chosen : (facts.map (·.slot)).Sublist seen
  each : ∀ fact ∈ facts, fact.Of platform v
  value : state.value = blank (facts.map (·.path)) v
  references : state.references = facts.map (Fact.reference platform session)
  contents : state.contents = facts.map (Fact.record platform session)
  bounded : facts.length ≤ maxReferences

section

variable {platform : Platform} {session : AgentSessionId} {kind : String} {v : Value}
  {state next : Factoring} {facts : List Fact} {seen rest : List (String × SharedToolContentKind)}
  {slot : String × SharedToolContentKind}

section

variable (split : slots kind v = seen ++ slot :: rest)
  (factored : Factored platform session v seen state facts)
include split factored

/-- The slot of a round lies apart from those before it. -/
theorem apart_of_seen (named : tokens slot.1 = some path) :
    ∀ other ∈ facts.map (·.path), Apart path other := by
  rw [forall_mem_map]
  intro fact member
  have separate := slots_separate kind v
  rw [split, pairwise_append] at separate
  have earlier := factored.chosen.mem (mem_map_of_mem member)
  obtain ⟨p, q, first, second, apart⟩ :=
    separate.2.2 fact.slot earlier slot mem_cons_self
  rw [(factored.each fact member).named, Option.some.injEq] at first
  rw [named, Option.some.injEq] at second
  rw [first, second]
  exact apart.symm

theorem factorSlot_ok (ok : factorSlot platform session state slot = .ok next) :
    ∃ more, Factored platform session v (seen ++ [slot]) next more := by
  obtain ⟨head, path, named, -, -⟩ : ∃ head rest, tokens slot.1 = some (head :: rest) ∧ _ ∧ _ :=
    slot_path (split ▸ mem_append_right seen mem_cons_self)
  have apart := apart_of_seen split factored named
  have read : pointer state.value slot.1 = resolve v (head :: path) := by
    rw [pointer, named, Option.bind_some, factored.value, resolve_blank apart]
  have skipped : Factored platform session v (seen ++ [slot]) state facts :=
    ⟨factored.chosen.trans (sublist_append_left seen [slot]), factored.each, factored.value,
      factored.references, factored.contents, factored.bounded⟩
  unfold factorSlot at ok
  rw [read] at ok
  cases found : resolve v (head :: path) with
  | none =>
    simp only [found] at ok
    cases ok
    exact ⟨facts, skipped⟩
  | some body =>
    simp only [found] at ok
    split at ok
    next =>
      cases ok
      exact ⟨facts, skipped⟩
    next typed =>
      obtain ⟨bytes, canonical, ok⟩ := bind_eq_ok.mp ok
      split at ok
      next =>
        cases ok
        exact ⟨facts, skipped⟩
      next large =>
        obtain ⟨room, ok⟩ := last_guard_eq_ok.mp ok
        cases ok
        let fact : Fact := ⟨slot, head :: path, body, bytes⟩
        refine ⟨facts ++ [fact], ?_, ?_, ?_, ?_, ?_, ?_⟩
        · rw [map_append]
          exact factored.chosen.append (.refl _)
        · rw [forall_mem_append, forall_mem_singleton]
          exact ⟨factored.each, named, found, by simpa using typed, canonical, not_lt.mp large⟩
        · simp only [assign, named, factored.value, map_append, blank_append]
          rfl
        · simp [factored.references, fact, Fact.reference, Fact.digest]
        · simp [factored.contents, fact, Fact.record, Fact.digest]
        · rw [factored.references, length_map] at room
          rw [length_append, length_singleton]
          omega

end

theorem factorSlots_ok (ok : (slots kind v).foldlM (factorSlot platform session) ⟨v, [], []⟩ =
    .ok state) : ∃ facts, Factored platform session v (slots kind v) state facts := by
  refine foldlM_prefixes (fun seen state => ∃ facts, Factored platform session v seen state facts)
    (fun seen state slot rest next split before stepped => ?_) ?_ ok
  · obtain ⟨facts, factored⟩ := before
    exact factorSlot_ok split factored stepped
  · exact ⟨[], .slnil, by simp, rfl, rfl, rfl, Nat.zero_le _⟩

end

/-! ### Putting the bodies back -/

variable {platform : Platform} {store : Store (Records σ)} {event : SessionEventRecord} {v : Value}
  {facts : List Fact} {fact : Fact} {seen : List String}
  {allowed : List (String × SharedToolContentKind)}

theorem canonicalBytes_ordered (platform : Platform) (orderly : ordered v = true)
    (numbers : finite v = true) : ∃ bytes, canonicalBytes platform v = .ok bytes ∧
      bytes.length = size platform.floatText v := by
  obtain ⟨bytes, canonical, length⟩ := canonicalJsonBytes_ordered platform orderly numbers
  exact ⟨bytes, by rw [canonicalBytes, canonical], length⟩

theorem Fact.Of.size_body (of : fact.Of platform v) (orderly : ordered v = true)
    (numbers : finite v = true) : fact.bytes.length = size platform.floatText fact.body := by
  obtain ⟨bytes, canonical, length⟩ := canonicalBytes_ordered platform
    (hereditary_resolve orderly of.found) (hereditary_resolve numbers of.found)
  rw [of.bytes, Except.ok.injEq] at canonical
  rw [canonical, length]

variable (orderly : ordered v = true) (numbers : finite v = true)
include orderly numbers

theorem size_blank_le (each : ∀ fact ∈ facts, fact.Of platform v)
    (apart : (facts.map (·.path)).Pairwise Apart) :
    size platform.floatText (blank (facts.map (·.path)) v) ≤ size platform.floatText v := by
  induction facts with
  | nil => exact le_refl _
  | cons fact facts ih =>
    rw [forall_mem_cons] at each
    rw [map_cons, pairwise_cons] at apart
    have rest := ih each.2 apart.2
    have first := size_blank_first platform.floatText apart.1 each.1.found
    have body := each.1.size_body orderly numbers
    have large := each.1.large
    rw [sharedToolContentMinBytes] at large
    rw [map_cons]
    omega

/-- One body is put back, and the count of bytes is that of the value. -/
theorem hydrateReference_restores (of : fact.Of platform v)
    (apart : ∀ other ∈ paths, Apart fact.path other) (listed : fact.slot ∈ allowed)
    (unseen : fact.slot.1 ∉ seen) (short : fact.bytes.length ≤ canonicalPayloadMaxBytes)
    (stored : store.rest.payloads[(fact.record platform event.agentSessionId).payloadId]? =
      some (fact.record platform event.agentSessionId))
    (within : size platform.floatText (blank paths v) ≤ maxSinglePayloadBytes) :
    hydrateReference platform store event allowed ⟨blank (fact.path :: paths) v,
        size platform.floatText (blank (fact.path :: paths) v), seen⟩
        (fact.reference platform event.agentSessionId) =
      .ok ⟨blank paths v, size platform.floatText (blank paths v), fact.slot.1 :: seen⟩ := by
  have null : resolve (blank (fact.path :: paths) v) fact.path = some .null :=
    resolve_blank_first apart of.found
  have atLeast := size_resolve_le platform.floatText null
  rw [size_null] at atLeast
  have accounts := size_blank_first platform.floatText apart of.found
  have body := of.size_body orderly numbers
  have bytes : saturatingAdd u64Max (size platform.floatText (blank (fact.path :: paths) v) - 4)
      fact.bytes.length = size platform.floatText (blank paths v) := by
    rw [saturatingAdd_of_le]
    · omega
    · rw [maxSinglePayloadBytes] at within
      rw [u64Max]
      omega
  have large := of.large
  have isForSlot : (fact.reference platform event.agentSessionId).isForSlot event.agentSessionId
      fact.slot.1 fact.slot.2 = true := by
    simp [SharedToolContentReference.isForSlot, Fact.reference, large, short]
  have read : pointer (blank (fact.path :: paths) v) fact.slot.1 = some .null := by
    rw [pointer, of.named, Option.bind_some, null]
  have restored : assign (blank (fact.path :: paths) v) fact.slot.1 fact.body = blank paths v := by
    simp only [assign, of.named]
    exact set_blank_first apart of.found
  simp only [hydrateReference, invalidPayload, orInvalidPayload, bind_eq_ok, guard_eq_ok]
  refine ⟨?_, ?_, .null, ?_, ?_, fact.record platform event.agentSessionId, ?_, ?_, ?_⟩
  · simp only [Bool.or_eq_true, Bool.not_eq_true', decide_eq_true_eq, not_or, not_not,
      Bool.not_eq_false]
    exact ⟨⟨unseen, listed⟩, isForSlot⟩
  · rw [not_lt]
    exact bytes.trans_le within
  · rw [Fact.reference, read]
  · exact fun different => different rfl
  · have found : store.rest.payloads[(fact.reference platform event.agentSessionId).payloadId]? =
        some (fact.record platform event.agentSessionId) := stored
    rw [found]
  · simp [Fact.record, Fact.reference]
  · simp only [Fact.record, bind_eq_ok, guard_eq_ok]
    refine ⟨fact.bytes, of.bytes, ?_, ?_⟩
    · simp [Fact.reference, Fact.digest, of.typed]
    · simp only [Fact.reference, restored, bytes]
      rfl

theorem hydrateReferences_restore (bounded : size platform.floatText v ≤ maxSinglePayloadBytes)
    (each : ∀ fact ∈ facts, fact.Of platform v) (apart : (facts.map (·.path)).Pairwise Apart)
    (listed : ∀ fact ∈ facts, fact.slot ∈ allowed) (unseen : ∀ fact ∈ facts, fact.slot.1 ∉ seen)
    (short : ∀ fact ∈ facts, fact.bytes.length ≤ canonicalPayloadMaxBytes) (stored : ∀ fact ∈ facts,
      store.rest.payloads[(fact.record platform event.agentSessionId).payloadId]? =
        some (fact.record platform event.agentSessionId)) :
    ∃ seen', (facts.map (Fact.reference platform event.agentSessionId)).foldlM
        (hydrateReference platform store event allowed)
        ⟨blank (facts.map (·.path)) v, size platform.floatText (blank (facts.map (·.path)) v),
          seen⟩ =
      .ok ⟨v, size platform.floatText v, seen'⟩ := by
  induction facts generalizing seen with
  | nil => exact ⟨seen, rfl⟩
  | cons fact facts ih =>
    have within : size platform.floatText (blank (facts.map (·.path)) v) ≤ maxSinglePayloadBytes :=
      (size_blank_le orderly numbers (fun other member => each other (mem_cons_of_mem _ member))
        (List.Pairwise.of_cons apart)).trans bounded
    rw [map_cons, pairwise_cons] at apart
    rw [forall_mem_cons] at each listed unseen short stored
    have first := hydrateReference_restores orderly numbers each.1 apart.1 listed.1 unseen.1 short.1
      stored.1 within
    have unseenNow : ∀ other ∈ facts, other.slot.1 ∉ fact.slot.1 :: seen := by
      intro other member again
      rcases mem_cons.mp again with same | before
      · have samePath : fact.path = other.path := by
          have named := (each.2 other member).named
          rwa [same, each.1.named, Option.some.injEq] at named
        exact (apart.1 other.path (mem_map_of_mem member)).ne samePath
      · exact unseen.2 other member before
    obtain ⟨seen', rest⟩ := ih each.2 apart.2 listed.2 unseenNow short.2 stored.2
    refine ⟨seen', ?_⟩
    simp only [map_cons, foldlM_cons, bind_eq_ok]
    exact ⟨_, first, rest⟩

end Nomifun.Guarantees.ContentSharing
