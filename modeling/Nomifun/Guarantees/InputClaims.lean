import Nomifun.Library.SingleUse
import Nomifun.Guarantees.EffectLifecycle
import Nomifun.Source.AgentSession.InputCommands

/-!
# The usage of a session input in the log

What the log says of an input: the events that claim it, and whether one cancels it. The commands
ask the turn table and the stored payloads instead, so the log has to agree with both. Each append
adds at most one event, and the usage moves as that of a thing that is used once.
-/
namespace Nomifun.Guarantees.InputConsumption
open Library Library.Json Library.SingleUse Library.Table Source.AgentContracts Source.AgentSession
  List

variable {event : SessionEventRecord} {σ : Type} {platform : Platform}
  {store after : Store (Records σ)} {append : SessionEventAppend} {session : AgentSessionId}
  {input : EventId} {record : SessionEventRecord}

/-! ### The rows that a start leaves -/

/-- The columns by which a claim finds the start of a turn. -/
def turnStart (row : TurnRow) : AgentSessionId × Option EventId × OperationId :=
  (row.sessionId, row.startedEventId, row.operationId)

theorem held_starts (held : Held event turns turns') :
    turns'.map turnStart = turns.map turnStart := by
  obtain ⟨-, same, -⟩ := held
  exact map_updateWhere fun row _ => by simp [turnStart, same row]

theorem projectTerminal_starts (ok : projectTerminal state event turns = .ok turns') :
    turns'.map turnStart = turns.map turnStart := by
  simp only [projectTerminal, bind_eq_ok, last_guard_eq_ok] at ok
  obtain ⟨seq, -, -, ok⟩ := ok
  have finished : (updateWhere (runningTurn event) (finishedTurn state event seq) turns).map
      turnStart = turns.map turnStart := map_updateWhere fun _ _ => rfl
  split at ok
  · cases ok
    refine Eq.trans (map_updateWhere ?_) finished
    exact fun _ _ => rfl
  · cases ok
    exact finished

theorem projectStarted_starts (ok : projectStarted now event payload turns = .ok turns') :
    turns'.map turnStart = turns.map turnStart ++
      [(event.agentSessionId, some event.eventId, event.correlationId)] := by
  simp only [projectStarted, bind_eq_ok, last_guard_eq_ok, Except.ok.injEq] at ok
  obtain ⟨_, -, -, rfl⟩ := ok
  rw [map_append]
  rfl

/-- A start adds its row; every other event leaves the starts as they are. -/
theorem projectTurnFact_starts (ok : projectTurnFact now event payload turns = .ok turns') :
    event.kind ≠ "turn/started" ∧ turns'.map turnStart = turns.map turnStart ∨
      turns'.map turnStart = turns.map turnStart ++
        [(event.agentSessionId, some event.eventId, event.correlationId)] := by
  unfold projectTurnFact at ok
  split at ok
  case h_5 kind | h_6 kind | h_7 kind =>
    exact .inl ⟨by rw [kind]; decide, projectTerminal_starts ok⟩
  next kind =>
    cases ok
    exact .inl ⟨by rw [kind]; decide, map_updateWhere fun _ _ => rfl⟩
  next kind => exact .inl ⟨by rw [kind]; decide, held_starts (projectPaused_held ok)⟩
  next kind => exact .inl ⟨by rw [kind]; decide, held_starts (projectResumeAuthorized_held ok)⟩
  next => exact .inr (projectStarted_starts ok)
  next _ _ _ unstarted _ _ _ =>
    cases ok
    exact .inl ⟨unstarted, rfl⟩

/-! ### What an append writes -/

/-- Events and starts are as before, and no payload was lost. -/
structure Untouched {σ : Type} (store after : Store (Records σ)) : Prop where
  events : after.events = store.events
  starts : store.turns.map turnStart <+: after.turns.map turnStart
  payloads : ∀ (id : String) (payload : SessionPayloadRecord),
    store.rest.payloads[id]? = some payload → after.rest.payloads[id]? = some payload

/-- One event was added to the log, with what its readers need: the row of a turn that it starts
and the payload that it refers to. -/
structure Logged {σ : Type} (store after : Store (Records σ)) (record : SessionEventRecord) :
    Prop where
  events : after.events = store.events ++ [record]
  starts : store.turns.map turnStart <+: after.turns.map turnStart
  started : record.kind = "turn/started" →
    (record.agentSessionId, some record.eventId, record.correlationId) ∈ after.turns.map turnStart
  payloads : ∀ (id : String) (payload : SessionPayloadRecord),
    store.rest.payloads[id]? = some payload → after.rest.payloads[id]? = some payload
  body : ∀ id, record.payload = .stored id → ∃ payload, after.rest.payloads[id]? = some payload

theorem validatePayloadReference_ok {id : String}
    (ok : validatePayloadReference store append = .ok storedBody)
    (stored : append.semanticEvent.payload = .stored id) :
    ∃ payload, store.rest.payloads[id]? = some payload := by
  simp only [validatePayloadReference, stored, bind_eq_ok] at ok
  obtain ⟨payload, found, -⟩ := ok
  cases known : store.rest.payloads[id]? with
  | none => simp [known, orInvalidPayload, invalidPayload] at found
  | some payload => exact ⟨payload, rfl⟩

theorem committed_logged {value : Value}
    (committed : Committed platform (canonical platform outer) now append prepared inserted value
      store after record) : Logged store after record := by
  obtain ⟨grown, -, rfl, grows⟩ := insertPayloads_grows committed.inserts
  obtain ⟨-, payloads, -⟩ := committed.records
  have starts := projectTurnFact_starts committed.turns
  refine ⟨committed.written.events, ?_, ?_, ?_, ?_⟩
  · rcases starts with ⟨-, same⟩ | added
    · exact same ▸ prefix_refl _
    · exact added ▸ prefix_append _ _
  · intro started
    rcases starts with ⟨other, -⟩ | added
    · exact absurd started other
    · simp [added]
  · intro id payload found
    rw [payloads]
    exact grows.keeps id payload found
  · intro id stored
    obtain ⟨entry, storedBody, _, -, checked, -⟩ := committed.checks
    simp only [checkEvent, bind_eq_ok] at checked
    obtain ⟨_, -, _, -, _, -, _, -, _, -, referenced⟩ := checked
    rw [committed.recorded] at stored
    obtain ⟨payload, found⟩ := validatePayloadReference_ok referenced stored
    exact ⟨payload, by rw [payloads]; exact found⟩

/-- An append wrote one event, or none. -/
theorem append_logs
    (ok : appendEventWithPolicy platform (canonical platform outer) policy now append payload
      store = .ok (after, result)) :
    Untouched store after ∨ ∃ prepared record,
      prepareAppend platform outer store append payload = .ok prepared ∧
      record = recordFromAppend (preparedAppend append prepared) record.seq ∧
      Logged store after record := by
  rcases appendEventWithPolicy_outcome ok with rfl | ⟨prepared, inserted, prepares, outcome⟩
  · exact .inl ⟨rfl, prefix_refl _, fun _ _ found => found⟩
  · rcases outcome with ⟨inserts, rfl⟩ | ⟨value, record, -, committed⟩
    · obtain ⟨grown, -, rfl, grows⟩ := insertPayloads_grows inserts
      exact .inl ⟨rfl, prefix_refl _, grows.keeps⟩
    · exact .inr ⟨prepared, record, prepares, committed.recorded, committed_logged committed⟩

/-- An event of a kind that shares no content is written as it was given. -/
theorem prepareAppend_plain (plain : sharesContent append.semanticEvent.kind = false)
    (ok : prepareAppend platform outer store append payload = .ok prepared) :
    preparedAppend append prepared = append := by
  simp only [prepareAppend, bind_eq_ok, prepareContent, plain] at ok
  obtain ⟨_, -, done⟩ := ok
  cases done
  rfl

theorem appendInline_logs (plain : sharesContent append.semanticEvent.kind = false)
    (ok : appendInline platform outer now append store = .ok (after, result)) :
    Untouched store after ∨ ∃ seq, Logged store after (recordFromAppend append seq) := by
  rcases append_logs ok with untouched | ⟨prepared, record, prepares, recorded, logged⟩
  · exact .inl untouched
  · rw [prepareAppend_plain plain prepares] at recorded
    exact .inr ⟨record.seq, recorded ▸ logged⟩

/-! ### The usage of an input -/

/-- The event says that the owner of the input cancelled it. -/
def isCancellation (session : AgentSessionId) (input : EventId) (event : SessionEventRecord) :
    Bool :=
  event.agentSessionId = session && event.eventId = cancellationId input

def usage {σ : Type} (platform : Platform) (store : Store (Records σ)) (session : AgentSessionId)
    (input : EventId) : Usage SessionEventRecord :=
  ⟨consumptionClaims platform store session input, store.events.any (isCancellation session input)⟩

/-- The starts of the session are in the turn table, and the payloads its events refer to are
stored. -/
structure Recorded {σ : Type} (store : Store (Records σ)) (session : AgentSessionId) : Prop where
  starts : ∀ event ∈ store.events, event.agentSessionId = session →
    event.kind = "turn/started" →
      (session, some event.eventId, event.correlationId) ∈ store.turns.map turnStart
  bodies : ∀ event ∈ store.events, event.agentSessionId = session →
    ∀ id, event.payload = .stored id → ∃ payload, store.rest.payloads[id]? = some payload

section

theorem cancelled_logged (logged : Logged store after record) :
    after.events.any (isCancellation session input) =
      (store.events.any (isCancellation session input) || isCancellation session input record) := by
  rw [logged.events, any_append, any_cons, any_nil, Bool.or_false]

variable (recorded : Recorded store session)
include recorded

theorem Recorded.untouched (untouched : Untouched store after) : Recorded after session := by
  refine ⟨fun event member own kind => ?_, fun event member own id stored => ?_⟩
  · rw [untouched.events] at member
    exact untouched.starts.subset (recorded.starts event member own kind)
  · rw [untouched.events] at member
    obtain ⟨payload, found⟩ := recorded.bodies event member own id stored
    exact ⟨payload, untouched.payloads id payload found⟩

theorem Recorded.logged (logged : Logged store after record) : Recorded after session := by
  refine ⟨fun event member own kind => ?_, fun event member own id stored => ?_⟩
  · rw [logged.events, mem_append, mem_singleton] at member
    rcases member with earlier | rfl
    · exact logged.starts.subset (recorded.starts event earlier own kind)
    · exact own ▸ logged.started kind
  · rw [logged.events, mem_append, mem_singleton] at member
    rcases member with earlier | rfl
    · obtain ⟨payload, found⟩ := recorded.bodies event earlier own id stored
      exact ⟨payload, logged.payloads id payload found⟩
    · exact logged.body id stored

/-- What the queries read of an event does not change while its payload is kept. -/
theorem Recorded.columnJson_kept (payloads : ∀ (id : String) (payload : SessionPayloadRecord),
      store.rest.payloads[id]? = some payload → after.rest.payloads[id]? = some payload)
    (member : event ∈ store.events) (own : event.agentSessionId = session) :
    columnJson after event = columnJson store event := by
  unfold columnJson
  cases stored : event.payload with
  | empty | inlineJson => rfl
  | stored id =>
    obtain ⟨payload, found⟩ := recorded.bodies event member own id stored
    simp [found, payloads id payload found]

theorem Recorded.claims_kept (payloads : ∀ (id : String) (payload : SessionPayloadRecord),
      store.rest.payloads[id]? = some payload → after.rest.payloads[id]? = some payload) :
    store.events.filter (isConsumptionClaim platform after session input) =
      consumptionClaims platform store session input := by
  refine filter_congr fun event member => ?_
  by_cases own : event.agentSessionId = session
  · simp [isConsumptionClaim, steeringClaims, extractedIs, extracted,
      recorded.columnJson_kept payloads member own]
  · simp [isConsumptionClaim, steeringClaims, own]

theorem usage_untouched (untouched : Untouched store after) :
    usage platform after session input = usage platform store session input := by
  rw [usage, usage, consumptionClaims, untouched.events, recorded.claims_kept untouched.payloads]

theorem claims_logged (logged : Logged store after record) :
    consumptionClaims platform after session input =
      consumptionClaims platform store session input ++
        [record].filter (isConsumptionClaim platform after session input) := by
  rw [consumptionClaims, logged.events, filter_append, recorded.claims_kept logged.payloads]

/-- An event that neither claims nor cancels the input. -/
theorem usage_quiet (logged : Logged store after record)
    (unclaimed : isConsumptionClaim platform after session input record = false)
    (uncancelled : isCancellation session input record = false) :
    usage platform after session input = usage platform store session input := by
  rw [usage, claims_logged recorded logged, cancelled_logged logged]
  simp [unclaimed, uncancelled, usage]

/-- The query of the claims finds every claim in the log. -/
theorem Recorded.unclaimed (unclaimed : inputClaimed platform store session input = false) :
    consumptionClaims platform store session input = [] := by
  simp only [inputClaimed, Bool.or_eq_false_iff, any_eq_false, Bool.not_eq_true] at unclaimed
  obtain ⟨noTurn, noSteering⟩ := unclaimed
  refine filter_eq_nil_iff.mpr fun event member claims => ?_
  rw [isConsumptionClaim, Bool.or_eq_true, noSteering event member] at claims
  simp only [Bool.and_eq_true, decide_eq_true_eq, Bool.false_eq_true, or_false] at claims
  obtain ⟨⟨own, kind⟩, caused⟩ := claims
  obtain ⟨row, listed, start⟩ := mem_map.mp (recorded.starts event member own kind)
  obtain ⟨rowSession, rowStart, rowOperation⟩ :
      row.sessionId = session ∧ row.startedEventId = some event.eventId ∧
        row.operationId = event.correlationId := by
    simpa [turnStart] using start
  have claimed : turnClaims store session input row = true := by
    simp only [turnClaims, Bool.and_eq_true, Bool.or_eq_true, decide_eq_true_eq, any_eq_true]
    exact ⟨rowSession, event, member, ⟨⟨⟨rowStart, own.trans rowSession.symm⟩, kind⟩,
      rowOperation.symm⟩, .inr caused⟩
  rw [noTurn row listed] at claimed
  cases claimed

end

/-! ### The ids of cancellations -/

theorem cancellationId_eq (input : EventId) :
    cancellationId input = blockedId input .cancelledByOwner := by
  have joined : ":" ++ "cancelled_by_owner" = ":cancelled_by_owner" := by decide
  exact ((String.append_assoc ..).trans (congrArg _ joined)).symm

theorem toList_join (first second third fourth : String) :
    (first ++ second ++ third ++ fourth).toList =
      first.toList ++ (second.toList ++ (third.toList ++ fourth.toList)) := by
  simp

theorem toList_blockedId (input : EventId) (reason : SessionInputBlockedReason) :
    (blockedId input reason).toList =
      "session-input-blocked:".toList ++ (input.toList ++ (":".toList ++ reason.identity.toList)) :=
  toList_join _ _ _ _

theorem parseHyphenated_head {c : Char} {chars : List Char} (nonHex : isHex c = false) :
    parseHyphenated (c :: chars) = none := by
  simp [parseHyphenated, hyphenPositions, nonHex]

/-- The new ids are UUIDs, and no cancellation has such an id. -/
theorem newEventId_ne_cancellationId (id : NewEventId) (input : EventId) :
    id.text ≠ cancellationId input := by
  intro same
  obtain ⟨rest, chars⟩ : ∃ rest, id.text.toList = 's' :: rest :=
    ⟨_, by rw [same, cancellationId_eq, toList_blockedId]; rfl⟩
  have unparsed : parseUuid id.text = none := by
    simp [parseUuid, chars, parseHyphenated_head (c := 's') rfl, isHex]
  have valid := id.uuid
  simp [validateUuidv7, unparsed] at valid

theorem append_cons_inj (notIn : c ∉ first) (notIn' : c ∉ second)
    (same : xs ++ c :: first = ys ++ c :: second) : xs = ys ∧ first = second := by
  rcases append_eq_append_iff.mp same with ⟨middle, rfl, split⟩ | ⟨middle, rfl, split⟩
  all_goals
    cases middle with
    | nil => simpa [eq_comm] using split
    | cons head middle => simp_all

/-- Only the cancellation of an input by its owner has the id of one. -/
theorem blockedId_eq_cancellationId (same : blockedId other reason = cancellationId input) :
    other = input := by
  have chars := congrArg String.toList same
  rw [cancellationId_eq, toList_blockedId, toList_blockedId, append_cancel_left_eq] at chars
  have plain : ':' ∉ reason.identity.toList := by cases reason <;> decide
  exact String.toList_inj.mp (append_cons_inj plain (by decide) chars).1

/-! ### One append -/

/-- The usage of the input took the steps of a thing that is used once, and no claim was added
unless the input was `claimable`. -/
structure Uses {σ : Type} (platform : Platform) (session : AgentSessionId) (input : EventId)
    (claimable : Prop) (store after : Store (Records σ)) : Prop where
  recorded : Recorded after session
  run : Run (usage platform store session input) (usage platform after session input)
  claims : ¬ claimable → consumptionClaims platform after session input =
    consumptionClaims platform store session input

/-- The append is about another input, or about none. -/
structure Unrelated (input : EventId) (append : SessionEventAppend) : Prop where
  start : append.semanticEvent.kind = "turn/started" →
    append.semanticEvent.causationEventId ≠ some input
  steering : append.semanticEvent.kind = "turn/steer-accepted" →
    append.semanticEvent.kindVersion ≠ 2
  cancellation : append.eventId ≠ cancellationId input

theorem Uses.trans (first : Uses platform session input claimable store between)
    (second : Uses platform session input claimable between after) :
    Uses platform session input claimable store after :=
  ⟨second.recorded, first.run.trans second.run,
    fun unclaimable => (second.claims unclaimable).trans (first.claims unclaimable)⟩

theorem Uses.of_same (recorded : Recorded after session)
    (same : usage platform after session input = usage platform store session input) :
    Uses platform session input claimable store after :=
  ⟨recorded, same ▸ .refl, fun _ => congrArg Usage.claims same⟩

theorem Uses.mono (uses : Uses platform session input claimable store after)
    (implies : claimable → weaker) : Uses platform session input weaker store after :=
  ⟨uses.recorded, uses.run, fun unclaimable => uses.claims (unclaimable ∘ implies)⟩

theorem Unrelated.of_kind (start : kind ≠ "turn/started") (steering : kind ≠ "turn/steer-accepted")
    {id producer key correlation : String} {cause : Option EventId}
    {payload : SessionEventPayloadRef} (cancellation : id ≠ cancellationId input) : Unrelated input
      ⟨session, id, producer, key, ⟨kind, version, correlation, cause, payload⟩⟩ :=
  ⟨fun kind => absurd kind start, fun kind => absurd kind steering, cancellation⟩

variable (recorded : Recorded store session)
include recorded

theorem Uses.refl : Uses platform session input claimable store store :=
  ⟨recorded, .refl, fun _ => rfl⟩

theorem Uses.untouched (untouched : Untouched store after) :
    Uses platform session input claimable store after :=
  .of_same (recorded.untouched untouched) (usage_untouched recorded untouched)

theorem unrelated_uses (unrelated : Unrelated input append)
    (ok : appendEventWithPolicy platform (canonical platform outer) policy now append payload
      store = .ok (after, result)) : Uses platform session input claimable store after := by
  rcases append_logs ok with untouched | ⟨prepared, record, -, same, logged⟩
  · exact .untouched recorded untouched
  · have kind : record.kind = append.semanticEvent.kind := congrArg (·.kind) same
    have version : record.kindVersion = append.semanticEvent.kindVersion :=
      congrArg (·.kindVersion) same
    have cause : record.causationEventId = append.semanticEvent.causationEventId :=
      congrArg (·.causationEventId) same
    have id : record.eventId = append.eventId := congrArg (·.eventId) same
    refine .of_same (recorded.logged logged) (usage_quiet recorded logged ?_ ?_)
    · simp only [isConsumptionClaim, steeringClaims, kind, version, cause, Bool.or_eq_false_iff]
      constructor
      · simpa using fun _ => unrelated.start
      · simpa using fun _ steers v2 => absurd v2 (unrelated.steering steers)
    · simp [isCancellation, id, unrelated.cancellation]

/-- A cancellation is written only while nobody claimed the input. -/
theorem blocked_uses (unclaimed : inputClaimed platform store owner blocked = false)
    (ok : appendInline platform outer now (blockedAppend owner blocked reason) store =
      .ok (after, result)) : Uses platform session input claimable store after := by
  rcases appendInline_logs rfl ok with untouched | ⟨seq, logged⟩
  · exact .untouched recorded untouched
  have quiet : isConsumptionClaim platform after session input
      (recordFromAppend (blockedAppend owner blocked reason) seq) = false := by
    simp [isConsumptionClaim, steeringClaims, recordFromAppend, blockedAppend]
  cases cancels : isCancellation session input
      (recordFromAppend (blockedAppend owner blocked reason) seq) with
  | false => exact .of_same (recorded.logged logged) (usage_quiet recorded logged quiet cancels)
  | true =>
    have kept : consumptionClaims platform after session input =
        consumptionClaims platform store session input := by
      simp [claims_logged recorded logged, quiet]
    -- The event cancels this very input, so the query was about it.
    have none : consumptionClaims platform store session input = [] := by
      have same := cancels
      simp only [isCancellation, Bool.and_eq_true, decide_eq_true_eq] at same
      obtain ⟨rfl, sameId⟩ := same
      obtain rfl := blockedId_eq_cancellationId sameId
      exact recorded.unclaimed unclaimed
    refine ⟨recorded.logged logged, ?_, fun _ => kept⟩
    rw [usage, usage, kept, none, cancelled_logged logged, cancels, Bool.or_true]
    exact .single .withdraw

/-- A claim is written only while nobody claimed the input or cancelled it. -/
theorem claim_uses (plain : sharesContent append.semanticEvent.kind = false)
    (uncancelled : append.eventId ≠ cancellationId input)
    (free : ∀ (later : Store (Records σ)) (seq : Nat), isConsumptionClaim platform later session
      input (recordFromAppend append seq) = true →
        usage platform store session input = unused ∧ claimable)
    (ok : appendInline platform outer now append store = .ok (after, result)) :
    Uses platform session input claimable store after := by
  rcases appendInline_logs plain ok with untouched | ⟨seq, logged⟩
  · exact .untouched recorded untouched
  have kept : isCancellation session input (recordFromAppend append seq) = false := by
    simp [isCancellation, recordFromAppend, uncancelled]
  cases claims : isConsumptionClaim platform after session input (recordFromAppend append seq) with
  | false => exact .of_same (recorded.logged logged) (usage_quiet recorded logged claims kept)
  | true =>
    obtain ⟨unusedBefore, may⟩ := free after seq claims
    obtain ⟨none, alive⟩ := Usage.mk.inj unusedBefore
    refine ⟨recorded.logged logged, ?_, fun unclaimable => absurd may unclaimable⟩
    rw [unusedBefore, usage, claims_logged recorded logged, none, cancelled_logged logged, alive,
      kept]
    simp only [filter_cons, claims, if_true, filter_nil, nil_append]
    exact .single (.claim _)

end Nomifun.Guarantees.InputConsumption
