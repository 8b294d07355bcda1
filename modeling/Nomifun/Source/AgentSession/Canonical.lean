import Nomifun.Source.AgentSession.Effects
import Nomifun.Source.AgentSession.SessionView

/-!
# The canonical append

nomifun-agent-session, store.rs:5094-5118 and 5230-5239. `canonical` fills the surroundings of an
append with the payload storage, the content sharing and the effect rules of the source.
`Committed` says what a new event leaves behind: which checks it passed and what it wrote.
-/
namespace Nomifun.Source.AgentSession
open Library Library.Json Source.AgentContracts

variable {σ : Type} {append : SessionEventAppend} {record : SessionEventRecord} {now : Int}

section

variable (platform : Platform) (outer : Outer σ)

section

variable (store : Store (Records σ)) (append : SessionEventAppend)

/-- The payload that comes with an append, or the stored one that a sharing kind refers to. -/
def suppliedPayload (payload : Option SessionPayloadRecord) : Option SessionPayloadRecord :=
  match payload, append.semanticEvent.payload with
  | some payload, _ => some payload
  | none, .stored id =>
    if sharesContent append.semanticEvent.kind then store.rest.payloads[id]? else none
  | none, .empty | none, .inlineJson _ => none

def checkSupplied (supplied : Option SessionPayloadRecord) : StoreResult Unit :=
  match supplied with
  | none => .ok ()
  | some payload => do
    validateSuppliedPayload append payload
    validatePayloadContents platform outer payload
    if store.rest.payloads[payload.payloadId]?.any (· ≠ payload) then
      .error (.idempotencyConflict "supplied payload identity already has different content")

def prepareAppend (payload : Option SessionPayloadRecord) :
    StoreResult (Prepared SessionPayloadRecord) := do
  let supplied := suppliedPayload store append payload
  checkSupplied platform outer store append supplied
  prepareContent platform outer store append supplied

end

def canonical : Surroundings (Records σ) SessionPayloadRecord where
  prepare := prepareAppend platform outer
  liveFromRow := outer.liveFromRow
  duplicateContent store append payload :=
    duplicateContent platform outer store append (suppliedPayload store append payload)
  insertPayloads store append prepared :=
    (insertPrepared platform outer store append prepared).map (·.rest)
  ensureRemoteSessionAdmitted := outer.ensureRemoteSessionAdmitted
  checkDomainWorkAdmission := outer.checkDomainWorkAdmission
  validateEffectTransition := validateEffectTransition platform outer
  validatePayloadReference := validatePayloadReference
  hydrate := hydrate platform outer
  validateSemanticEvent := outer.validateSemanticEvent
  projectEffectFact store event payload := (projectEffectFact outer store event payload).map
    fun effects => { store.rest with effects := effects }
  projectMessages store event payload := (outer.projectMessages store event payload).map
    fun other => { store.rest with other := other }

end

/-! ### What a new event leaves behind -/

section

variable {ρ : Type} {platform : Platform} {around : Surroundings σ ρ}

/-- A new event was written: `prepared` is what sharing made of its payload, `inserted` the other
tables after its payloads were stored, `value` its hydrated payload. -/
structure Committed (platform : Platform) (around : Surroundings σ ρ) (now : Int)
    (append : SessionEventAppend) (prepared : Prepared ρ) (inserted : σ) (value : Value)
    (store after : Store σ) (record : SessionEventRecord) : Prop where
  recorded : record = recordFromAppend append record.seq
  inserts : around.insertPayloads store append prepared = .ok inserted
  checks : ∃ entry storedBody before,
    registryEntry append.semanticEvent.kind append.semanticEvent.kindVersion = .ok entry ∧
    checkEvent around { store with rest := inserted } append entry = .ok storedBody ∧
    around.hydrate before record (payloadValue record storedBody) = .ok value ∧
    before.events = after.events ∧ before.rest = inserted
  unique : ∀ event ∈ store.events, event.eventId ≠ record.eventId ∧
    ¬ (event.producerId = record.producerId ∧ event.idempotencyKey = record.idempotencyKey)
  written : Written platform now append { store with rest := inserted } after record
  turns : projectTurnFact now record value store.turns = .ok after.turns
  effects : ∃ before projected, around.projectEffectFact before record value = .ok projected ∧
    before.events = after.events ∧ before.turns = after.turns ∧ before.rest = inserted ∧
    (after.rest = projected ∨ ∃ headed : Store σ, headed.rest = projected ∧
      around.projectMessages headed record value = .ok after.rest)

/-- The append as it is written, with the payload that sharing made of it. -/
def preparedAppend (append : SessionEventAppend) (prepared : Prepared ρ) : SessionEventAppend :=
  { append with semanticEvent := { append.semanticEvent with payload := prepared.payload } }

theorem insertEvent_ok (ok : insertEvent store record = .ok after) :
    after = { store with events := store.events ++ [record] } ∧
      ∀ event ∈ store.events, event.eventId ≠ record.eventId ∧
        ¬ (event.producerId = record.producerId ∧
          event.idempotencyKey = record.idempotencyKey) := by
  simp only [insertEvent, last_guard_eq_ok, Except.ok.injEq, List.any_eq_true, not_exists,
    not_and, Bool.or_eq_true, Bool.and_eq_true, decide_eq_true_eq, not_or] at ok
  obtain ⟨free, rfl⟩ := ok
  refine ⟨rfl, fun event member => ⟨(free event member).1.2, fun same => ?_⟩⟩
  exact (free event member).2 same.1 same.2

theorem writeEvent_committed (inserts : around.insertPayloads store append prepared = .ok inserted)
    (registered : registryEntry append.semanticEvent.kind
      append.semanticEvent.kindVersion = .ok entry)
    (checked : checkEvent around { store with rest := inserted } append entry = .ok storedBody)
    (ok : writeEvent platform around now { store with rest := inserted } append entry permitted
      storedBody = .ok written) :
    ∃ value, Committed platform around now append prepared inserted value store written.1
      written.2 := by
  simp only [writeEvent, bind_eq_ok] at ok
  obtain ⟨taken, numbered, numberedStore, entered, value, hydrated, _, -, turns, projected, rest,
    effects, final, headed, ok⟩ := ok
  obtain ⟨row, found, next, same⟩ := takeSeq_ok numbered
  obtain ⟨rfl, free⟩ := insertEvent_ok entered
  obtain ⟨head, head', held, reduced, rfl⟩ := projectHead_ok headed
  simp only [same] at hydrated projected effects free held ok
  have tables (rest : σ) : Written platform now append { store with rest := inserted }
      ⟨_, _, _, _, rest⟩ (recordFromAppend append taken.1) :=
    ⟨rfl, ⟨row, found, next, rfl⟩, rfl, value, head, head', projected, held, reduced, rfl⟩
  refine ⟨value, ?_⟩
  -- The message projection writes to another table.
  split at ok
  · obtain ⟨messages, shown, done⟩ := bind_eq_ok.mp ok
    cases done
    exact ⟨rfl, inserts,
      ⟨entry, storedBody, _, registered, checked, hydrated, rfl, rfl⟩, free, tables _, projected,
      _, rest, effects, rfl, rfl, rfl, .inr ⟨_, rfl, shown⟩⟩
  · cases ok
    exact ⟨rfl, inserts,
      ⟨entry, storedBody, _, registered, checked, hydrated, rfl, rfl⟩, free, tables _, projected,
      _, rest, effects, rfl, rfl, rfl, .inl rfl⟩

/-- The outcomes of an append: it changed nothing, it stored payloads for an event that was there
already, or it committed a new event. -/
theorem appendEventWithPolicy_outcome
    (ok : appendEventWithPolicy platform around policy now append payload store =
      .ok (after, result)) :
    after = store ∨
    ∃ prepared inserted, around.prepare store append payload = .ok prepared ∧
      ((around.insertPayloads store (preparedAppend append prepared) prepared = .ok inserted ∧
          after = { store with rest := inserted }) ∨
        ∃ value record, result = persistedResult record false ∧
          Committed platform around now (preparedAppend append prepared) prepared inserted value
            store after record) := by
  simp only [appendEventWithPolicy, bind_eq_ok] at ok
  obtain ⟨_, -, prepared, prepares, entry, registered, row, -, permitted, -, ok⟩ := ok
  split at ok
  · obtain ⟨_, -, done⟩ := bind_eq_ok.mp ok
    cases done
    exact .inl rfl
  · obtain ⟨shared, -, ok⟩ := bind_eq_ok.mp ok
    cases shared with
    | some record =>
      cases ok
      exact .inl rfl
    | none =>
      simp only [appendPersistent, bind_eq_ok] at ok
      obtain ⟨inserted, inserts, known, -, ok⟩ := ok
      refine .inr ⟨prepared, inserted, prepares, ?_⟩
      cases known with
      | some record =>
        cases ok
        exact .inl ⟨inserts, rfl⟩
      | none =>
        obtain ⟨storedBody, checked, ok⟩ := bind_eq_ok.mp ok
        obtain ⟨written, writes, done⟩ := bind_eq_ok.mp ok
        cases Except.ok.inj done
        obtain ⟨value, committed⟩ := writeEvent_committed inserts registered checked writes
        exact .inr ⟨value, written.2, rfl, committed⟩

/-- **What an append can do**: nothing to any session, or one event is committed to its session
and every other session is as before. -/
theorem appendEventWithPolicy_commits
    (ok : appendEventWithPolicy platform around policy now append payload store =
      .ok (after, result)) :
    (∀ session, after.view session = store.view session) ∨
      ∃ record, Commits record (store.view append.agentSessionId)
          (after.view append.agentSessionId) ∧
        ∀ session ≠ append.agentSessionId, after.view session = store.view session := by
  rcases appendEventWithPolicy_outcome ok with rfl | ⟨_, _, -, ⟨-, rfl⟩ | ⟨_, record, -, committed⟩⟩
  · exact .inl fun _ => rfl
  · exact .inl fun _ => rfl
  · obtain ⟨_, _, _, registered, checked, -⟩ := committed.checks
    exact .inr ⟨record, committed.written.commits registered checked⟩

end

/-! ### The canonical tables after a new event -/

variable {platform : Platform} {outer : Outer σ} {store after : Store (Records σ)}
  {prepared : Prepared SessionPayloadRecord} {inserted : Records σ} {value : Value}

theorem insertPayloads_grows
    (ok : (canonical platform outer).insertPayloads store append prepared = .ok inserted) :
    ∃ grown, insertPrepared platform outer store append prepared = .ok grown ∧
      inserted = grown.rest ∧ Grows store grown := by
  obtain ⟨grown, stored, rfl⟩ := map_eq_ok.mp ok
  exact ⟨grown, stored, rfl, (insertPrepared_ok stored).1⟩

variable (committed : Committed platform (canonical platform outer) now append prepared inserted
  value store after record)
include committed

theorem Committed.effectTransition :
    validateEffectTransition platform outer { store with rest := inserted } append = .ok () := by
  obtain ⟨entry, storedBody, _, -, checked, -⟩ := committed.checks
  simp only [checkEvent, bind_eq_ok] at checked
  obtain ⟨_, -, _, -, _, -, _, -, _, transition, -⟩ := checked
  exact transition

/-- What a new event leaves in the tables of `Records`. -/
theorem Committed.records :
    after.rest.owners = store.rest.owners ∧ after.rest.payloads = inserted.payloads ∧
      ∃ before : Store (Records σ), before.rest = inserted ∧
        before.rest.effects = store.rest.effects ∧
        projectEffectFact outer before record value = .ok after.rest.effects := by
  obtain ⟨grown, -, rfl, grows⟩ := insertPayloads_grows committed.inserts
  obtain ⟨before, projected, posted, -, -, same, final⟩ := committed.effects
  have unchanged : before.rest.owners = store.rest.owners ∧
      before.rest.effects = store.rest.effects := by
    rw [same, grows.same]
    exact ⟨rfl, rfl⟩
  obtain ⟨effects, posts, posted⟩ := map_eq_ok.mp posted
  have tables : after.rest.owners = before.rest.owners ∧
      after.rest.payloads = before.rest.payloads ∧ after.rest.effects = effects := by
    rcases final with final | ⟨headed, shown, messages⟩
    · rw [final, ← posted]
      exact ⟨rfl, rfl, rfl⟩
    · obtain ⟨other, -, messages⟩ := map_eq_ok.mp messages
      rw [← messages, shown, ← posted]
      exact ⟨rfl, rfl, rfl⟩
  obtain ⟨owners, payloads, effectRows⟩ := tables
  refine ⟨owners.trans unchanged.1, by rw [payloads, same], before, same, unchanged.2, ?_⟩
  rw [posts, effectRows]

end Nomifun.Source.AgentSession
