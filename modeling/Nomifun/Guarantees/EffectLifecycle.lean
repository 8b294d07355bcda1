import Nomifun.Guarantees.TurnLifecycle

/-!
# The lifecycle of a session's effects

The rules for an effect read its state from the event log, the ledger keeps it in a row. Over
every run of appends the two agree: the events of an effect are its start, one outcome and, after
an uncertain outcome, one reconciliation, each caused by the one before and with the identity of
the start; and the row is in the state that the last of them determines.
-/
namespace Nomifun.Guarantees.EffectLifecycle
open Library Library.Json Library.Table Source.AgentContracts Source.AgentSession
  Guarantees.TurnLifecycle List

variable {σ : Type} {platform : Platform} {outer : Outer σ} {store : Store (Records σ)}
  {append : SessionEventAppend} {events : List SessionEventRecord} {payload : Value}
  {effects : List EffectRow} {session : AgentSessionId} {effect : String} {rows : List EffectRow}
  {row : EffectRow}

/-! ### What the events of an effect may be -/

/-- The next event of an effect, after its start and the event before it. -/
structure Continues (start previous next : SessionEventRecord) : Prop where
  causation : next.causationEventId = some previous.eventId
  key : next.idempotencyKey = start.idempotencyKey
  identity : ∃ startPayload nextPayload, start.payload = .inlineJson startPayload ∧
    next.payload = .inlineJson nextPayload ∧
    ∀ field ∈ effectIdentityFields, nextPayload.member field = startPayload.member field

inductive EffectChain : List SessionEventRecord → Prop
  | unstarted : EffectChain []
  | started {start : SessionEventRecord} : start.kind = "effect/started" → EffectChain [start]
  | settled {start terminal : SessionEventRecord} : start.kind = "effect/started" →
      terminal.kind ∈ ["effect/succeeded", "effect/failed", "effect/uncertain"] →
      Continues start start terminal → EffectChain [start, terminal]
  | reconciled {start terminal reconciliation : SessionEventRecord} :
      start.kind = "effect/started" → terminal.kind = "effect/uncertain" →
      Continues start start terminal → reconciliation.kind = "effect/reconciled" →
      Continues start terminal reconciliation → EffectChain [start, terminal, reconciliation]

def outcomeState (payload : SessionEventPayloadRef) : Option EffectState :=
  match payload with
  | .inlineJson value =>
    match fieldText value "outcome" with
    | some "confirmed_succeeded" => some .returned
    | some "confirmed_failed" => some .rejected
    | some "still_uncertain" => some .unknown
    | _ => none
  | .empty | .stored _ => none

/-- The state of an effect whose last event this is. -/
def stateAfter (event : SessionEventRecord) : Option EffectState :=
  if event.kind = "effect/started" then some .pending
  else if event.kind = "effect/succeeded" then some .returned
  else if event.kind = "effect/failed" then some .rejected
  else if event.kind = "effect/uncertain" then some .unknown
  else if event.kind = "effect/reconciled" then outcomeState event.payload
  else none

def isRowOf (session : AgentSessionId) (effect : String) (row : EffectRow) : Bool :=
  row.sessionId = session && row.effectId = effect

def effectRows (store : Store (Records σ)) (session : AgentSessionId) (effect : String) :
    List EffectRow :=
  store.rest.effects.filter (isRowOf session effect)

/-- An effect without events has no row; otherwise it has one, in the state of its last event. -/
def RowsAgree (events : List SessionEventRecord) (rows : List EffectRow) : Prop :=
  match events.getLast? with
  | none => rows = []
  | some last => ∃ row, rows = [row] ∧ stateAfter last = some row.state

structure Ledger (store : Store (Records σ)) (session : AgentSessionId) (effect : String) :
    Prop where
  chain : EffectChain (effectEvents store session effect)
  rows : RowsAgree (effectEvents store session effect) (effectRows store session effect)

/-! ### The rules for a transition -/

theorem orInvalidEvent_ok : orInvalidEvent value message = .ok a ↔ value = some a := by
  cases value <;> simp [orInvalidEvent, invalidEvent]

theorem effectPayload_ok {payload : SessionEventPayloadRef} :
    effectPayload payload = .ok value ↔ payload = .inlineJson value := by
  cases payload <;> simp [effectPayload, invalidEvent]

theorem identityTransition_ok {started previous : SessionEventRecord}
    (key : started.idempotencyKey = append.idempotencyKey)
    (ok : validateEffectIdentityTransition platform started append previous.eventId = .ok ())
    (seq : Nat) : Continues started previous (recordFromAppend append seq) := by
  simp only [validateEffectIdentityTransition, invalidEvent, bind_eq_ok, guard_eq_ok,
    effectPayload_ok, forM_eq_ok, not_not] at ok
  obtain ⟨caused, -, startPayload, started, nextPayload, next, _, -, same⟩ := ok
  refine ⟨caused, key.symm, startPayload, nextPayload, started, next, fun field member => ?_⟩
  have unchanged := same field member
  simp only [checkSameField, invalidEvent, last_guard_eq_ok, not_not] at unchanged
  exact unchanged.1.symm

/-- A start is the first event of its effect. -/
theorem validateStart_ok (ok : validateStart outer store append (effectHistory events) = .ok ()) :
    ∀ event ∈ events, event.kind ≠ "effect/started" := by
  simp only [validateStart, invalidEvent, guard_eq_ok] at ok
  refine fun event member kind => ok.1 ?_
  simp only [effectHistory, Bool.or_eq_true, find?_isSome]
  exact .inl (.inl ⟨event, member, by simpa using kind⟩)

theorem validateTerminal_ok
    (ok : validateTerminal platform outer store append (effectHistory events) strategy = .ok ())
    (seq : Nat) :
    (∃ start, events.find? (·.kind = "effect/started") = some start ∧
      Continues start start (recordFromAppend append seq)) ∧
    ∀ event ∈ events, isEffectTerminalKind event.kind = false := by
  simp only [validateTerminal, invalidEvent, bind_eq_ok, guard_eq_ok, orInvalidEvent_ok,
    not_not] at ok
  obtain ⟨start, started, open', sameKey, _, transition, -⟩ := ok
  refine ⟨⟨start, started, identityTransition_ok sameKey transition seq⟩, fun event member => ?_⟩
  rw [Bool.eq_false_iff]
  intro terminal
  refine open' (Bool.or_eq_true_iff.mpr (.inl ?_))
  simp only [effectHistory, find?_isSome]
  exact ⟨event, member, terminal⟩

theorem validateReconciled_ok
    (ok : validateReconciled platform append (effectHistory events) strategy = .ok ())
    (seq : Nat) :
    ∃ start terminal, events.find? (·.kind = "effect/started") = some start ∧
      (events.find? fun event => isEffectTerminalKind event.kind) = some terminal ∧
      terminal.kind = "effect/uncertain" ∧
      (∀ event ∈ events, event.kind ≠ "effect/reconciled") ∧
      Continues start terminal (recordFromAppend append seq) := by
  simp only [validateReconciled, invalidEvent, bind_eq_ok, guard_eq_ok, orInvalidEvent_ok,
    Option.filter_eq_some_iff, decide_eq_true_eq, not_not] at ok
  obtain ⟨start, started, terminal, ⟨found, uncertain⟩, _, -, first, sameKey, transition⟩ := ok
  refine ⟨start, terminal, started, found, uncertain, fun event member kind => first ?_,
    identityTransition_ok sameKey transition seq⟩
  simp only [effectHistory, find?_isSome]
  exact ⟨event, member, by simpa using kind⟩

/-! ### The ledger's own rules -/

section

variable {event : SessionEventRecord} {time : Int} {before after state : EffectState}

/-- A start inserts a pending row, and no row has its effect id before. -/
theorem startEffect_ok (ok : startEffect outer store event payload effect time = .ok effects) :
    ∃ row, effects = store.rest.effects ++ [row] ∧ row.effectId = effect ∧
      row.sessionId = event.agentSessionId ∧ row.state = .pending ∧
      ∀ other ∈ store.rest.effects, other.effectId ≠ effect := by
  simp only [startEffect, invalidEvent, insertEffect, bind_eq_ok, guard_eq_ok, last_guard_eq_ok,
    Except.ok.injEq] at ok
  obtain ⟨_, -, -, turnId, -, operationId, -, ownerDomain, -, capabilityModule, -, actionId, -,
    inputDigest, -, free, rfl⟩ := ok
  refine ⟨_, rfl, rfl, rfl, rfl, fun other member same => free ?_⟩
  have taken : store.rest.effects.any (·.effectId = effect) = true :=
    any_eq_true.mpr ⟨other, member, by simpa using same⟩
  simp [taken]

theorem settleEffect_ok
    (ok : settleEffect rows event effect time before after refusal = .ok effects) :
    rowsAffected (effectInState event effect before) rows = 1 ∧
      effects = updateWhere (effectInState event effect before) (settledEffect after event time)
        rows := by
  simp only [settleEffect, last_guard_eq_ok, Except.ok.injEq, not_not] at ok
  exact ⟨ok.1, ok.2.symm⟩

/-- What an effect event writes to the ledger. -/
inductive Posts (store : Store (Records σ)) (event : SessionEventRecord) (payload : Value)
    (effects : List EffectRow) : Prop
  | starts (row : EffectRow) : event.kind = "effect/started" →
      effects = store.rest.effects ++ [row] → row.effectId = event.correlationId →
      row.sessionId = event.agentSessionId → row.state = .pending →
      (∀ other ∈ store.rest.effects, other.effectId ≠ event.correlationId) →
      Posts store event payload effects
  | settles (before after : EffectState) (time : Int) : event.kind ≠ "effect/started" →
      (isEffectTerminalKind event.kind = true ∧ after = terminalState event.kind ∨
        event.kind = "effect/reconciled" ∧
          outcomeState (.inlineJson payload) = some after) →
      rowsAffected (effectInState event event.correlationId before) store.rest.effects = 1 →
      effects = updateWhere (effectInState event event.correlationId before)
        (settledEffect after event time) store.rest.effects → Posts store event payload effects
  | ignores : event.kind ≠ "effect/started" → isEffectTerminalKind event.kind = false →
      event.kind ≠ "effect/reconciled" → effects = store.rest.effects →
      Posts store event payload effects

theorem reconciledState_ok (ok : reconciledState outer payload = .ok state) :
    outcomeState (.inlineJson payload) = some state := by
  unfold reconciledState at ok
  unfold outcomeState
  split at ok
  case h_1 outcome | h_2 outcome | h_3 outcome =>
    simp only [outcome]
    rw [Except.ok.inj ok]
  case h_4 | h_5 => cases ok

theorem projectEffectFact_posts (ok : projectEffectFact outer store event payload = .ok effects)
    (kind : isEffectKind event.kind = true) : Posts store event payload effects := by
  simp only [projectEffectFact, kind, Bool.not_true, Bool.false_eq_true, if_false, invalidEvent,
    bind_eq_ok, guard_eq_ok, not_not] at ok
  obtain ⟨_, -, rfl, time, -, ok⟩ := ok
  split at ok
  next started =>
    obtain ⟨row, posted, effectId, owner, state, free⟩ := startEffect_ok ok
    exact .starts row started posted effectId owner state free
  next unstarted =>
    split at ok
    next terminal =>
      obtain ⟨affected, posted⟩ := settleEffect_ok ok
      exact .settles _ _ time unstarted (.inl ⟨terminal, rfl⟩) affected posted
    next unsettled =>
      have open' : isEffectTerminalKind event.kind = false := by simpa using unsettled
      split at ok
      next reconciled =>
        obtain ⟨state, outcome, ok⟩ := bind_eq_ok.mp ok
        obtain ⟨affected, posted⟩ := settleEffect_ok ok
        exact .settles _ state time unstarted (.inr ⟨reconciled, reconciledState_ok outcome⟩)
          affected posted
      next other =>
        exact .ignores unstarted open' other (Except.ok.inj ok).symm

theorem isRowOf_settledEffect (row : EffectRow) :
    isRowOf session effect (settledEffect state event time row) = isRowOf session effect row := rfl

/-- The rows of another session or of another effect are left alone. -/
theorem Posts.frame (posts : Posts store event payload effects)
    (other : ¬ (event.agentSessionId = session ∧ event.correlationId = effect)) :
    effects.filter (isRowOf session effect) =
      store.rest.effects.filter (isRowOf session effect) := by
  cases posts with
  | starts row _ posted effectId owner =>
    have unlike : isRowOf session effect row = false := by
      simpa [isRowOf, effectId, owner] using other
    simp [posted, unlike]
  | settles before after time _ _ _ posted =>
    rw [posted, filter_updateWhere isRowOf_settledEffect, updateWhere_of_none]
    intro row member
    have mine : row.sessionId = session ∧ row.effectId = effect := by
      simpa [isRowOf] using (mem_filter.mp member).2
    rw [Bool.eq_false_iff]
    intro selected
    simp only [effectInState, Bool.and_eq_true, decide_eq_true_eq] at selected
    exact other ⟨selected.1.2.symm.trans mine.1, selected.1.1.symm.trans mine.2⟩
  | ignores _ _ _ posted => rw [posted]

/-- A row that is settled is the one row of its effect. -/
theorem settle_only (affected : rowsAffected (effectInState event event.correlationId before)
      store.rest.effects = 1)
    (only : store.rest.effects.filter (isRowOf event.agentSessionId event.correlationId) = [row]) :
    (updateWhere (effectInState event event.correlationId before)
        (settledEffect after event time) store.rest.effects).filter
        (isRowOf event.agentSessionId event.correlationId) =
      [settledEffect after event time row] := by
  rw [filter_updateWhere isRowOf_settledEffect]
  refine updateWhere_only affected (fun other selected => ?_) only
  simp only [effectInState, Bool.and_eq_true] at selected
  simp [isRowOf, selected.1]

end

/-! ### Steps -/

section

variable {after : Store (Records σ)} {prepared : Prepared SessionPayloadRecord}
  {inserted : Records σ} {value : Value} {record : SessionEventRecord} {now : Int}

/-- The registry knows five kinds of effect events. -/
theorem registered_effect_kinds : ∀ entry ∈ canonicalRegistry, isEffectKind entry.kind = true →
    entry.kind ∈ ["effect/started", "effect/succeeded", "effect/failed", "effect/uncertain",
      "effect/reconciled"] := by
  decide +kernel

theorem isEffectTerminalKind_iff : isEffectTerminalKind kind = true ↔
    kind ∈ ["effect/succeeded", "effect/failed", "effect/uncertain"] := by
  simp [isEffectTerminalKind, or_assoc]

theorem stateAfter_terminal (terminal : isEffectTerminalKind record.kind = true) :
    stateAfter record = some (terminalState record.kind) := by
  simp only [isEffectTerminalKind_iff, mem_cons, not_mem_nil, or_false] at terminal
  rcases terminal with kind | kind | kind <;> simp [stateAfter, terminalState, kind]

/-- An event of another session, another effect or another kind. -/
theorem effectEvents_other (extended : after.events = store.events ++ [record])
    (other : ¬ (record.agentSessionId = session ∧ record.correlationId = effect ∧
      isEffectKind record.kind = true)) :
    effectEvents after session effect = effectEvents store session effect := by
  rw [effectEvents, extended, filter_append]
  have unselected : (decide (record.agentSessionId = session) &&
      decide (record.correlationId = effect) && isEffectKind record.kind) = false := by
    simpa [and_assoc] using other
  simp [effectEvents, unselected]

theorem effectEvents_own (extended : after.events = store.events ++ [record])
    (kind : isEffectKind record.kind = true) :
    effectEvents after record.agentSessionId record.correlationId =
      effectEvents store record.agentSessionId record.correlationId ++ [record] := by
  rw [effectEvents, extended, filter_append]
  simp [effectEvents, kind]

section

variable (chain : EffectChain events) (agree : RowsAgree events rows)
include chain agree

theorem started_ledger (first : ∀ event ∈ events, event.kind ≠ "effect/started")
    (kind : record.kind = "effect/started") (pending : row.state = .pending) :
    EffectChain (events ++ [record]) ∧ RowsAgree (events ++ [record]) (rows ++ [row]) := by
  cases chain with
  | unstarted =>
    have empty : rows = [] := agree
    refine ⟨.started kind, row, by simp [empty], ?_⟩
    simp [stateAfter, kind, pending]
  | started start | settled start | reconciled start =>
    exact absurd start (first _ mem_cons_self)

theorem settled_ledger (started : events.find? (·.kind = "effect/started") = some start)
    (unsettled : ∀ event ∈ events, isEffectTerminalKind event.kind = false)
    (terminal : isEffectTerminalKind record.kind = true)
    (continues : Continues start start record) :
    EffectChain (events ++ [record]) ∧ ∃ row, rows = [row] := by
  cases chain with
  | unstarted => simp at started
  | @started first kind =>
    obtain rfl : first = start := by simpa [kind] using started
    obtain ⟨row, only, -⟩ := agree
    exact ⟨.settled kind (isEffectTerminalKind_iff.mp terminal) continues, row, only⟩
  | settled _ kind =>
    have open' := unsettled _ (mem_cons_of_mem _ mem_cons_self)
    rw [isEffectTerminalKind_iff.mpr kind] at open'
    cases open'
  | reconciled _ kind =>
    have open' := unsettled _ (mem_cons_of_mem _ mem_cons_self)
    rw [isEffectTerminalKind, kind] at open'
    simp at open'

theorem reconciled_ledger (started : events.find? (·.kind = "effect/started") = some start)
    (settled : (events.find? fun event => isEffectTerminalKind event.kind) = some terminal)
    (uncertain : terminal.kind = "effect/uncertain")
    (first : ∀ event ∈ events, event.kind ≠ "effect/reconciled")
    (kind : record.kind = "effect/reconciled") (continues : Continues start terminal record) :
    EffectChain (events ++ [record]) ∧ ∃ row, rows = [row] := by
  cases chain with
  | unstarted => simp at started
  | @started only startKind => simp [startKind, isEffectTerminalKind] at settled
  | @settled head outcome startKind outcomeKind before =>
    obtain rfl : head = start := by simpa [startKind] using started
    have outcomeTerminal := isEffectTerminalKind_iff.mpr outcomeKind
    have startOpen : isEffectTerminalKind head.kind = false := by
      simp [isEffectTerminalKind, startKind]
    have found : [head, outcome].find? (fun event => isEffectTerminalKind event.kind) =
        some outcome := by
      simp [startOpen, outcomeTerminal]
    obtain rfl : outcome = terminal := Option.some.inj (found.symm.trans settled)
    obtain ⟨row, only, -⟩ := agree
    exact ⟨.reconciled startKind uncertain before kind continues, row, only⟩
  | reconciled _ _ _ reconciliationKind =>
    exact absurd reconciliationKind (first _ (by simp))

end

theorem validateEffectTransition_ok
    (ok : validateEffectTransition platform outer store append = .ok ())
    (kind : isEffectKind append.semanticEvent.kind = true)
    (selected : effectEvents store append.agentSessionId append.semanticEvent.correlationId =
      events) :
    ∃ strategy, (append.semanticEvent.kind = "effect/started" →
        validateStart outer store append (effectHistory events) = .ok ()) ∧
      (isEffectTerminalKind append.semanticEvent.kind = true →
        validateTerminal platform outer store append (effectHistory events) strategy = .ok ()) ∧
      (append.semanticEvent.kind = "effect/reconciled" →
        validateReconciled platform append (effectHistory events) strategy = .ok ()) := by
  simp only [validateEffectTransition, kind, Bool.not_true, Bool.false_eq_true, if_false,
    bind_eq_ok, selected] at ok
  obtain ⟨strategy, -, ok⟩ := ok
  refine ⟨strategy, fun started => ?_, fun terminal => ?_, fun reconciled => ?_⟩
  · rwa [if_pos started] at ok
  · have unstarted : append.semanticEvent.kind ≠ "effect/started" := by
      intro started
      simp [isEffectTerminalKind, started] at terminal
    rwa [if_neg unstarted, if_pos terminal] at ok
  · simpa [reconciled, isEffectTerminalKind] using ok

section

variable (committed : Committed platform (canonical platform outer) now append prepared inserted
  value store after record)
include committed

theorem committed_value (plain : sharesContent record.kind = false)
    (inline : record.payload = .inlineJson payload) : value = payload := by
  obtain ⟨_, storedBody, before, -, -, hydrated, -, -⟩ := committed.checks
  have same := (hydrate_plain plain hydrated).1
  rw [same, payloadValue, inline]

theorem committed_kind (kind : isEffectKind record.kind = true) :
    record.kind = "effect/started" ∨ isEffectTerminalKind record.kind = true ∨
      record.kind = "effect/reconciled" := by
  obtain ⟨entry, _, _, registered, -⟩ := committed.checks
  obtain ⟨member, same⟩ := registryEntry_ok registered
  have sameKind : entry.kind = record.kind := by
    rw [same, committed.recorded]
    rfl
  have known := registered_effect_kinds entry member (sameKind ▸ kind)
  simpa [sameKind, isEffectTerminalKind_iff, or_assoc] using known

end

theorem Posts.started_rows (posts : Posts store record payload effects)
    (kind : record.kind = "effect/started") :
    ∃ row, row.state = .pending ∧
      effects.filter (isRowOf record.agentSessionId record.correlationId) =
        effectRows store record.agentSessionId record.correlationId ++ [row] := by
  cases posts with
  | starts row _ posted effectId owner pending =>
    refine ⟨row, pending, ?_⟩
    rw [posted]
    simp [effectRows, isRowOf, effectId, owner]
  | settles _ _ _ unstarted => exact absurd kind unstarted
  | ignores unstarted => exact absurd kind unstarted

theorem Posts.settled_rows (posts : Posts store record payload effects)
    (kind : isEffectTerminalKind record.kind = true ∨ record.kind = "effect/reconciled")
    (inline : record.payload = .inlineJson payload)
    (only : effectRows store record.agentSessionId record.correlationId = [row]) :
    ∃ settled, effects.filter (isRowOf record.agentSessionId record.correlationId) = [settled] ∧
      stateAfter record = some settled.state := by
  cases posts with
  | starts _ started => simp [started, isEffectTerminalKind] at kind
  | settles before after time _ outcome affected posted =>
    refine ⟨settledEffect after record time row, ?_, ?_⟩
    · rw [posted]
      exact settle_only affected only
    · rcases outcome with ⟨terminal, rfl⟩ | ⟨reconciled, outcome⟩
      · exact stateAfter_terminal terminal
      · simp only [stateAfter, reconciled, inline, outcome]
        simp [settledEffect]
  | ignores _ unsettled unreconciled => simp [unsettled, unreconciled] at kind

theorem effect_shares_nothing (effect : isEffectKind kind = true) : sharesContent kind = false := by
  rw [Bool.eq_false_iff]
  intro shares
  simp only [sharesContent, Bool.or_eq_true, decide_eq_true_eq] at shares
  rcases shares with rfl | rfl <;> exact absurd effect (by decide)

variable (committed : Committed platform (canonical platform outer) now append prepared inserted
  value store after record)
include committed

/-- The step lemma for an event of the effect itself. -/
theorem own_ledger (kind : isEffectKind record.kind = true)
    (ledger : Ledger store record.agentSessionId record.correlationId) :
    Ledger after record.agentSessionId record.correlationId := by
  obtain ⟨chain, agree⟩ := ledger
  obtain ⟨-, -, before, -, sameEffects, posted⟩ := committed.records
  have posts := projectEffectFact_posts posted kind
  have grown : after.events = store.events ++ [record] := committed.written.events
  have extended := effectEvents_own grown kind
  have recorded := committed.recorded
  have selected : effectEvents { store with rest := inserted } append.agentSessionId
      append.semanticEvent.correlationId =
        effectEvents store record.agentSessionId record.correlationId := by
    rw [recorded]; rfl
  have sameRows : effectRows before record.agentSessionId record.correlationId =
      effectRows store record.agentSessionId record.correlationId := by
    rw [effectRows, sameEffects, effectRows]
  have appendKind : append.semanticEvent.kind = record.kind := by rw [recorded]; rfl
  obtain ⟨strategy, starts, settles, reconciles⟩ :=
    validateEffectTransition_ok committed.effectTransition (appendKind ▸ kind) selected
  rw [appendKind] at starts settles reconciles
  generalize effectEvents store record.agentSessionId record.correlationId = events at *
  -- What an outcome or a reconciliation leaves of the effect's one row.
  have settled {start previous : SessionEventRecord} {row : EffectRow}
      (outcome : isEffectTerminalKind record.kind = true ∨ record.kind = "effect/reconciled")
      (continues : Continues start previous record)
      (only : effectRows store record.agentSessionId record.correlationId = [row]) :
      RowsAgree (events ++ [record])
        (effectRows after record.agentSessionId record.correlationId) := by
    obtain ⟨-, -, _, payload, -, inline, -⟩ := continues
    obtain rfl := committed_value committed (effect_shares_nothing kind) inline
    rw [RowsAgree, getLast?_concat]
    exact posts.settled_rows outcome inline (sameRows.trans only)
  suffices next : EffectChain (events ++ [record]) ∧ RowsAgree (events ++ [record])
      (effectRows after record.agentSessionId record.correlationId) by
    rw [← extended] at next
    exact ⟨next.1, next.2⟩
  rcases committed_kind committed kind with started | terminal | reconciled
  · have first := validateStart_ok (starts started)
    obtain ⟨row, pending, rows⟩ := posts.started_rows started
    rw [effectRows, rows, sameRows]
    exact started_ledger chain agree first started pending
  · obtain ⟨⟨start, found, continues⟩, unsettled⟩ :=
      validateTerminal_ok (settles terminal) record.seq
    rw [← recorded] at continues
    obtain ⟨longer, row, only⟩ := settled_ledger chain agree found unsettled terminal continues
    exact ⟨longer, settled (.inl terminal) continues only⟩
  · obtain ⟨start, uncertain, found, isSettled, uncertainKind, first, continues⟩ :=
      validateReconciled_ok (reconciles reconciled) record.seq
    rw [← recorded] at continues
    obtain ⟨longer, row, only⟩ :=
      reconciled_ledger chain agree found isSettled uncertainKind first reconciled continues
    exact ⟨longer, settled (.inr reconciled) continues only⟩

theorem committed_ledger (ledger : Ledger store session effect) : Ledger after session effect := by
  by_cases own : record.agentSessionId = session ∧ record.correlationId = effect ∧
      isEffectKind record.kind = true
  · obtain ⟨rfl, rfl, kind⟩ := own
    exact own_ledger committed kind ledger
  · obtain ⟨-, -, before, -, sameEffects, posted⟩ := committed.records
    have sameRows : effectRows after session effect = effectRows store session effect := by
      rw [effectRows, effectRows, ← sameEffects]
      cases kind : isEffectKind record.kind with
      | true =>
        refine (projectEffectFact_posts posted kind).frame fun same => own ?_
        exact ⟨same.1, same.2, kind⟩
      | false =>
        simp only [projectEffectFact, kind] at posted
        rw [Except.ok.inj posted]
    have grown : after.events = store.events ++ [record] := committed.written.events
    have sameEvents := effectEvents_other grown own
    obtain ⟨chain, agree⟩ := ledger
    rw [← sameEvents] at chain agree
    exact ⟨chain, sameRows ▸ agree⟩

end

/-! ### Runs -/

section

variable {start after : Store (Records σ)}

theorem appends_ledger (appends : Appends platform (canonical platform outer) store after)
    (ledger : Ledger store session effect) : Ledger after session effect := by
  obtain ⟨policy, now, append, payload, result, appended⟩ := appends
  rcases appendEventWithPolicy_outcome appended with
    rfl | ⟨prepared, inserted, -, ⟨inserts, rfl⟩ | ⟨value, record, -, committed⟩⟩
  · exact ledger
  · obtain ⟨grown, -, rfl, grows⟩ := insertPayloads_grows inserts
    have sameRows : effectRows { store with rest := grown.rest } session effect =
        effectRows store session effect := by
      rw [effectRows, grows.same, effectRows]
    exact ⟨ledger.chain, sameRows ▸ ledger.rows⟩
  · exact committed_ledger committed ledger

variable (fresh : Fresh start session)
  (run : Relation.ReflTransGen (Appends platform (canonical platform outer)) start store)
include fresh run

theorem run_ledger (unposted : ∀ row ∈ start.rest.effects, row.sessionId ≠ session) :
    Ledger store session effect := by
  induction run with
  | refl =>
    have silent : effectEvents start session effect = [] := by
      rw [eq_nil_iff_forall_not_mem]
      intro event member
      have none := fresh.events
      simp only [effectEvents, mem_filter, Bool.and_eq_true, decide_eq_true_eq] at member
      simp only [Store.eventsOf, filter_eq_nil_iff, decide_eq_true_eq] at none
      exact none event member.1 member.2.1.1
    have empty : effectRows start session effect = [] := by
      simp only [effectRows, filter_eq_nil_iff, isRowOf, Bool.and_eq_true, decide_eq_true_eq]
      exact fun row member mine => unposted row member mine.1
    exact ⟨silent ▸ .unstarted, by rw [silent]; exact empty⟩
  | tail _ appends ih => exact appends_ledger appends ih

/-- The events of an effect are read in the order in which they were numbered. -/
theorem effectEvents_ordered : (effectEvents store session effect).Pairwise (·.seq < ·.seq) := by
  have steps : Relation.ReflTransGen (Step platform (canonical platform outer) session) start
      store := run.lift id fun _ _ appends => .inl appends
  have sound := run_sound fresh steps
  have numbered : (store.eventsOf session).map (·.seq) =
      List.range' 1 (store.eventsOf session).length := sound.numbered
  have ordered : ((store.eventsOf session).map (·.seq)).Pairwise (· < ·) := by
    rw [numbered]
    exact pairwise_lt_range'
  have selected : effectEvents store session effect = (store.eventsOf session).filter fun event =>
      event.correlationId = effect && isEffectKind event.kind := by
    simp only [Store.eventsOf, filter_filter]
    refine filter_congr fun event _ => ?_
    rw [Bool.and_assoc, Bool.and_comm]
  rw [selected]
  exact (pairwise_map.mp ordered).filter _

end

/-- An effect's events are a start, then one outcome, then at most one reconciliation of an
uncertain outcome; each repeats the identity and the key of the start and is caused by the event
before it, and the effect's row is in the state of the last of them. -/
theorem effects_follow_their_events {σ : Type} (platform : Platform) (outer : Outer σ)
    (session : AgentSessionId) (effect : String) {start store : Store (Records σ)}
    (fresh : Fresh start session)
    (unposted : ∀ row ∈ start.rest.effects, row.sessionId ≠ session)
    (run : Relation.ReflTransGen (Appends platform (canonical platform outer)) start store) :
    (effectEvents store session effect).Pairwise (·.seq < ·.seq) ∧
    EffectChain (effectEvents store session effect) ∧
    RowsAgree (effectEvents store session effect) (effectRows store session effect) := by
  have ledger : Ledger store session effect := run_ledger fresh run unposted
  exact ⟨effectEvents_ordered fresh run, ledger.chain, ledger.rows⟩

/-! ### An uncertain effect -/

/-- A local session without budgets, resources and message checks. -/
def onLocalHost : Outer Unit where
  decodeBase64 _ := .ok []
  debugText text := text
  liveFromRow store session :=
    match (store.openingJson session).bind fun opening => opening.member "metadata" with
    | some _ => .ok ()
    | none => .error (.invalidSession "canonical opening metadata is missing")
  checkPayloadBudget _ _ := .ok ()
  ensureRemoteSessionAdmitted _ _ := .ok ()
  checkDomainWorkAdmission _ _ _ := .ok ()
  validateNativeAdmission _ _ := .ok ()
  resourceBound _ _ _ := false
  validateSemanticEvent _ _ _ := .ok ()
  projectMessages _ _ _ := .ok ()

def ledgerStart : Store (Records Unit) where
  sessions := created.sessions
  heads := created.heads
  events := []
  turns := []
  rest := ⟨∅, ∅, [], ()⟩

def effectFacts (extra : List (String × Value)) : SessionEventPayloadRef :=
  .inlineJson (.object ([("effect_id", .string "effect"), ("turn_id", .string "turn"),
    ("operation_id", .string "call"), ("owner_domain", .string "mail"),
    ("capability_module", .string "mail.send"), ("action_id", .string "send"),
    ("input_digest", .string (String.ofList (List.replicate 64 'a'))),
    ("strategy", .string "external_uncertain_effect"), ("recorded_at", .nat 1)] ++ extra))

def toolCall : SessionEventPayloadRef :=
  .inlineJson (.object [("operation_id", .string "call"), ("capability_id", .string "mail.send"),
    ("action_id", .string "send")])

def effectAppend (eventId producer kind : String) (cause : Option String)
    (payload : SessionEventPayloadRef) : SessionEventAppend :=
  ⟨sessionId, eventId, producer, "effect-key", ⟨kind, 1, "effect", cause, payload⟩⟩

def uncertainEffect : List SessionEventAppend :=
  [appendOf "1" "session/opening" (.inlineJson opening), appendOf "2" "session/ready" .empty,
    appendOf "3" "turn/started" .empty,
    ⟨sessionId, "4", "session_api", "4", ⟨"tool/call-started", 1, "turn", some "3", toolCall⟩⟩,
    effectAppend "5" "runtime" "effect/started" (some "4") (effectFacts []),
    effectAppend "6" "observer" "effect/uncertain" (some "5") (effectFacts []),
    effectAppend "7" "owner" "effect/reconciled" (some "6")
      (effectFacts [("outcome", .string "confirmed_succeeded")])]

def appendLocally (store : Store (Records Unit)) (append : SessionEventAppend) :
    Option (Store (Records Unit)) :=
  (appendEvent host (canonical host onLocalHost) 0 append none store).toOption.map (·.1)

theorem appendLocally_reaches {store after : Store (Records Unit)}
    (ran : run appendLocally store appends = some after) :
    Relation.ReflTransGen (Appends host (canonical host onLocalHost)) store after := by
  refine run_invariant (fun before append next reached appended => ?_) .refl ran
  simp only [appendLocally, Option.map_eq_some_iff, toOption_eq_some] at appended
  obtain ⟨⟨_, result⟩, committed, rfl⟩ := appended
  exact reached.tail ⟨.liveOnly, 0, append, none, result, committed⟩

theorem uncertainEffect_runs :
    ((run appendLocally ledgerStart uncertainEffect).map fun store =>
      ((effectEvents store sessionId "effect").map (·.kind),
        (effectRows store sessionId "effect").map (·.state))) =
    some (["effect/started", "effect/uncertain", "effect/reconciled"], [EffectState.returned]) := by
  decide +kernel

theorem uncertainEffect_follows_its_events :
    ∃ store : Store (Records Unit), (effectEvents store sessionId "effect").map (·.kind) =
        ["effect/started", "effect/uncertain", "effect/reconciled"] ∧
      EffectChain (effectEvents store sessionId "effect") ∧
      (effectRows store sessionId "effect").map (·.state) = [.returned] := by
  obtain ⟨store, ran, seen⟩ := Option.map_eq_some_iff.mp uncertainEffect_runs
  obtain ⟨kinds, states⟩ := Prod.mk.inj seen
  have fresh : Fresh ledgerStart sessionId :=
    ⟨created_fresh.row, created_fresh.head, rfl, rfl⟩
  obtain ⟨-, chain, -⟩ := effects_follow_their_events host onLocalHost sessionId "effect" fresh
    (fun _ member => absurd member not_mem_nil) (appendLocally_reaches ran)
  exact ⟨store, kinds, chain, states⟩

end Nomifun.Guarantees.EffectLifecycle
