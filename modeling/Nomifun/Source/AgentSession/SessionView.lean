import Nomifun.Library.ExclusiveSpans
import Nomifun.Source.AgentSession.Append

/-!
# What an append does to a session

A session is seen through its log, its next sequence number, its head and the state of each of
its turns. `Written.commits` says what writing an event does to these: the event is added to the
log of its session with its effect on head and turns (`TurnEffect`).
-/
namespace Nomifun.Source.AgentSession
open Library Library.Json Library.ExclusiveSpans Library.Table Source.AgentContracts List

variable {event : SessionEventRecord} {payload : Value} {turns turns' : List TurnRow} {now : Int}
  {session : AgentSessionId} {platform : Platform} {head head' : SessionHeadProjection}
  {append : SessionEventAppend} {entry : SessionEventRegistryEntry}
  {events log : List SessionEventRecord} {state : TurnState}

/-- The operation and the state of each turn of a session. -/
abbrev TurnBoard := List (OperationId × TurnState)

def boardOf (turns : List TurnRow) (session : AgentSessionId) : TurnBoard :=
  (turns.filter (·.sessionId = session)).map fun row => (row.operationId, row.state)

structure SessionView where
  log : List SessionEventRecord
  nextSeq : Option Nat
  head : Option SessionHeadProjection
  board : TurnBoard

def Store.view {σ : Type} (store : Store σ) (session : AgentSessionId) : SessionView where
  log := store.eventsOf session
  nextSeq := store.sessions[session]?.bind (·.nextSeq)
  head := store.heads[session]?
  board := boardOf store.turns session

/-- A turn is a span of the log: its start opens it and its terminal event closes it. -/
def mark (event : SessionEventRecord) : Mark OperationId :=
  if event.kind = "turn/started" then .opens event.correlationId
  else if isTurnTerminalKind event.kind then .closes event.correlationId
  else .neutral

/-- The turn of an operation leaves the running state. -/
def TurnBoard.finish (board : TurnBoard) (operation : OperationId) (state : TurnState) :
    TurnBoard :=
  updateWhere (fun entry => entry = (operation, .running)) (fun _ => (operation, state)) board

/-- The effect of one event on the head and the turns of a session with this log. -/
inductive TurnEffect (event : SessionEventRecord) (log : List SessionEventRecord)
    (before after : SessionHeadProjection) (board : TurnBoard) : TurnBoard → Prop
  | settled : mark event = .neutral → (log = [] ∨ before.status = .opening) →
      after.activeTurnId = none → TurnEffect event log before after board board
  | started : mark event = .opens event.correlationId → before.activeTurnId = none →
      (∀ earlier ∈ log, mark earlier ≠ .opens event.correlationId) →
      event.correlationId ∉ board.map (·.1) →
      after.activeTurnId = some event.correlationId → after.status ≠ .opening →
      TurnEffect event log before after board (board ++ [(event.correlationId, .running)])
  | held : mark event = .neutral → (event.correlationId, .running) ∈ board →
      after.activeTurnId = some event.correlationId → after.status ≠ .opening →
      TurnEffect event log before after board board
  | finished (state : TurnState) : mark event = .closes event.correlationId → state ≠ .running →
      before.activeTurnId = some event.correlationId → after.activeTurnId = none →
      TurnEffect event log before after board (board.finish event.correlationId state)
  | kept : mark event = .neutral → after.activeTurnId = before.activeTurnId →
      (after.status = .opening → before.status = .opening) →
      TurnEffect event log before after board board

/-- An event is committed to a session. -/
structure Commits (event : SessionEventRecord) (before after : SessionView) : Prop where
  seq : before.nextSeq = some event.seq
  nextSeq : after.nextSeq = some (event.seq + 1)
  log : after.log = before.log ++ [event]
  effect : ∃ head head', before.head = some head ∧ after.head = some head' ∧
    TurnEffect event before.log head head' before.board after.board

/-! ### The turn table -/

theorem boardOf_updateWhere (sameSession : ∀ row, (change row).sessionId = row.sessionId)
    (same : ∀ row, ((change row).operationId, (change row).state) = (row.operationId, row.state)) :
    boardOf (updateWhere selects change turns) session = boardOf turns session := by
  rw [boardOf, filter_updateWhere (fun row => by rw [sameSession]), map_updateWhere
    (fun row _ => same row), boardOf]

theorem running_mem_boardOf (member : row ∈ turns) (running : runningTurn event row = true) :
    (event.correlationId, .running) ∈ boardOf turns event.agentSessionId := by
  simp only [runningTurn, Bool.and_eq_true, decide_eq_true_eq] at running
  obtain ⟨⟨sameSession, operation⟩, state⟩ := running
  refine mem_map.mpr ⟨row, mem_filter.mpr ⟨member, by simpa using sameSession⟩, ?_⟩
  rw [operation, state]

/-- The only running row of the operation is changed, but not in what it is known by. -/
inductive Held (event : SessionEventRecord) (turns : List TurnRow) : List TurnRow → Prop
  | intro {selects : TurnRow → Bool} {change : TurnRow → TurnRow}
      (running : ∀ row, selects row = true → runningTurn event row = true)
      (same : ∀ row, (change row).sessionId = row.sessionId ∧
        (change row).operationId = row.operationId ∧ (change row).state = row.state ∧
        (change row).startedEventId = row.startedEventId)
      (affected : rowsAffected selects turns = 1) :
        Held event turns (updateWhere selects change turns)

theorem Held.board (held : Held event turns turns') :
    (event.correlationId, .running) ∈ boardOf turns event.agentSessionId ∧
      ∀ session, boardOf turns' session = boardOf turns session := by
  obtain ⟨running, same, affected⟩ := held
  obtain ⟨row, member, selected⟩ := exists_of_rowsAffected affected
  refine ⟨running_mem_boardOf member (running row selected), fun _ => ?_⟩
  exact boardOf_updateWhere (fun row => (same row).1)
    fun row => by rw [(same row).2.1, (same row).2.2.1]

theorem projectPaused_held (ok : projectPaused event payload turns = .ok turns') :
    Held event turns turns' := by
  simp only [projectPaused, bind_eq_ok, last_guard_eq_ok, Except.ok.injEq, not_not] at ok
  obtain ⟨_, -, _, -, _, -, _, -, _, -, _, -, _, -, _, -, affected, rfl⟩ := ok
  refine ⟨fun row selected => ?_, fun _ => ⟨rfl, rfl, rfl, rfl⟩, affected⟩
  simp only [Bool.and_eq_true] at selected
  exact selected.1.1.1

theorem projectResumeAuthorized_held
    (ok : projectResumeAuthorized event payload turns = .ok turns') : Held event turns turns' := by
  simp only [projectResumeAuthorized, bind_eq_ok, last_guard_eq_ok, Except.ok.injEq, not_not] at ok
  obtain ⟨_, -, _, -, _, -, _, -, _, -, _, -, affected, rfl⟩ := ok
  refine ⟨fun row selected => ?_, fun _ => ⟨rfl, rfl, rfl, rfl⟩, affected⟩
  simp only [Bool.and_eq_true] at selected
  exact selected.1.1.1

theorem projectStarted_board (ok : projectStarted now event payload turns = .ok turns') :
    event.correlationId ∉ (boardOf turns event.agentSessionId).map (·.1) ∧
      ∀ session, boardOf turns' session = if session = event.agentSessionId
        then boardOf turns session ++ [(event.correlationId, .running)]
        else boardOf turns session := by
  simp only [projectStarted, bind_eq_ok, last_guard_eq_ok, Except.ok.injEq] at ok
  obtain ⟨_, -, free, rfl⟩ := ok
  constructor
  · intro listed
    simp only [boardOf, map_map, mem_map, mem_filter] at listed
    obtain ⟨row, ⟨member, sameSession⟩, sameOperation⟩ := listed
    refine free (Bool.or_eq_true_iff.mpr (.inl (any_eq_true.mpr ⟨row, member, ?_⟩)))
    simp_all [clashes, startedTurn]
  · intro session
    by_cases own : session = event.agentSessionId
    · simp [boardOf, startedTurn, own]
    · simp [boardOf, startedTurn, own, Ne.symm own]

theorem finish_board (state : TurnState) (seq : Nat) :
    boardOf (updateWhere (runningTurn event) (finishedTurn state event seq) turns) session =
      if session = event.agentSessionId
      then (boardOf turns session).finish event.correlationId state else boardOf turns session := by
  have sameSession (row : TurnRow) : decide ((finishedTurn state event seq row).sessionId = session)
      = decide (row.sessionId = session) := rfl
  rw [boardOf, filter_updateWhere sameSession]
  by_cases own : session = event.agentSessionId
  · subst own
    rw [if_pos rfl, TurnBoard.finish, boardOf, updateWhere, updateWhere, map_map, map_map]
    refine map_congr_left fun row member => ?_
    have ownRow : row.sessionId = event.agentSessionId := by
      simpa using (mem_filter.mp member).2
    by_cases running : row.operationId = event.correlationId ∧ row.state = .running
    · simp [runningTurn, finishedTurn, ownRow, running]
    · have unselected : runningTurn event row = false := by
        simpa [runningTurn, ownRow] using running
      simp [unselected, running]
  · rw [if_neg own, updateWhere_of_none, boardOf]
    intro row member
    have otherRow : row.sessionId = session := by simpa using (mem_filter.mp member).2
    simp [runningTurn, otherRow, own]

theorem projectTerminal_board (ok : projectTerminal state event turns = .ok turns')
    (session : AgentSessionId) :
    boardOf turns' session = if session = event.agentSessionId
      then (boardOf turns session).finish event.correlationId state
      else boardOf turns session := by
  simp only [projectTerminal, bind_eq_ok, last_guard_eq_ok] at ok
  obtain ⟨seq, -, -, ok⟩ := ok
  rw [← finish_board state seq]
  -- Clearing the checkpoint does not show on the board.
  split at ok
  · cases ok
    exact boardOf_updateWhere (fun _ => rfl) (fun _ => rfl)
  · cases ok
    rfl

/-! ### The session head -/

theorem uncertainStatus_opening (opening : uncertainStatus head payload = .opening) :
    head.status = .opening := by
  unfold uncertainStatus at opening
  split at opening
  · exact opening
  · split at opening
    · cases opening
    · split at opening
      · cases opening
      · exact opening

theorem commitActiveSet_keeps (ok : commitActiveSet platform head event payload = .ok head') :
    head'.activeTurnId = head.activeTurnId ∧ head'.status = head.status := by
  simp only [commitActiveSet, invalidEvent, bind_eq_ok, guard_eq_ok, last_guard_eq_ok,
    Except.ok.injEq] at ok
  obtain ⟨_, -, _, -, -, -, rfl⟩ := ok
  exact ⟨rfl, rfl⟩

/-- A kind that is no fact about a turn settles an opening session or leaves the active turn. -/
theorem reduceHead_quiet (ok : reduceHead platform head event payload = .ok head')
    (unstarted : event.kind ≠ "turn/started") (unfinished : isTurnTerminalKind event.kind = false)
    (unpaused : event.kind ≠ "turn/paused") (unresumed : event.kind ≠ "turn/resume-authorized") :
    (event.kind ∈ ["session/opening", "session/ready", "session/open-failed"] ∧
      head'.activeTurnId = none) ∨
    (head'.activeTurnId = head.activeTurnId ∧
      (head'.status = .opening → head.status = .opening)) := by
  simp only [reduceHead, bind_eq_ok] at ok
  obtain ⟨reduced, stepped, done⟩ := ok
  cases done
  unfold reduceKind at stepped
  split at stepped
  case h_1 kind | h_2 kind | h_3 kind =>
    cases stepped
    exact .inl ⟨by simp [kind], rfl⟩
  case h_4 kind => exact absurd kind unstarted
  case h_5 kind => exact absurd kind unpaused
  case h_6 kind => exact absurd kind unresumed
  case h_7 kind | h_8 kind | h_9 kind => simp [isTurnTerminalKind, kind] at unfinished
  case h_10 =>
    cases stepped
    exact .inr ⟨rfl, uncertainStatus_opening⟩
  case h_11 =>
    cases stepped
    exact .inr ⟨rfl, id⟩
  case h_12 =>
    obtain ⟨active, status⟩ := commitActiveSet_keeps stepped
    exact .inr ⟨active, fun opening => status ▸ opening⟩
  case h_13 =>
    cases stepped
    exact .inr ⟨rfl, id⟩

/-- A start, a pause and a resumption make their operation the active turn. -/
theorem reduceHead_active (ok : reduceHead platform head event payload = .ok head')
    (kind : event.kind ∈ ["turn/started", "turn/paused", "turn/resume-authorized"]) :
    head'.activeTurnId = some event.correlationId ∧ head'.status ≠ .opening := by
  simp only [mem_cons, not_mem_nil, or_false] at kind
  rcases kind with kind | kind | kind <;>
    · simp only [reduceHead, reduceKind, kind, bind_eq_ok, Except.ok.injEq] at ok
      obtain ⟨_, rfl, done⟩ := ok
      cases done
      simp

theorem reduceHead_terminal (ok : reduceHead platform head event payload = .ok head')
    (terminal : isTurnTerminalKind event.kind = true) : head'.activeTurnId = none := by
  simp only [isTurnTerminalKind, Bool.or_eq_true, decide_eq_true_eq] at terminal
  rcases terminal with (kind | kind) | kind <;>
    · simp only [reduceHead, reduceKind, kind, bind_eq_ok, Except.ok.injEq] at ok
      obtain ⟨_, rfl, done⟩ := ok
      cases done
      rfl

/-! ### The checks of an append -/

theorem mark_started (kind : event.kind = "turn/started") :
    mark event = .opens event.correlationId := by
  rw [mark, if_pos kind]

theorem mark_terminal (terminal : isTurnTerminalKind event.kind = true) :
    mark event = .closes event.correlationId := by
  have unstarted : event.kind ≠ "turn/started" := by
    intro kind
    simp [isTurnTerminalKind, kind] at terminal
  rw [mark, if_neg unstarted, if_pos terminal]

theorem mark_neutral (unstarted : event.kind ≠ "turn/started")
    (unfinished : isTurnTerminalKind event.kind = false) : mark event = .neutral := by
  simp [mark, unstarted, unfinished]

theorem firstTurnLifecycleKind_none (unseen : firstTurnLifecycleKind log operation = none) :
    ∀ earlier ∈ log, mark earlier ≠ .opens operation := by
  intro earlier member opened
  simp only [firstTurnLifecycleKind, firstKind, Option.map_eq_none_iff, find?_eq_none]
    at unseen
  have unmatched := unseen earlier member
  unfold mark at opened
  split at opened
  next kind =>
    obtain rfl := Mark.opens.inj opened
    simp [kind] at unmatched
  next =>
    split at opened <;> cases opened

theorem validateTurnLifecycle_started (ok : validateTurnLifecycle log head append = .ok ())
    (kind : append.semanticEvent.kind = "turn/started") :
    head.activeTurnId = none ∧
      ∀ earlier ∈ log, mark earlier ≠ .opens append.semanticEvent.correlationId := by
  simp only [validateTurnLifecycle, if_pos kind, last_guard_eq_ok, Bool.or_eq_true, not_or,
    Bool.not_eq_true, Option.isSome_eq_false_iff, Option.isNone_iff_eq_none] at ok
  obtain ⟨⟨-, idle⟩, ok⟩ := ok
  refine ⟨idle, firstTurnLifecycleKind_none ?_⟩
  cases seen : firstTurnLifecycleKind log append.semanticEvent.correlationId with
  | none => rfl
  | some existing => simp [seen] at ok

theorem validateTurnLifecycle_terminal (ok : validateTurnLifecycle log head append = .ok ())
    (terminal : isTurnTerminalKind append.semanticEvent.kind = true) :
    head.activeTurnId = some append.semanticEvent.correlationId := by
  have unstarted : append.semanticEvent.kind ≠ "turn/started" := by
    intro kind
    simp [isTurnTerminalKind, kind] at terminal
  simp only [validateTurnLifecycle, if_neg unstarted, terminal, Bool.not_true,
    Bool.false_eq_true, if_false] at ok
  cases seen : firstTurnTerminalKind log append.semanticEvent.correlationId with
  | some existing => simp [seen] at ok
  | none =>
    simp only [seen, last_guard_eq_ok, Bool.or_eq_true, not_or] at ok
    simpa using ok.1.2

/-- The opening of a session is the only kind that an empty log takes. -/
theorem registry_first_kind : ∀ entry ∈ canonicalRegistry,
    entry.predecessor.mode = .none ↔ entry.kind = "session/opening" := by
  decide

theorem registryEntry_ok (ok : registryEntry kind version = .ok entry) :
    entry ∈ canonicalRegistry ∧ entry.kind = kind := by
  unfold registryEntry at ok
  split at ok
  next found =>
    cases ok
    have same := find?_some found
    simp only [Bool.and_eq_true, decide_eq_true_eq] at same
    exact ⟨mem_of_find?_eq_some found, same.1⟩
  next => cases ok

theorem validatePredecessor_first (ok : validatePredecessor events log append entry = .ok ())
    (first : entry.predecessor.mode = .none) : log = [] := by
  simp only [validatePredecessor, first, guard_eq_ok, not_not] at ok
  exact length_eq_zero_iff.mp ok.1

/-- The three kinds that settle an opening session come while no turn can be active. -/
theorem settling_idle (registered : registryEntry append.semanticEvent.kind
      append.semanticEvent.kindVersion = .ok entry)
    (transition : validateSessionEventTransition head append = .ok ())
    (predecessor : validatePredecessor events log append entry = .ok ())
    (kind : append.semanticEvent.kind ∈
      ["session/opening", "session/ready", "session/open-failed"]) :
    log = [] ∨ head.status = .opening := by
  simp only [mem_cons, not_mem_nil, or_false] at kind
  rcases kind with kind | kind
  · obtain ⟨member, same⟩ := registryEntry_ok registered
    exact .inl (validatePredecessor_first predecessor
      ((registry_first_kind entry member).mpr (same.trans kind)))
  · simp only [validateSessionEventTransition, last_guard_eq_ok, Bool.and_eq_true,
      Bool.or_eq_true, decide_eq_true_eq, not_and, not_not] at transition
    exact .inr (transition.1 kind)

/-! ### The effect of a checked event -/

/-- The checks that an append passed before it was written. -/
structure Checked (append : SessionEventAppend) (entry : SessionEventRegistryEntry)
    (events log : List SessionEventRecord) (head : SessionHeadProjection) : Prop where
  registered : registryEntry append.semanticEvent.kind append.semanticEvent.kindVersion = .ok entry
  transition : validateSessionEventTransition head append = .ok ()
  lifecycle : validateTurnLifecycle log head append = .ok ()
  predecessor : validatePredecessor events log append entry = .ok ()

/-- An event has one of the effects on its own session and none on the turns of another. -/
def ActsOn (event : SessionEventRecord) (log : List SessionEventRecord)
    (head head' : SessionHeadProjection) (turns turns' : List TurnRow) : Prop :=
  TurnEffect event log head head' (boardOf turns event.agentSessionId)
      (boardOf turns' event.agentSessionId) ∧
    ∀ session ≠ event.agentSessionId, boardOf turns' session = boardOf turns session

section

variable (reduced : reduceHead platform head (recordFromAppend append seq) payload = .ok head')
include reduced

theorem started_acts (checked : Checked append entry events log head)
    (kind : append.semanticEvent.kind = "turn/started")
    (projected : projectStarted now (recordFromAppend append seq) payload turns = .ok turns') :
    ActsOn (recordFromAppend append seq) log head head' turns turns' := by
  obtain ⟨absent, board⟩ := projectStarted_board projected
  obtain ⟨idle, fresh⟩ := validateTurnLifecycle_started checked.lifecycle kind
  obtain ⟨active, status⟩ := reduceHead_active reduced
    (show append.semanticEvent.kind ∈ _ by simp [kind])
  refine ⟨?_, fun session other => by rw [board, if_neg other]⟩
  rw [board, if_pos rfl]
  exact .started (mark_started kind) idle fresh absent active status

theorem terminal_acts (checked : Checked append entry events log head) (unlike : state ≠ .running)
    (terminal : isTurnTerminalKind append.semanticEvent.kind = true)
    (projected : projectTerminal state (recordFromAppend append seq) turns = .ok turns') :
    ActsOn (recordFromAppend append seq) log head head' turns turns' := by
  have board := projectTerminal_board projected
  refine ⟨?_, fun session other => by rw [board, if_neg other]⟩
  rw [board, if_pos rfl]
  exact .finished state (mark_terminal terminal) unlike
    (validateTurnLifecycle_terminal checked.lifecycle terminal)
    (reduceHead_terminal reduced terminal)

/-- A pause or a resumption of the running turn. -/
theorem held_acts (kind : append.semanticEvent.kind ∈ ["turn/paused", "turn/resume-authorized"])
    (held : Held (recordFromAppend append seq) turns turns') :
    ActsOn (recordFromAppend append seq) log head head' turns turns' := by
  obtain ⟨running, board⟩ := held.board
  obtain ⟨active, status⟩ := reduceHead_active reduced (mem_cons_of_mem _ kind)
  refine ⟨?_, fun session _ => board session⟩
  rw [board]
  refine .held (mark_neutral ?_ ?_) running active status
  · intro started
    rw [show append.semanticEvent.kind = "turn/started" from started] at kind
    simp at kind
  · change isTurnTerminalKind append.semanticEvent.kind = false
    simp only [mem_cons, not_mem_nil, or_false] at kind
    rcases kind with kind | kind <;> simp [isTurnTerminalKind, kind]

/-- An event of another kind, which shows on no board. -/
theorem quiet_acts (checked : Checked append entry events log head)
    (unstarted : append.semanticEvent.kind ≠ "turn/started")
    (unfinished : isTurnTerminalKind append.semanticEvent.kind = false)
    (unpaused : append.semanticEvent.kind ≠ "turn/paused")
    (unresumed : append.semanticEvent.kind ≠ "turn/resume-authorized")
    (board : ∀ session, boardOf turns' session = boardOf turns session) :
    ActsOn (recordFromAppend append seq) log head head' turns turns' := by
  refine ⟨?_, fun session _ => board session⟩
  rw [board]
  have neutral : mark (recordFromAppend append seq) = .neutral := mark_neutral unstarted unfinished
  rcases reduceHead_quiet reduced unstarted unfinished unpaused unresumed with
    ⟨settling, idle⟩ | ⟨active, status⟩
  · exact .settled neutral
      (settling_idle checked.registered checked.transition checked.predecessor settling) idle
  · exact .kept neutral active status

theorem checked_acts (checked : Checked append entry events log head)
    (projected : projectTurnFact now (recordFromAppend append seq) payload turns = .ok turns') :
    ActsOn (recordFromAppend append seq) log head head' turns turns' := by
  rw [projectTurnFact, recordFromAppend_kind] at projected
  split at projected
  case h_1 kind =>
    cases projected
    refine quiet_acts reduced checked (by simp [kind]) (by simp [isTurnTerminalKind, kind])
      (by simp [kind]) (by simp [kind]) fun session => ?_
    exact boardOf_updateWhere (fun _ => rfl) (fun _ => rfl)
  case h_2 kind => exact held_acts reduced (by simp [kind]) (projectPaused_held projected)
  case h_3 kind => exact held_acts reduced (by simp [kind]) (projectResumeAuthorized_held projected)
  case h_4 kind => exact started_acts reduced checked kind projected
  case h_5 kind | h_6 kind | h_7 kind =>
    exact terminal_acts reduced checked (by decide) (by simp [isTurnTerminalKind, kind]) projected
  case h_8 unpaused unresumed unstarted uncompleted unfailed uncancelled =>
    cases projected
    refine quiet_acts reduced checked unstarted ?_ unpaused unresumed fun _ => rfl
    simp only [isTurnTerminalKind, Bool.or_eq_false_iff, decide_eq_false_iff_not]
    exact ⟨⟨uncompleted, unfailed⟩, uncancelled⟩

end

/-! ### One append -/

variable {σ ρ : Type} {store after : Store σ} {record : SessionEventRecord}

theorem headById_ok : store.headById session = .ok head ↔ store.heads[session]? = some head := by
  unfold Store.headById
  cases found : store.heads[session]? with
  | none => simp
  | some stored => simp

theorem checkEvent_ok (registered : registryEntry append.semanticEvent.kind
      append.semanticEvent.kindVersion = .ok entry)
    (ok : checkEvent around store append entry = .ok storedBody) :
    ∃ head, store.heads[append.agentSessionId]? = some head ∧
      Checked append entry store.events (store.eventsOf append.agentSessionId) head := by
  simp only [checkEvent, checkAdmission, bind_eq_ok] at ok
  obtain ⟨_, ⟨_, -, head, found, _, -, _, -, done⟩, _, transition, _, lifecycle, _, predecessor,
    -⟩ := ok
  obtain rfl := Except.ok.inj done
  exact ⟨head, headById_ok.mp found, registered, transition, lifecycle, predecessor⟩

theorem takeSeq_ok (ok : takeSeq store session permitted = .ok taken) :
    ∃ row, store.sessions[session]? = some row ∧ row.nextSeq = some taken.1 ∧ taken.2 = { store with
        sessions := store.sessions.insert session { row with nextSeq := some (taken.1 + 1) } } := by
  unfold takeSeq at ok
  cases found : store.sessions[session]? with
  | none => simp [found] at ok
  | some row =>
    cases numbered : row.nextSeq with
    | none =>
      simp only [found, numbered, last_guard_eq_ok] at ok
      cases ok.2
    | some seq =>
      simp only [found, numbered, last_guard_eq_ok, Except.ok.injEq] at ok
      obtain ⟨-, -, rfl⟩ := ok
      exact ⟨row, rfl, numbered, rfl⟩

theorem projectHead_ok (ok : projectHead platform store record payload = .ok after) :
    ∃ head head', store.heads[record.agentSessionId]? = some head ∧
      reduceHead platform head record payload = .ok head' ∧
      after = { store with heads := store.heads.insert record.agentSessionId head' } := by
  simp only [projectHead, bind_eq_ok] at ok
  obtain ⟨head, found, head', reduced, _, -, done⟩ := ok
  cases done
  exact ⟨head, head', headById_ok.mp found, reduced, rfl⟩

/-- What writing an event leaves in each of the four tables. -/
structure Written (platform : Platform) (now : Int) (append : SessionEventAppend)
    (store after : Store σ) (record : SessionEventRecord) : Prop where
  recorded : record = recordFromAppend append record.seq
  session : ∃ row, store.sessions[append.agentSessionId]? = some row ∧
    row.nextSeq = some record.seq ∧ after.sessions = store.sessions.insert append.agentSessionId
      { row with nextSeq := some (record.seq + 1) }
  events : after.events = store.events ++ [record]
  projected : ∃ payload head head', projectTurnFact now record payload store.turns =
    .ok after.turns ∧ store.heads[append.agentSessionId]? = some head ∧
    reduceHead platform head record payload = .ok head' ∧
    after.heads = store.heads.insert append.agentSessionId head'

/-- A session the event is not addressed to looks as before. -/
theorem Written.frame {record : SessionEventRecord}
    (written : Written platform now append store after record)
    (boards : ∀ session ≠ record.agentSessionId,
      boardOf after.turns session = boardOf store.turns session)
    {session : AgentSessionId} (other : session ≠ append.agentSessionId) :
    after.view session = store.view session := by
  have own : record.agentSessionId = append.agentSessionId := by rw [written.recorded]; rfl
  obtain ⟨row, -, -, sessions⟩ := written.session
  obtain ⟨_, _, _, -, -, -, heads⟩ := written.projected
  simp only [Store.view, Store.eventsOf, sessions, heads, written.events, StringMap.get_insert,
    if_neg other.symm, boards session (own ▸ other), filter_append, filter_singleton]
  simp [own, other.symm]

theorem Written.commits (written : Written platform now append store after record)
    (registered : registryEntry append.semanticEvent.kind
      append.semanticEvent.kindVersion = .ok entry)
    (passed : checkEvent around store append entry = .ok storedBody) :
    Commits record (store.view append.agentSessionId) (after.view append.agentSessionId) ∧
      ∀ session ≠ append.agentSessionId, after.view session = store.view session := by
  have own : record.agentSessionId = append.agentSessionId := by rw [written.recorded]; rfl
  obtain ⟨head, stored, checked⟩ := checkEvent_ok registered passed
  obtain ⟨row, found, next, sessions⟩ := written.session
  obtain ⟨payload, _, head', projected, sameHead, reduced, heads⟩ := written.projected
  obtain rfl : head = _ := Option.some.inj (stored.symm.trans sameHead)
  obtain ⟨effect, boards⟩ : ActsOn record _ head head' store.turns after.turns := by
    rw [written.recorded] at projected reduced ⊢
    exact checked_acts reduced checked projected
  refine ⟨⟨?_, ?_, ?_, head, head', stored, ?_, ?_⟩, fun session other =>
    written.frame boards other⟩
  · simp [Store.view, found, next]
  · simp [Store.view, sessions]
  · simp [Store.view, Store.eventsOf, written.events, own]
  · simp [Store.view, heads]
  · rw [own] at effect
    exact effect

end Nomifun.Source.AgentSession
