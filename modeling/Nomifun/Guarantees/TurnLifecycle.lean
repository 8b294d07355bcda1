import Nomifun.Library.Runs
import Nomifun.Source.AgentSession.Canonical

/-!
# The lifecycle of a session's turns

The event log, the turn table and the session head are written by different functions in one
append. Over every run of appends, interleaved with any writes that leave the lifecycle columns
of the session alone, the three agree: the log is numbered without a gap, the active turn of the
head is the one turn that runs, and the turns are disjoint spans of the log.
-/
namespace Nomifun.Guarantees.TurnLifecycle
open Library Library.Json Library.ExclusiveSpans Library.Table Source.AgentContracts List
  Source.AgentSession

variable {event : SessionEventRecord} {log : List SessionEventRecord} {board : TurnBoard}
  {operation : OperationId} {active : Option OperationId} {state : TurnState}

/-! ### The invariant of a session -/

/-- The active turn of a head, as the log and the turns of the session have it. -/
structure HeadSound (view : SessionView) (head : SessionHeadProjection) : Prop where
  opening : head.status = .opening → head.activeTurnId = none
  orderly : Orderly (view.log.map mark) head.activeTurnId
  running : ∀ operation, (operation, .running) ∈ view.board ↔ head.activeTurnId = some operation

structure Sound (view : SessionView) : Prop where
  numbered : view.log.map (·.seq) = List.range' 1 view.log.length
  nextSeq : view.nextSeq = some (view.log.length + 1)
  distinct : (view.board.map (·.1)).Nodup
  head : ∃ head, view.head = some head ∧ HeadSound view head

section

variable {board' : TurnBoard} {head head' : SessionHeadProjection} {before after : SessionView}

theorem mem_finish (unlike : state ≠ .running) :
    (other, .running) ∈ board.finish operation state ↔
      (other, .running) ∈ board ∧ other ≠ operation := by
  simp only [TurnBoard.finish, updateWhere, mem_map]
  constructor
  · rintro ⟨entry, member, moved⟩
    split at moved
    next => exact absurd (congrArg Prod.snd moved) unlike
    next unmoved =>
      subst moved
      exact ⟨member, fun same => by simp [same] at unmoved⟩
  · rintro ⟨member, different⟩
    exact ⟨(other, .running), member, by simp [different]⟩

theorem map_finish : (board.finish operation state).map (·.1) = board.map (·.1) :=
  map_updateWhere fun entry selected => by
    obtain rfl := of_decide_eq_true selected
    rfl

theorem effect_distinct (effect : TurnEffect event log head head' board board')
    (distinct : (board.map (·.1)).Nodup) : (board'.map (·.1)).Nodup := by
  cases effect with
  | settled | held | kept => exact distinct
  | finished => rwa [map_finish]
  | started _ _ _ absent =>
    rw [map_append]
    exact nodup_append.mpr ⟨distinct, by simp, fun operation listed other new same => by
      obtain rfl : other = event.correlationId := by simpa using new
      exact absent (same ▸ listed)⟩

/-- The step lemma: each effect keeps the head in agreement with the log and the turns. -/
theorem effect_sound (effect : TurnEffect event before.log head head' before.board after.board)
    (extended : after.log = before.log ++ [event]) (sound : HeadSound before head) :
    HeadSound after head' := by
  obtain ⟨opening, orderly, running⟩ := sound
  have marks : after.log.map mark = before.log.map mark ++ [mark event] := by simp [extended]
  generalize board : after.board = board' at effect
  cases effect with
  | settled neutral idle inactive =>
    -- No turn is active yet: the log is empty, or the session is still opening.
    have none : head.activeTurnId = none := by
      rcases idle with empty | status
      · rw [empty] at orderly
        exact orderly.of_empty
      · exact opening status
    rw [none] at orderly running
    refine ⟨fun _ => inactive, ?_, ?_⟩
    · rw [marks, neutral, inactive]
      exact orderly.neutral
    · rw [board, inactive]
      exact running
  | started opened idle fresh absent active status =>
    rw [idle] at orderly running
    refine ⟨fun settling => absurd settling status, ?_, fun operation => ?_⟩
    · rw [marks, opened, active]
      refine orderly.opens fun listed => ?_
      obtain ⟨earlier, member, same⟩ := mem_map.mp listed
      exact fresh earlier member same
    · have none : (operation, .running) ∉ before.board := fun listed => by
        cases (running operation).mp listed
      rw [board, active, mem_append, mem_singleton, Prod.mk.injEq]
      simp [none, eq_comm]
  | held neutral listed active status =>
    have same : head'.activeTurnId = head.activeTurnId :=
      active.trans ((running _).mp listed).symm
    refine ⟨fun settling => absurd settling status, ?_, ?_⟩
    · rw [marks, neutral, same]
      exact orderly.neutral
    · rw [board, same]
      exact running
  | finished state closed unlike active inactive =>
    rw [active] at orderly running
    refine ⟨fun _ => inactive, ?_, fun operation => ?_⟩
    · rw [marks, closed, inactive]
      exact orderly.closes
    · rw [board, inactive, mem_finish unlike, running operation]
      simp [eq_comm]
  | kept neutral active status =>
    refine ⟨fun settling => active.trans (opening (status settling)), ?_, ?_⟩
    · rw [marks, neutral, active]
      exact orderly.neutral
    · rw [board, active]
      exact running

theorem commits_sound (commits : Commits event before after) (sound : Sound before) :
    Sound after := by
  obtain ⟨seq, nextSeq, log, head, head', found, found', effect⟩ := commits
  obtain ⟨_, same, headSound⟩ := sound.head
  obtain rfl : head = _ := Option.some.inj (found.symm.trans same)
  have number : event.seq = before.log.length + 1 := Option.some.inj (seq.symm.trans sound.nextSeq)
  refine ⟨?_, ?_, effect_distinct effect sound.distinct, head', found',
    effect_sound effect log headSound⟩
  · rw [log, map_append, sound.numbered, length_append, length_singleton, range'_concat]
    simp [number, Nat.add_comm]
  · rw [nextSeq, log, number, length_append, length_singleton]

end

/-! ### Runs -/

section

variable {σ ρ : Type}

/-- A session as the transaction that creates it inserts it. -/
structure Fresh (store : Store σ) (session : AgentSessionId) : Prop where
  row : store.sessions[session]? = some ⟨.live, some 1⟩
  head : store.heads[session]? = some (initialHead session)
  events : store.eventsOf session = []
  turns : store.turnsOf session = []

/-- A committed append, to any session and under any policy. -/
def Appends (platform : Platform) (around : Surroundings σ ρ) (store after : Store σ) : Prop :=
  ∃ policy now append payload result,
    appendEventWithPolicy platform around policy now append payload store = .ok (after, result)

/-- A committed transaction: an append, or a write (of a checkpoint, a lease, a binding, another
session) that does not show in the view of the session. -/
def Step (platform : Platform) (around : Surroundings σ ρ) (session : AgentSessionId)
    (store after : Store σ) : Prop :=
  Appends platform around store after ∨ after.view session = store.view session

variable {platform : Platform} {around : Surroundings σ ρ} {session : AgentSessionId}
  {start store after : Store σ}

theorem fresh_sound (fresh : Fresh store session) : Sound (store.view session) := by
  have empty : (store.view session).log = [] := fresh.events
  have idle : (store.view session).board = [] := by
    rw [Store.view, boardOf, ← Store.turnsOf, fresh.turns, map_nil]
  refine ⟨by simp [empty], ?_, by simp [idle], initialHead session, fresh.head, fun _ =>
    rfl, ?_, ?_⟩
  · rw [empty]
    simp [Store.view, fresh.row]
  · rw [empty]
    exact .nil
  · simp [idle, initialHead]

theorem step_sound (step : Step platform around session store after)
    (sound : Sound (store.view session)) : Sound (after.view session) := by
  rcases step with ⟨policy, now, append, payload, result, appended⟩ | unseen
  · rcases appendEventWithPolicy_commits appended with unchanged | ⟨record, commits, others⟩
    · rwa [unchanged]
    · by_cases own : session = append.agentSessionId
      · subst own
        exact commits_sound commits sound
      · rwa [others session own]
  · rwa [unseen]

theorem run_sound (fresh : Fresh start session)
    (run : Relation.ReflTransGen (Step platform around session) start store) :
    Sound (store.view session) := by
  induction run with
  | refl => exact fresh_sound fresh
  | tail _ step ih => exact step_sound step ih

end

/-! ### Reading the log -/

def startsTurn (operation : OperationId) (event : SessionEventRecord) : Bool :=
  event.kind = "turn/started" && event.correlationId = operation

def finishesTurn (operation : OperationId) (event : SessionEventRecord) : Bool :=
  isTurnTerminalKind event.kind && event.correlationId = operation

theorem mark_opens_iff : mark event = .opens operation ↔ startsTurn operation event = true := by
  unfold mark startsTurn
  split
  next kind => simp [kind]
  next unstarted => split <;> simp [unstarted]

theorem mark_closes_iff : mark event = .closes operation ↔ finishesTurn operation event = true := by
  unfold mark finishesTurn
  split
  next kind => simp [kind, isTurnTerminalKind]
  next =>
    split
    next terminal => simp [terminal]
    next unfinished => simp [unfinished]

theorem countP_marked (marked : ∀ event, mark event = as ↔ test event = true) :
    log.countP test = (log.map mark).count as := by
  rw [count, countP_map]
  refine countP_congr fun event _ => ?_
  rw [← marked, Function.comp_apply, beq_iff_eq]

/-- The position of an event in a numbered log is its sequence number less one. -/
theorem position_of_numbered (numbered : log.map (·.seq) = List.range' 1 log.length)
    (member : event ∈ log) : ∃ i, event.seq = i + 1 ∧ (log.map mark)[i]? = some (mark event) := by
  obtain ⟨i, found⟩ := mem_iff_getElem?.mp member
  have inside := (List.getElem?_eq_some_iff.mp found).1
  have seq : (log.map (·.seq))[i]? = some event.seq := by rw [getElem?_map, found]; rfl
  rw [numbered, getElem?_range' inside] at seq
  refine ⟨i, ?_, by rw [getElem?_map, found]; rfl⟩
  have := Option.some.inj seq
  omega

/-- Every finished turn has a start before its end and no other start in between. -/
theorem finished_turn_is_a_span (numbered : log.map (·.seq) = List.range' 1 log.length)
    (orderly : Orderly (log.map mark) active) (member : finish ∈ log)
    (finishes : finishesTurn operation finish = true) :
    ∃ start ∈ log, startsTurn operation start = true ∧ start.seq < finish.seq ∧
      ∀ other ∈ log, other.kind = "turn/started" →
        ¬ (start.seq < other.seq ∧ other.seq < finish.seq) := by
  obtain ⟨j, finishSeq, closed⟩ := position_of_numbered numbered member
  rw [mark_closes_iff.mpr finishes] at closed
  obtain ⟨start, startMember, opened⟩ :=
    mem_map.mp (orderly.closed_opened (mem_of_getElem? closed))
  obtain ⟨i, startSeq, openedAt⟩ := position_of_numbered numbered startMember
  rw [opened] at openedAt
  refine ⟨start, startMember, mark_opens_iff.mp opened, ?_, ?_⟩
  · have := orderly.opened_before_closed openedAt closed
    omega
  · rintro other otherMember kind ⟨after, before⟩
    obtain ⟨m, otherSeq, otherOpened⟩ := position_of_numbered numbered otherMember
    rw [mark_started kind] at otherOpened
    exact orderly.nothing_opened_between openedAt closed (by omega) (by omega) _ otherOpened

/-! ### The guarantee -/

section

variable {σ ρ : Type}

/-- Entries of one operation each, of which only the active one's can be running. -/
theorem running_le_one (distinct : (board.map (·.1)).Nodup)
    (running : ∀ operation, (operation, .running) ∈ board ↔ active = some operation) :
    board.countP (·.2 = .running) ≤ 1 := by
  cases active with
  | none =>
    refine (countP_eq_zero.mpr fun entry member moving => ?_).le.trans (Nat.zero_le 1)
    have state : entry.2 = .running := by simpa using moving
    cases (running entry.1).mp (state ▸ member)
  | some operation =>
    calc board.countP (·.2 = .running)
        ≤ board.countP (· == (operation, .running)) := by
          refine countP_mono_left fun entry member moving => ?_
          have state : entry.2 = .running := by simpa using moving
          have same := (running entry.1).mp (state ▸ member)
          rw [beq_iff_eq, Prod.ext_iff]
          exact ⟨(Option.some.inj same).symm, state⟩
      _ ≤ 1 := nodup_iff_count_le_one.mp (List.Nodup.of_map _ distinct) _

/-- **Turns are exclusive.** In every store that a run of committed transactions reaches from the
creation of a session: the session's events are numbered 1 to n in the order of their commits; at
most one of its turns runs, and it is the active turn of the head; and for each operation there is
at most one start and at most one terminal event, which comes after the start with no other start
in between. -/
theorem turns_are_exclusive (platform : Platform) (around : Surroundings σ ρ)
    (session : AgentSessionId) {start store : Store σ} (fresh : Fresh start session)
    (run : Relation.ReflTransGen (Step platform around session) start store) :
    (store.eventsOf session).map (·.seq) = List.range' 1 (store.eventsOf session).length ∧
    ((store.turnsOf session).map (·.operationId)).Nodup ∧
    (store.turnsOf session).countP (·.state = .running) ≤ 1 ∧
    (∃ head, store.heads[session]? = some head ∧ ∀ operation, head.activeTurnId = some operation ↔
        ∃ row ∈ store.turnsOf session, row.operationId = operation ∧ row.state = .running) ∧
    ∀ operation, (store.eventsOf session).countP (startsTurn operation) ≤ 1 ∧
      (store.eventsOf session).countP (finishesTurn operation) ≤ 1 ∧
      ∀ finish ∈ store.eventsOf session, finishesTurn operation finish = true →
        ∃ start ∈ store.eventsOf session, startsTurn operation start = true ∧
          start.seq < finish.seq ∧ ∀ other ∈ store.eventsOf session, other.kind = "turn/started" →
              ¬ (start.seq < other.seq ∧ other.seq < finish.seq) := by
  obtain ⟨numbered, -, distinct, head, found, -, orderly, running⟩ := run_sound fresh run
  have rows : (store.view session).board =
      (store.turnsOf session).map fun row => (row.operationId, row.state) := rfl
  have counted := running_le_one distinct running
  rw [rows, countP_map] at counted
  rw [rows, map_map] at distinct
  refine ⟨numbered, distinct, counted, ⟨head, found, fun operation => ?_⟩, fun operation => ?_⟩
  · rw [← running, rows]
    simp
  · refine ⟨?_, ?_, fun finish member finishes =>
      finished_turn_is_a_span numbered orderly member finishes⟩
    · rw [countP_marked fun _ => mark_opens_iff]
      exact orderly.count_opens_le
    · rw [countP_marked fun _ => mark_closes_iff]
      exact orderly.count_closes_le

end

/-! ### A completed turn -/

def host : Platform where
  sha256 _ := Vector.replicate 32 0
  floatText _ := []
  parseJson _ := none
  describe _ := ""

/-- The other steps of an append, as they are for a local session and for events that have no
stored payload, no shared content and no effect. -/
def plain : Surroundings Unit Unit where
  prepare _ append payload := .ok ⟨append.semanticEvent.payload, payload, []⟩
  liveFromRow store session :=
    match (store.openingJson session).bind fun opening => opening.member "metadata" with
    | some _ => .ok ()
    | none => .error (.invalidSession "canonical opening metadata is missing")
  duplicateContent _ _ _ := .ok none
  insertPayloads _ _ _ := .ok ()
  ensureRemoteSessionAdmitted _ _ := .ok ()
  checkDomainWorkAdmission _ _ _ := .ok ()
  validateEffectTransition _ _ := .ok ()
  validatePayloadReference _ _ := .ok none
  hydrate _ _ value := .ok value
  validateSemanticEvent _ _ _ := .ok ()
  projectEffectFact _ _ _ := .ok ()
  projectMessages _ _ _ := .ok ()

def sessionId : AgentSessionId := "01890a5d-ac96-774b-bcce-b302099a8057"

def created : Store Unit where
  sessions := (∅ : StringMap SessionRow).insert sessionId ⟨.live, some 1⟩
  heads := (∅ : StringMap SessionHeadProjection).insert sessionId (initialHead sessionId)
  events := []
  turns := []
  rest := ()

def opening : Value :=
  .object [("operation_id", .string "open"),
    ("metadata", .object [("archived", .bool false), ("pinned", .bool false)]),
    ("agent_binding", .object [
      ("preset_revision_ref", .object [("preset_id", .string "p"), ("revision", .nat 1),
        ("revision_digest", .string "d")]),
      ("resolved_snapshot_ref", .object [("snapshot_id", .string "s"),
        ("snapshot_digest", .string "d")]),
      ("typed_resource_bindings", .array []), ("binding_version", .nat 1)])]

def appendOf (eventId kind : String) (payload : SessionEventPayloadRef) : SessionEventAppend :=
  ⟨sessionId, eventId, "session_api", eventId, ⟨kind, 1, "turn", none, payload⟩⟩

def completedTurn : List SessionEventAppend :=
  [appendOf "1" "session/opening" (.inlineJson opening), appendOf "2" "session/ready" .empty,
    appendOf "3" "turn/started" .empty, appendOf "4" "turn/completed" .empty]

def appendTo (store : Store Unit) (append : SessionEventAppend) : Option (Store Unit) :=
  (appendEvent host plain 0 append none store).toOption.map (·.1)

theorem created_fresh : Fresh created sessionId where
  row := by rw [created, StringMap.get_insert, if_pos rfl]
  head := by rw [created, StringMap.get_insert, if_pos rfl]
  events := rfl
  turns := rfl

theorem appendTo_reaches {store after : Store Unit}
    (ran : run appendTo store appends = some after) :
    Relation.ReflTransGen (Step host plain sessionId) store after := by
  refine run_invariant (fun before append next reached appended => ?_) .refl ran
  simp only [appendTo, Option.map_eq_some_iff, toOption_eq_some] at appended
  obtain ⟨⟨_, result⟩, committed, rfl⟩ := appended
  exact reached.tail (.inl ⟨.liveOnly, 0, append, none, result, committed⟩)

theorem completedTurn_runs :
    ((run appendTo created completedTurn).map fun store =>
      ((store.eventsOf sessionId).map (·.kind), (store.turnsOf sessionId).map (·.state))) =
    some (["session/opening", "session/ready", "turn/started", "turn/completed"],
      [TurnState.completed]) := by
  decide +kernel

theorem completedTurn_is_exclusive :
    ∃ store : Store Unit, (store.eventsOf sessionId).map (·.kind) =
        ["session/opening", "session/ready", "turn/started", "turn/completed"] ∧
      (store.eventsOf sessionId).map (·.seq) = [1, 2, 3, 4] ∧
      (store.turnsOf sessionId).countP (·.state = .running) ≤ 1 ∧
      (store.eventsOf sessionId).countP (finishesTurn "turn") ≤ 1 := by
  obtain ⟨store, ran, seen⟩ := Option.map_eq_some_iff.mp completedTurn_runs
  obtain ⟨kinds, -⟩ := Prod.mk.inj seen
  obtain ⟨numbered, -, running, -, turn⟩ :=
    turns_are_exclusive host plain sessionId created_fresh (appendTo_reaches ran)
  have length : (store.eventsOf sessionId).length = 4 := by
    simpa using congrArg length kinds
  rw [length] at numbered
  exact ⟨store, kinds, numbered, running, (turn "turn").2.1⟩

end Nomifun.Guarantees.TurnLifecycle
