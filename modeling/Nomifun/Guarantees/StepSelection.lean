import Nomifun.Library.Greedy
import Nomifun.Source.AgentExecution.Scheduler

/-!
# The choice of the steps to run

The scheduler counts what is occupied from two overlapping sources: the active attempts in the
tables, and the steps that it dispatched itself. The count is the number of the steps held, each
counted once. The choice among the ready steps is greedy in their order: it stays within the limit
of the execution and of each participant, leaves a step out only for want of room, and does not
depend on the order in which the dispatched steps are iterated.
-/
namespace Nomifun.Guarantees.StepSelection
open Library.Greedy Source.AgentExecution List

variable {detail : AgentExecutionDetail} {reservations : List AgentExecutionReservation}
  {step : ExecutionStep} {stepId participantId : String}

/-! ### The steps held -/

/-- The steps given to a participant. -/
def given (participantId : String) (steps : List ExecutionStep) : Nat :=
  steps.countP (·.assignedParticipantId = some participantId)

/-- An assigned step is held by its first active attempt, unless that has released its capacity;
without an active attempt it is held while it is in flight. -/
def isHeld (attempts : List ExecutionAttempt) (inFlight : List String)
    (reservations : List AgentExecutionReservation) (step : ExecutionStep) : Bool :=
  step.assignedParticipantId.isSome &&
    match attempts.find? (·.stepId = step.stepId) with
    | some attempt => modelHeld reservations attempt
    | none => step.stepId ∈ inFlight

def heldSteps (detail : AgentExecutionDetail) (inFlight : HashSet)
    (reservations : List AgentExecutionReservation) : List ExecutionStep :=
  detail.activeSteps.filter
    (isHeld (detail.attempts.filter (·.status.isActive)) inFlight.ids reservations)

/-- An occupancy that counts each of the selected current steps once. -/
def Holds (detail : AgentExecutionDetail) (selects : ExecutionStep → Bool)
    (occupancy : Occupancy) : Prop :=
  ∃ held : List ExecutionStep, held.Nodup ∧
    (∀ step, step ∈ held ↔ step ∈ detail.activeSteps ∧ selects step = true) ∧
    occupancy.activeCount = held.length ∧ ∀ id, occupancy.perParticipant id = given id held

section

variable {occupancy : Occupancy} {attempts : List ExecutionAttempt} {attempt : ExecutionAttempt}

@[simp] theorem given_append (id : String) (first second : List ExecutionStep) :
    given id (first ++ second) = given id first + given id second := countP_append

theorem Holds.congr (holds : Holds detail selects occupancy)
    (same : ∀ step ∈ detail.activeSteps, selects' step = selects step) :
    Holds detail selects' occupancy := by
  obtain ⟨held, distinct, members, count, shares⟩ := holds
  refine ⟨held, distinct, fun step => (members step).trans ?_, count, shares⟩
  exact and_congr_right fun member => by rw [same step member]

theorem Holds.hold (holds : Holds detail selects occupancy) (member : step ∈ detail.activeSteps)
    (assigned : step.assignedParticipantId = some participantId) (new : selects step = false)
    (now : selects' step = true)
    (same : ∀ other ∈ detail.activeSteps, other ≠ step → selects' other = selects other) :
    Holds detail selects' (occupancy.hold participantId) := by
  obtain ⟨held, distinct, members, count, shares⟩ := holds
  refine ⟨step :: held, nodup_cons.mpr ⟨fun listed => ?_, distinct⟩, fun other => ?_, ?_, ?_⟩
  · rw [((members step).mp listed).2] at new
    cases new
  · rw [mem_cons, members]
    by_cases equal : other = step
    · simp [equal, member, now]
    · simp only [equal, false_or]
      exact and_congr_right fun listed => by rw [same other listed equal]
  · simp [Occupancy.hold, count]
  · intro id
    by_cases equal : id = participantId
    · simp [Occupancy.hold, given, equal, assigned, shares]
    · have other : participantId ≠ id := Ne.symm equal
      simp [Occupancy.hold, given, equal, assigned, other, shares]

theorem assignedTo_eq_some :
    assignedTo detail stepId = some participantId ↔
      ∃ step ∈ detail.activeSteps, step.stepId = stepId ∧
        step.assignedParticipantId = some participantId := by
  simp [assignedTo, Option.bind_eq_some_iff, AgentExecutionDetail.activeStep_eq_some, and_assoc]

theorem active_unique (member : step ∈ detail.activeSteps) (listed : other ∈ detail.activeSteps)
    (same : other.stepId = step.stepId) : other = step :=
  inj_on_of_nodup_map AgentExecutionDetail.distinct_activeSteps listed member same

/-- The steps that the attempts counted so far belong to. -/
def Seen (detail : AgentExecutionDetail) (attempts : List ExecutionAttempt)
    (occupancy : Occupancy) : Prop :=
  ∀ id, id ∈ occupancy.stepIds ↔
    (assignedTo detail id).isSome = true ∧ ∃ attempt ∈ attempts, attempt.stepId = id

theorem exists_of_step_append {id : String} :
    (∃ known ∈ attempts ++ [attempt], known.stepId = id) ↔
      (∃ known ∈ attempts, known.stepId = id) ∨ attempt.stepId = id := by
  simp

theorem Seen.same {attempt : ExecutionAttempt} (seen : Seen detail attempts occupancy)
    (known : attempt.stepId ∈ occupancy.stepIds ∨ assignedTo detail attempt.stepId = none) :
    Seen detail (attempts ++ [attempt]) occupancy := by
  intro id
  rw [seen id, exists_of_step_append]
  refine and_congr_right fun assigned => ⟨.inl, fun named => named.elim (fun old => old) ?_⟩
  rintro rfl
  obtain listed | unassigned := known
  · exact ((seen _).mp listed).2
  · simp [unassigned] at assigned

theorem Seen.extend (seen : Seen detail attempts occupancy)
    (assigned : (assignedTo detail attempt.stepId).isSome = true) (count : Nat)
    (shares : String → Int) :
    Seen detail (attempts ++ [attempt])
      ⟨occupancy.stepIds ++ [attempt.stepId], count, shares⟩ := by
  intro id
  rw [exists_of_step_append, mem_append, mem_singleton, seen id]
  constructor
  · rintro (⟨known, old⟩ | rfl)
    · exact ⟨known, .inl old⟩
    · exact ⟨assigned, .inr rfl⟩
  · rintro ⟨known, old | rfl⟩
    · exact .inl ⟨known, old⟩
    · exact .inr rfl

theorem isHeld_append_of_ne (other : attempt.stepId ≠ step.stepId) :
    isHeld (attempts ++ [attempt]) ids reservations step =
      isHeld attempts ids reservations step := by
  simp [isHeld, other]

theorem isHeld_of_seen (seen : ∃ earlier ∈ attempts, earlier.stepId = step.stepId)
    (rest : List ExecutionAttempt) (more : List String) :
    isHeld (attempts ++ rest) more reservations step = isHeld attempts ids reservations step := by
  obtain ⟨first, found⟩ : ∃ first, attempts.find? (·.stepId = step.stepId) = some first := by
    obtain ⟨earlier, member, same⟩ := seen
    exact Option.isSome_iff_exists.mp (find?_isSome.mpr ⟨earlier, member, by simpa using same⟩)
  simp [isHeld, found]

section

variable (unseen : ¬ ∃ earlier ∈ attempts, earlier.stepId = step.stepId)
include unseen

theorem find_of_unseen : attempts.find? (·.stepId = step.stepId) = none :=
  find?_eq_none.mpr fun attempt member same => unseen ⟨attempt, member, by simpa using same⟩

theorem isHeld_of_unseen : isHeld attempts ids reservations step =
    (step.assignedParticipantId.isSome && decide (step.stepId ∈ ids)) := by
  simp [isHeld, find_of_unseen unseen]

theorem isHeld_append_of_unseen (same : attempt.stepId = step.stepId)
    (assigned : step.assignedParticipantId.isSome = true) :
    isHeld (attempts ++ [attempt]) ids reservations step = modelHeld reservations attempt := by
  have found : (attempts ++ [attempt]).find? (·.stepId = step.stepId) = some attempt := by
    rw [find?_append, find_of_unseen unseen, Option.none_or,
      find?_cons_of_pos (by simpa using same)]
  simp [isHeld, assigned, found]

end

theorem isHeld_unassigned (member : step ∈ detail.activeSteps)
    (unassigned : assignedTo detail step.stepId = none) :
    isHeld attempts ids reservations step = false := by
  have none : step.assignedParticipantId = none := by
    rw [Option.eq_none_iff_forall_ne_some]
    intro participantId given
    rw [assignedTo_eq_some.mpr ⟨step, member, rfl, given⟩] at unassigned
    cases unassigned
  simp [isHeld, none]

theorem countAttempt_spec (seen : Seen detail attempts occupancy)
    (holds : Holds detail (isHeld attempts [] reservations) occupancy) :
    Seen detail (attempts ++ [attempt]) (countAttempt detail reservations occupancy attempt) ∧
      Holds detail (isHeld (attempts ++ [attempt]) [] reservations)
        (countAttempt detail reservations occupancy attempt) := by
  unfold countAttempt
  cases assigned : assignedTo detail attempt.stepId with
  | none =>
    refine ⟨seen.same (.inr assigned), holds.congr fun step member => ?_⟩
    by_cases same : attempt.stepId = step.stepId
    · rw [same] at assigned
      rw [isHeld_unassigned member assigned, isHeld_unassigned member assigned]
    · exact isHeld_append_of_ne same
  | some participantId =>
    obtain ⟨step, member, same, given⟩ := assignedTo_eq_some.mp assigned
    have others (other : ExecutionStep) (listed : other ∈ detail.activeSteps)
        (different : other ≠ step) :
        isHeld (attempts ++ [attempt]) [] reservations other =
          isHeld attempts [] reservations other :=
      isHeld_append_of_ne fun equal => different (active_unique member listed (by rw [same, equal]))
    dsimp only
    split
    next again =>
      obtain ⟨-, earlier⟩ := (seen _).mp again
      refine ⟨seen.same (.inl again), holds.congr fun other listed => ?_⟩
      by_cases different : other = step
      · subst different
        exact isHeld_of_seen (same ▸ earlier) [attempt] []
      · exact others other listed different
    next first =>
      have known : (assignedTo detail attempt.stepId).isSome = true := by simp [assigned]
      have unseen : ¬ ∃ earlier ∈ attempts, earlier.stepId = step.stepId := fun earlier =>
        first ((seen _).mpr ⟨known, same ▸ earlier⟩)
      have before : isHeld attempts [] reservations step = false := by
        simp [isHeld_of_unseen unseen]
      have now : isHeld (attempts ++ [attempt]) [] reservations step =
          modelHeld reservations attempt :=
        isHeld_append_of_unseen unseen same.symm (by simp [given])
      split
      next held =>
        exact ⟨seen.extend known _ _, Holds.hold holds member given before (now.trans held) others⟩
      next released =>
        refine ⟨seen.extend known _ _, Holds.congr holds fun other listed => ?_⟩
        by_cases different : other = step
        · rw [different, now, before]
          simpa using released
        · exact others other listed different

theorem countAttempts_spec :
    Seen detail attempts (attempts.foldl (countAttempt detail reservations) ⟨[], 0, fun _ => 0⟩) ∧
      Holds detail (isHeld attempts [] reservations)
        (attempts.foldl (countAttempt detail reservations) ⟨[], 0, fun _ => 0⟩) := by
  induction attempts using reverseRecOn with
  | nil =>
    refine ⟨fun id => by simp, [], nodup_nil, fun step => ?_, rfl, fun _ => rfl⟩
    simp [isHeld]
  | append_singleton attempts attempt ih =>
    rw [foldl_append, foldl_cons]
    exact countAttempt_spec ih.1 ih.2

theorem isHeld_in_flight_of_ne (other : step.stepId ≠ stepId) :
    isHeld attempts (ids ++ [stepId]) reservations step =
      isHeld attempts ids reservations step := by
  simp [isHeld, other]

theorem countInFlight_spec (seen : Seen detail attempts occupancy)
    (holds : Holds detail (isHeld attempts ids reservations) occupancy) (new : stepId ∉ ids) :
    Seen detail attempts (countInFlight detail occupancy stepId) ∧
      Holds detail (isHeld attempts (ids ++ [stepId]) reservations)
        (countInFlight detail occupancy stepId) := by
  unfold countInFlight
  split
  next known =>
    obtain ⟨-, earlier⟩ := (seen _).mp known
    refine ⟨seen, holds.congr fun step member => ?_⟩
    by_cases same : step.stepId = stepId
    · have kept : isHeld (attempts ++ []) (ids ++ [stepId]) reservations step =
          isHeld attempts ids reservations step := isHeld_of_seen (same ▸ earlier) [] _
      rwa [append_nil] at kept
    · exact isHeld_in_flight_of_ne same
  next unknown =>
    cases assigned : assignedTo detail stepId with
    | none =>
      refine ⟨seen, holds.congr fun step member => ?_⟩
      by_cases same : step.stepId = stepId
      · rw [← same] at assigned
        rw [isHeld_unassigned member assigned, isHeld_unassigned member assigned]
      · exact isHeld_in_flight_of_ne same
    | some participantId =>
      obtain ⟨step, member, same, given⟩ := assignedTo_eq_some.mp assigned
      have unseen : ¬ ∃ earlier ∈ attempts, earlier.stepId = step.stepId := fun earlier =>
        unknown ((seen _).mpr ⟨by simp [assigned], same ▸ earlier⟩)
      refine ⟨seen, holds.hold member given ?_ ?_ fun other listed different => ?_⟩
      · simp [isHeld_of_unseen unseen, same, new]
      · simp [isHeld_of_unseen unseen, same, given]
      · exact isHeld_in_flight_of_ne fun equal =>
          different (active_unique member listed (equal.trans same.symm))

theorem countInFlights_spec (seen : Seen detail attempts occupancy)
    (holds : Holds detail (isHeld attempts [] reservations) occupancy) (distinct : ids.Nodup) :
    Seen detail attempts (ids.foldl (countInFlight detail) occupancy) ∧
      Holds detail (isHeld attempts ids reservations)
        (ids.foldl (countInFlight detail) occupancy) := by
  induction ids using reverseRecOn with
  | nil => exact ⟨seen, holds⟩
  | append_singleton ids stepId ih =>
    obtain ⟨first, -, apart⟩ := nodup_append.mp distinct
    rw [foldl_append, foldl_cons]
    refine countInFlight_spec (ih first).1 (ih first).2 fun member => ?_
    exact apart stepId member stepId (mem_singleton_self stepId) rfl

/-- The occupancy counts the steps held. -/
theorem occupied_spec (detail : AgentExecutionDetail) (inFlight : HashSet)
    (reservations : List AgentExecutionReservation) :
    (occupied detail inFlight reservations).activeCount =
        (heldSteps detail inFlight reservations).length ∧
      ∀ id, (occupied detail inFlight reservations).perParticipant id =
        given id (heldSteps detail inFlight reservations) := by
  obtain ⟨seen, holds⟩ := @countAttempts_spec detail reservations
    (detail.attempts.filter (·.status.isActive))
  obtain ⟨-, held, distinct, members, count, shares⟩ :=
    countInFlights_spec seen holds inFlight.distinct
  have perm : held.Perm (heldSteps detail inFlight reservations) := by
    refine (perm_ext_iff_of_nodup distinct ?_).mpr fun step => ?_
    · exact (AgentExecutionDetail.distinct_activeSteps.of_map).sublist filter_sublist
    · rw [members, heldSteps, mem_filter]
  exact ⟨count.trans perm.length_eq, fun id =>
    (shares id).trans (by rw [given, perm.countP_eq, given])⟩

end

/-! ### The choice -/

/-- Whether the participant of a step has room for it. -/
def hasRoom (detail : AgentExecutionDetail) (held chosen : List ExecutionStep)
    (step : ExecutionStep) : Bool :=
  (participantFor detail step).any fun participant =>
    (given participant.participantId held + given participant.participantId chosen : Int) <
      concurrencyLimit participant

/-- The rule of the choice: a step fits while the execution and its participant have room. -/
def fits (detail : AgentExecutionDetail) (inFlight : HashSet) (held chosen : List ExecutionStep)
    (step : ExecutionStep) : Bool :=
  (step.kind = .agent && step.stepId ∉ inFlight.ids) &&
    (held.length + chosen.length < detail.execution.maxParallel && hasRoom detail held chosen step)

section

variable {held selected rest : List ExecutionStep} {counts : String → Int} {available : Nat}
  {participant : ExecutionParticipant}

theorem participantFor_assigned (found : participantFor detail step = some participant) :
    step.assignedParticipantId = some participant.participantId := by
  obtain ⟨id, assigned, listed⟩ := Option.bind_eq_some_iff.mp found
  rw [assigned, show participant.participantId = id by simpa using find?_some listed]

/-- The loop is the greedy choice; it stops when nothing fits any more. -/
theorem selectFrom_eq (room : selected.length < available)
    (shares : ∀ id, counts id = given id held + given id selected) :
    selectFrom detail available counts selected rest =
      rest.foldl (consider fun chosen step => chosen.length < available &&
        hasRoom detail held chosen step) selected := by
  induction rest generalizing counts selected with
  | nil => rfl
  | cons step rest ih =>
    rw [foldl_cons, selectFrom, consider, hasRoom]
    cases found : participantFor detail step with
    | none => simpa using ih room shares
    | some participant =>
      have assigned := participantFor_assigned found
      simp only [Option.any_some, room, decide_true, Bool.true_and, decide_eq_true_eq, ← shares]
      by_cases full : concurrencyLimit participant ≤ counts participant.participantId
      · rw [if_pos full, if_neg (not_lt.mpr full)]
        exact ih room shares
      · rw [if_neg full, if_pos (not_le.mp full)]
        split
        next last => exact (foldl_consider_full fun other _ => by simp [last]).symm
        next more =>
          refine ih ?_ fun id => ?_
          · rw [length_append, length_singleton] at more ⊢
            omega
          · by_cases same : id = participant.participantId
            · simp [same, shares, given, assigned]
              omega
            · simp [same, shares, given, assigned, Ne.symm same]

theorem selectAgentStepsWithReservations_eq (detail : AgentExecutionDetail) (ready : ReadyList)
    (inFlight : HashSet) (reservations : List AgentExecutionReservation) :
    selectAgentStepsWithReservations detail ready inFlight reservations =
      greedy (fits detail inFlight (heldSteps detail inFlight reservations)) ready.steps := by
  obtain ⟨count, shares⟩ := occupied_spec detail inFlight reservations
  let held := heldSteps detail inFlight reservations
  let available := detail.execution.maxParallel - held.length
  let offered (step : ExecutionStep) : Bool := step.kind = .agent && step.stepId ∉ inFlight.ids
  have rule : fits detail inFlight held = fun chosen step => offered step &&
      (decide (chosen.length < available) && hasRoom detail held chosen step) := by
    funext chosen step
    rw [fits]
    congr 2
    exact decide_eq_decide.mpr (by omega)
  rw [rule, ← greedy_filter, selectAgentStepsWithReservations, count]
  split
  next none => exact (foldl_consider_full fun step _ => by simp [available, held, none]).symm
  next some =>
    refine selectFrom_eq (Nat.pos_of_ne_zero some) fun id => ?_
    simpa [given] using shares id

theorem offered_of_fits (fit : fits detail inFlight held chosen step = true) :
    step.kind = .agent ∧ step.stepId ∉ inFlight.ids := by
  simp only [fits, Bool.and_eq_true, decide_eq_true_eq] at fit
  exact fit.1

theorem greedy_offered (items : List ExecutionStep) :
    ∀ step ∈ greedy (fits detail inFlight held) items,
      step.kind = .agent ∧ step.stepId ∉ inFlight.ids := by
  refine greedy_invariant (fun chosen : List ExecutionStep => ∀ step ∈ chosen,
    step.kind = .agent ∧ step.stepId ∉ inFlight.ids) (by simp) fun chosen item _ before fit => ?_
  rw [forall_mem_append, forall_mem_singleton]
  exact ⟨before, offered_of_fits fit⟩

theorem greedy_length (detail : AgentExecutionDetail) (inFlight : HashSet)
    (held items : List ExecutionStep) :
    (greedy (fits detail inFlight held) items).length + held.length ≤
      max detail.execution.maxParallel held.length := by
  refine greedy_invariant (fun chosen => chosen.length + held.length ≤
    max detail.execution.maxParallel held.length) (by simp) fun chosen item _ before fit => ?_
  simp only [fits, Bool.and_eq_true, decide_eq_true_eq] at fit
  rw [length_append, length_singleton]
  omega

/-- A participant has at most its limit, or what it held before. -/
theorem greedy_given (inFlight : HashSet) (held items : List ExecutionStep)
    (active : participant ∈ detail.activeParticipants) :
    (given participant.participantId (greedy (fits detail inFlight held) items) +
        given participant.participantId held : Int) ≤
      max (concurrencyLimit participant) (given participant.participantId held) := by
  refine greedy_invariant (fun chosen => (given participant.participantId chosen +
      given participant.participantId held : Int) ≤ max (concurrencyLimit participant)
        (given participant.participantId held)) (by simp [given]) fun chosen item _ before fit => ?_
  simp only [fits, hasRoom, Bool.and_eq_true, Option.any_eq_true, decide_eq_true_eq] at fit
  obtain ⟨-, -, own, found, room⟩ := fit
  have assigned := participantFor_assigned found
  rw [given_append]
  by_cases same : own.participantId = participant.participantId
  · obtain ⟨_, -, listed⟩ := Option.bind_eq_some_iff.mp found
    have equal : own = participant :=
      inj_on_of_nodup_map detail.distinctParticipants
        (mem_of_mem_filter (mem_of_find?_eq_some listed)) (mem_of_mem_filter active)
        same
    subst equal
    have one : given own.participantId [item] = 1 := by simp [given, assigned]
    omega
  · have none : given participant.participantId [item] = 0 := by simp [given, assigned, same]
    omega

end

/-! ### The guarantee -/

/-- The steps that some active attempt holds, and those in flight without one. -/
def heldByAny (detail : AgentExecutionDetail) (inFlight : HashSet)
    (reservations : List AgentExecutionReservation) : List ExecutionStep :=
  detail.activeSteps.filter fun step => step.assignedParticipantId.isSome &&
    if (detail.attempts.filter (·.status.isActive)).any (·.stepId = step.stepId) then
      (detail.attempts.filter (·.status.isActive)).any fun attempt =>
        attempt.stepId = step.stepId && modelHeld reservations attempt
    else step.stepId ∈ inFlight.ids

/-- With one active attempt per step, the first one is the only one. -/
theorem heldSteps_eq_heldByAny (single : ∀ first ∈ detail.attempts, ∀ second ∈ detail.attempts,
      first.status.isActive = true → second.status.isActive = true →
        first.stepId = second.stepId → first = second) :
    heldSteps detail inFlight reservations = heldByAny detail inFlight reservations := by
  refine filter_congr fun step _ => ?_
  rw [isHeld]
  congr 1
  cases found : (detail.attempts.filter (·.status.isActive)).find? (·.stepId = step.stepId) with
  | none =>
    have unattempted : (detail.attempts.filter (·.status.isActive)).any
        (·.stepId = step.stepId) = false := by
      rw [any_eq_false]
      exact find?_eq_none.mp found
    rw [unattempted]
    rfl
  | some attempt =>
    have member := mem_of_find?_eq_some found
    have own : attempt.stepId = step.stepId := by simpa using find?_some found
    have attempted : (detail.attempts.filter (·.status.isActive)).any
        (·.stepId = step.stepId) = true := any_eq_true.mpr ⟨attempt, member, by simpa using own⟩
    rw [attempted, if_pos rfl, Bool.eq_iff_iff, any_eq_true]
    constructor
    · exact fun isHeld => ⟨attempt, member, by simpa [own] using isHeld⟩
    · rintro ⟨other, listed, held⟩
      rw [Bool.and_eq_true, decide_eq_true_eq] at held
      obtain ⟨known, active⟩ := mem_filter.mp member
      obtain ⟨otherKnown, otherActive⟩ := mem_filter.mp listed
      rw [single attempt known other otherKnown active otherActive (own.trans held.1.symm)]
      exact held.2

theorem readySteps_distinct (detail : AgentExecutionDetail) (now : Int) :
    ((readySteps detail now).map (·.stepId)).Nodup := by
  rw [readySteps, ((perm_insertionSort _ _).map _).nodup_iff]
  exact AgentExecutionDetail.distinct_activeSteps.sublist (filter_sublist.map _)

/-- What `ready_steps` hands over. -/
def readyList (detail : AgentExecutionDetail) (now : Int) : ReadyList :=
  ⟨readySteps detail now, readySteps_distinct detail now⟩

/-- The choice from the ready steps takes distinct Agent steps that are not in flight, keeps within
the limits of the execution and of every participant, leaves such a step out exactly if one of the
limits was reached by the steps held and those chosen before it, and is the same for every order in
which the steps in flight are iterated. -/
theorem selection_is_greedy_within_limits (detail : AgentExecutionDetail) (ready : ReadyList)
    (inFlight : HashSet) (reservations : List AgentExecutionReservation) :
    let result := selectAgentStepsWithReservations detail ready inFlight reservations
    let held := heldSteps detail inFlight reservations
    (result.Sublist ready.steps ∧ (result.map (·.stepId)).Nodup ∧
      ∀ step ∈ result, step.kind = .agent ∧ step.stepId ∉ inFlight.ids) ∧
    result.length + held.length ≤ max detail.execution.maxParallel held.length ∧
    (∀ participant ∈ detail.activeParticipants,
      (given participant.participantId result + given participant.participantId held : Int) ≤
        max (concurrencyLimit participant) (given participant.participantId held)) ∧
    (∀ before step after participant, ready.steps = before ++ step :: after →
      step.kind = .agent → step.stepId ∉ inFlight.ids →
      participantFor detail step = some participant →
      (step ∉ result ↔
        detail.execution.maxParallel ≤ held.length + (result.filter (· ∈ before)).length ∨
        concurrencyLimit participant ≤ (given participant.participantId held +
          given participant.participantId (result.filter (· ∈ before)) : Int))) ∧
    (∀ other : HashSet, (∀ id, id ∈ other.ids ↔ id ∈ inFlight.ids) →
      selectAgentStepsWithReservations detail ready other reservations = result) ∧
    ((∀ first ∈ detail.attempts, ∀ second ∈ detail.attempts, first.status.isActive = true →
        second.status.isActive = true → first.stepId = second.stepId → first = second) →
      held = heldByAny detail inFlight reservations) := by
  intro result held
  have rule : result = greedy (fits detail inFlight held) ready.steps :=
    selectAgentStepsWithReservations_eq detail ready inFlight reservations
  have sublist : result.Sublist ready.steps := rule ▸ greedy_sublist _ _
  refine ⟨⟨sublist, ready.distinct.sublist (sublist.map _), ?_⟩, ?_, ?_, ?_, ?_,
    heldSteps_eq_heldByAny⟩
  · exact rule ▸ greedy_offered ready.steps
  · exact rule ▸ greedy_length detail inFlight held ready.steps
  · exact fun participant active => rule ▸ greedy_given inFlight held ready.steps active
  · intro before step after participant split agent idle found
    have distinct : (before ++ step :: after).Nodup := split ▸ ready.distinct.of_map
    rw [rule, split, filter_greedy distinct, mem_greedy_iff distinct]
    simp only [fits, hasRoom, agent, idle, found, Option.any_some, not_false_eq_true, decide_true,
      Bool.true_and, Bool.and_eq_true, decide_eq_true_eq, not_and_or, not_lt]
  · intro other same
    rw [selectAgentStepsWithReservations_eq, rule]
    have sameHeld : heldSteps detail other reservations = held := by
      refine filter_congr fun step _ => ?_
      simp [isHeld, same]
    have sameRule : fits detail other held = fits detail inFlight held := by
      funext chosen step
      simp [fits, same]
    rw [sameHeld, sameRule]

def assignedStep (stepId : String) (status : ExecutionStepStatus) : ExecutionStep where
  stepId := stepId
  kind := .agent
  status := status
  controlPolicy := none
  assignedParticipantId := some "participant"
  dispatchAfter := none
  supersededInRevision := none
  version := 1
  createdAt := 0
  updatedAt := 0

/-- A step with two active attempts, and one that is ready, in an execution that runs one step at a
time. -/
def twiceAttempted : AgentExecutionDetail where
  execution := ⟨1, 1, by decide⟩
  participants := [⟨"participant", none, none, none⟩]
  steps := [assignedStep "first" .running, assignedStep "second" .pending]
  dependencies := []
  attempts := [⟨"released", "first", .waitingInput⟩, ⟨"running", "first", .running⟩]
  distinctParticipants := by decide
  distinctSteps := by decide
  named := by decide
  proper := by decide

/-- The first active attempt decides: the second one holds its capacity, and still the other step
is chosen. -/
theorem second_attempt_is_not_counted :
    let result := selectAgentStepsWithReservations twiceAttempted (readyList twiceAttempted 0)
      ⟨[], List.nodup_nil⟩ [⟨"released", false⟩]
    let held := heldByAny twiceAttempted ⟨[], List.nodup_nil⟩ [⟨"released", false⟩]
    result.length + held.length = 2 ∧ max twiceAttempted.execution.maxParallel held.length = 1 := by
  decide

end Nomifun.Guarantees.StepSelection
