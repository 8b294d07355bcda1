import Nomifun.Guarantees.InputClaims

/-!
# Session inputs are consumed once

Two commands claim an accepted input, for a new turn or for the running one, and others cancel it.
Each looks at the log before it writes: a claim at the claims, the cancellation and the queue, a
cancellation at the claims. Over every interleaving of the commands, with other appends between
them, an input is a thing that is used once.
-/
namespace Nomifun.Guarantees.InputConsumption
open Library Library.Json Library.SingleUse Source.AgentContracts Source.AgentSession
  Guarantees.TurnLifecycle Guarantees.EffectLifecycle List Option

variable {σ : Type} {platform : Platform} {outer : Outer σ} {store after : Store (Records σ)}
  {session : AgentSessionId} {input : EventId} {checks : InputChecks σ} {producer : String}

/-! ### The commands -/

/-- Whether the queue holds the input back. -/
def heldInput {σ : Type} (platform : Platform) (outer : Outer σ) (store : Store (Records σ))
    (session : AgentSessionId) (input : EventId) : StoreResult Bool := do
  let accepted ← acceptedInput platform outer store session input
  let queue ← queueState platform outer store session
  queue.held accepted

/-- The owner cancelled the input. -/
def isCancelled {σ : Type} (store : Store (Records σ)) (session : AgentSessionId)
    (input : EventId) : Bool :=
  store.events.any (isCancellation session input)

/-- The command cancels the input: it removes it, replaces it, or clears the queue it is in. -/
def Cancels {σ : Type} (platform : Platform) (outer : Outer σ) (store : Store (Records σ))
    (session : AgentSessionId) (input : EventId) : SessionInputQueueCommand → Prop
  | .control (.remove messageId) | .replace messageId _ => messageId = input
  | .control .clear => ∃ snapshot, queueSnapshot platform outer store session = .ok snapshot ∧
      ∃ item ∈ snapshot.items, item.messageId = input ∧ item.inputDelivery.placement = .queued
  | .control _ => False

theorem uncancelled_of_none (is : Accepted store session input accepted)
    (none : cancelledInput platform outer store accepted.event = .ok none) :
    store.events.any (isCancellation session input) = false := by
  refine any_eq_false.mpr fun event member => ?_
  have other := cancelledInput_none none event member
  rw [is.eventId] at other
  simp [isCancellation, other]

/-- A turn takes an input that nobody used and that is not held. -/
theorem turnClaimable_true (recorded : Recorded store session)
    (ok : turnClaimable platform outer store session input = .ok true) :
    usage platform store session input = unused ∧
      heldInput platform outer store session input ≠ .ok true := by
  simp only [turnClaimable, bind_eq_ok] at ok
  obtain ⟨accepted, found, _, -, cancelled, query, ok⟩ := ok
  cases cancelled with
  | some event => cases ok
  | none =>
    simp only [isSome_none, Bool.false_eq_true, if_false, bind_eq_ok] at ok
    obtain ⟨queue, folded, held, asked, ok⟩ := ok
    split at ok
    next => cases ok
    next may =>
      simp only [Bool.or_eq_true, not_or, Bool.not_eq_true] at may
      have alive := uncancelled_of_none (acceptedInput_ok found) query
      refine ⟨by rw [usage, recorded.unclaimed may.2, alive]; rfl, ?_⟩
      simp [heldInput, found, folded, asked, may.1.1, bind, Except.bind]

theorem steeringMetadataEligible_true {id target : EventId} {receiver : Option ChannelInputSource}
    {queue : QueueState}
    (ok : steeringMetadataEligible platform id seq routing target receiver queue = .ok true) :
    queue.heldMetadata id seq routing = .ok false := by
  simp only [steeringMetadataEligible, bind_eq_ok] at ok
  obtain ⟨intent, -, _, -, held, asked, ok⟩ := ok
  cases held with
  | true => cases ok
  | false => exact asked

/-- A running turn takes an input that nobody used and that is not held. -/
theorem steeringClaimable_true {target : OperationId} (recorded : Recorded store session)
    (ok : steeringClaimable platform outer store session input target = .ok true) :
    usage platform store session input = unused ∧
      heldInput platform outer store session input ≠ .ok true := by
  simp only [steeringClaimable, bind_eq_ok] at ok
  obtain ⟨accepted, found, _, -, cancelled, query, ok⟩ := ok
  cases cancelled with
  | some event => cases ok
  | none =>
    simp only [isSome_none, Bool.false_eq_true, if_false, bind_eq_ok] at ok
    obtain ⟨head, -, ok⟩ := ok
    split at ok
    next => cases ok
    next =>
      simp only [bind_eq_ok] at ok
      obtain ⟨queue, folded, eligible, asked, ok⟩ := ok
      split at ok
      next => cases ok
      next may =>
        simp only [Bool.or_eq_true, not_or, Bool.not_eq_true, Bool.not_eq_false'] at may
        obtain ⟨⟨taken, -⟩, unclaimed⟩ := may
        simp only [steeringEligible, taken, bind_eq_ok] at asked
        obtain ⟨root, -, receiver, -, metadata⟩ := asked
        have free : queue.held accepted = .ok false := steeringMetadataEligible_true metadata
        have alive := uncancelled_of_none (acceptedInput_ok found) query
        refine ⟨by rw [usage, recorded.unclaimed unclaimed, alive]; rfl, ?_⟩
        simp [heldInput, found, folded, free, bind, Except.bind]

section

variable {now : Int} {target : AgentSessionId} {named : EventId} {claimable : Prop}
  {owner : PrincipalRef} {key : String} {id replacementId : NewEventId}
  {result : Option SessionEventAppendResult} {snapshot : SessionInputQueueSnapshot}
  {operation : OperationId} {version : Option Nat}

variable (recorded : Recorded store session)
include recorded

theorem accepted_uses {result : SessionEventAppendResult} (ok : appendInline platform outer now
      (acceptedAppend target id.text producer key cause value) store = .ok (after, result)) :
    Uses platform session input claimable store after := by
  apply unrelated_uses recorded _ ok
  exact .of_kind (by decide) (by decide) (newEventId_ne_cancellationId id input)

theorem appendQueueChange_uses
    (ok : appendQueueChange platform outer now target identity change id store = .ok after) :
    Uses platform session input claimable store after := by
  simp only [appendQueueChange, bind_eq_ok] at ok
  obtain ⟨cause, -, ⟨appended, result⟩, committed, done⟩ := ok
  cases done
  apply unrelated_uses recorded _ committed
  exact .of_kind (by decide) (by decide) (newEventId_ne_cancellationId id input)

theorem cancelPendingInput_uses
    (ok : cancelPendingInput platform outer now target store named = .ok after) :
    Uses platform session input claimable store after := by
  simp only [cancelPendingInput, bind_eq_ok, guard_eq_ok, Bool.not_eq_true] at ok
  obtain ⟨unclaimed, ⟨appended, result⟩, committed, done⟩ := ok
  cases done
  exact blocked_uses recorded unclaimed committed

/-- Clearing the queue cancels its inputs one after the other. -/
theorem cancelPendingInputs_uses {cancelled : List EventId}
    (ok : cancelled.foldlM (cancelPendingInput platform outer now target) store = .ok after) :
    Uses platform session input claimable store after := by
  induction cancelled generalizing store with
  | nil =>
    cases ok
    exact .refl recorded
  | cons first rest ih =>
    simp only [foldlM_cons, bind_eq_ok] at ok
    obtain ⟨between, cancels, ok⟩ := ok
    have one : Uses platform session input claimable store between :=
      cancelPendingInput_uses recorded cancels
    exact one.trans (ih one.recorded ok)

theorem acceptSessionInput_uses {result : SessionEventAppendResult}
    (ok : acceptSessionInput platform outer now checks owner target producer key value id store =
      .ok (after, result)) : Uses platform session input claimable store after := by
  simp only [acceptSessionInput, acceptSessionInputInner, bind_eq_ok, guard_eq_ok] at ok
  obtain ⟨_, -, acceptedKey, -, _, -, -, ok⟩ := ok
  cases known : eventByProducerKey store producer acceptedKey with
  | some record =>
    simp only [known, bind_eq_ok, guard_eq_ok] at ok
    obtain ⟨_, -, -, done⟩ := ok
    cases done
    exact .refl recorded
  | none =>
    simp only [known, bind_eq_ok, guard_eq_ok] at ok
    obtain ⟨_, -, -, _, -, _, -, cause, -, committed⟩ := ok
    exact accepted_uses recorded committed

theorem tryClaimSessionInputAsTurn_uses
    (ok : tryClaimSessionInputAsTurn platform outer now owner target named operation admission id
      store = .ok (after, result)) :
    Uses platform session input (heldInput platform outer store session input ≠ .ok true)
      store after := by
  simp only [tryClaimSessionInputAsTurn, bind_eq_ok, guard_eq_ok] at ok
  obtain ⟨_, -, -, may, asked, ok⟩ := ok
  cases may with
  | false =>
    cases ok
    exact .refl recorded
  | true =>
    simp only [if_true, bind_eq_ok] at ok
    obtain ⟨⟨appended, _⟩, committed, done⟩ := ok
    cases done
    refine claim_uses recorded rfl (newEventId_ne_cancellationId id input) ?_ committed
    intro later seq claims
    simp only [isConsumptionClaim, steeringClaims, Bool.or_eq_true, Bool.and_eq_true,
      decide_eq_true_eq] at claims
    rcases claims with ⟨⟨own, -⟩, cause⟩ | ⟨⟨⟨-, kind⟩, -⟩, -⟩
    · obtain rfl : target = session := own
      obtain rfl : named = input := Option.some.inj cause
      exact turnClaimable_true recorded asked
    · simp [recordFromAppend, turnClaimAppend] at kind

theorem tryClaimSessionInputAsSteering_uses
    (ok : tryClaimSessionInputAsSteering platform outer now owner target named operation id store =
      .ok (after, result)) :
    Uses platform session input (heldInput platform outer store session input ≠ .ok true)
      store after := by
  simp only [tryClaimSessionInputAsSteering, bind_eq_ok, guard_eq_ok] at ok
  obtain ⟨_, -, -, may, asked, ok⟩ := ok
  cases may with
  | false =>
    cases ok
    exact .refl recorded
  | true =>
    simp only [if_true, bind_eq_ok] at ok
    obtain ⟨⟨appended, _⟩, committed, done⟩ := ok
    cases done
    refine claim_uses recorded rfl (newEventId_ne_cancellationId id input) ?_ committed
    intro later seq claims
    simp only [isConsumptionClaim, steeringClaims, Bool.or_eq_true, Bool.and_eq_true,
      decide_eq_true_eq] at claims
    rcases claims with ⟨⟨-, kind⟩, -⟩ | ⟨⟨⟨own, -⟩, -⟩, names⟩
    · simp [recordFromAppend, steeringClaimAppend] at kind
    · obtain rfl : target = session := own
      obtain rfl : named = input := by
        simpa [extractedIs, extracted, columnJson, recordFromAppend, steeringClaimAppend,
          Value.member, equalsText] using names
      exact steeringClaimable_true recorded asked

theorem markSessionInputBlocked_uses
    (ok : markSessionInputBlocked platform outer now target named reason store = .ok after) :
    Uses platform session input claimable store after := by
  simp only [markSessionInputBlocked, bind_eq_ok] at ok
  obtain ⟨accepted, -, cancelled, -, ok⟩ := ok
  split at ok
  next =>
    cases ok
    exact .refl recorded
  next may =>
    simp only [Bool.or_eq_true, not_or, Bool.not_eq_true] at may
    simp only [bind_eq_ok] at ok
    obtain ⟨⟨appended, result⟩, committed, done⟩ := ok
    cases done
    exact blocked_uses recorded may.2 committed

omit recorded in
theorem updateSessionInputQueue_ok
    (ok : updateSessionInputQueue platform outer now owner target key action version id store =
      .ok (after, snapshot)) :
    after = store ∨ ∃ before identity change cancelled,
      queueSnapshot platform outer store target = .ok before ∧
      (cancelledBy before action).foldlM (cancelPendingInput platform outer now target) store =
        .ok cancelled ∧
      appendQueueChange platform outer now target identity change id cancelled = .ok after := by
  simp only [updateSessionInputQueue, bind_eq_ok, guard_eq_ok] at ok
  obtain ⟨_, -, -, identity, -, known, -, ok⟩ := ok
  cases known with
  | true =>
    simp only [if_true, bind_eq_ok] at ok
    obtain ⟨_, -, done⟩ := ok
    cases done
    exact .inl rfl
  | false =>
    simp only [Bool.false_eq_true, if_false, bind_eq_ok, guard_eq_ok] at ok
    obtain ⟨before, seen, -, _, -, _, -, head, -, cancelled, cancels, changed, appends, _, -,
      done⟩ := ok
    cases done
    exact .inr ⟨before, identity, _, cancelled, seen, cancels, appends⟩

theorem updateSessionInputQueue_uses
    (ok : updateSessionInputQueue platform outer now owner target key action version id store =
      .ok (after, snapshot)) : Uses platform session input claimable store after := by
  rcases updateSessionInputQueue_ok ok with rfl | ⟨_, _, _, cancelled, -, cancels, appends⟩
  · exact .refl recorded
  · have cancellation : Uses platform session input claimable store cancelled :=
      cancelPendingInputs_uses recorded cancels
    exact cancellation.trans (appendQueueChange_uses cancellation.recorded appends)

/-- A replacement that is not a repetition cancels its input and accepts another. -/
theorem replaceSessionInput_uses {content : String}
    (ok : replaceSessionInput platform outer now owner target key named content version
      replacementId id store = .ok (after, snapshot)) :
    after = store ∨ ∃ cancelled,
      cancelPendingInput platform outer now target store named = .ok cancelled ∧
      Uses platform session input claimable cancelled after := by
  simp only [replaceSessionInput, invalidPayload, bind_eq_ok, guard_eq_ok] at ok
  obtain ⟨-, _, -, -, identity, -, known, -, ok⟩ := ok
  cases known with
  | true =>
    simp only [if_true, bind_eq_ok] at ok
    obtain ⟨_, -, done⟩ := ok
    cases done
    exact .inl rfl
  | false =>
    simp only [Bool.false_eq_true, if_false, bind_eq_ok, guard_eq_ok] at ok
    obtain ⟨before, -, -, -, original, -, bytes, -, -, cause, -, acceptedKey, -, cancelled, cancels,
      ⟨accepted, result⟩, accepts, changed, appends, _, -, done⟩ := ok
    cases done
    have cancellation : Uses platform session input claimable store cancelled :=
      cancelPendingInput_uses recorded cancels
    have acceptance : Uses platform session input claimable cancelled accepted :=
      accepted_uses cancellation.recorded accepts
    exact .inr ⟨cancelled, cancels, acceptance.trans
      (appendQueueChange_uses acceptance.recorded appends)⟩

end

/-! ### Cancellations -/

theorem duplicateEvent_some (ok : duplicateEvent events append = .ok (some record)) :
    record ∈ events ∧ recordFromAppend append record.seq = record := by
  have compared {existing : SessionEventRecord} (member : existing ∈ events)
      (ok : (compareDuplicate append existing).map some = .ok (some record)) :
      record ∈ events ∧ recordFromAppend append record.seq = record := by
    unfold compareDuplicate at ok
    split at ok
    next same =>
      cases ok
      exact ⟨member, same⟩
    next => cases ok
  unfold duplicateEvent at ok
  split at ok
  next existing found => exact compared (mem_of_find?_eq_some found) ok
  next =>
    split at ok
    next existing found => exact compared (mem_of_find?_eq_some found) ok
    next => cases ok

/-- The event that says that an input is blocked is in the log afterwards, new or as it was. -/
theorem blocked_logged {result : SessionEventAppendResult}
    (ok : appendInline platform outer now (blockedAppend session input reason) store =
      .ok (after, result)) :
    ∃ seq, recordFromAppend (blockedAppend session input reason) seq ∈ after.events := by
  simp only [appendInline, appendEvent, appendEventWithPolicy, bind_eq_ok] at ok
  obtain ⟨_, -, prepared, prepares, entry, registered, row, -, permitted, -, ok⟩ := ok
  have plain : preparedAppend (blockedAppend session input reason) prepared = _ :=
    prepareAppend_plain rfl prepares
  have persistent : entry.persistence = .persistent := by
    cases registered
    rfl
  simp only [persistent, bind_eq_ok] at ok
  obtain ⟨shared, looked, ok⟩ := ok
  cases looked
  simp only [appendPersistent, bind_eq_ok] at ok
  obtain ⟨inserted, inserts, known, compared, ok⟩ := ok
  cases known with
  | some record =>
    cases ok
    obtain ⟨member, same⟩ := duplicateEvent_some compared
    refine ⟨record.seq, ?_⟩
    rw [← plain]
    exact same ▸ member
  | none =>
    obtain ⟨storedBody, checked, ok⟩ := bind_eq_ok.mp ok
    obtain ⟨written, writes, done⟩ := bind_eq_ok.mp ok
    cases Except.ok.inj done
    obtain ⟨value, committed⟩ := writeEvent_committed inserts registered checked writes
    refine ⟨written.2.seq, ?_⟩
    rw [← plain, committed.written.events]
    exact mem_append_right _ (mem_singleton.mpr committed.recorded.symm)

theorem cancelPendingInput_cancels
    (ok : cancelPendingInput platform outer now session store input = .ok after) :
    isCancelled after session input = true := by
  simp only [cancelPendingInput, bind_eq_ok, guard_eq_ok] at ok
  obtain ⟨-, ⟨appended, result⟩, committed, done⟩ := ok
  cases done
  obtain ⟨seq, member⟩ := blocked_logged committed
  refine any_eq_true.mpr ⟨_, member, ?_⟩
  simp [isCancellation, recordFromAppend, blockedAppend, cancellationId_eq]

section

variable {now : Int} {owner : PrincipalRef} {key : String} {id replacementId : NewEventId}
  {version : Option Nat} {snapshot : SessionInputQueueSnapshot}

variable (recorded : Recorded store session)
include recorded

theorem cancelPendingInputs_cancel {cancelled : List EventId}
    (ok : cancelled.foldlM (cancelPendingInput platform outer now session) store = .ok after)
    (named : input ∈ cancelled) : isCancelled after session input = true := by
  induction cancelled generalizing store with
  | nil => cases named
  | cons first rest ih =>
    simp only [foldlM_cons, bind_eq_ok] at ok
    obtain ⟨between, cancels, ok⟩ := ok
    have one : Uses platform session input True store between :=
      cancelPendingInput_uses recorded cancels
    rcases mem_cons.mp named with rfl | later
    · have others : Uses platform session input True between after :=
        cancelPendingInputs_uses one.recorded ok
      exact others.run.withdrawn (cancelPendingInput_cancels cancels)
    · exact ih one.recorded ok later

/-- A command that cancels the input and is not a repetition leaves it cancelled. -/
theorem updateSessionInputQueueCommand_cancels
    (ok : updateSessionInputQueueCommand platform outer now owner session key command version
      replacementId id store = .ok (after, snapshot)) (writes : after ≠ store)
    (cancels : Cancels platform outer store session input command) :
    isCancelled after session input = true := by
  unfold updateSessionInputQueueCommand at ok
  cases command with
  | control action =>
    obtain ⟨before, _, _, cancelled, seen, folded, appends⟩ :=
      (updateSessionInputQueue_ok ok).resolve_left writes
    have named : input ∈ cancelledBy before action := by
      cases action with
      | remove messageId => exact mem_singleton.mpr cancels.symm
      | clear =>
        obtain ⟨snapshot, again, item, listed, id, queued⟩ := cancels
        obtain rfl := Except.ok.inj (seen.symm.trans again)
        exact mem_map.mpr ⟨item, mem_filter.mpr ⟨listed, decide_eq_true queued⟩, id⟩
      | pause | resume | reorder | promote => exact cancels.elim
    have cancellation : Uses platform session input True store cancelled :=
      cancelPendingInputs_uses recorded folded
    have change : Uses platform session input True cancelled after :=
      appendQueueChange_uses cancellation.recorded appends
    exact change.run.withdrawn (cancelPendingInputs_cancel recorded folded named)
  | replace messageId content =>
    obtain rfl : messageId = input := cancels
    have replaced : after = store ∨ ∃ cancelled,
        cancelPendingInput platform outer now session store messageId = .ok cancelled ∧
        Uses platform session messageId True cancelled after := replaceSessionInput_uses recorded ok
    obtain ⟨cancelled, drops, others⟩ := replaced.resolve_left writes
    exact others.run.withdrawn (cancelPendingInput_cancels drops)

end

/-! ### Runs -/

/-- A committed call of one of the commands, to any session and with any arguments. -/
inductive Command (platform : Platform) (outer : Outer σ) (checks : InputChecks σ)
    (store after : Store (Records σ)) : Prop
  | accept (now : Int) (owner : PrincipalRef) (session : AgentSessionId) (producer key : String)
      (input : Value) (id : NewEventId) (result : SessionEventAppendResult) :
      acceptSessionInput platform outer now checks owner session producer key input id store =
        .ok (after, result) → Command platform outer checks store after
  | claimAsTurn (now : Int) (owner : PrincipalRef) (session : AgentSessionId) (input : EventId)
      (operation : OperationId) (admission : Value) (id : NewEventId)
      (result : Option SessionEventAppendResult) :
      tryClaimSessionInputAsTurn platform outer now owner session input operation admission id
        store = .ok (after, result) → Command platform outer checks store after
  | claimAsSteering (now : Int) (owner : PrincipalRef) (session : AgentSessionId)
      (input : EventId) (target : OperationId) (id : NewEventId)
      (result : Option SessionEventAppendResult) :
      tryClaimSessionInputAsSteering platform outer now owner session input target id store =
        .ok (after, result) → Command platform outer checks store after
  | markBlocked (now : Int) (session : AgentSessionId) (input : EventId)
      (reason : SessionInputBlockedReason) :
      markSessionInputBlocked platform outer now session input reason store = .ok after →
      Command platform outer checks store after
  | updateQueue (now : Int) (owner : PrincipalRef) (session : AgentSessionId) (key : String)
      (command : SessionInputQueueCommand) (version : Option Nat) (replacementId id : NewEventId)
      (snapshot : SessionInputQueueSnapshot) :
      updateSessionInputQueueCommand platform outer now owner session key command version
        replacementId id store = .ok (after, snapshot) → Command platform outer checks store after

/-- A committed transaction: a command, an append of another part of the program, or a write that
adds no event. -/
inductive InputStep (platform : Platform) (outer : Outer σ) (checks : InputChecks σ)
    (input : EventId) (store after : Store (Records σ)) : Prop
  | command : Command platform outer checks store after →
      InputStep platform outer checks input store after
  | append (policy : AppendSessionStatePolicy) (now : Int) (append : SessionEventAppend)
      (payload : Option SessionPayloadRecord) (result : SessionEventAppendResult) :
      Unrelated input append →
      appendEventWithPolicy platform (canonical platform outer) policy now append payload store =
        .ok (after, result) → InputStep platform outer checks input store after
  | write : Untouched store after → InputStep platform outer checks input store after

theorem command_uses (recorded : Recorded store session)
    (command : Command platform outer checks store after) :
    Uses platform session input (heldInput platform outer store session input ≠ .ok true)
      store after := by
  cases command with
  | accept now owner target producer key value id result ok =>
    exact acceptSessionInput_uses recorded ok
  | claimAsTurn now owner target named operation admission id result ok =>
    exact tryClaimSessionInputAsTurn_uses recorded ok
  | claimAsSteering now owner target named operation id result ok =>
    exact tryClaimSessionInputAsSteering_uses recorded ok
  | markBlocked now target named reason ok => exact markSessionInputBlocked_uses recorded ok
  | updateQueue now owner target key command version replacementId id snapshot ok =>
    unfold updateSessionInputQueueCommand at ok
    cases command with
    | control action => exact updateSessionInputQueue_uses recorded ok
    | replace messageId content =>
      rcases replaceSessionInput_uses recorded ok with rfl | ⟨cancelled, cancels, others⟩
      · exact .refl recorded
      · exact (cancelPendingInput_uses recorded cancels).trans others

/-- The step lemma: the input is used as a thing that is used once, and claimed only while it is
not held. -/
theorem inputStep_uses (recorded : Recorded store session)
    (step : InputStep platform outer checks input store after) :
    Uses platform session input (heldInput platform outer store session input ≠ .ok true)
      store after := by
  cases step with
  | command command => exact command_uses recorded command
  | append policy now append payload result unrelated ok =>
    exact unrelated_uses recorded unrelated ok
  | write untouched => exact .untouched recorded untouched

theorem inputRun_uses (recorded : Recorded start session)
    (run : Relation.ReflTransGen (InputStep platform outer checks input) start store) :
    Uses platform session input True start store := by
  induction run with
  | refl => exact .refl recorded
  | tail _ step ih => exact ih.trans ((inputStep_uses ih.recorded step).mono fun _ => trivial)

theorem unwritten_recorded (unwritten : start.eventsOf session = []) : Recorded start session := by
  simp only [Store.eventsOf, filter_eq_nil_iff, decide_eq_true_eq] at unwritten
  exact ⟨fun event member own => absurd own (unwritten event member),
    fun event member own => absurd own (unwritten event member)⟩

theorem unwritten_unused (unwritten : start.eventsOf session = []) :
    usage platform start session input = unused := by
  simp only [Store.eventsOf, filter_eq_nil_iff] at unwritten
  have claims : consumptionClaims platform start session input = [] := by
    refine filter_eq_nil_iff.mpr fun event member => ?_
    simp [isConsumptionClaim, steeringClaims, unwritten event member]
  have cancelled : start.events.any (isCancellation session input) = false := by
    refine any_eq_false.mpr fun event member => ?_
    simp [isCancellation, unwritten event member]
  rw [usage, claims, cancelled]
  rfl

/-- Over every run from a session without events: an input has at most one claim and none once it
is cancelled, whichever came first stays, a step from a state that holds the input claims it not,
and a Remove, Clear or Replace of the input that is not the repetition of an earlier call, which
leaves the store as it was, cancels it. -/
theorem inputs_are_consumed_once {σ : Type} (platform : Platform) (outer : Outer σ)
    (checks : InputChecks σ) (session : AgentSessionId) (input : EventId)
    {start store : Store (Records σ)} (unwritten : start.eventsOf session = [])
    (run : Relation.ReflTransGen (InputStep platform outer checks input) start store) :
    (consumptionClaims platform store session input).length ≤ 1 ∧
    (isCancelled store session input = true →
      consumptionClaims platform store session input = []) ∧
    (∀ later, Relation.ReflTransGen (InputStep platform outer checks input) store later →
      (isCancelled store session input = true → isCancelled later session input = true ∧
        consumptionClaims platform later session input = []) ∧
      (consumptionClaims platform store session input ≠ [] →
        consumptionClaims platform later session input =
          consumptionClaims platform store session input ∧
        isCancelled later session input = false)) ∧
    (∀ after, InputStep platform outer checks input store after →
      heldInput platform outer store session input = .ok true →
      consumptionClaims platform after session input =
        consumptionClaims platform store session input) ∧
    (∀ now owner key command version replacementId id after snapshot,
      updateSessionInputQueueCommand platform outer now owner session key command version
        replacementId id store = .ok (after, snapshot) → after ≠ store →
      Cancels platform outer store session input command →
        isCancelled after session input = true) := by
  have uses : Uses platform session input True start store :=
    inputRun_uses (unwritten_recorded unwritten) run
  have used := uses.run
  rw [unwritten_unused unwritten] at used
  obtain ⟨single, excluded⟩ := used.exclusive
  refine ⟨single, excluded, fun later continued => ?_, fun after step held => ?_,
    fun _ _ _ _ _ _ _ _ _ ok writes cancels =>
      updateSessionInputQueueCommand_cancels uses.recorded ok writes cancels⟩
  · have further := (inputRun_uses uses.recorded continued).run
    refine ⟨fun cancelled => ?_, fun claimed => ?_⟩
    · have same := further.of_withdrawn (excluded cancelled) cancelled
      exact ⟨(congrArg Usage.withdrawn same).trans cancelled,
        (congrArg Usage.claims same).trans (excluded cancelled)⟩
    · have same := further.of_claimed claimed
      refine ⟨congrArg Usage.claims same, (congrArg Usage.withdrawn same).trans ?_⟩
      exact Bool.eq_false_iff.mpr fun cancelled => claimed (excluded cancelled)
  · exact (inputStep_uses uses.recorded step).claims fun unheld => unheld held

/-! ### An input that a turn takes, and one that is removed -/

def alice : PrincipalRef := ⟨"user", "alice"⟩

def noChannels : InputChecks Unit where
  questionRequest _ := .ok ()
  channelAuthorized _ _ _ := false

def ownedStart : Store (Records Unit) :=
  { ledgerStart with rest := { ledgerStart.rest with
      owners := (∅ : StringMap PrincipalRef).insert sessionId alice } }

def messageId : NewEventId := ⟨"01890a5d-ac96-774b-bcce-b302099a8058", by decide⟩

def claimId : NewEventId := ⟨"01890a5d-ac96-774b-bcce-b302099a8059", by decide⟩

def opened : List SessionEventAppend :=
  [appendOf "1" "session/opening" (.inlineJson opening), appendOf "2" "session/ready" .empty]

def pendingInput : Option (Store (Records Unit)) := do
  let ready ← run appendLocally ownedStart opened
  let accepted ← (acceptSessionInput host onLocalHost 0 noChannels alice sessionId "session_api"
    "send" (.object [("content", .string "hello"),
      ("delivery_intent", SessionInputDeliveryIntent.codec.encode .queue)]) messageId
        ready).toOption
  return accepted.1

def takenInput : Option (Store (Records Unit)) := do
  let claimed ← (tryClaimSessionInputAsTurn host onLocalHost 0 alice sessionId messageId.text
    "turn" (.object []) claimId (← pendingInput)).toOption
  return claimed.1

/-- The owner removes the input with the key `"drop"`. -/
def removal (store : Store (Records Unit)) :
    StoreResult (Store (Records Unit) × SessionInputQueueSnapshot) :=
  updateSessionInputQueueCommand host onLocalHost 0 alice sessionId "drop"
    (.control (.remove messageId.text)) none claimId claimId store

theorem takenInput_claims : (takenInput.map fun store =>
    (consumptionClaims host store sessionId messageId.text).map (·.kind)) =
      some ["turn/started"] := by
  decide +kernel

/-- The removal writes two events. -/
theorem removal_writes : (do
    let pending ← pendingInput
    let removed ← (removal pending).toOption
    return (pending.events.length, removed.1.events.length)) = some (3, 5) := by
  decide +kernel

/-- The input's runs on the local host. -/
abbrev Leads : Store (Records Unit) → Store (Records Unit) → Prop :=
  Relation.ReflTransGen (InputStep host onLocalHost noChannels messageId.text)

theorem opened_reaches {store after : Store (Records Unit)}
    (unrelated : ∀ append ∈ appends, Unrelated messageId.text append)
    (ran : run appendLocally store appends = some after) : Leads store after := by
  refine run_relates (fun _ _ _ _ _ => trivial) (fun _ => .refl) (fun _ _ _ => .trans) ?_ trivial
    unrelated ran
  intro before append next _ other appended
  simp only [appendLocally, map_eq_some_iff, toOption_eq_some] at appended
  obtain ⟨⟨_, result⟩, committed, rfl⟩ := appended
  exact .single (.append .liveOnly 0 append none result other committed)

theorem pendingInput_reaches {store : Store (Records Unit)} (pending : pendingInput = some store) :
    Leads ownedStart store := by
  simp only [pendingInput, bind_eq_bind, bind_eq_some_iff, toOption_eq_some] at pending
  obtain ⟨ready, ran, ⟨accepted, receipt⟩, accepts, done⟩ := pending
  cases done
  have unrelated : ∀ append ∈ opened, Unrelated messageId.text append := by
    intro append member
    simp only [opened, mem_cons, not_mem_nil, or_false] at member
    rcases member with rfl | rfl
    all_goals exact .of_kind (by decide) (by decide) (by decide)
  have acceptance : Command host onLocalHost noChannels ready accepted :=
    .accept 0 alice sessionId _ _ _ messageId receipt accepts
  exact (opened_reaches unrelated ran).tail (.command acceptance)

theorem takenInput_reaches {store : Store (Records Unit)} (taken : takenInput = some store) :
    Leads ownedStart store := by
  simp only [takenInput, bind_eq_bind, bind_eq_some_iff, toOption_eq_some] at taken
  obtain ⟨pending, ran, ⟨claimed, result⟩, claims, done⟩ := taken
  cases done
  have claim : Command host onLocalHost noChannels pending claimed :=
    .claimAsTurn 0 alice sessionId _ _ _ claimId result claims
  exact (pendingInput_reaches ran).tail (.command claim)

theorem takenInput_is_consumed_once :
    (∃ store : Store (Records Unit),
      (consumptionClaims host store sessionId messageId.text).map (·.kind) = ["turn/started"] ∧
      (consumptionClaims host store sessionId messageId.text).length ≤ 1 ∧
      ∀ later, Leads store later → isCancelled later sessionId messageId.text = false) ∧
    ∃ pending removed snapshot, pendingInput = some pending ∧
      removal pending = .ok (removed, snapshot) ∧
      isCancelled removed sessionId messageId.text = true ∧
      ∀ later, Leads removed later →
        consumptionClaims host later sessionId messageId.text = [] := by
  have consumed {store : Store (Records Unit)} :=
    @inputs_are_consumed_once _ host onLocalHost noChannels sessionId messageId.text ownedStart
      store rfl
  constructor
  · obtain ⟨store, taken, kinds⟩ := map_eq_some_iff.mp takenInput_claims
    obtain ⟨single, -, onward, -⟩ := consumed (takenInput_reaches taken)
    refine ⟨store, kinds, single, fun later continued => ((onward later continued).2 ?_).2⟩
    intro none
    simp [none] at kinds
  · have writes := removal_writes
    simp only [bind_eq_bind, bind_eq_some_iff, toOption_eq_some] at writes
    obtain ⟨pending, ran, ⟨removed, snapshot⟩, ok, lengths⟩ := writes
    have before := pendingInput_reaches ran
    have differs : removed ≠ pending := by
      rintro rfl
      simp at lengths
      omega
    obtain ⟨-, -, -, -, cancels⟩ := consumed before
    have cancelled := cancels 0 alice "drop" _ _ _ _ _ _ ok differs rfl
    have removes : Command host onLocalHost noChannels pending removed :=
      .updateQueue 0 alice sessionId "drop" _ _ _ _ snapshot ok
    obtain ⟨-, -, onward, -⟩ := consumed (before.tail (.command removes))
    exact ⟨pending, removed, snapshot, ran, ok, cancelled,
      fun later continued => ((onward later continued).1 cancelled).2⟩

end Nomifun.Guarantees.InputConsumption
