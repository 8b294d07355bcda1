import Nomifun.Source.ChatModelBroker.Broker

/-!
# A response comes from one attempt

Whatever the routes, the credentials, the transports and the decoders do, a run of the broker is a
series of attempts that send nothing, one attempt that may send envelopes, and the end. No attempt
follows an envelope, the limits on attempts are kept, and while the receiver is there the run ends
with one terminal item: a completed event or an error.
-/
namespace Nomifun.Guarantees.BrokerAttempts
open Library Library.MachineInt Source.ChatModelBroker List Bool

/-! ### What an attempt sends -/

def sends (envelopes : List BrokerEventEnvelope) : List BrokerAct :=
  envelopes.map fun envelope => .send (.ok envelope)

theorem sends_append (first second : List BrokerEventEnvelope) :
    sends (first ++ second) = sends first ++ sends second := map_append

/-- The envelope belongs to this attempt. -/
def OfAttempt (route : ResolvedChatRoute) (routeAttempt totalAttempt : Nat)
    (envelope : BrokerEventEnvelope) : Prop :=
  ∃ event, envelope = envelopeFor route routeAttempt totalAttempt event

def NotTerminal (envelope : BrokerEventEnvelope) : Prop := envelope.event.isTerminal = false

/-- The last envelope is the only terminal one. -/
def EndsCompleted (envelopes : List BrokerEventEnvelope) : Prop :=
  ∃ before last, envelopes = before ++ [last] ∧ last.event.isTerminal = true ∧
    ∀ envelope ∈ before, NotTerminal envelope

/-- How the envelopes of an attempt fit its outcome. -/
def Fits (envelopes : List BrokerEventEnvelope) : AttemptOutcome → Prop
  | .completed => EndsCompleted envelopes
  | .receiverDropped => ∀ envelope ∈ envelopes, NotTerminal envelope
  | .failed _ true => ∀ envelope ∈ envelopes, NotTerminal envelope
  | .failed _ false => envelopes = []

section

variable {Body WireRequest Frame Decoder : Type} {host : BrokerHost Body WireRequest Frame Decoder}
  {route : ResolvedChatRoute} {routeAttempt totalAttempt : Nat} {request : ChatModelRequest Body}
  {before : Channel} {state : AttemptState} {envelopes : List BrokerEventEnvelope}

/-- What holds when an attempt is over. -/
structure Delivered (route : ResolvedChatRoute) (routeAttempt totalAttempt : Nat) (before : Channel)
    (halt : AttemptEnd) (envelopes : List BrokerEventEnvelope) : Prop where
  acts : halt.2.acts = before.acts ++ sends envelopes
  own : ∀ envelope ∈ envelopes, OfAttempt route routeAttempt totalAttempt envelope
  fits : Fits envelopes halt.1
  /-- A receiver that is never dropped is there at the end. -/
  present : before.lifetime = none → halt.2.lifetime = none ∧ halt.1 ≠ .receiverDropped

/-- What holds while an attempt is under way. -/
structure Underway (route : ResolvedChatRoute) (routeAttempt totalAttempt : Nat) (before : Channel)
    (state : AttemptState) (envelopes : List BrokerEventEnvelope) : Prop where
  acts : state.channel.acts = before.acts ++ sends envelopes
  own : ∀ envelope ∈ envelopes ++ state.buffered,
    OfAttempt route routeAttempt totalAttempt envelope ∧ NotTerminal envelope
  uncommitted : state.semanticOutputCommitted = false → envelopes = []
  present : before.lifetime = none → state.channel.lifetime = none

/-- The attempt goes on or is over, and what was sent is known either way. -/
abbrev Round (route : ResolvedChatRoute) (routeAttempt totalAttempt : Nat) (before : Channel) :
    Except AttemptEnd AttemptState → Prop :=
  Outcome (fun next => ∃ more, Underway route routeAttempt totalAttempt before next more)
    fun halt => ∃ more, Delivered route routeAttempt totalAttempt before halt more

theorem used_lifetime {channel : Channel} (present : channel.lifetime = none) :
    channel.used.lifetime = none := by
  simp [Channel.used, present]

theorem isClosed_of_present {channel : Channel} (present : channel.lifetime = none) :
    channel.isClosed = false := by
  simp [Channel.isClosed, present]

theorem send_eq_none {channel : Channel} (refused : channel.send item = none) :
    channel.lifetime ≠ none := by
  intro present
  simp [Channel.send, isClosed_of_present present] at refused

theorem send_eq_some {channel after : Channel} (sent : channel.send item = some after) :
    after = channel.record (.send item) := by
  unfold Channel.send at sent
  split at sent
  · cases sent
  · exact (Option.some.inj sent).symm

theorem sendAll_ok {envelopes : List BrokerEventEnvelope} {channel after : Channel}
    (sent : channel.sendAll envelopes = .ok after) :
    after.acts = channel.acts ++ sends envelopes ∧
      (channel.lifetime = none → after.lifetime = none) := by
  induction envelopes generalizing channel with
  | nil =>
    cases sent
    exact ⟨(append_nil _).symm, id⟩
  | cons envelope rest ih =>
    unfold Channel.sendAll at sent
    cases one : channel.send (.ok envelope) with
    | none => simp [one] at sent
    | some next =>
      simp only [one] at sent
      obtain ⟨acts, present⟩ := ih sent
      obtain rfl := send_eq_some one
      refine ⟨?_, fun here => present (used_lifetime here)⟩
      rw [acts]
      simp [Channel.record, sends]

/-- The receiver was dropped: it took some of the envelopes, but not the last. -/
theorem sendAll_error {envelopes : List BrokerEventEnvelope} {channel after : Channel}
    (sent : channel.sendAll (envelopes ++ [last]) = .error after) :
    ∃ taken, taken <+: envelopes ∧ after.acts = channel.acts ++ sends taken ∧
      channel.lifetime ≠ none := by
  induction envelopes generalizing channel with
  | nil =>
    unfold Channel.sendAll at sent
    cases one : channel.send (.ok last) with
    | some next => simp [one, Channel.sendAll] at sent
    | none =>
      simp only [one, nil_append] at sent
      cases sent
      exact ⟨[], nil_prefix, (append_nil _).symm, send_eq_none one⟩
  | cons envelope rest ih =>
    rw [cons_append] at sent
    unfold Channel.sendAll at sent
    cases one : channel.send (.ok envelope) with
    | none =>
      simp only [one] at sent
      cases sent
      exact ⟨[], nil_prefix, (append_nil _).symm, send_eq_none one⟩
    | some next =>
      simp only [one] at sent
      obtain rfl := send_eq_some one
      obtain ⟨taken, part, acts, dropped⟩ := ih sent
      refine ⟨envelope :: taken, cons_prefix_cons.mpr ⟨rfl, part⟩, ?_, fun present => ?_⟩
      · rw [acts]
        simp [Channel.record, sends]
      · exact dropped (used_lifetime present)

/-- An event that is not admitted ends the attempt with a failure. -/
theorem admitEvent_error
    (refused : host.admitEvent route totalAttempt request event state = .error halt) :
    ∃ error, halt = (.failed error state.semanticOutputCommitted, state.channel) := by
  unfold BrokerHost.admitEvent at refused
  split at refused
  · exact ⟨_, (Except.error.inj refused).symm⟩
  · split at refused
    · exact ⟨_, (Except.error.inj refused).symm⟩
    · split at refused
      · exact ⟨_, (Except.error.inj refused).symm⟩
      · cases refused

theorem isTerminal_isSemanticOutput {event : ChatModelEvent}
    (quiet : event.isSemanticOutput = false) : event.isTerminal = false := by
  cases event <;> first | rfl | cases quiet

section

variable {event : ChatModelEvent} {channel : Channel}
  (underway : Underway route routeAttempt totalAttempt before state envelopes)
include underway

theorem Underway.notTerminal :
    ∀ envelope ∈ envelopes, NotTerminal envelope := fun envelope member =>
  (underway.own envelope (mem_append_left _ member)).2

/-- A failure leaves what was sent. -/
theorem Underway.fails (error : ChatModelError) : Delivered route routeAttempt totalAttempt before
    (.failed error state.semanticOutputCommitted, state.channel) envelopes where
  acts := underway.acts
  own envelope member := (underway.own envelope (mem_append_left _ member)).1
  fits := by
    cases committed : state.semanticOutputCommitted with
    | true => exact underway.notTerminal
    | false => exact underway.uncommitted committed
  present here := ⟨underway.present here, nofun⟩

theorem Underway.failsUncommitted (uncommitted : state.semanticOutputCommitted = false)
    (error : ChatModelError) :
    Delivered route routeAttempt totalAttempt before (.failed error false, state.channel)
      envelopes := by
  have failed := underway.fails error
  rwa [uncommitted] at failed

theorem Underway.drops (closed : state.channel.isClosed = true) : Delivered route routeAttempt
    totalAttempt before (.receiverDropped, state.channel) envelopes where
  acts := underway.acts
  own envelope member := (underway.own envelope (mem_append_left _ member)).1
  fits := underway.notTerminal
  present here := by simp [isClosed_of_present (underway.present here)] at closed

theorem Underway.used :
    Underway route routeAttempt totalAttempt before
      { state with channel := state.channel.used } envelopes :=
  { underway with present := fun here => used_lifetime (underway.present here) }

/-- An event is held back: the state stays without committed output. -/
theorem deliverEvent_held {sequence : EventSequence}
    (uncommitted : state.semanticOutputCommitted = false) (quiet : event.isSemanticOutput = false) :
    Underway route routeAttempt totalAttempt before
      { state with
        sequence := sequence
        buffered := state.buffered ++ [envelopeFor route routeAttempt totalAttempt event] }
      envelopes where
  acts := underway.acts
  own := by
    rw [← append_assoc, forall_mem_append, forall_mem_singleton]
    exact ⟨underway.own, ⟨event, rfl⟩, isTerminal_isSemanticOutput quiet⟩
  uncommitted _ := underway.uncommitted uncommitted
  present := underway.present

/-- What is held back when an event is sent. -/
theorem held_own :
    ∀ envelope ∈ envelopes ++ (if state.semanticOutputCommitted then [] else state.buffered),
      OfAttempt route routeAttempt totalAttempt envelope ∧ NotTerminal envelope := by
  intro envelope member
  refine underway.own envelope ?_
  rw [mem_append] at member ⊢
  refine member.imp_right fun held => ?_
  split at held
  · cases held
  · exact held

section

variable {held : List BrokerEventEnvelope}
  (own : ∀ envelope ∈ envelopes ++ held,
    OfAttempt route routeAttempt totalAttempt envelope ∧ NotTerminal envelope)
include own

theorem deliverEvent_dropped
    (sent : state.channel.sendAll (held ++ [envelopeFor route routeAttempt totalAttempt event]) =
      .error channel) :
    ∃ taken, Delivered route routeAttempt totalAttempt before (.receiverDropped, channel)
      (envelopes ++ taken) := by
  obtain ⟨taken, part, acts, dropped⟩ := sendAll_error sent
  have fewer : ∀ envelope ∈ envelopes ++ taken,
      OfAttempt route routeAttempt totalAttempt envelope ∧ NotTerminal envelope := by
    intro envelope member
    refine own envelope ?_
    rw [mem_append] at member ⊢
    exact member.imp_right part.mem
  refine ⟨taken, ?_, fun envelope member => (fewer envelope member).1,
    fun envelope member => (fewer envelope member).2, fun here => ?_⟩
  · rw [acts, underway.acts, sends_append, append_assoc]
  · exact absurd (underway.present here) dropped

variable (sent : state.channel.sendAll
    (held ++ [envelopeFor route routeAttempt totalAttempt event]) = .ok channel)
include sent

omit own in
theorem sendAll_acts : channel.acts = before.acts ++
    sends (envelopes ++ held ++ [envelopeFor route routeAttempt totalAttempt event]) := by
  rw [(sendAll_ok sent).1, underway.acts, append_assoc envelopes, sends_append envelopes,
    append_assoc]

/-- A batch was sent, and its last event was not the terminal one. -/
theorem deliverEvent_sent (notTerminal : event.isTerminal = false) :
    Underway route routeAttempt totalAttempt before ⟨progress, [], true, channel⟩
      (envelopes ++ held ++ [envelopeFor route routeAttempt totalAttempt event]) where
  acts := sendAll_acts underway sent
  own := by
    rw [append_nil, forall_mem_append, forall_mem_singleton]
    exact ⟨own, ⟨event, rfl⟩, notTerminal⟩
  uncommitted := nofun
  present here := (sendAll_ok sent).2 (underway.present here)

theorem deliverEvent_completed (terminal : event.isTerminal = true) :
    Delivered route routeAttempt totalAttempt before (.completed, channel)
      (envelopes ++ held ++ [envelopeFor route routeAttempt totalAttempt event]) where
  acts := sendAll_acts underway sent
  own := by
    rw [forall_mem_append, forall_mem_singleton]
    exact ⟨fun envelope earlier => (own envelope earlier).1, event, rfl⟩
  fits := ⟨envelopes ++ held, _, rfl, terminal, fun envelope member => (own envelope member).2⟩
  present here := ⟨(sendAll_ok sent).2 (underway.present here), nofun⟩

end

/-- An admitted event. -/
theorem deliverEvent_round (event : ChatModelEvent) (sequence : EventSequence) :
    Round route routeAttempt totalAttempt before
      (BrokerHost.deliverEvent route routeAttempt totalAttempt event sequence state) := by
  unfold BrokerHost.deliverEvent
  split
  next quiet =>
    simp only [and_eq_true, not_eq_true'] at quiet
    split
    · exact ⟨envelopes, underway.failsUncommitted quiet.1 _⟩
    · exact ⟨envelopes, deliverEvent_held underway quiet.1 quiet.2⟩
  next =>
    have own := held_own underway
    dsimp only
    split
    next channel sent =>
      obtain ⟨taken, halt⟩ := deliverEvent_dropped underway own sent
      exact ⟨_, halt⟩
    next channel sent =>
      split
      next terminal => exact ⟨_, deliverEvent_completed underway own sent terminal⟩
      next notTerminal =>
        exact ⟨_, deliverEvent_sent underway own sent (eq_false_iff.mpr notTerminal)⟩

theorem acceptEvent_round (event : ChatModelEvent) :
    Round route routeAttempt totalAttempt before
      (host.acceptEvent route routeAttempt totalAttempt request state event) := by
  unfold BrokerHost.acceptEvent
  cases admitted : host.admitEvent route totalAttempt request event state with
  | error halt =>
    obtain ⟨error, rfl⟩ := admitEvent_error admitted
    exact ⟨envelopes, underway.fails error⟩
  | ok result =>
    obtain ⟨event, sequence⟩ := result
    exact deliverEvent_round underway event sequence

end

theorem consumeFrames_delivered
    (underway : Underway route routeAttempt totalAttempt before state envelopes) :
    ∃ more, Delivered route routeAttempt totalAttempt before
      (host.consumeFrames route routeAttempt totalAttempt request decoder wire state) more := by
  induction wire generalizing decoder state envelopes with
  | nil =>
    unfold BrokerHost.consumeFrames
    split
    next closed => exact ⟨envelopes, underway.drops closed⟩
    next => exact ⟨envelopes, underway.used.fails _⟩
  | cons item rest ih =>
    unfold BrokerHost.consumeFrames
    split
    next closed => exact ⟨envelopes, underway.drops closed⟩
    next =>
      dsimp only
      cases item with
      | error error => exact ⟨envelopes, underway.used.fails _⟩
      | ok frame =>
        dsimp only
        split
        next => exact ⟨envelopes, underway.used.fails _⟩
        next events _ =>
          have rounds : Round route routeAttempt totalAttempt before (events.foldlM
              (host.acceptEvent route routeAttempt totalAttempt request) _) :=
            foldlM_stops (fun _ event _ ⟨_, now⟩ => acceptEvent_round now event)
              ⟨envelopes, underway.used⟩
          split
          next halt stopped =>
            rw [stopped] at rounds
            exact rounds
          next next went =>
            rw [went] at rounds
            obtain ⟨more, now⟩ := rounds
            exact ih now

theorem runAttempt_delivered (request : ChatModelRequest Body) (channel : Channel) :
    ∃ envelopes, Delivered route routeAttempt totalAttempt channel
      (host.runAttempt request route routeAttempt totalAttempt channel) envelopes := by
  unfold BrokerHost.runAttempt
  split
  next error _ =>
    exact ⟨[], (append_nil _).symm, nofun, rfl, fun here => ⟨here, nofun⟩⟩
  next attempted wire _ =>
    have fresh : Underway route routeAttempt totalAttempt channel ⟨.default, [], false, channel⟩
        [] :=
      ⟨(append_nil _).symm, nofun, fun _ => rfl, id⟩
    exact consumeFrames_delivered fresh

end

/-! ### The attempts of a run -/

structure AttemptIdentity where
  (routeIndex routeAttempt totalAttempt : Nat)

def attemptActs (attempts : List AttemptIdentity) : List BrokerAct :=
  attempts.map fun made => .attempt made.routeIndex made.routeAttempt made.totalAttempt

def errorActs (errors : List ChatModelError) : List BrokerAct :=
  errors.map fun error => .send (.error error)

section

variable {host : BrokerHost Body WireRequest Frame Decoder} {request : ChatModelRequest Body}
  {routes : List ResolvedChatRoute} {policy : BrokerRetryPolicy}
  {routeCount routeIndex routeAttempt totalAttempt : Nat} {channel : Channel}

/-- Attempts that may follow so many on a route and so many in total: each is made where a limit
leaves room, and the next on the same route or on the one after it. -/
inductive Follows (policy : BrokerRetryPolicy) :
    Nat → Nat → Nat → List AttemptIdentity → Prop where
  | stop {routeIndex routeAttempt totalAttempt : Nat} :
      Follows policy routeIndex routeAttempt totalAttempt []
  | same {routeIndex routeAttempt totalAttempt : Nat} {rest : List AttemptIdentity}
      (room : routeAttempt < policy.maxAttemptsPerRoute)
      (total : totalAttempt < policy.maxTotalAttempts)
      (later : Follows policy routeIndex (routeAttempt + 1) (totalAttempt + 1) rest) :
      Follows policy routeIndex routeAttempt totalAttempt
        (⟨routeIndex, routeAttempt + 1, totalAttempt + 1⟩ :: rest)
  | other {routeIndex routeAttempt totalAttempt : Nat} {rest : List AttemptIdentity}
      (room : routeAttempt < policy.maxAttemptsPerRoute)
      (total : totalAttempt < policy.maxTotalAttempts)
      (later : Follows policy (routeIndex + 1) 0 (totalAttempt + 1) rest) :
      Follows policy routeIndex routeAttempt totalAttempt
        (⟨routeIndex, routeAttempt + 1, totalAttempt + 1⟩ :: rest)

variable {attempts : List AttemptIdentity}

theorem Follows.numbers (follows : Follows policy routeIndex routeAttempt totalAttempt attempts) :
    attempts.map (·.totalAttempt) = range' (totalAttempt + 1) attempts.length := by
  induction follows with
  | stop => rfl
  | same _ _ _ ih | other _ _ _ ih =>
    rw [map_cons, ih, length_cons, range'_succ]

theorem Follows.length_le (within : totalAttempt ≤ policy.maxTotalAttempts)
    (follows : Follows policy routeIndex routeAttempt totalAttempt attempts) :
    totalAttempt + attempts.length ≤ policy.maxTotalAttempts := by
  induction follows with
  | stop => exact within
  | same _ total _ ih | other _ total _ ih =>
    have rest := ih total
    rw [length_cons]
    omega

section

variable (follows : Follows policy routeIndex routeAttempt totalAttempt attempts)
include follows

theorem Follows.routes_ge : ∀ made ∈ attempts, routeIndex ≤ made.routeIndex := by
  induction follows with
  | stop => nofun
  | same _ _ _ ih => exact forall_mem_cons.mpr ⟨Nat.le_refl _, ih⟩
  | other _ _ _ ih =>
    exact forall_mem_cons.mpr ⟨Nat.le_refl _, fun made member => Nat.le_of_succ_le (ih made member)⟩

theorem Follows.routes_increase : (attempts.map (·.routeIndex)).Pairwise (· ≤ ·) := by
  induction follows with
  | stop => exact List.Pairwise.nil
  | same _ _ later ih =>
    refine pairwise_cons.mpr ⟨?_, ih⟩
    simpa using later.routes_ge
  | other _ _ later ih =>
    refine pairwise_cons.mpr ⟨?_, ih⟩
    simpa using fun made member => Nat.le_of_succ_le (later.routes_ge made member)

/-- On the current route the attempts already made count, on the others they do not. -/
theorem Follows.count_le (index : Nat) :
    (attempts.map (·.routeIndex)).count index ≤
      policy.maxAttemptsPerRoute - if index = routeIndex then routeAttempt else 0 := by
  induction follows with
  | stop => exact Nat.zero_le _
  | @same route made total rest room _ _ ih =>
    rw [map_cons, count_cons]
    by_cases here : index = route
    · subst here
      simp only [if_true, beq_self_eq_true] at ih ⊢
      omega
    · simp only [here, if_false, beq_iff_eq, Ne.symm here] at ih ⊢
      omega
  | @other route made total rest room _ later ih =>
    rw [map_cons, count_cons]
    by_cases here : index = route
    · subst here
      have none_left : (rest.map (·.routeIndex)).count index = 0 := by
        rw [count_eq_zero, mem_map]
        rintro ⟨made, member, same⟩
        have above := later.routes_ge made member
        omega
      simp only [if_true, beq_self_eq_true, none_left]
      omega
    · simp only [here, if_false, beq_iff_eq, Ne.symm here] at ih ⊢
      refine Nat.le_trans ih ?_
      split <;> omega

end

theorem nextAttempt_place (positive : 0 < policy.maxAttemptsPerRoute)
    (next : host.nextAttempt policy routeCount routeIndex routeAttempt totalAttempt error =
      some place) :
    place.2 < policy.maxAttemptsPerRoute ∧
      (place = (routeIndex, routeAttempt) ∨ place = (routeIndex + 1, 0)) := by
  unfold BrokerHost.nextAttempt at next
  dsimp only at next
  split at next
  · cases next
  · split at next
    next again =>
      simp only [and_eq_true, decide_eq_true_eq] at again
      cases next
      exact ⟨again.2, .inl rfl⟩
    next =>
      split at next
      · cases next
        exact ⟨positive, .inr rfl⟩
      · cases next

/-- How a run ends. -/
def Ended (envelopes : List BrokerEventEnvelope) (errors : List ChatModelError) : Prop :=
  errors = [] ∧ EndsCompleted envelopes ∨
    (∃ error, errors = [error]) ∧ ∀ envelope ∈ envelopes, NotTerminal envelope

/-- The envelopes belong to the last attempt. -/
def OfLast (routes : List ResolvedChatRoute) (attempts : List AttemptIdentity)
    (envelope : BrokerEventEnvelope) : Prop :=
  ∃ last route, attempts.getLast? = some last ∧ routes[last.routeIndex]? = some route ∧
    OfAttempt route last.routeAttempt last.totalAttempt envelope

structure Ran (routes : List ResolvedChatRoute) (before after : Channel)
    (attempts : List AttemptIdentity) (envelopes : List BrokerEventEnvelope)
    (errors : List ChatModelError) : Prop where
  acts : after.acts = before.acts ++ (attemptActs attempts ++ sends envelopes ++ errorActs errors)
  own : ∀ envelope ∈ envelopes, OfLast routes attempts envelope
  ends : before.lifetime = none → Ended envelopes errors

theorem sendLast_acts (error : ChatModelError) (channel : Channel) :
    ∃ errors, (channel.sendLast error).acts = channel.acts ++ errorActs errors ∧
      (channel.lifetime = none → errors = [error]) := by
  unfold Channel.sendLast Channel.send
  cases closed : channel.isClosed with
  | true =>
    refine ⟨[], (append_nil _).symm, fun present => ?_⟩
    rw [isClosed_of_present present] at closed
    cases closed
  | false => exact ⟨[error], rfl, fun _ => rfl⟩

/-- A run that stops without an attempt. -/
theorem Ran.stopped (error : ChatModelError) (channel : Channel) :
    ∃ errors, Ran routes channel (channel.sendLast error) [] [] errors := by
  obtain ⟨errors, acts, one⟩ := sendLast_acts error channel
  exact ⟨errors, acts, nofun, fun present => .inr ⟨⟨error, one present⟩, nofun⟩⟩

/-- The receiver is gone before anything was sent. -/
theorem Ran.dropped (closed : channel.isClosed = true) : Ran routes channel channel [] [] [] where
  acts := (append_nil _).symm
  own := nofun
  ends present := by
    rw [isClosed_of_present present] at closed
    cases closed

section

variable {route : ResolvedChatRoute} {outcome : AttemptOutcome} {after : Channel}
  {envelopes : List BrokerEventEnvelope}

/-- The attempt of these numbers on this channel. -/
def opened (channel : Channel) (made : AttemptIdentity) : Channel :=
  channel.record (.attempt made.routeIndex made.routeAttempt made.totalAttempt)

variable
  (delivered : Delivered route made.routeAttempt made.totalAttempt (opened channel made)
    (outcome, after) envelopes)
  (found : routes[made.routeIndex]? = some route)

include delivered in
theorem Delivered.acts_opened :
    after.acts = channel.acts ++ (attemptActs [made] ++ sends envelopes) := by
  rw [delivered.acts]
  simp [opened, Channel.record, attemptActs]

include delivered found

theorem Delivered.ofLast : ∀ envelope ∈ envelopes, OfLast routes [made] envelope :=
  fun envelope member => ⟨made, route, rfl, found, delivered.own envelope member⟩

/-- The run ends with the attempt. -/
theorem Delivered.ran (ends : channel.lifetime = none → Ended envelopes []) :
    Ran routes channel after [made] envelopes [] where
  acts := by
    rw [delivered.acts_opened]
    simp [errorActs]
  own := delivered.ofLast found
  ends := ends

/-- The run ends with an error after the attempt. -/
theorem Delivered.ranError (error : ChatModelError)
    (quiet : ∀ envelope ∈ envelopes, NotTerminal envelope) :
    ∃ errors, Ran routes channel (after.sendLast error) [made] envelopes errors := by
  obtain ⟨errors, acts, one⟩ := sendLast_acts error after
  refine ⟨errors, ?_, delivered.ofLast found, fun present => .inr ⟨⟨error, one ?_⟩, quiet⟩⟩
  · rw [acts, delivered.acts_opened, append_assoc]
  · exact (delivered.present (used_lifetime present)).1

end

/-- A run that goes on after an attempt that sent nothing. -/
theorem Ran.after
    (delivered : Delivered route made.routeAttempt made.totalAttempt (opened channel made)
      (outcome, post) []) (rest : Ran routes post.used last attempts envelopes errors) :
    Ran routes channel last (made :: attempts) envelopes errors where
  acts := by
    rw [rest.acts, show post.used.acts = post.acts from rfl, delivered.acts_opened]
    simp [attemptActs, sends]
  own envelope member := by
    obtain ⟨final, route, isLast, found, own⟩ := rest.own envelope member
    refine ⟨final, route, ?_, found, own⟩
    cases attempts with
    | nil => cases isLast
    | cons first others => exact isLast
  ends present :=
    rest.ends (used_lifetime (delivered.present (used_lifetime present)).1)

/-- From any point of a run on. The limit on the attempts of a route leaves room for the next. -/
theorem brokerLoop_ran (positive : 0 < policy.maxAttemptsPerRoute)
    (room : routeAttempt < policy.maxAttemptsPerRoute) (lastError : Option ChatModelError) :
    ∃ attempts envelopes errors,
      Ran routes channel (host.brokerLoop request routes policy routeIndex routeAttempt totalAttempt
        lastError channel) attempts envelopes errors ∧
      Follows policy routeIndex routeAttempt totalAttempt attempts := by
  induction remaining : policy.maxTotalAttempts - totalAttempt using Nat.strong_induction_on
    generalizing routeIndex routeAttempt totalAttempt lastError channel with
  | _ left ih =>
  rw [BrokerHost.brokerLoop]
  split
  next within =>
    have small : totalAttempt + 1 ≤ u8Max := Nat.le_trans within.2 policy.total_le
    have smallRoute : routeAttempt + 1 ≤ u8Max := Nat.le_trans room policy.perRoute_le
    simp only [saturatingAdd_of_le small, saturatingAdd_of_le smallRoute]
    split
    next closed => exact ⟨[], [], [], Ran.dropped closed, .stop⟩
    next =>
      let made : AttemptIdentity := ⟨routeIndex, routeAttempt + 1, totalAttempt + 1⟩
      have found : routes[made.routeIndex]? = some routes[routeIndex] :=
        getElem?_eq_getElem within.1
      have alone : Follows policy routeIndex routeAttempt totalAttempt [made] :=
        .same room within.2 .stop
      have attempt := @runAttempt_delivered _ _ _ _ host routes[routeIndex] made.routeAttempt
        made.totalAttempt request (opened channel made)
      obtain ⟨envelopes, delivered⟩ := attempt
      unfold opened at delivered
      generalize host.runAttempt _ _ _ _ _ = ended at delivered ⊢
      -- The outcome says what the attempt sent, and whether another one follows.
      rcases ended with ⟨_ | _ | ⟨error, _ | _⟩, after⟩
      · exact ⟨[made], envelopes, [], delivered.ran found fun _ =>
          .inl ⟨rfl, delivered.fits⟩, alone⟩
      · refine ⟨[made], envelopes, [], delivered.ran found fun present => ?_, alone⟩
        exact absurd rfl (delivered.present (used_lifetime present)).2
      · obtain rfl : envelopes = [] := delivered.fits
        dsimp only
        split
        next =>
          obtain ⟨errors, ran⟩ := delivered.ranError found
            (withAttemptIdentity error routes[routeIndex]) (by simp)
          exact ⟨[made], [], errors, ran, alone⟩
        next nextIndex tried next =>
          split
          next closed =>
            refine ⟨[made], [], [], delivered.ran found fun present => ?_, alone⟩
            rw [isClosed_of_present (delivered.present (used_lifetime present)).1] at closed
            cases closed
          next =>
            have fewer : policy.maxTotalAttempts - (totalAttempt + 1) < left := by omega
            obtain ⟨more, place⟩ := nextAttempt_place positive next
            obtain ⟨attempts, envelopes, errors, ran, follows⟩ :=
              @ih _ fewer nextIndex tried (totalAttempt + 1) after.used more
                (some (withAttemptIdentity error routes[routeIndex])) rfl
            refine ⟨made :: attempts, envelopes, errors, Ran.after delivered ran, ?_⟩
            rcases place with same | other
            · cases same
              exact .same room within.2 follows
            · cases other
              exact .other room within.2 follows
      · obtain ⟨errors, ran⟩ := delivered.ranError found
          (withAttemptIdentity error routes[routeIndex]).afterSemanticOutput delivered.fits
        exact ⟨[made], envelopes, errors, ran, alone⟩
  next =>
    obtain ⟨errors, ran⟩ := @Ran.stopped routes (lastError.getD BrokerHost.exhausted) channel
    exact ⟨[], [], errors, ran, .stop⟩

end

/-! ### The guarantee -/

/-- For every request, every list of routes, every policy that leaves room for an attempt on a route
and everything the world outside does: a run consists of attempts, then of envelopes that all belong
to the last of them, then of at most an error. The attempts are numbered from one, stay within both
limits and never go back to an earlier route. Unless the receiver is dropped, the run ends with the
completed event of that attempt or with one error, and there is no other terminal item. -/
theorem broker_sends_one_attempt {Body WireRequest Frame Decoder : Type}
    (host : BrokerHost Body WireRequest Frame Decoder) (request : ChatModelRequest Body)
    (routes : List ResolvedChatRoute) (policy : BrokerRetryPolicy) (lifetime : Option Nat)
    (positive : 1 ≤ policy.maxAttemptsPerRoute) :
    ∃ (attempts : List AttemptIdentity) (envelopes : List BrokerEventEnvelope)
      (errors : List ChatModelError),
      (host.runBroker request routes policy lifetime).acts =
        attemptActs attempts ++ sends envelopes ++ errorActs errors ∧
      (∀ envelope ∈ envelopes, OfLast routes attempts envelope) ∧
      attempts.map (·.totalAttempt) = List.range' 1 attempts.length ∧
      attempts.length ≤ policy.maxTotalAttempts ∧
      (attempts.map (·.routeIndex)).Pairwise (· ≤ ·) ∧
      (∀ index, (attempts.map (·.routeIndex)).count index ≤ policy.maxAttemptsPerRoute) ∧
      (lifetime = none → Ended envelopes errors) := by
  obtain ⟨attempts, envelopes, errors, ran, follows⟩ :=
    @brokerLoop_ran _ _ _ _ host request routes policy 0 0 0 ⟨[], lifetime⟩ positive positive none
  refine ⟨attempts, envelopes, errors, ran.acts, ran.own, follows.numbers, ?_,
    follows.routes_increase, fun index => ?_, ran.ends⟩
  · have within := follows.length_le (Nat.zero_le _)
    omega
  · exact Nat.le_trans (follows.count_le index) (Nat.sub_le _ _)

/-! A provider whose first stream breaks off. -/

def flakyRoute : ResolvedChatRoute :=
  ⟨"route", 1, "provider", "model", .openaiChat, "config", "digest", "credential", [.textOutput],
    []⟩

def flakyHost : BrokerHost Unit Unit (List ChatModelEvent) Unit where
  float _ := []
  digestPayload _ := none
  random _ := 0
  adapterFeatures _ := []
  requiredFeatures _ := []
  outputLimitForRoute _ _ := .ok none
  projectAttemptRequest request _ := .ok request
  lease _ credentialRef target := .ok ⟨credentialRef, target, "handle"⟩
  beginAttempt _ _ _ := .ok ()
  encodeRequest _ _ _ := .ok ()
  openStream attempt _ _ :=
    if attempt = 1 then .ok [] else .ok [.ok [.responseStarted none, .completed .completed]]
  newFrameDecoder _ _ := ()
  decodeFrame _ events := (.ok events, ())
  observe _ _ _ _ := .ok ()

def flakyPolicy : BrokerRetryPolicy := ⟨4, 3, by decide, by decide⟩

theorem flakyHost_sends_one_attempt :
    1 ≤ flakyPolicy.maxAttemptsPerRoute ∧
    ∃ (attempts : List AttemptIdentity) (envelopes : List BrokerEventEnvelope)
      (errors : List ChatModelError),
      (flakyHost.runBroker ⟨none, ()⟩ [flakyRoute] flakyPolicy none).acts =
        attemptActs attempts ++ sends envelopes ++ errorActs errors ∧
      attempts.length ≤ 4 ∧ Ended envelopes errors := by
  refine ⟨by decide, ?_⟩
  obtain ⟨attempts, envelopes, errors, acts, _, _, few, _, _, ended⟩ :=
    broker_sends_one_attempt flakyHost ⟨none, ()⟩ [flakyRoute] flakyPolicy none (by decide)
  exact ⟨attempts, envelopes, errors, acts, few, ended rfl⟩

end Nomifun.Guarantees.BrokerAttempts
