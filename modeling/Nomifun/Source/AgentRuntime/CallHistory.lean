import Nomifun.Source.AgentRuntime.Reconciliation

/-!
# What a tail says about its calls

A tail tells a history of its calls: batches start, calls are proposed and completed,
admitted, answered, withdrawn. The loop over the tail keeps that history in its track
(`Reads`), one fact after the other (`step_track`).
-/
namespace Nomifun.Source.AgentRuntime
open Library Library.MachineInt Source.AgentContracts List

variable {platform : Platform} {input : ReconciliationInput} {s : Reconciling} {call : ChatToolCall}

inductive CallFact where
  | stepStarted (step : Nat)
  | delta (step : Nat) (id : ToolCallId)
  | completed (step : Nat) (call : ChatToolCall)
  | admitted (step : Nat) (id : ToolCallId)
  | result (step : Nat) (id : ToolCallId)
  | discarded (step : Nat) (ids : List ToolCallId)
  | inputRequested (step : Nat) (id : ToolCallId)

/-- Deltas outside a model step are no proposals. -/
def AgentEngineEvent.callFact : AgentEngineEvent → Option CallFact
  | .modelStepStarted step _ _ => some (.stepStarted step)
  | .toolCallDelta step id _ _ => if step > 0 then some (.delta step id) else none
  | .toolCallCompleted step call => some (.completed step call)
  | .toolStarted step id _ _ => some (.admitted step id)
  | .toolCompleted step result _ => some (.result step result.callId)
  | .toolOutcomeReconciled step result _ _ _ => some (.result step result.callId)
  | .modelOutputTruncated step ids _ => some (.discarded step ids)
  | .modelResponseRejected rejected =>
    some (.discarded rejected.step rejected.discardedToolCallIds)
  | .voiceModelStepSuperseded step ids => some (.discarded step ids)
  | .userInputRequested step request => some (.inputRequested step request.requestId)
  | _ => none

abbrev CallHistory := List CallFact

def callHistory (tail : List AgentEngineEvent) : CallHistory :=
  tail.filterMap AgentEngineEvent.callFact

namespace CallFact

/-- The step at which the fact proposes the call. -/
def proposalStep (id : ToolCallId) : CallFact → Option Nat
  | .delta step other => if other = id then some step else none
  | .completed step call => if call.callId = id then some step else none
  | _ => none

def answers (id : ToolCallId) : CallFact → Bool
  | .result _ other => other = id
  | _ => false

/-- A result for a call of a model step. -/
def isModelResult : CallFact → Bool
  | .result step _ => step > 0
  | _ => false

def startsStep : CallFact → Bool
  | .stepStarted _ => true
  | _ => false

end CallFact

namespace CallHistory

def lastStep (first : Nat) (h : CallHistory) : Nat :=
  h.foldl (fun step fact => match fact with | .stepStarted current => current | _ => step) first

/-- The steps at which the call is proposed, 0 for a control of the host. -/
def proposalSteps (h : CallHistory) (id : ToolCallId) : Finset Nat :=
  (h.filterMap (CallFact.proposalStep id)).toFinset

/-- The number of results for the call. -/
def results (h : CallHistory) (id : ToolCallId) : Nat := h.countP (CallFact.answers id)

/-- A result for a call of a model step was recorded since the last step started. -/
def hasCurrentResult (h : CallHistory) : Bool :=
  (h.reverse.takeWhile (!CallFact.startsStep ·)).any CallFact.isModelResult

variable (h : CallHistory) (fact : CallFact) (id : ToolCallId)

theorem proposalSteps_append : proposalSteps (h ++ [fact]) id =
    match fact.proposalStep id with
    | none => proposalSteps h id
    | some step => insert step (proposalSteps h id) := by
  cases step : fact.proposalStep id <;> simp [proposalSteps, step]

theorem results_append : results (h ++ [fact]) id =
    results h id + if fact.answers id then 1 else 0 := by
  simp [results, countP_cons]

theorem hasCurrentResult_append : hasCurrentResult (h ++ [fact]) =
    (!fact.startsStep && (fact.isModelResult || hasCurrentResult h)) := by
  cases starts : fact.startsStep <;> simp [hasCurrentResult, starts]

theorem lastStep_append (first : Nat) : lastStep first (h ++ [fact]) =
    match fact with
    | .stepStarted current => current
    | _ => lastStep first h := by
  simp [lastStep]

theorem mem_proposalSteps {h : CallHistory} :
    step ∈ proposalSteps h id ↔ ∃ fact ∈ h, fact.proposalStep id = some step := by
  simp [proposalSteps]

end CallHistory

/-! ### The track -/

namespace CallTrack

/-- The effect of a fact. -/
def advance (t : CallTrack) : CallFact → CallTrack
  | .stepStarted current => t.startStep current
  | .delta _ id => t.propose id
  | .completed current call => t.complete current call
  | .admitted _ id => t.admitCall id
  | .result current id => t.settle current id
  | .discarded _ _ => t.discard
  | .inputRequested _ id => t.requestInput id

/-- What the loop checks of a fact. -/
def Allows (t : CallTrack) : CallFact → Prop
  | .stepStarted current => current = t.step + 1
  | .delta current _ => 0 < current ∧ current = t.step
  | .completed current call => (0 < current → current = t.step) ∧ call.callId ∉ t.calls
  | .admitted current id => ∃ call, t.calls[id]? = some (current, call)
  | .result current id => (∃ call, t.calls[id]? = some (current, call)) ∧ id ∉ t.completed
  | .discarded _ _ => True
  | .inputRequested _ _ => True

end CallTrack

namespace Reconciling

variable {s' : Reconciling} {current : Nat} {result : AgentToolResult} {modelSteps : Nat}
  {id : ToolCallId}

theorem invalid_ne_ok : invalid message ≠ .ok a := by
  simp [invalid, replayContract]

/-- A check that passed. -/
theorem checked [Decidable refused] {result : β} {after : α → EngineResult β}
    {next : EngineResult β} :
    (if refused then invalid message >>= after else next) = .ok result ↔
      ¬ refused ∧ next = .ok result :=
  guard_eq_ok

theorem orInvalid_eq_ok : orInvalid value message = .ok a ↔ value = some a := by
  cases value <;> simp [orInvalid, invalid, replayContract]

theorem modelStepStarted_track {source : Option Nat}
    (ok : s.modelStepStarted input current source = .ok s') :
    s.track.Allows (.stepStarted current) ∧ s'.track = s.track.startStep current := by
  simp only [modelStepStarted, checked, bind_eq_ok, orInvalid_eq_ok, checkedAdd_eq_some] at ok
  obtain ⟨-, -, expected, ⟨-, rfl⟩, crossed, -, done⟩ := ok
  cases done
  refine ⟨?_, rfl⟩
  simp only [Bool.or_eq_true, decide_eq_true_eq, not_or, not_not] at crossed
  exact crossed.1

theorem discardBatch_track {ids : List ToolCallId} (ok : s.discardBatch current ids = .ok s') :
    s'.track = s.track.discard := by
  simp only [discardBatch, checked] at ok
  obtain ⟨-, done⟩ := ok
  cases done
  rfl

theorem modelResponseRejected_track {rejected : ModelResponseRejection}
    (ok : s.modelResponseRejected rejected = .ok s') : s'.track = s.track.discard := by
  simp only [modelResponseRejected, checked, bind_eq_ok] at ok
  obtain ⟨discarded, withdrawn, -, -, -, done⟩ := ok
  cases done
  have tracked := discardBatch_track withdrawn
  exact tracked

theorem toolCallDelta_track (model : 0 < current) (ok : s.toolCallDelta current id = .ok s') :
    s.track.Allows (.delta current id) ∧ s'.track = s.track.propose id := by
  simp only [toolCallDelta, checked] at ok
  obtain ⟨inside, done⟩ := ok
  cases done
  simp only [Bool.or_eq_true, decide_eq_true_eq, not_or, not_not] at inside
  exact ⟨⟨model, inside.1⟩, rfl⟩

theorem toolCallCompleted_track (ok : s.toolCallCompleted current call = .ok s') :
    s.track.Allows (.completed current call) ∧ s'.track = s.track.complete current call := by
  simp only [toolCallCompleted, checked] at ok
  obtain ⟨inside, fresh, done⟩ := ok
  cases done
  refine ⟨⟨fun model => ?_, fresh⟩, rfl⟩
  by_contra outside
  exact inside (by simp [model, outside])

theorem toolStarted_track (ok : s.toolStarted input current id capabilityId actionId = .ok s') :
    s.track.Allows (.admitted current id) ∧ s'.track = s.track.admitCall id := by
  simp only [toolStarted, checked] at ok
  obtain ⟨recorded, -, done⟩ := ok
  cases done
  refine ⟨?_, rfl⟩
  simp only [ne_eq, not_not, Option.map_eq_some_iff] at recorded
  obtain ⟨⟨_, call⟩, found, rfl⟩ := recorded
  exact ⟨call, found⟩

/-! ### Results -/

theorem answered_allows
    (ok : s.answered platform current result refused missing mismatch = .ok call) :
    s.track.Allows (.result current result.callId) := by
  simp only [answered, checked, bind_eq_ok, orInvalid_eq_ok] at ok
  obtain ⟨⟨recorded, proposal⟩, found, matching, -⟩ := ok
  simp only [Bool.or_eq_true, decide_eq_true_eq, not_or, ne_eq, not_not] at matching
  obtain ⟨⟨rfl, -⟩, fresh⟩ := matching
  exact ⟨⟨proposal, found⟩, fresh⟩

theorem phaseCorrected_track (ok : s.phaseCorrected platform current result = .ok s') :
    s.track.Allows (.result current result.callId) ∧
      s'.track = s.track.settle current result.callId := by
  simp only [phaseCorrected, bind_eq_ok] at ok
  obtain ⟨call, answer, done⟩ := ok
  refine ⟨answered_allows answer, ?_⟩
  split at done <;> cases done <;> rfl

theorem resultObserved_track {source : Option AgentReconciliationSource}
    (ok : s.resultObserved platform input current result source = .ok s') :
    s.track.Allows (.result current result.callId) ∧
      s'.track = s.track.settle current result.callId := by
  simp only [resultObserved, checked, bind_eq_ok] at ok
  obtain ⟨call, answer, _, -, _, -, -, _, -, done⟩ := ok
  cases done
  exact ⟨answered_allows answer, rfl⟩

/-! ### Inputs and waits -/

theorem steeringInputs_track {applied : List AgentSteeringInput}
    (ok : s.steeringInputs platform applied = .ok s') : s'.track = s.track := by
  simp only [steeringInputs, bind_eq_ok] at ok
  obtain ⟨last, applying, done⟩ := ok
  cases done
  refine foldlM_invariant (fun next => next.track = s.track) ?_ ?_ applying
  · intro next steering after _ same stepped
    simp only [applyInput, checked, bind_eq_ok] at stepped
    obtain ⟨-, -, -, stepped⟩ := stepped
    cases stepped
    exact same
  · unfold acceptInputs
    split <;> rfl

theorem userInputRequested_track {request : AgentUserInputRequest}
    (ok : s.userInputRequested current request = .ok s') :
    s'.track = s.track.requestInput request.requestId := by
  simp only [userInputRequested, checked, bind_eq_ok] at ok
  obtain ⟨-, -, -, done⟩ := ok
  cases done
  rfl

theorem awaitingChildren_track {request : AgentChildrenWait}
    (ok : s.awaitingChildren platform modelSteps request = .ok s') : s'.track = s.track := by
  simp only [awaitingChildren, checked, bind_eq_ok] at ok
  obtain ⟨-, -, -, -, -, -, done⟩ := ok
  cases done
  rfl

theorem childrenWaitResolved_track {cursor : String}
    (ok : s.childrenWaitResolved platform modelSteps cursor = .ok s') : s'.track = s.track := by
  simp only [childrenWaitResolved, checked, bind_eq_ok] at ok
  obtain ⟨-, _, -, _, -, _, -, _, -, done⟩ := ok
  cases done
  rfl

theorem ownedProcessObserved_track (ok : s.ownedProcessObserved platform observation = .ok s') :
    s'.track = s.track := by
  simp only [ownedProcessObserved, bind_eq_ok] at ok
  obtain ⟨_, -, _, -, _, -, done⟩ := ok
  cases done
  rfl

/-- One event moves the track by the fact it tells, if it tells one. -/
theorem step_track {event : AgentEngineEvent} (ok : step platform input s event = .ok s') :
    match event.callFact with
    | none => s'.track = s.track
    | some fact => s.track.Allows fact ∧ s'.track = s.track.advance fact := by
  cases event with
  | modelStepStarted => exact modelStepStarted_track ok
  | toolCallDelta current id =>
    simp only [step] at ok
    simp only [AgentEngineEvent.callFact]
    split at ok
    next model =>
      rw [if_pos model]
      exact toolCallDelta_track model ok
    next control =>
      rw [if_neg control]
      cases ok
      rfl
  | toolCallCompleted => exact toolCallCompleted_track ok
  | toolStarted => exact toolStarted_track ok
  | toolCompleted current result hold =>
    cases hold with
    | none => exact resultObserved_track ok
    | some reason =>
      cases reason with
      | phaseRestricted => exact phaseCorrected_track ok
      | _ => exact resultObserved_track ok
  | toolOutcomeReconciled => exact resultObserved_track ok
  | modelOutputTruncated => exact ⟨trivial, discardBatch_track ok⟩
  | modelResponseRejected => exact ⟨trivial, modelResponseRejected_track ok⟩
  | voiceModelStepSuperseded => exact ⟨trivial, discardBatch_track ok⟩
  | userInputRequested => exact ⟨trivial, userInputRequested_track ok⟩
  | steeringInputs => exact steeringInputs_track ok
  | awaitingChildren => exact awaitingChildren_track ok
  | childrenWaitResolved => exact childrenWaitResolved_track ok
  | ownedProcessObserved => exact ownedProcessObserved_track ok
  | collaborationInherited | turnStarted | executionCheckpointSaved => exact absurd ok invalid_ne_ok
  | modelResponseValidated | turnWaiting | endIntentReview | turnInputRequired =>
    simp only [step, Reconciling.modelResponseValidated, Reconciling.turnWaiting,
      Reconciling.endIntentReview, Reconciling.turnInputRequired, checked] at ok
    cases ok.2
    rfl
  | turnWaitResolved | completionReview | planUpdated | workStatus | patchRecoveryUpdated
  | turnCompleted | turnCancelled | turnFailed | executionTailReconciled | other =>
    cases ok
    rfl

end Reconciling

/-! ### The track reads the history -/

namespace CallTrack

variable {t : CallTrack} {h : CallHistory} {fact : CallFact} {external : StringSet} {first : Nat}

section

variable (t : CallTrack) (id : ToolCallId)

@[simp] theorem propose_step : (t.propose id).step = t.step := by
  unfold propose
  split <;> rfl

/-- A proposal leaves what is recorded of calls, results and inputs. -/
@[simp] theorem propose_frame :
    (t.propose id).calls = t.calls ∧ (t.propose id).completed = t.completed ∧
      (t.propose id).admitted = t.admitted ∧ (t.propose id).currentResults = t.currentResults ∧
      (t.propose id).inputRequests = t.inputRequests := by
  unfold propose
  split <;> simp

@[simp] theorem propose_proposed : (t.propose id).proposed = insert id t.proposed := by
  unfold propose
  split
  next old => exact (Finset.insert_eq_of_mem old).symm
  next => rfl

end

/-- The calls, and what the owners know of them. -/
structure ReadsCalls (external : StringSet) (h : CallHistory) (t : CallTrack) : Prop where
  calls : ∀ id step call, t.calls[id]? = some (step, call) ↔
    .completed step call ∈ h ∧ call.callId = id
  admitted : ∀ id, id ∈ t.admitted ↔ id ∈ external ∨ ∃ step, .admitted step id ∈ h
  admittedAt : ∀ step id, .admitted step id ∈ h → ∃ call, .completed step call ∈ h ∧
    call.callId = id
  inputRequests : ∀ id, id ∈ t.inputRequests ↔ ∃ step, .inputRequested step id ∈ h

/-- A completed call records itself and, outside the batch, nothing else. -/
theorem complete_frame (t : CallTrack) (current : Nat) (call : ChatToolCall) :
    (t.complete current call).calls = t.calls.insert call.callId (current, call) ∧
      (t.complete current call).completed = t.completed ∧
      (t.complete current call).admitted = t.admitted ∧
      (t.complete current call).currentResults = t.currentResults ∧
      (t.complete current call).inputRequests = t.inputRequests := by
  unfold complete
  split <;> simp

theorem advance_readsCalls (reads : t.ReadsCalls external h) (allowed : t.Allows fact) :
    (t.advance fact).ReadsCalls external (h ++ [fact]) := by
  cases fact with
  | completed current call =>
    have absent : ∀ recorded, t.calls[call.callId]? ≠ some recorded := by
      intro recorded present
      exact allowed.2 (Std.ExtTreeMap.mem_iff_isSome_getElem?.mpr (by simp [present]))
    refine ⟨fun id step other => ?_, fun id => ?_, fun step id started => ?_, fun id => ?_⟩
    · simp only [advance, complete_frame, StringMap.get_insert, mem_append, mem_singleton,
        CallFact.completed.injEq, or_and_right]
      by_cases same : call.callId = id
      · subst same
        have unseen : ¬ (.completed step other ∈ h ∧ other.callId = call.callId) := fun seen =>
          absent (step, other) ((reads.calls _ _ _).mpr seen)
        simp only [if_true, Option.some.injEq, Prod.mk.injEq, unseen, false_or]
        constructor
        · rintro ⟨rfl, rfl⟩
          exact ⟨⟨rfl, rfl⟩, rfl⟩
        · rintro ⟨⟨rfl, rfl⟩, -⟩
          exact ⟨rfl, rfl⟩
      · rw [if_neg same, reads.calls]
        refine ⟨.inl, fun found => found.resolve_right ?_⟩
        rintro ⟨⟨-, rfl⟩, same'⟩
        exact same same'
    · simpa [advance, complete_frame] using reads.admitted id
    · obtain ⟨other, completed, same⟩ := reads.admittedAt step id (by simpa using started)
      exact ⟨other, by simp [completed], same⟩
    · simpa [advance, complete_frame] using reads.inputRequests id
  | admitted current id =>
    obtain ⟨call, recorded⟩ := allowed
    refine ⟨?_, fun other => ?_, fun step other started => ?_, ?_⟩
    · simpa [advance, admitCall] using reads.calls
    · simp only [advance, admitCall, Finset.mem_insert, reads.admitted, mem_append,
        mem_singleton, CallFact.admitted.injEq]
      grind
    · have completed := (reads.calls id current call).mp recorded
      have earlier := reads.admittedAt step other
      simp only [mem_append, mem_singleton, CallFact.admitted.injEq] at started ⊢
      grind
    · simpa [advance, admitCall] using reads.inputRequests
  | inputRequested current id =>
    refine ⟨?_, ?_, ?_, fun other => ?_⟩
    · simpa [advance, requestInput] using reads.calls
    · simpa [advance, requestInput] using reads.admitted
    · simpa [advance, requestInput] using reads.admittedAt
    · simp only [advance, requestInput, Finset.mem_insert, reads.inputRequests, mem_append,
        mem_singleton, CallFact.inputRequested.injEq]
      grind
  | stepStarted | delta | result | discarded =>
    refine ⟨?_, ?_, ?_, ?_⟩
    · simpa [advance, startStep, settle, discard] using reads.calls
    · simpa [advance, startStep, settle, discard] using reads.admitted
    · simpa [advance, startStep, settle, discard] using reads.admittedAt
    · simpa [advance, startStep, settle, discard] using reads.inputRequests

open CallHistory

/-- No call has two results. -/
structure ReadsResults (h : CallHistory) (t : CallTrack) : Prop where
  once : ∀ id, h.results id ≤ 1
  completed : ∀ id, id ∈ t.completed ↔ 0 < h.results id
  current : h.hasCurrentResult = true ↔ t.currentResults ≠ ∅

theorem advance_readsResults (reads : t.ReadsResults h) (allowed : t.Allows fact) :
    (t.advance fact).ReadsResults (h ++ [fact]) := by
  cases fact with
  | result current id =>
    obtain ⟨-, fresh⟩ := allowed
    have unanswered : h.results id = 0 := by
      rw [reads.completed] at fresh
      omega
    refine ⟨fun other => ?_, fun other => ?_, ?_⟩
    · have once := reads.once other
      rw [results_append]
      by_cases same : id = other
      · subst same
        simp [unanswered, CallFact.answers]
      · simpa [CallFact.answers, same] using once
    · have completed := reads.completed other
      rw [results_append]
      by_cases same : id = other
      · subst same
        simp [CallFact.answers, advance, settle]
      · simpa [CallFact.answers, advance, settle, same, Ne.symm same] using completed
    · rw [hasCurrentResult_append]
      by_cases model : current > 0
      · simp [CallFact.startsStep, CallFact.isModelResult, advance, settle, model]
      · simpa [CallFact.startsStep, CallFact.isModelResult, advance, settle, model]
          using reads.current
  | stepStarted current =>
    refine ⟨?_, ?_, ?_⟩
    · simpa [results_append, CallFact.answers] using reads.once
    · simpa [results_append, CallFact.answers, advance, startStep] using reads.completed
    · simp [hasCurrentResult_append, CallFact.startsStep, advance, startStep]
  | delta | completed | admitted | discarded | inputRequested =>
    refine ⟨?_, ?_, ?_⟩
    · simpa [results_append, CallFact.answers] using reads.once
    · simpa [results_append, CallFact.answers, advance, complete_frame, admitCall,
        discard, requestInput] using reads.completed
    · simpa [hasCurrentResult_append, CallFact.startsStep, CallFact.isModelResult,
        advance, complete_frame, admitCall, discard, requestInput] using reads.current

/-- The batches: the journal has a call once for each step at which it is proposed. -/
structure ReadsBatch (first : Nat) (h : CallHistory) (t : CallTrack) : Prop where
  step : t.step = h.lastStep first
  control : ∀ id, 0 ∈ h.proposalSteps id → ∃ call, .completed 0 call ∈ h ∧ call.callId = id
  bounded : ∀ id, ∀ step ∈ h.proposalSteps id, step ≤ t.step
  proposed : ∀ id, id ∈ t.proposed ↔ 0 < t.step ∧ t.step ∈ h.proposalSteps id
  order : ∀ id, id ∈ t.order ↔ id ∈ t.proposed
  journal : ∀ id, t.journal.count id = (h.proposalSteps id).card

theorem proposalSteps_of_silent (h : CallHistory)
    (silent : ∀ id, fact.proposalStep id = none) (id : ToolCallId) :
    (h ++ [fact]).proposalSteps id = h.proposalSteps id := by
  rw [proposalSteps_append, silent]

/-- A fact that is not about batches. -/
theorem ReadsBatch.silent (reads : t.ReadsBatch first h)
    (same : (h ++ [fact]).lastStep first = h.lastStep first)
    (silent : ∀ id, fact.proposalStep id = none) : t.ReadsBatch first (h ++ [fact]) := by
  have steps := proposalSteps_of_silent h silent
  refine ⟨by rw [same, reads.step], fun id member => ?_, ?_, ?_, reads.order, ?_⟩
  · rw [steps] at member
    obtain ⟨call, completed, owner⟩ := reads.control id member
    exact ⟨call, mem_append_left _ completed, owner⟩
  · simpa only [steps] using reads.bounded
  · simpa only [steps] using reads.proposed
  · simpa only [steps] using reads.journal

/-- A control of the host stands in the journal outside any batch. -/
theorem ReadsBatch.completeControl (reads : t.ReadsBatch first h)
    (fresh : 0 ∉ h.proposalSteps call.callId) :
    (t.complete 0 call).ReadsBatch first (h ++ [.completed 0 call]) := by
  have steps : ∀ id, (h ++ [CallFact.completed 0 call]).proposalSteps id =
      if call.callId = id then insert 0 (h.proposalSteps id) else h.proposalSteps id := by
    intro id
    by_cases here : call.callId = id <;>
      simp [proposalSteps_append, CallFact.proposalStep, here]
  refine ⟨?_, fun id member => ?_, fun id step member => ?_, fun id => ?_, ?_, fun id => ?_⟩
  · rw [lastStep_append]
    exact reads.step
  · have earlier := reads.control id
    rw [steps] at member
    simp only [mem_append, mem_singleton]
    split at member <;> grind
  · have earlier := reads.bounded id step
    rw [steps] at member
    change step ≤ t.step
    split at member <;> grind
  · have earlier := reads.proposed id
    rw [steps]
    change id ∈ t.proposed ↔ 0 < t.step ∧ t.step ∈ _
    split <;> grind
  · exact reads.order
  · have earlier := reads.journal id
    rw [steps]
    change (t.journal ++ [call.callId]).count id = _
    split <;> grind

/-- A proposal in the current batch. -/
theorem ReadsBatch.propose {id : ToolCallId} (reads : t.ReadsBatch first h) (model : 0 < t.step)
    (same : (h ++ [fact]).lastStep first = h.lastStep first)
    (proposal : ∀ other, fact.proposalStep other = if id = other then some t.step else none) :
    (t.propose id).ReadsBatch first (h ++ [fact]) := by
  have steps : ∀ other, (h ++ [fact]).proposalSteps other =
      if id = other then insert t.step (h.proposalSteps other) else h.proposalSteps other := by
    intro other
    by_cases here : id = other <;> simp [proposalSteps_append, proposal, here]
  refine ⟨?_, fun other member => ?_, fun other step member => ?_, fun other => ?_,
    fun other => ?_, fun other => ?_⟩
  · rw [same, propose_step, reads.step]
  · have earlier := reads.control other
    rw [steps] at member
    simp only [mem_append]
    split at member <;> grind
  · rw [steps] at member
    have earlier := reads.bounded other step
    rw [propose_step]
    split at member <;> grind
  · have earlier := reads.proposed other
    rw [propose_proposed, propose_step, steps, Finset.mem_insert]
    split <;> grind
  · have earlier := reads.order other
    rw [propose_proposed, Finset.mem_insert]
    unfold CallTrack.propose
    split <;> grind
  · have earlier := reads.journal other
    have proposed := reads.proposed other
    rw [steps]
    unfold CallTrack.propose
    split <;> split <;> grind

theorem advance_readsBatch (calls : t.ReadsCalls external h) (reads : t.ReadsBatch first h)
    (allowed : t.Allows fact) : (t.advance fact).ReadsBatch first (h ++ [fact]) := by
  cases fact with
  | stepStarted current =>
    have steps : ∀ id, CallHistory.proposalSteps (h ++ [.stepStarted current]) id =
        h.proposalSteps id := proposalSteps_of_silent h fun _ => rfl
    have grown : current = t.step + 1 := allowed
    refine ⟨?_, fun id member => ?_, fun id step member => ?_, fun id => ?_, ?_, fun id => ?_⟩
    · rw [lastStep_append]
      rfl
    · rw [steps] at member
      simpa using reads.control id member
    · rw [steps] at member
      have earlier := reads.bounded id step member
      simp only [advance, startStep]
      omega
    · have earlier := reads.bounded id current
      rw [steps]
      simp only [advance, startStep, Finset.notMem_empty, false_iff, not_and]
      intro _ member
      exact absurd (earlier member) (by omega)
    · simp [advance, startStep]
    · rw [steps]
      exact reads.journal id
  | delta current id =>
    obtain ⟨model, rfl⟩ := allowed
    refine reads.propose model ?_ fun other => rfl
    rw [lastStep_append]
  | completed current call =>
    obtain ⟨inside, fresh⟩ := allowed
    by_cases control : current = 0
    · subst control
      refine reads.completeControl fun member => ?_
      obtain ⟨other, completed, same⟩ := reads.control _ member
      have recorded := (calls.calls _ _ _).mpr ⟨completed, same⟩
      exact fresh (Std.ExtTreeMap.mem_iff_isSome_getElem?.mpr (by simp [recorded]))
    · have model : 0 < current := Nat.pos_of_ne_zero control
      have here := inside model
      subst here
      have recorded : ReadsBatch first h
          { t with calls := t.calls.insert call.callId (t.step, call) } :=
        ⟨reads.step, reads.control, reads.bounded, reads.proposed, reads.order, reads.journal⟩
      simp only [advance, complete, if_neg control]
      refine recorded.propose model ?_ fun other => rfl
      rw [lastStep_append]
  | admitted | result | discarded | inputRequested =>
    refine ReadsBatch.silent ?_ (by rw [lastStep_append]) fun _ => rfl
    exact ⟨reads.step, reads.control, reads.bounded, reads.proposed, reads.order, reads.journal⟩

/-- The track is what the history says. -/
structure Reads (external : StringSet) (first : Nat) (h : CallHistory) (t : CallTrack) : Prop where
  calls : t.ReadsCalls external h
  results : t.ReadsResults h
  batch : t.ReadsBatch first h

theorem start_reads (external : StringSet) (first : Nat) :
    (CallTrack.start first external).Reads external first [] := by
  refine ⟨⟨?_, ?_, ?_, ?_⟩, ⟨?_, ?_, ?_⟩, ⟨?_, ?_, ?_, ?_, ?_, ?_⟩⟩ <;>
    simp [CallTrack.start, results, hasCurrentResult, proposalSteps, lastStep]

theorem advance_reads (reads : t.Reads external first h) (allowed : t.Allows fact) :
    (t.advance fact).Reads external first (h ++ [fact]) :=
  ⟨advance_readsCalls reads.calls allowed, advance_readsResults reads.results allowed,
    advance_readsBatch reads.calls reads.batch allowed⟩

end CallTrack

namespace Reconciling

/-- After the loop the track is what the whole tail says. -/
theorem replay_reads (ok : input.tail.foldlM (step platform input) (start input) = .ok s) :
    s.track.Reads input.externallyDispatched input.checkpoint.modelSteps
      (callHistory input.tail) := by
  refine foldlM_history (fun seen next => next.track.Reads input.externallyDispatched
    input.checkpoint.modelSteps (callHistory seen)) ?_ (CallTrack.start_reads _ _) ok
  intro seen before event after reads stepped
  have moved := step_track stepped
  have grown : callHistory (seen ++ [event]) = callHistory seen ++ event.callFact.toList := by
    cases fact : event.callFact <;> simp [callHistory, fact]
  rw [grown]
  cases fact : event.callFact with
  | none =>
    simp only [fact] at moved
    simpa [moved] using reads
  | some told =>
    simp only [fact] at moved
    rw [moved.2]
    exact CallTrack.advance_reads reads moved.1

end Reconciling
end Nomifun.Source.AgentRuntime
