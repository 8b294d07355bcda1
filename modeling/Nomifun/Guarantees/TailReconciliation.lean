import Nomifun.Source.AgentRuntime.ReconciledTail

/-!
# Calls of a reconciled tail

When is no admitted call lost, no call settled twice, and no call kept without a result?
Calls are followed per batch, while their records are kept for the whole tail. A batch that
was withdrawn can still have a call admitted after it, and a call identity can return in a
later batch. Each guarantee holds exactly where the tail does not do this.
-/
namespace Nomifun.Guarantees.TailReconciliation
open Library Source.AgentContracts Source.AgentRuntime List

variable {tail : List AgentEngineEvent} {step : Nat} {id : ToolCallId}
  {resume : AgentReconciledResume}

/-! ### What the tail says -/

section

variable (input : ReconciliationInput)

def lastStep : Nat := (callHistory input.tail).lastStep input.checkpoint.modelSteps

/-- The steps at which the tail proposes the call. -/
def proposalSteps (id : ToolCallId) : Finset Nat := (callHistory input.tail).proposalSteps id

def ProposedLast (id : ToolCallId) : Prop :=
  0 < lastStep input ∧ lastStep input ∈ proposalSteps input id

def CompletedAt (step : Nat) (id : ToolCallId) : Prop :=
  ∃ call, .toolCallCompleted step call ∈ input.tail ∧ call.callId = id

def HasResult (id : ToolCallId) : Prop := ∃ event ∈ input.tail, event.answers id = true

/-- An owner may have acted on the call. -/
def IsHeld (id : ToolCallId) : Prop :=
  id ∈ input.externallyDispatched ∨
  (∃ step capabilityId actionId, .toolStarted step id capabilityId actionId ∈ input.tail) ∨
  (∃ step request, .userInputRequested step request ∈ input.tail ∧ request.requestId = id) ∨
  (∃ step call, .toolCallCompleted step call ∈ input.tail ∧ call.callId = id ∧
    call.name = messageTool) ∧ id ∈ input.outcomes

def KeepsLastBatch : Prop :=
  (callHistory input.tail).hasCurrentResult = true ∨ ∃ id, ProposedLast input id ∧ IsHeld input id

/-- The reconciliation has to settle the call. -/
def Settles (id : ToolCallId) : Prop :=
  ¬ HasResult input id ∧
    (CompletedAt input 0 id ∨ CompletedAt input (lastStep input) id ∧ KeepsLastBatch input)

end

/-- The call has a result in the tail, or gets one. -/
def Answered (input : ReconciliationInput) (resume : AgentReconciledResume) (id : ToolCallId) :
    Prop :=
  HasResult input id ∨ ∃ event ∈ resume.observations, event.reconciles id = true

/-! ### Facts and events -/

theorem mem_callHistory : fact ∈ callHistory tail ↔ ∃ event ∈ tail, event.callFact = some fact := by
  simp [callHistory]

theorem completed_mem :
    .completed step call ∈ callHistory tail ↔ .toolCallCompleted step call ∈ tail := by
  refine mem_callHistory.trans ⟨?_, fun member => ⟨_, member, rfl⟩⟩
  rintro ⟨event, member, told⟩
  cases event <;> simp_all [AgentEngineEvent.callFact]

theorem admitted_mem :
    .admitted step id ∈ callHistory tail ↔
      ∃ capabilityId actionId, .toolStarted step id capabilityId actionId ∈ tail := by
  refine mem_callHistory.trans ⟨?_, fun ⟨_, _, member⟩ => ⟨_, member, rfl⟩⟩
  rintro ⟨event, member, told⟩
  cases event <;> simp [AgentEngineEvent.callFact] at told
  exact ⟨_, _, told.1 ▸ told.2 ▸ member⟩

theorem inputRequested_mem :
    .inputRequested step id ∈ callHistory tail ↔
      ∃ request, .userInputRequested step request ∈ tail ∧ request.requestId = id := by
  refine mem_callHistory.trans ⟨?_, fun ⟨_, member, same⟩ => ⟨_, member, same ▸ rfl⟩⟩
  rintro ⟨event, member, told⟩
  cases event <;> simp [AgentEngineEvent.callFact] at told
  exact ⟨_, told.1 ▸ member, told.2⟩

theorem results_eq (tail : List AgentEngineEvent) (id : ToolCallId) :
    (callHistory tail).results id = tail.countP (·.answers id) := by
  rw [CallHistory.results, callHistory, countP_filterMap]
  refine countP_congr fun event _ => ?_
  cases event with
  | toolCallDelta step => by_cases model : step > 0 <;>
      simp [AgentEngineEvent.callFact, AgentEngineEvent.answers, CallFact.answers, model]
  | _ => simp [AgentEngineEvent.callFact, AgentEngineEvent.answers, CallFact.answers]

/-! ### The track and the tail -/

section

variable {input : ReconciliationInput} {t : CallTrack}

/-- The track says what the tail of the input says. -/
abbrev ReadsTail (input : ReconciliationInput) (t : CallTrack) : Prop :=
  t.Reads input.externallyDispatched input.checkpoint.modelSteps (callHistory input.tail)

section

variable (reads : ReadsTail input t)
include reads

theorem calls_iff : (∃ call, t.calls[id]? = some (step, call)) ↔ CompletedAt input step id := by
  simp [reads.calls.calls, completed_mem, CompletedAt]

theorem completedAt_unique (one : CompletedAt input first id)
    (other : CompletedAt input second id) : first = second := by
  obtain ⟨_, recorded⟩ := (calls_iff reads).mpr one
  obtain ⟨_, again⟩ := (calls_iff reads).mpr other
  rw [recorded] at again
  cases again
  rfl

theorem completed_iff : id ∈ t.completed ↔ HasResult input id := by
  rw [reads.results.completed, results_eq, countP_pos_iff]
  rfl

theorem proposed_iff : id ∈ t.proposed ↔ ProposedLast input id := by
  rw [reads.batch.proposed, reads.batch.step]
  rfl

end

theorem completedAt_proposes (completed : CompletedAt input step id) :
    step ∈ proposalSteps input id := by
  obtain ⟨call, recorded, rfl⟩ := completed
  refine (CallHistory.mem_proposalSteps _).mpr ⟨_, completed_mem.mpr recorded, ?_⟩
  simp [CallFact.proposalStep]

variable (reads : ReadsTail input t)
include reads

theorem started_completedAt (started : .toolStarted step id capabilityId actionId ∈ input.tail) :
    CompletedAt input step id := by
  obtain ⟨call, completed, same⟩ :=
    reads.calls.admittedAt step id (admitted_mem.mpr ⟨capabilityId, actionId, started⟩)
  exact ⟨call, completed_mem.mp completed, same⟩

theorem isHeld_iff : t.isHeld input.outcomes id = true ↔ IsHeld input id := by
  have message : (t.calls[id]?).any (·.2.name = messageTool) = true ↔
      ∃ step call, .toolCallCompleted step call ∈ input.tail ∧ call.callId = id ∧
        call.name = messageTool := by
    simp only [Option.any_eq_true, decide_eq_true_eq, Prod.exists, reads.calls.calls,
      completed_mem, and_assoc]
  rw [CallTrack.isHeld, IsHeld, Bool.or_eq_true, Bool.or_eq_true, Bool.and_eq_true, message,
    decide_eq_true_eq, decide_eq_true_eq, decide_eq_true_eq, reads.calls.admitted,
    reads.calls.inputRequests]
  simp only [admitted_mem, inputRequested_mem, or_assoc]

theorem keepsBatch_iff : t.keepsBatch input.outcomes = true ↔ KeepsLastBatch input := by
  rw [CallTrack.keepsBatch, KeepsLastBatch, Bool.or_eq_true, decide_eq_true_eq, decide_eq_true_eq,
    reads.results.current]
  simp only [proposed_iff reads, isHeld_iff reads]

theorem settles_iff : t.settles (t.keepsBatch input.outcomes) id = true ↔ Settles input id := by
  have recorded : ((t.calls[id]?).any fun recorded =>
      recorded.1 = 0 || (t.keepsBatch input.outcomes && recorded.1 = t.step)) = true ↔
      CompletedAt input 0 id ∨ CompletedAt input (lastStep input) id ∧ KeepsLastBatch input := by
    have here : t.step = lastStep input := reads.batch.step
    have at_step (found : Nat × ChatToolCall) (step : Nat) :
        (∃ call, some found = some (step, call)) ↔ found.1 = step :=
      ⟨fun ⟨_, same⟩ => congrArg Prod.fst (Option.some.inj same), fun same =>
        ⟨found.2, by rw [← same]⟩⟩
    rw [← calls_iff reads, ← calls_iff reads, ← keepsBatch_iff reads, here]
    cases t.calls[id]? with
    | none => simp
    | some found =>
      rw [at_step, at_step, Option.any_some, Bool.or_eq_true, Bool.and_eq_true, decide_eq_true_eq,
        decide_eq_true_eq]
      exact or_congr_right and_comm
  rw [CallTrack.settles, Settles, Bool.and_eq_true, recorded, decide_eq_true_eq,
    completed_iff reads]

end

/-! ### Guarantees -/

section

variable {platform : Platform} {input : ReconciliationInput}

section

variable (ok : reconcileExecutionTailWithContracts platform input = .ok resume)
include ok

theorem settled_count (settles : Settles input id) :
    resume.observations.countP (·.reconciles id) = (proposalSteps input id).card := by
  obtain ⟨t, reads, counted, -⟩ := reconcile_emits ok
  rw [counted, if_pos ((settles_iff reads).mpr settles), reads.batch.journal]
  rfl

theorem unsettled_count (other : ¬ Settles input id) :
    resume.observations.countP (·.reconciles id) = 0 := by
  obtain ⟨t, reads, counted, -⟩ := reconcile_emits ok
  rw [counted, if_neg fun settles => other ((settles_iff reads).mp settles)]

/-- A call is answered by the tail or because the reconciliation settles it. -/
theorem answered_iff : Answered input resume id ↔ HasResult input id ∨ Settles input id := by
  have emitted : (∃ event ∈ resume.observations, event.reconciles id = true) ↔
      Settles input id := by
    rw [← countP_pos_iff]
    constructor
    · intro positive
      by_contra other
      rw [unsettled_count ok other] at positive
      exact absurd positive (lt_irrefl 0)
    · intro settles
      rw [settled_count ok settles, Finset.card_pos]
      obtain ⟨-, control | ⟨batch, -⟩⟩ := settles
      · exact ⟨_, completedAt_proposes control⟩
      · exact ⟨_, completedAt_proposes batch⟩
  rw [Answered, emitted]

/-- A call of the last batch that an owner may have acted on is settled. -/
theorem held_answered (completed : CompletedAt input (lastStep input) id)
    (kept : 0 < lastStep input → KeepsLastBatch input) : Answered input resume id := by
  rw [answered_iff ok]
  by_cases result : HasResult input id
  · exact .inl result
  · refine .inr ⟨result, ?_⟩
    by_cases control : lastStep input = 0
    · rw [control] at completed
      exact .inl completed
    · exact .inr ⟨completed, kept (Nat.pos_of_ne_zero control)⟩

end

variable (platform : Platform) (input : ReconciliationInput) (resume : AgentReconciledResume)
  (ok : reconcileExecutionTailWithContracts platform input = .ok resume)
include ok

/-- No admitted call is dropped, exactly if every call admitted in an earlier batch has its
result in the tail. -/
theorem admitted_calls_are_answered_iff :
    (∀ step id capabilityId actionId, .toolStarted step id capabilityId actionId ∈ input.tail →
      Answered input resume id) ↔
    ∀ step id capabilityId actionId, .toolStarted step id capabilityId actionId ∈ input.tail →
      step = 0 ∨ step = lastStep input ∨ HasResult input id := by
  obtain ⟨t, reads, -, -⟩ := reconcile_emits ok
  refine forall₅_congr fun step id capabilityId actionId started => ?_
  have completed := started_completedAt reads started
  constructor
  · intro answered
    rcases (answered_iff ok).mp answered with result | ⟨-, control | ⟨batch, -⟩⟩
    · exact .inr (.inr result)
    · exact .inl (completedAt_unique reads completed control)
    · exact .inr (.inl (completedAt_unique reads completed batch))
  · rintro (rfl | rfl | result)
    · rw [answered_iff ok]
      by_cases result : HasResult input id
      · exact .inl result
      · exact .inr ⟨result, .inl completed⟩
    · refine held_answered ok completed fun model => .inr ⟨id, ?_, ?_⟩
      · exact ⟨model, completedAt_proposes completed⟩
      · exact .inr (.inl ⟨_, capabilityId, actionId, started⟩)
    · exact .inl result

/-- No call is settled twice, exactly if every call that is left to the reconciliation was
proposed at one step only. -/
theorem calls_are_settled_once_iff :
    (∀ id, input.tail.countP (·.answers id) + resume.observations.countP (·.reconciles id) ≤ 1) ↔
    ∀ id, Settles input id → (proposalSteps input id).card ≤ 1 := by
  obtain ⟨t, reads, -, -⟩ := reconcile_emits ok
  refine forall_congr' fun id => ?_
  have once := reads.results.once id
  rw [results_eq] at once
  by_cases settles : Settles input id
  · have unanswered : input.tail.countP (·.answers id) = 0 := by
      refine countP_eq_zero.mpr fun event member answer => settles.1 ⟨event, member, answer⟩
    rw [unanswered, settled_count ok settles]
    simp [settles]
  · rw [unsettled_count ok settles]
    simp [settles, once]

/-- The retained batch is complete, exactly if every call it proposes was completed in it. -/
theorem retained_calls_are_complete_iff :
    (∀ modelSteps revision discarded retained discardLast retry,
      .executionTailReconciled modelSteps revision discarded retained discardLast retry ∈
          resume.observations →
        ∀ id ∈ retained, CompletedAt input (lastStep input) id ∧ Answered input resume id) ↔
    (KeepsLastBatch input → ∀ id, ProposedLast input id →
      CompletedAt input (lastStep input) id) := by
  obtain ⟨t, reads, -, kept⟩ := reconcile_emits ok
  constructor
  · intro complete keeps id proposed
    have member : t.order ∈ resume.observations.filterMap AgentEngineEvent.retained := by
      rw [kept, if_pos ((keepsBatch_iff reads).mpr keeps)]
      exact mem_singleton_self _
    obtain ⟨event, emitted, retained⟩ := mem_filterMap.mp member
    have ordered : id ∈ t.order := (reads.batch.order id).mpr ((proposed_iff reads).mpr proposed)
    cases event with
    | executionTailReconciled =>
      cases retained
      exact (complete _ _ _ _ _ _ emitted id ordered).1
    | _ => cases retained
  · intro complete modelSteps revision discarded retained discardLast retry emitted id member
    have listed : retained ∈ resume.observations.filterMap AgentEngineEvent.retained :=
      mem_filterMap.mpr ⟨_, emitted, rfl⟩
    rw [kept, mem_singleton] at listed
    split at listed
    next keeps =>
      rw [listed, reads.batch.order, proposed_iff reads] at member
      have completed := complete ((keepsBatch_iff reads).mp keeps) id member
      exact ⟨completed, held_answered ok completed fun _ => (keepsBatch_iff reads).mp keeps⟩
    next =>
      rw [listed] at member
      cases member

end

/-! ### Two tails -/

def host : Platform where
  sha256 _ := Vector.replicate 32 0
  floatText _ := []
  parseJson _ := none
  describe _ := ""

def checkpoint : AgentExecutionCheckpoint where
  version := 1
  binding := ⟨"s", "r", "b", String.ofList (List.replicate 64 '0'),
    ⟨"n", String.ofList (List.replicate 64 '0')⟩⟩
  turnOperationId := "t"
  activeSetGeneration := 0
  modelSteps := 0
  toolCallCount := 0
  acceptedInputCount := 1
  appliedSteeringReceipts := []
  plan := .empty
  work := .empty
  patchRecovery := .empty
  segments := none
  controlRejections := .empty
  completionReview := .empty
  pendingUserInput := none
  awaitingChildren := none
  collaboration := .empty

def readCall (id : ToolCallId) : ChatToolCall := ⟨id, "read_file", .object [], none⟩

def readStarted (step : Nat) (id : ToolCallId) : AgentEngineEvent :=
  .toolStarted step id "workspace.files" "workspace.files/read"

/-- The owner has a receipt for call `B` only. -/
def resumeFrom (tail : List AgentEngineEvent) : ReconciliationInput where
  checkpoint := checkpoint
  checkpointRevision := 1
  tail := tail
  externallyDispatched := ∅
  outcomes := (∅ : StringMap _).insert "B" ⟨.text "B" "ok" false, .ownerReceipt, none, none⟩
  grant := ⟨0, false⟩
  contracts := [(("workspace.files", "workspace.files/read"), .readOnly)]

/-- The first batch is cut off, yet its call `A` is admitted afterwards. Both identities
return in the second batch, where only `B` is completed. -/
def crossed : ReconciliationInput := resumeFrom
  [.modelStepStarted 1 "m1" none, .toolCallDelta 1 "B" "read_file" "",
    .toolCallCompleted 1 (readCall "A"), .modelOutputTruncated 1 ["A", "B"] true,
    readStarted 1 "A", .modelStepStarted 2 "m2" none, .toolCallDelta 2 "A" "read_file" "",
    .toolCallDelta 2 "B" "read_file" "", .toolCallCompleted 2 (readCall "B"), readStarted 2 "B"]

theorem crossed_reconciles :
    ((reconcileExecutionTailWithContracts host crossed).toOption.map fun resume =>
      (resume.observations.countP (·.reconciles "A"), resume.observations.countP (·.reconciles "B"),
        resume.observations.filterMap AgentEngineEvent.retained)) =
      some (0, 2, [["A", "B"]]) := by
  decide +kernel

/-- What the evaluation says about the resume. -/
theorem crossed_resume : ∃ resume, reconcileExecutionTailWithContracts host crossed = .ok resume ∧
    resume.observations.countP (·.reconciles "A") = 0 ∧
    resume.observations.countP (·.reconciles "B") = 2 ∧
    resume.observations.filterMap AgentEngineEvent.retained = [["A", "B"]] := by
  obtain ⟨resume, ok, counted⟩ := Option.map_eq_some_iff.mp crossed_reconciles
  simp only [Prod.mk.injEq] at counted
  exact ⟨resume, toOption_eq_some.mp ok, counted⟩

theorem crossed_unanswered (unreconciled : resume.observations.countP (·.reconciles "A") = 0) :
    ¬ Answered crossed resume "A" := by
  rintro (⟨event, member, answer⟩ | ⟨event, member, reconciled⟩)
  · have silent : crossed.tail.countP (·.answers "A") = 0 := by decide
    exact countP_eq_zero.mp silent event member answer
  · exact countP_eq_zero.mp unreconciled event member reconciled

/-- Call `A` was admitted, and the resumed history does not know it. -/
theorem admitted_call_is_dropped :
    ∃ (platform : Platform) (input : ReconciliationInput) (resume : AgentReconciledResume)
      (step : Nat) (id : ToolCallId) (capabilityId : CapabilityId) (actionId : ActionId),
      reconcileExecutionTailWithContracts platform input = .ok resume ∧
      .toolStarted step id capabilityId actionId ∈ input.tail ∧ ¬ Answered input resume id := by
  obtain ⟨resume, ok, unreconciled, -, -⟩ := crossed_resume
  have started : readStarted 1 "A" ∈ crossed.tail := by simp [crossed, resumeFrom]
  exact ⟨host, crossed, resume, 1, "A", _, _, ok, started, crossed_unanswered unreconciled⟩

/-- Call `B` is in the journal once for each batch. -/
theorem call_is_settled_twice :
    ∃ (platform : Platform) (input : ReconciliationInput) (resume : AgentReconciledResume)
      (id : ToolCallId), reconcileExecutionTailWithContracts platform input = .ok resume ∧
      1 < input.tail.countP (·.answers id) + resume.observations.countP (·.reconciles id) := by
  obtain ⟨resume, ok, -, twice, -⟩ := crossed_resume
  refine ⟨host, crossed, resume, "B", ok, ?_⟩
  omega

/-- Call `A` is retained with the second batch, on the record of the first. -/
theorem retained_call_is_incomplete :
    ∃ (platform : Platform) (input : ReconciliationInput) (resume : AgentReconciledResume)
      (modelSteps revision : Nat) (discarded retained : List ToolCallId) (discardLast retry : Bool)
      (id : ToolCallId), reconcileExecutionTailWithContracts platform input = .ok resume ∧
      .executionTailReconciled modelSteps revision discarded retained discardLast retry ∈
        resume.observations ∧
      id ∈ retained ∧ ¬ CompletedAt input (lastStep input) id ∧ ¬ Answered input resume id := by
  obtain ⟨resume, ok, unreconciled, -, retained⟩ := crossed_resume
  have member : ["A", "B"] ∈ resume.observations.filterMap AgentEngineEvent.retained := by
    rw [retained]
    exact mem_singleton_self _
  obtain ⟨event, emitted, kept⟩ := mem_filterMap.mp member
  have incomplete : ¬ CompletedAt crossed (lastStep crossed) "A" := by
    have last : lastStep crossed = 2 := rfl
    rintro ⟨call, completed, same⟩
    simp only [crossed, resumeFrom, readStarted, mem_cons, not_mem_nil, reduceCtorEq,
      AgentEngineEvent.toolCallCompleted.injEq, false_or, or_false] at completed
    rcases completed with ⟨step, -⟩ | ⟨-, rfl⟩
    · exact absurd step (by decide)
    · exact absurd same (by decide)
  cases event with
  | executionTailReconciled =>
    cases kept
    exact ⟨host, crossed, resume, _, _, _, _, _, _, "A", ok, emitted, by simp, incomplete,
      crossed_unanswered unreconciled⟩
  | _ => cases kept

/-- One batch with one admitted call. -/
def orderly : ReconciliationInput := resumeFrom
  [.modelStepStarted 1 "m1" none, .toolCallDelta 1 "B" "read_file" "",
    .toolCallCompleted 1 (readCall "B"), readStarted 1 "B"]

theorem orderly_resume :
    ∃ resume, reconcileExecutionTailWithContracts host orderly = .ok resume := by
  have reconciled : (reconcileExecutionTailWithContracts host orderly).toOption.isSome = true := by
    decide +kernel
  obtain ⟨resume, ok⟩ := Option.isSome_iff_exists.mp reconciled
  exact ⟨resume, toOption_eq_some.mp ok⟩

theorem orderly_proposalSteps (id : ToolCallId) :
    proposalSteps orderly id = if "B" = id then {1} else ∅ := by
  by_cases call : "B" = id
  · subst call
    decide
  · simp [proposalSteps, orderly, resumeFrom, readStarted, readCall, callHistory,
      AgentEngineEvent.callFact, CallHistory.proposalSteps, CallFact.proposalStep, call]

theorem orderly_completed : CompletedAt orderly 1 "B" :=
  ⟨readCall "B", by simp [orderly, resumeFrom], rfl⟩

theorem orderly_admitted_call_is_answered :
    ∃ resume, reconcileExecutionTailWithContracts host orderly = .ok resume ∧
      readStarted 1 "B" ∈ orderly.tail ∧ Answered orderly resume "B" := by
  obtain ⟨resume, ok⟩ := orderly_resume
  have started : readStarted 1 "B" ∈ orderly.tail := by simp [orderly, resumeFrom]
  refine ⟨resume, ok, started, ?_⟩
  refine (admitted_calls_are_answered_iff host orderly resume ok).mpr ?_ 1 "B" _ _ started
  intro step id capabilityId actionId member
  simp only [orderly, resumeFrom, readStarted, mem_cons, not_mem_nil, reduceCtorEq,
    AgentEngineEvent.toolStarted.injEq, false_or, or_false] at member
  exact .inr (.inl member.1)

theorem orderly_call_is_settled_once :
    ∃ resume, reconcileExecutionTailWithContracts host orderly = .ok resume ∧
      ∀ id, orderly.tail.countP (·.answers id) +
        resume.observations.countP (·.reconciles id) ≤ 1 := by
  obtain ⟨resume, ok⟩ := orderly_resume
  refine ⟨resume, ok, (calls_are_settled_once_iff host orderly resume ok).mpr fun id _ => ?_⟩
  rw [orderly_proposalSteps]
  split <;> simp

theorem orderly_retained_call_is_complete :
    ∃ resume, reconcileExecutionTailWithContracts host orderly = .ok resume ∧
      ∀ modelSteps revision discarded retained discardLast retry,
        .executionTailReconciled modelSteps revision discarded retained discardLast retry ∈
            resume.observations →
          ∀ id ∈ retained, CompletedAt orderly (lastStep orderly) id ∧
            Answered orderly resume id := by
  obtain ⟨resume, ok⟩ := orderly_resume
  refine ⟨resume, ok, (retained_calls_are_complete_iff host orderly resume ok).mpr ?_⟩
  rintro - id ⟨-, proposed⟩
  rw [orderly_proposalSteps] at proposed
  split at proposed
  next call =>
    subst call
    exact orderly_completed
  next => exact absurd proposed (Finset.notMem_empty _)

end Nomifun.Guarantees.TailReconciliation
