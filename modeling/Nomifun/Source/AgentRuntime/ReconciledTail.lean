import Nomifun.Source.AgentRuntime.CallHistory

/-!
# What a reconciliation emits

A reconciled call is emitted once for each time it stands in the journal, if it is open and
belongs to the kept batch or to the host (`reconcile_emits`). The rest of the observations
settles no call.
-/
namespace Nomifun.Source.AgentRuntime
open Library Source.AgentContracts List Bool

variable {platform : Platform} {input : ReconciliationInput} {id : ToolCallId}
  {resume : AgentReconciledResume}

namespace AgentEngineEvent

/-- A result of the call, as it came or as a reconciliation recorded it. -/
def answers (id : ToolCallId) : AgentEngineEvent → Bool
  | .toolCompleted _ result _ => result.callId = id
  | .toolOutcomeReconciled _ result _ _ _ => result.callId = id
  | _ => false

/-- A reconciled outcome of the call. -/
def reconciles (id : ToolCallId) : AgentEngineEvent → Bool
  | .toolOutcomeReconciled _ result _ _ _ => result.callId = id
  | _ => false

def isReconciledOutcome : AgentEngineEvent → Bool
  | .toolOutcomeReconciled _ _ _ _ _ => true
  | _ => false

/-- The calls that a reconciled tail keeps. -/
def retained : AgentEngineEvent → Option (List ToolCallId)
  | .executionTailReconciled _ _ _ retained _ _ => some retained
  | _ => none

end AgentEngineEvent

/-- The call is open, and of the kept batch or of the host. -/
def CallTrack.settles (t : CallTrack) (keepBatch : Bool) (id : ToolCallId) : Bool :=
  id ∉ t.completed && (t.calls[id]?).any fun recorded =>
    recorded.1 = 0 || (keepBatch && recorded.1 = t.step)

theorem AgentToolResult.validateFor_callId {result : AgentToolResult}
    (ok : result.validateFor platform id = .ok ()) : result.callId = id := by
  simp only [AgentToolResult.validateFor, guard_eq_ok] at ok
  exact not_not.mp ok.1

namespace Reconciling

variable {s : Reconciling} {keepBatch : Bool}

theorem withhold_track (id : ToolCallId) (call : ChatToolCall) :
    (s.withhold platform id call).track = s.track := by
  unfold withhold
  split <;> rfl

theorem settleCall_emits (ok : s.settleCall platform input id callStep call = .ok settled) :
    settled.1.track = s.track ∧ settled.2.isReconciledOutcome = true ∧
      ∀ other, settled.2.reconciles other = decide (id = other) := by
  simp only [settleCall, checked, bind_eq_ok] at ok
  obtain ⟨outcome, -, _, valid, _, -, _, -, -, _, -, done⟩ := ok
  cases done
  refine ⟨rfl, rfl, fun other => ?_⟩
  simp [AgentEngineEvent.reconciles, AgentToolResult.validateFor_callId valid]

/-- One round emits an outcome exactly if the call is to be settled. -/
theorem reconcileCall_emits {acc next : Reconciling × List AgentEngineEvent}
    (ok : reconcileCall platform input keepBatch acc id = .ok next) :
    next.1.track = acc.1.track ∧
      if acc.1.track.settles keepBatch id then
        ∃ event : AgentEngineEvent, next.2 = acc.2 ++ [event] ∧
          event.isReconciledOutcome = true ∧ ∀ other, event.reconciles other = decide (id = other)
      else next.2 = acc.2 := by
  simp only [reconcileCall] at ok
  unfold CallTrack.settles
  split at ok
  next missing =>
    cases ok
    simp [missing]
  next callStep call recorded =>
    rw [recorded]
    split at ok
    next done =>
      cases ok
      simp [done]
    next isOpen =>
      split at ok
      next left =>
        cases ok
        refine ⟨withhold_track id call, ?_⟩
        rw [if_neg]
        simp only [and_eq_true, or_eq_true, decide_eq_true_eq] at left ⊢
        grind
      next kept =>
        obtain ⟨settled, settling, done⟩ := bind_eq_ok.mp ok
        cases done
        obtain ⟨same, outcome, emitted⟩ := settleCall_emits settling
        refine ⟨same, ?_⟩
        rw [if_pos]
        · exact ⟨settled.2, rfl, outcome, emitted⟩
        · simp only [and_eq_true, or_eq_true, decide_eq_true_eq, Option.any_some] at kept ⊢
          grind

/-- The loop emits a call as often as it stands in the journal. -/
theorem outcomes_emit {journal : List ToolCallId}
    (ok : journal.foldlM (reconcileCall platform input keepBatch) (s, []) = .ok done) :
    done.1.track = s.track ∧ (∀ event ∈ done.2, event.isReconciledOutcome = true) ∧
      ∀ id, done.2.countP (·.reconciles id) =
        if s.track.settles keepBatch id then journal.count id else 0 := by
  refine foldlM_history (fun seen acc => acc.1.track = s.track ∧
    (∀ event ∈ acc.2, event.isReconciledOutcome = true) ∧ ∀ id, acc.2.countP (·.reconciles id) =
      if s.track.settles keepBatch id then seen.count id else 0) ?_ ?_ ok
  · rintro seen before id after ⟨same, outcomes, counted⟩ stepped
    obtain ⟨kept, emitted⟩ := reconcileCall_emits stepped
    rw [same] at kept emitted
    refine ⟨kept, ?_⟩
    split at emitted
    next settled =>
      obtain ⟨event, grown, outcome, reconciled⟩ := emitted
      rw [grown]
      refine ⟨forall_mem_append.mpr ⟨outcomes, forall_mem_singleton.mpr outcome⟩, fun other => ?_⟩
      rw [countP_append, counted, count_append]
      by_cases this : id = other
      · subst this
        simp [settled, reconciled]
      · simp [reconciled, this]
    next skipped =>
      rw [emitted]
      refine ⟨outcomes, fun other => ?_⟩
      rw [counted, count_append]
      by_cases this : id = other
      · subst this
        simp [skipped]
      · simp [this]
  · simp

/-- The last part adds the event of the tail, and no outcome. -/
theorem finish_emits (ok : s.finish platform input keepBatch observations = .ok resume) :
    ∃ before after, resume.observations =
        observations ++ before ++ [s.tailReconciled input keepBatch] ++ after ∧
      ∀ event ∈ before ++ after, (∃ modelSteps, event = .turnWaitResolved modelSteps) ∨
        (∃ plan, event = .planUpdated plan) ∨ ∃ work, event = .workStatus work := by
  simp only [finish, checked, bind_eq_ok] at ok
  obtain ⟨-, _, -, _, -, _, -, done⟩ := ok
  cases done
  refine ⟨(if s.liveWaitUnresolved then [.turnWaitResolved s.track.step] else []) ++
      (if resumedPlan s.next = s.lastPlan then [] else [.planUpdated (resumedPlan s.next)]),
    if resumedWork s.next.work = s.lastWork then [] else [.workStatus (resumedWork s.next.work)],
    by simp only [append_assoc], ?_⟩
  intro event member
  simp only [mem_append] at member
  rcases member with (member | member) | member <;> split at member <;> simp_all

end Reconciling

open Reconciling in
/-- What a successful reconciliation emits, by the track after its loop. -/
theorem reconcile_emits (ok : reconcileExecutionTailWithContracts platform input = .ok resume) :
    ∃ t : CallTrack, t.Reads input.externallyDispatched input.checkpoint.modelSteps
        (callHistory input.tail) ∧
      (∀ id, resume.observations.countP (·.reconciles id) =
        if t.settles (t.keepsBatch input.outcomes) id then t.journal.count id else 0) ∧
      resume.observations.filterMap AgentEngineEvent.retained =
        [if t.keepsBatch input.outcomes then t.order else []] := by
  simp only [reconcileExecutionTailWithContracts, checked, bind_eq_ok] at ok
  obtain ⟨_, -, s, replayed, -, -, ⟨last, observations⟩, reconciled, finished⟩ := ok
  obtain ⟨same, outcomes, counted⟩ := outcomes_emit reconciled
  obtain ⟨before, after, emitted, quiet⟩ := finish_emits finished
  refine ⟨s.track, replay_reads replayed, fun id => ?_, ?_⟩
  · have none : (before ++ after).countP (·.reconciles id) = 0 := by
      refine countP_eq_zero.mpr fun event member => ?_
      rcases quiet event member with ⟨_, rfl⟩ | ⟨_, rfl⟩ | ⟨_, rfl⟩ <;>
        simp [AgentEngineEvent.reconciles]
    have tail : [last.tailReconciled input (s.track.keepsBatch input.outcomes)].countP
        (·.reconciles id) = 0 := rfl
    rw [countP_append] at none
    rw [← counted, emitted, countP_append, countP_append, countP_append, tail]
    omega
  · have noOutcome : observations.filterMap AgentEngineEvent.retained = [] := by
      refine filterMap_eq_nil_iff.mpr fun event member => ?_
      have outcome := outcomes event member
      cases event <;> simp_all [AgentEngineEvent.isReconciledOutcome, AgentEngineEvent.retained]
    have noOther : (before ++ after).filterMap AgentEngineEvent.retained = [] := by
      refine filterMap_eq_nil_iff.mpr fun event member => ?_
      rcases quiet event member with ⟨_, rfl⟩ | ⟨_, rfl⟩ | ⟨_, rfl⟩ <;> rfl
    rw [filterMap_append, append_eq_nil_iff] at noOther
    rw [emitted]
    simp only [filterMap_append, noOutcome, noOther, nil_append, append_nil]
    rw [tailReconciled, show last.track = s.track from same]
    rfl

end Nomifun.Source.AgentRuntime
