import Nomifun.Library.Checks
import Nomifun.Library.RustText
import Nomifun.Library.Table

/-!
# The execution of a plan

nomifun-common, agent_execution.rs:265-360 and 392-404; nomifun-api-types,
agent_execution.rs:84-177, 260-453 and 495-522; nomifun-db, 001_canonical_baseline.sql:93-330. An
execution is a graph of steps. Steps and dependencies that a later revision of the plan superseded
stay in the tables and are not active. The columns that no modelled function reads are left out.
-/
namespace Nomifun.Source.AgentExecution
open Library.RustText Library.Table

instance lawfulPair : LawfulBEq (String × String) := inferInstance

/-! ### Enumerations -/

inductive ExecutionStepKind where
  | agent | verify | judge | loop
  deriving DecidableEq

inductive AgentStepMode where
  | normal | synthesis
  deriving DecidableEq

inductive AgentToolPolicy where
  | full | readOnly | readShell
  deriving DecidableEq

inductive StepFailurePolicy where
  | failExecution | skipDependents
  deriving DecidableEq

inductive ParticipantAssignmentSource where
  | planner | automatic | manual

inductive ExecutionStepStatus where
  | pending | running | waitingInput | completed | failed | skipped | cancelled
  deriving DecidableEq

def ExecutionStepStatus.isTerminal : ExecutionStepStatus → Bool
  | .completed | .failed | .skipped | .cancelled => true
  | .pending | .running | .waitingInput => false

def ExecutionStepStatus.text : ExecutionStepStatus → String
  | .pending => "pending"
  | .running => "running"
  | .waitingInput => "waiting_input"
  | .completed => "completed"
  | .failed => "failed"
  | .skipped => "skipped"
  | .cancelled => "cancelled"

inductive ExecutionAttemptStatus where
  | queued | running | waitingInput | completed | failed | cancelled | interrupted
  deriving DecidableEq

/-- The statuses in which an attempt occupies its step. -/
def ExecutionAttemptStatus.isActive : ExecutionAttemptStatus → Bool
  | .queued | .running | .waitingInput => true
  | .completed | .failed | .cancelled | .interrupted => false

/-! ### The policies of a control step -/

inductive VerificationPolicy where
  | majority | unanimous
  | atLeast (count : Nat)
  deriving DecidableEq

inductive JudgeAggregation where
  | mean | borda
  deriving DecidableEq

inductive LoopStopPolicy where
  | maxIterations
  | predicate (doneMarker : String)
  | stable (quietRounds : Nat)
  | approved
  deriving DecidableEq

inductive StepControlPolicy where
  | verify (vote : VerificationPolicy)
  | judge (aggregation : JudgeAggregation) (candidateCount : Option Nat)
  | loop (maxIterations : Nat) (stop : LoopStopPolicy)
  deriving DecidableEq

/-! ### Participants -/

structure ExecutionStepProfile where
  kind : String
  (needsVision needsWebSearch needsLongContext needsHighReasoning bulk managedProcessOnly : Bool)
  deriving DecidableEq

structure ParticipantCapability where
  (strengths modalities : List String)
  tools : Bool
  webSearch : Bool
  (reasoning costTier speedTier : String)

structure ParticipantConstraints where
  maxConcurrency : Option Int
  allowedProfileKinds : Option (List String)

structure ExecutionParticipant where
  participantId : String
  capability : Option ParticipantCapability
  constraints : Option ParticipantConstraints
  retiredInRevision : Option Int

/-! ### Steps, dependencies and attempts -/

structure ExecutionStep where
  stepId : String
  kind : ExecutionStepKind
  status : ExecutionStepStatus
  controlPolicy : Option StepControlPolicy
  assignedParticipantId : Option String
  (dispatchAfter supersededInRevision : Option Int)
  (version createdAt updatedAt : Int)
  deriving DecidableEq

structure ExecutionStepDependency where
  blockerStepId : String
  blockedStepId : String
  supersededInRevision : Option Int

structure ExecutionAttempt where
  attemptId : String
  stepId : String
  status : ExecutionAttemptStatus

def maxAgentExecutionSteps : Nat := 128

def maxAgentExecutionParallelism : Nat := 64

set_option linter.dupNamespace false in
/-- The domain mapper refuses a row whose parallelism is out of range. -/
structure AgentExecution where
  maxParallel : Nat
  version : Int
  inRange : 1 ≤ maxParallel ∧ maxParallel ≤ maxAgentExecutionParallelism
  deriving DecidableEq

/-- The tables keep ids unique, ids are not blank, and no step depends on itself. -/
structure AgentExecutionDetail where
  execution : AgentExecution
  participants : List ExecutionParticipant
  steps : List ExecutionStep
  dependencies : List ExecutionStepDependency
  attempts : List ExecutionAttempt
  distinctParticipants : (participants.map (·.participantId)).Nodup
  distinctSteps : (steps.map (·.stepId)).Nodup
  named : ∀ step ∈ steps, (trim step.stepId).isEmpty = false
  proper : ∀ dependency ∈ dependencies, dependency.blockerStepId ≠ dependency.blockedStepId

def ExecutionStep.isActive (step : ExecutionStep) : Bool := step.supersededInRevision.isNone

def ExecutionStepDependency.isActive (dependency : ExecutionStepDependency) : Bool :=
  dependency.supersededInRevision.isNone

namespace AgentExecutionDetail

variable (detail : AgentExecutionDetail)

def activeSteps : List ExecutionStep := detail.steps.filter (·.isActive)

/-- The lookup in the map from ids to active steps. -/
def activeStep (stepId : String) : Option ExecutionStep :=
  detail.activeSteps.find? (·.stepId = stepId)

def activeParticipants : List ExecutionParticipant :=
  detail.participants.filter (·.retiredInRevision.isNone)

/-- The active dependencies, each from the step that blocks to the one that waits. -/
def activeEdges : List (String × String) :=
  (detail.dependencies.filter (·.isActive)).map fun dependency =>
    (dependency.blockerStepId, dependency.blockedStepId)

variable {detail}

theorem distinct_activeSteps : (detail.activeSteps.map (·.stepId)).Nodup :=
  detail.distinctSteps.sublist (List.filter_sublist.map _)

theorem activeStep_eq_some :
    detail.activeStep stepId = some step ↔ step ∈ detail.activeSteps ∧ step.stepId = stepId :=
  find_key_eq_some distinct_activeSteps

end AgentExecutionDetail

/-! ### Failures -/

inductive AppError where
  | notFound (message : String)
  | badRequest (message : String)
  | conflict (message : String)
  | internal (message : String)
  deriving DecidableEq

inductive DbError where
  | conflict (message : String)
  | init (message : String)
  | query
  deriving DecidableEq

/-- A call that does not return: it fails with an error, or it panics. -/
inductive Fault (ε : Type) where
  | error (problem : ε)
  | panic
  deriving DecidableEq

def badRequest {α : Type} (message : String) : Except (Fault AppError) α :=
  .error (.error (.badRequest message))

def dbConflict {α : Type} (message : String) : Except (Fault DbError) α :=
  .error (.error (.conflict message))

end Nomifun.Source.AgentExecution
