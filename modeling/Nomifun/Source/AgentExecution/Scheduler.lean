import Nomifun.Library.MachineInt
import Nomifun.Library.Reachability
import Nomifun.Source.AgentExecution.Execution

/-!
# The scheduler

nomifun-agent-execution, scheduler.rs:1130-1169, 2069-2121 and 3427-3624; nomifun-db,
sqlite_agent_execution.rs:82-86, 373-398, 1054-1075, 1413-1561 and 3468-3533,
sqlite_agent_execution_stop.rs:136-167. The scheduler runs the steps whose blockers are completed,
skips those that wait for a step that will not complete, and resets the steps of a loop for its
next round. The repository changes a step only if its version is the one that the scheduler read.

A hash map is iterated in an order of its own, which is a parameter. The lease of the scheduler,
and the tables of events and of links to conversations, are not part of the detail.
-/
namespace Nomifun.Source.AgentExecution
open Library.Digraph Library.MachineInt Library.Reachability Library.RustText Library.Table

/-! ### Hash collections -/

/-- The order in which a hash map of steps is iterated. -/
structure HashOrder where
  arrange : List ExecutionStep → List ExecutionStep
  perm : ∀ steps, (arrange steps).Perm steps

/-- A hash set of ids, in the order in which it is iterated. -/
structure HashSet where
  ids : List String
  distinct : ids.Nodup

/-! ### Changes of a detail -/

namespace AgentExecutionDetail

/-- An update of steps that leaves their ids alone. -/
def updateSteps (detail : AgentExecutionDetail) (selects : ExecutionStep → Bool)
    (change : ExecutionStep → ExecutionStep) (keeps : ∀ step, (change step).stepId = step.stepId) :
    AgentExecutionDetail where
  execution := detail.execution
  participants := detail.participants
  steps := updateWhere selects change detail.steps
  dependencies := detail.dependencies
  attempts := detail.attempts
  distinctParticipants := detail.distinctParticipants
  distinctSteps := by
    rw [map_updateWhere fun step _ => keeps step]
    exact detail.distinctSteps
  named := by
    intro step member
    obtain ⟨before, listed, rfl⟩ := List.mem_map.mp member
    split
    · rw [keeps before]
      exact detail.named before listed
    · exact detail.named before listed
  proper := detail.proper

def bumpVersion (detail : AgentExecutionDetail) : AgentExecutionDetail :=
  { detail with execution := { detail.execution with version := detail.execution.version + 1 } }

def hasActiveAttempt (detail : AgentExecutionDetail) (stepId : String) : Bool :=
  detail.attempts.any fun attempt => attempt.stepId = stepId && attempt.status.isActive

end AgentExecutionDetail

/-- `conflict` of the repository. -/
def changedConcurrently {α : Type} (entity : String) : Except (Fault DbError) α :=
  dbConflict (entity ++ " changed concurrently, does not belong to the caller, or no longer exists")

/-! ### Ready steps -/

section

variable (status : ExecutionStepStatus) (detail : AgentExecutionDetail) (stepId : String)
  (controllerStepId bodyStepId : String) (now : Int) (step : ExecutionStep)

/-- The active dependencies of a step. -/
def blockersOf : List ExecutionStepDependency :=
  detail.dependencies.filter fun dependency =>
    dependency.isActive && dependency.blockedStepId = step.stepId

def isReady : Bool :=
  step.status = .pending && step.dispatchAfter.all (· ≤ now) &&
    (blockersOf detail step).all fun dependency =>
      (detail.activeStep dependency.blockerStepId).any (·.status = .completed)

def dispatchesBefore (left right : ExecutionStep) : Prop :=
  left.createdAt < right.createdAt ∨ (left.createdAt = right.createdAt ∧ left.stepId ≤ right.stepId)

instance : DecidableRel dispatchesBefore := fun left right =>
  inferInstanceAs (Decidable (left.createdAt < right.createdAt ∨
    (left.createdAt = right.createdAt ∧ left.stepId ≤ right.stepId)))

def readySteps : List ExecutionStep :=
  (detail.activeSteps.filter (isReady detail now)).insertionSort dispatchesBefore

/-! ### Skipping -/

def blocksForever : Bool :=
  step.status = .failed || step.status = .skipped || step.status = .cancelled

def isBlocked : Bool :=
  detail.dependencies.any fun dependency =>
    dependency.isActive && dependency.blockedStepId = step.stepId &&
      (detail.activeStep dependency.blockerStepId).any blocksForever

/-- The columns that a change of status writes. -/
def withStatus : ExecutionStep :=
  { step with
    status := status
    dispatchAfter := if status = .pending then step.dispatchAfter else none
    version := step.version + 1
    updatedAt := now }

def transitionStepStatus (leaseValid : Bool) (now : Int) (detail : AgentExecutionDetail)
    (stepId : String) (expectedExecutionVersion expectedStepVersion : Int)
    (status : ExecutionStepStatus) : Except (Fault DbError) AgentExecutionDetail := do
  if !leaseValid then dbConflict "Agent Execution scheduler lease is no longer valid"
  if detail.execution.version ≠ expectedExecutionVersion then
    changedConcurrently "agent execution"
  let selects (step : ExecutionStep) : Bool := step.stepId = stepId &&
    step.version = expectedStepVersion && step.isActive && !detail.hasActiveAttempt step.stepId
  if rowsAffected selects detail.steps ≠ 1 then changedConcurrently "agent execution step"
  return (detail.updateSteps selects (withStatus status now) fun _ => rfl).bumpVersion

/-- A call of the scheduler: the order of its map, its lease and the time. -/
structure SkipCall where
  order : HashOrder
  leaseValid : Bool
  now : Int

/-- Whether a step was skipped, and the detail afterwards. -/
def skipOneBlockedStep (call : SkipCall) (detail : AgentExecutionDetail) :
    Except (Fault DbError) (Bool × AgentExecutionDetail) :=
  match ((call.order.arrange detail.activeSteps).filter (·.status = .pending)).find?
      (isBlocked detail) with
  | none => .ok (false, detail)
  | some step => do
    let after ← transitionStepStatus call.leaseValid call.now detail step.stepId
      detail.execution.version step.version .skipped
    return (true, after)

/-! ### Selecting Agent steps -/

structure AgentExecutionReservation where
  attemptId : String
  capacityHeld : Bool

/-- The steps that are ready; a step is listed once. -/
structure ReadyList where
  steps : List ExecutionStep
  distinct : (steps.map (·.stepId)).Nodup

/-- What is occupied: the steps seen, their number, and the share of each participant. -/
structure Occupancy where
  stepIds : List String
  activeCount : Nat
  perParticipant : String → Int

section

variable (inFlight : HashSet) (reservations : List AgentExecutionReservation)
  (occupancy : Occupancy) (attempt : ExecutionAttempt)

def Occupancy.hold (participantId : String) : Occupancy :=
  { occupancy with
    activeCount := occupancy.activeCount + 1
    perParticipant := Function.update occupancy.perParticipant participantId
      (occupancy.perParticipant participantId + 1) }

/-- The participant of a current step. -/
def assignedTo : Option String :=
  (detail.activeStep stepId).bind (·.assignedParticipantId)

/-- A missing reservation holds its capacity. -/
def modelHeld : Bool :=
  (reservations.find? (·.attemptId = attempt.attemptId)).all (·.capacityHeld)

def countAttempt : Occupancy :=
  match assignedTo detail attempt.stepId with
  | none => occupancy
  | some participantId =>
    if attempt.stepId ∈ occupancy.stepIds then occupancy
    else
      let seen := { occupancy with stepIds := occupancy.stepIds ++ [attempt.stepId] }
      if modelHeld reservations attempt then seen.hold participantId else seen

/-- A step that was dispatched may not have its attempt in the tables yet. -/
def countInFlight (stepId : String) : Occupancy :=
  if stepId ∈ occupancy.stepIds then occupancy
  else
    match assignedTo detail stepId with
    | none => occupancy
    | some participantId => occupancy.hold participantId

def occupied : Occupancy :=
  inFlight.ids.foldl (countInFlight detail)
    ((detail.attempts.filter (·.status.isActive)).foldl (countAttempt detail reservations)
      ⟨[], 0, fun _ => 0⟩)

end

def concurrencyLimit (participant : ExecutionParticipant) : Int :=
  (participant.constraints.bind (·.maxConcurrency)).getD i64Max

/-- The active participant that a step may be given to. -/
def participantFor : Option ExecutionParticipant :=
  step.assignedParticipantId.bind fun participantId =>
    detail.activeParticipants.find? (·.participantId = participantId)

/-- The loop over the Agent steps that are not in flight. -/
def selectFrom (detail : AgentExecutionDetail) (available : Nat) :
    (String → Int) → List ExecutionStep → List ExecutionStep → List ExecutionStep
  | _, selected, [] => selected
  | counts, selected, step :: rest =>
    match participantFor detail step with
    | none => selectFrom detail available counts selected rest
    | some participant =>
      let count := counts participant.participantId
      if count ≥ concurrencyLimit participant then
        selectFrom detail available counts selected rest
      else if (selected ++ [step]).length = available then selected ++ [step]
      else selectFrom detail available
        (Function.update counts participant.participantId (count + 1)) (selected ++ [step]) rest

def selectAgentStepsWithReservations (ready : ReadyList) (inFlight : HashSet)
    (reservations : List AgentExecutionReservation) : List ExecutionStep :=
  let occupancy := occupied detail inFlight reservations
  let available := detail.execution.maxParallel - occupancy.activeCount
  if available = 0 then []
  else selectFrom detail available occupancy.perParticipant [] (ready.steps.filter fun step =>
    step.kind = .agent && step.stepId ∉ inFlight.ids)

/-! ### The reset of a loop -/

structure RetryAgentExecutionStep where
  stepId : String
  expectedStepVersion : Int

structure LoopRepeatResetParams where
  bodyStepId : String
  expectedSteps : List RetryAgentExecutionStep

def internal {α : Type} (message : String) : Except (Fault AppError) α :=
  .error (.error (.internal message))

/-- The steps downstream of the body, without the controller. -/
def loopClosure : Option (List String) :=
  (reachableFrom (Adjacency.empty.linkAll detail.activeEdges).outgoing
    (detail.activeEdges.length + 1) bodyStepId).map (·.filter (· ≠ controllerStepId))

def expectedStep : Except (Fault AppError) RetryAgentExecutionStep :=
  match detail.activeStep stepId with
  | none => internal ("Loop reset closure references inactive step " ++ stepId)
  | some step => .ok ⟨step.stepId, step.version⟩

def buildLoopRepeatReset : Except (Fault AppError) LoopRepeatResetParams := do
  if (detail.activeStep bodyStepId).isNone then
    internal ("Loop controller " ++ controllerStepId ++ " references missing body " ++ bodyStepId)
  if (bodyStepId, controllerStepId) ∉ detail.activeEdges then
    internal ("Loop body " ++ bodyStepId ++ " is not a dependency of controller " ++
      controllerStepId)
  match loopClosure detail controllerStepId bodyStepId with
  | none => .error .panic
  | some closure =>
    let expectedSteps ← closure.mapM (expectedStep detail)
    return ⟨bodyStepId, expectedSteps.insertionSort (·.stepId ≤ ·.stepId)⟩

/-- The tables that a reset reads and writes: the rows of the execution, and the steps that a user
stopped. -/
structure ExecutionRows where
  detail : AgentExecutionDetail
  stoppedStepIds : List String

/-- The order in which the repository fetches the dependencies. -/
structure FetchOrder where
  arrange : List (String × String) → List (String × String)
  perm : ∀ edges, (arrange edges).Perm edges

/-- The repository's own search for the steps downstream of the body. -/
def resetClosure (fetch : FetchOrder) (detail : AgentExecutionDetail)
    (controllerStepId bodyStepId : String) : Option (List String) :=
  let edges := fetch.arrange detail.activeEdges
  (reachableFrom (Adjacency.empty.linkAll edges).outgoing (edges.length + 1) bodyStepId).map
    (·.filter (· ≠ controllerStepId))

def resettable : Bool :=
  status = .pending || status = .completed || status = .failed || status = .skipped

def resetRow : ExecutionStep :=
  { step with status := .pending, dispatchAfter := none, version := step.version + 1,
              updatedAt := now }

end

def expectedVersion (reset : LoopRepeatResetParams) (stepId : String) : Option Int :=
  (reset.expectedSteps.find? (·.stepId = stepId)).map (·.expectedStepVersion)

/-- One step of the closure. The steps were read before the first of them was changed. -/
def resetStep (read : AgentExecutionDetail) (reset : LoopRepeatResetParams) (now : Int)
    (rows : ExecutionRows) (stepId : String) : Except (Fault DbError) ExecutionRows := do
  if stepId ∈ rows.stoppedStepIds then changedConcurrently "persistently stopped Step"
  match read.activeStep stepId with
  | none => changedConcurrently "loop repeat step"
  | some step =>
    if expectedVersion reset stepId ≠ some step.version then
      changedConcurrently "loop repeat step"
    if !resettable step.status then
      dbConflict ("loop repeat cannot reset " ++ stepId ++ " from " ++ step.status.text)
    if rows.detail.hasActiveAttempt stepId then
      dbConflict ("loop repeat step " ++ stepId ++ " has an active attempt")
    if step.status = .pending && step.dispatchAfter.isNone then return rows
    else
      let selects (row : ExecutionStep) : Bool := row.stepId = stepId &&
        row.version = step.version && row.isActive && resettable row.status
      if rowsAffected selects rows.detail.steps ≠ 1 then changedConcurrently "loop repeat step"
      return { rows with detail := rows.detail.updateSteps selects (resetRow now) fun _ => rfl }

def applyLoopRepeatReset (fetch : FetchOrder) (rows : ExecutionRows) (controllerStepId : String)
    (reset : LoopRepeatResetParams) (now : Int) : Except (Fault DbError) ExecutionRows := do
  if (trim reset.bodyStepId).isEmpty || reset.expectedSteps.isEmpty then
    dbConflict "loop repeat reset requires a body and its descendant closure"
  if (rows.detail.activeStep controllerStepId).map (·.kind) ≠ some .loop then
    dbConflict "only a Loop controller can request an iteration reset"
  if (reset.bodyStepId, controllerStepId) ∉ rows.detail.activeEdges then
    dbConflict "loop repeat body is not the controller's active dependency"
  if (rows.detail.activeStep reset.bodyStepId).isNone then changedConcurrently "loop body step"
  match resetClosure fetch rows.detail controllerStepId reset.bodyStepId with
  | none => .error .panic
  | some closure =>
    let expected := reset.expectedSteps.map (·.stepId)
    if ¬ expected.Nodup ∨ ¬ (expected ⊆ closure ∧ closure ⊆ expected) then
      dbConflict "loop repeat reset must cover the complete active body/downstream closure"
    (closure.insertionSort (· ≤ ·)).foldlM (resetStep rows.detail reset now) rows

/-- A transaction is rolled back when its body fails. -/
def transact (rows : ExecutionRows)
    (body : ExecutionRows → Except (Fault DbError) ExecutionRows) : ExecutionRows :=
  match body rows with
  | .ok after => after
  | .error _ => rows

end Nomifun.Source.AgentExecution
