import Mathlib.Algebra.Order.Ring.Int
import Nomifun.Library.Kahn
import Nomifun.Source.AgentExecution.Execution

/-!
# Plans and their materialization

nomifun-agent-execution, plan_materializer.rs:21-294, participant_router.rs:37-176,
planner.rs:557-580 and engine.rs:4630-4637, 4683-4693, 4919-5010; nomifun-db,
sqlite_agent_execution.rs:1331-1380. A plan names its dependencies by index. `materialize` checks
it, chooses a participant for every Agent step and gives each step an id; the repository checks
the graph of the ids once more. An adjustment keeps some of the active steps and adds new ones.

The ids are drawn at random; `newStepId` is the sequence that is drawn. A score is a multiple of
one half, here counted in halves. The columns that hold a policy or a profile as JSON hold the
value.
-/
namespace Nomifun.Source.AgentExecution
open Library.Digraph Library.Kahn Library.RustText

structure PlannedExecutionStep where
  title : String
  spec : String
  profile : Option ExecutionStepProfile
  kind : ExecutionStepKind
  agentMode : Option AgentStepMode
  dependsOn : List Nat
  participantIndex : Option Nat
  (assignmentRationale role : Option String)
  toolPolicy : AgentToolPolicy
  fanoutGroup : Option String
  controlPolicy : Option StepControlPolicy
  failurePolicy : StepFailurePolicy
  deriving DecidableEq

structure NewAgentExecutionStep where
  (stepId title spec : String)
  role : Option String
  toolPolicy : AgentToolPolicy
  kind : ExecutionStepKind
  agentMode : Option AgentStepMode
  profile : Option ExecutionStepProfile
  fanoutGroup : Option String
  controlPolicy : Option StepControlPolicy
  status : ExecutionStepStatus
  assignedParticipantId : Option String
  assignmentScore : Option Int
  assignmentRationale : Option String
  assignmentSource : Option ParticipantAssignmentSource
  assignmentLocked : Bool
  failurePolicy : StepFailurePolicy

structure NewAgentExecutionStepDependency where
  blockerStepId : String
  blockedStepId : String

structure MaterializedPlan where
  steps : List NewAgentExecutionStep
  dependencies : List NewAgentExecutionStepDependency

/-! ### Routing -/

structure ScoredCandidate where
  participantIndex : Nat
  score : Int
  rationale : String

def baselineProfile : ParticipantCapability where
  strengths := []
  modalities := []
  tools := false
  webSearch := false
  reasoning := "medium"
  costTier := "standard"
  speedTier := "standard"

/-- The factors that count for a participant, with the halves each adds to its score. -/
def scoreFactors (capability : ParticipantCapability) (profile : ExecutionStepProfile) :
    List (Int × String) :=
  (if !profile.kind.isEmpty && capability.strengths.contains profile.kind then
    [(4, "强项匹配[" ++ profile.kind ++ "]")] else []) ++
  (if profile.needsHighReasoning then
    if capability.reasoning = "high" then [(4, "高推理")]
    else if capability.reasoning = "low" then [(-2, "低推理(扣分)")] else []
  else []) ++
  (if profile.bulk && capability.costTier = "economy" then [(2, "经济档(批量)")]
  else if !profile.bulk && capability.costTier = "premium" then [(1, "高质档")] else []) ++
  (if profile.needsVision && capability.modalities.contains "vision" then [(1, "视觉就绪")]
  else [])

def scoreParticipant (member : ExecutionParticipant) (profile : ExecutionStepProfile) :
    Option (Int × String) :=
  let capability := member.capability.getD baselineProfile
  if (member.constraints.bind (·.allowedProfileKinds)).any (!·.contains profile.kind) then none
  else if profile.needsVision && !capability.modalities.contains "vision" then none
  else if profile.kind = "tool" && !capability.tools then none
  else if profile.needsWebSearch && !capability.webSearch then none
  else
    let factors := scoreFactors capability profile
    let rationale := if factors.isEmpty then "基础能力可用"
      else "; ".intercalate (factors.map (·.2))
    some ((factors.map (·.1)).sum, rationale)

def rankParticipants (members : List ExecutionParticipant) (profile : ExecutionStepProfile) :
    List ScoredCandidate :=
  (members.zipIdx.filterMap fun entry => (scoreParticipant entry.1 profile).map fun scored =>
    ⟨entry.2, scored.1, scored.2⟩).insertionSort fun a b =>
      b.score < a.score ∨ (a.score = b.score ∧ a.participantIndex ≤ b.participantIndex)

structure Assignment where
  participantId : Option String
  source : Option ParticipantAssignmentSource
  score : Option Int
  rationale : Option String

def noAssignment : Assignment := ⟨none, none, none, none⟩

variable (newStepId : Nat → String) (step : PlannedExecutionStep)
  (participants : List ExecutionParticipant)

def routeByIndex (index : Nat) : Except (Fault AppError) Assignment :=
  match participants[index]? with
  | none => badRequest ("step '" ++ step.title ++ "' references participant index " ++
      toString index ++ " outside the active snapshot")
  | some participant =>
    if !step.profile.all fun profile => (scoreParticipant participant profile).isSome then
      badRequest ("step '" ++ step.title ++
        "' selects a participant that does not satisfy its profile")
    else .ok ⟨some participant.participantId, some .planner, none, step.assignmentRationale⟩

def routeByProfile (profile : ExecutionStepProfile) : Except (Fault AppError) Assignment :=
  match rankParticipants participants profile with
  | [] => badRequest ("no participant satisfies the profile for step '" ++ step.title ++ "'")
  | candidate :: _ =>
    match participants[candidate.participantIndex]? with
    | none => .error .panic
    | some participant => .ok ⟨some participant.participantId, some .automatic,
        some candidate.score, some candidate.rationale⟩

def route : Except (Fault AppError) Assignment :=
  match step.participantIndex, step.profile, participants with
  | some index, _, _ => routeByIndex step participants index
  | none, some profile, _ => routeByProfile step participants profile
  | none, none, [] => badRequest "no participant can execute this step"
  | none, none, participant :: _ =>
    .ok ⟨some participant.participantId, some .automatic, none, some "default active participant"⟩

/-! ### The checks of a plan -/

def maxJudgeCandidates : Nat := 1024

/-- The kind, the mode and the policy of a step go together, and a control step has the
dependencies that its policy needs. -/
def policyMatches : Bool :=
  match step.kind, step.agentMode, step.controlPolicy with
  | .agent, _, none => true
  | .verify, none, some (.verify vote) => !step.dependsOn.isEmpty &&
      match vote with
      | .atLeast count => 0 < count && count ≤ step.dependsOn.length
      | .majority | .unanimous => true
  | .judge, none, some (.judge _ candidateCount) => !step.dependsOn.isEmpty &&
      candidateCount.all fun count => 1 ≤ count && count ≤ maxJudgeCandidates
  | .loop, none, some (.loop maxIterations stop) => step.dependsOn.length = 1 &&
      0 < maxIterations &&
      match stop with
      | .predicate doneMarker => !(trim doneMarker).isEmpty
      | .stable quietRounds => 0 < quietRounds
      | .maxIterations | .approved => true
  | _, _, _ => false

def validateStep : Except (Fault AppError) Unit := do
  if (trim step.title).isEmpty then badRequest "step title must not be empty"
  if (trim step.spec).isEmpty then
    badRequest ("step '" ++ step.title ++ "' spec must not be empty")
  if step.role.any fun role => (trim role).isEmpty then
    badRequest ("step '" ++ step.title ++ "' role must not be blank when present")
  if step.fanoutGroup.any fun group => (trim group).isEmpty then
    badRequest ("step '" ++ step.title ++ "' fanout_group must not be empty when present")
  if !policyMatches step then
    badRequest ("step '" ++ step.title ++ "' has a kind/mode/control-policy mismatch")
  if step.kind ≠ .agent && (step.participantIndex.isSome || step.fanoutGroup.isSome ||
      step.profile.isSome || step.assignmentRationale.isSome || step.toolPolicy ≠ .full) then
    badRequest ("control step '" ++ step.title ++ "' cannot declare Agent routing fields")

/-- One dependency of the step `blocked` of a plan with `count` steps. The state holds the
dependencies of the step seen so far, and the tables. -/
def linkDependency (count blocked : Nat) (state : List Nat × Adjacency Nat) (blocker : Nat) :
    Except (Fault AppError) (List Nat × Adjacency Nat) :=
  if blocker ≥ count || blocker = blocked then
    badRequest ("step " ++ toString blocked ++ " has an invalid dependency index " ++
      toString blocker)
  else if blocker ∈ state.1 then
    badRequest ("step " ++ toString blocked ++ " repeats dependency index " ++ toString blocker)
  else .ok (state.1 ++ [blocker], state.2.link blocker blocked)

def linkStep (count : Nat) (tables : Adjacency Nat) (entry : PlannedExecutionStep × Nat) :
    Except (Fault AppError) (Adjacency Nat) := do
  let state ← entry.1.dependsOn.foldlM (linkDependency count entry.2) ([], tables)
  return state.2

def validateDag (steps : List PlannedExecutionStep) : Except (Fault AppError) Unit := do
  let tables ← steps.zipIdx.foldlM (linkStep steps.length) Adjacency.empty
  match countReleased (List.range steps.length) tables with
  | none => .error .panic
  | some visited =>
    if visited ≠ steps.length then badRequest "execution plan contains a cycle" else return ()

/-- The repository's check. The ids are a hash set, here the list in which it is iterated. The
state holds the edges seen so far, and the tables. -/
def linkEdge (stepIds : List String) (state : List (String × String) × Adjacency String)
    (dependency : NewAgentExecutionStepDependency) :
    Except (Fault DbError) (List (String × String) × Adjacency String) :=
  let blocker := dependency.blockerStepId
  let blocked := dependency.blockedStepId
  if blocker = blocked || blocker ∉ stepIds || blocked ∉ stepIds then
    dbConflict "execution plan contains a dangling or self dependency"
  else if (blocker, blocked) ∈ state.1 then
    dbConflict "execution plan contains a duplicate dependency"
  else .ok (state.1 ++ [(blocker, blocked)], state.2.link blocker blocked)

def validateDependencyGraph (stepIds : List String)
    (dependencies : List NewAgentExecutionStepDependency) : Except (Fault DbError) Unit := do
  let state ← dependencies.foldlM (linkEdge stepIds) ([], Adjacency.empty)
  match countReleased stepIds state.2 with
  | none => .error .panic
  | some visited =>
    if visited ≠ stepIds.length then
      dbConflict "execution plan dependency graph contains a cycle"
    else return ()

/-! ### Materialization -/

/-- The dependencies of one step under the ids of the plan. The indices were checked before. -/
def stepDependencies (entry : PlannedExecutionStep × Nat) : List NewAgentExecutionStepDependency :=
  entry.1.dependsOn.map fun blocker => ⟨newStepId blocker, newStepId entry.2⟩

def newStep (stepId : String) (planned : PlannedExecutionStep) (assignment : Assignment) :
    NewAgentExecutionStep where
  stepId := stepId
  title := trim planned.title
  spec := trim planned.spec
  role := planned.role.map trim
  toolPolicy := planned.toolPolicy
  kind := planned.kind
  agentMode := if planned.kind = .agent then some (planned.agentMode.getD .normal) else none
  profile := planned.profile
  fanoutGroup := planned.fanoutGroup.map trim
  controlPolicy := planned.controlPolicy
  status := .pending
  assignedParticipantId := assignment.participantId
  assignmentScore := assignment.score
  assignmentRationale := assignment.rationale
  assignmentSource := assignment.source
  assignmentLocked := false
  failurePolicy := planned.failurePolicy

def assign : Except (Fault AppError) Assignment :=
  if step.kind = .agent then route step participants else .ok noAssignment

def materializeStep (plan : MaterializedPlan) (entry : PlannedExecutionStep × Nat) :
    Except (Fault AppError) MaterializedPlan := do
  validateStep entry.1
  let assignment ← assign entry.1 participants
  return ⟨plan.steps ++ [newStep (newStepId entry.2) entry.1 assignment],
    plan.dependencies ++ stepDependencies newStepId entry⟩

def materialize (plan : List PlannedExecutionStep) (participants : List ExecutionParticipant)
    : Except (Fault AppError) MaterializedPlan := do
  if plan.isEmpty then badRequest "execution plan must contain a step"
  if plan.length > maxAgentExecutionSteps then
    badRequest ("execution plan exceeds " ++ toString maxAgentExecutionSteps ++ " steps")
  validateDag plan
  let active := participants.filter (·.retiredInRevision.isNone)
  if active.isEmpty && plan.any (·.kind = .agent) then
    badRequest "an Agent step requires an active execution participant"
  plan.zipIdx.foldlM (materializeStep newStepId active) ⟨[], []⟩

/-! ### Adjustment -/

inductive AdjustedDependency where
  | existing (stepId : String)
  | new (index : Nat)
  deriving DecidableEq

inductive AdjustedExecutionNode where
  | keep (stepId : String)
  | new (step : PlannedExecutionStep) (dependencies : List AdjustedDependency)
  deriving DecidableEq

def newIndices (dependencies : List AdjustedDependency) : List Nat :=
  dependencies.filterMap fun dependency =>
    match dependency with
    | .new index => some index
    | .existing _ => none

def existingIds (dependencies : List AdjustedDependency) : List String :=
  dependencies.filterMap fun dependency =>
    match dependency with
    | .existing stepId => some stepId
    | .new _ => none

/-- What an adjusted plan asks for: the steps to keep, and the new steps with what they declare. -/
structure Adjustment where
  keep : List String
  newSteps : List PlannedExecutionStep
  declared : List (List AdjustedDependency)

def readNode (activeIds : List String) (adjustment : Adjustment) (node : AdjustedExecutionNode) :
    Except (Fault AppError) Adjustment :=
  match node with
  | .keep stepId =>
    if stepId ∉ activeIds || stepId ∈ adjustment.keep then
      badRequest ("adjustment keeps an unknown or duplicate step " ++ stepId)
    else .ok { adjustment with keep := adjustment.keep ++ [stepId] }
  | .new step dependencies =>
    if !step.dependsOn.isEmpty then
      badRequest "adjusted new steps must declare dependencies in the outer dependency list"
    else .ok { adjustment with
      newSteps := adjustment.newSteps ++ [{ step with dependsOn := newIndices dependencies }]
      declared := adjustment.declared ++ [dependencies] }

def activeDependencies (detail : AgentExecutionDetail) : List NewAgentExecutionStepDependency :=
  (detail.dependencies.filter (·.isActive)).map fun dependency =>
    ⟨dependency.blockerStepId, dependency.blockedStepId⟩

/-- The edges from kept steps to one new step. -/
def declareExisting (keep : List String) (blocked : NewAgentExecutionStep)
    (dependencies : List NewAgentExecutionStepDependency) (dependency : AdjustedDependency) :
    Except (Fault AppError) (List NewAgentExecutionStepDependency) :=
  match dependency with
  | .new _ => .ok dependencies
  | .existing stepId =>
    if stepId ∉ keep then
      badRequest ("new step depends on an existing step that was not kept: " ++ stepId)
    else .ok (dependencies ++ [⟨stepId, blocked.stepId⟩])

def declareNew (keep : List String) (steps : List NewAgentExecutionStep)
    (dependencies : List NewAgentExecutionStepDependency)
    (entry : List AdjustedDependency × Nat) :
    Except (Fault AppError) (List NewAgentExecutionStepDependency) :=
  match steps[entry.2]? with
  | none => .error (.error (.internal "adjustment index drift"))
  | some blocked => entry.1.foldlM (declareExisting keep blocked) dependencies

def materializeNew (newSteps : List PlannedExecutionStep)
    (participants : List ExecutionParticipant) : Except (Fault AppError) MaterializedPlan :=
  if newSteps.isEmpty then .ok ⟨[], []⟩ else materialize newStepId newSteps participants

def materializeAdjustment (adjusted : List AdjustedExecutionNode) (detail : AgentExecutionDetail)
    : Except (Fault AppError)
      (List String × MaterializedPlan × List NewAgentExecutionStepDependency) := do
  let activeIds := detail.activeSteps.map (·.stepId)
  let adjustment ← adjusted.foldlM (readNode activeIds) ⟨[], [], []⟩
  if adjustment.keep.isEmpty && adjustment.newSteps.isEmpty then
    badRequest "adjustment cannot remove every step"
  let materialized ← materializeNew newStepId adjustment.newSteps detail.activeParticipants
  let kept := (activeDependencies detail).filter fun dependency =>
    dependency.blockerStepId ∈ adjustment.keep && dependency.blockedStepId ∈ adjustment.keep
  let dependencies ← adjustment.declared.zipIdx.foldlM
    (declareNew adjustment.keep materialized.steps) (kept ++ materialized.dependencies)
  return (adjustment.keep, materialized, dependencies)

end Nomifun.Source.AgentExecution
