import Nomifun.Library.ByteOffsets
import Nomifun.Library.Serde
import Nomifun.Source.AgentExecution.Execution

/-!
# What the scheduler reads of outputs

nomifun-agent-execution, control_steps.rs:17-39, 64-70, 123-135 and 266-366, and
scheduler.rs:3741-3846. A loop controller reads the output of its body and its own state of the
round before; the summary of an execution is the output of a step that depends on all the work, or
the list of all outputs. The hasher and the JSON reader are parameters.
-/
namespace Nomifun.Source.AgentExecution
open Library.ByteOffsets Library.Json Library.MachineInt Library.RustText Library.Serde

structure ReportedStep extends ExecutionStep where
  title : String
  agentMode : Option AgentStepMode

structure ReportedAttempt extends ExecutionAttempt where
  attemptNo : Int
  outputSummary : Option String
  runtimeState : Option Value

/-- `max_by_key` takes the last of several. -/
def latestAttempt (attempts : List ReportedAttempt) (stepId : String) : Option ReportedAttempt :=
  (attempts.filter (·.stepId = stepId)).foldl (fun latest attempt =>
    if latest.all (·.attemptNo ≤ attempt.attemptNo) then some attempt else latest) none

def latestOutput (attempts : List ReportedAttempt) (stepId : String) : Option String :=
  (latestAttempt attempts stepId).bind (·.outputSummary)

/-! ### Objects in a text -/

/-- The loop over the bytes. The depth is an `i32`, which wraps around. -/
def closingBrace (index : Nat) (depth : BitVec 32) (inString escaped : Bool) :
    List UInt8 → Option Nat
  | [] => none
  | current :: rest =>
    if inString then
      if escaped then closingBrace (index + 1) depth true false rest
      else if current = 92 then closingBrace (index + 1) depth true true rest
      else if current = 34 then closingBrace (index + 1) depth false escaped rest
      else closingBrace (index + 1) depth true escaped rest
    else if current = 34 then closingBrace (index + 1) depth true escaped rest
    else if current = 123 then closingBrace (index + 1) (depth + 1) inString escaped rest
    else if current = 125 then
      if depth - 1 = 0 then some index
      else closingBrace (index + 1) (depth - 1) inString escaped rest
    else closingBrace (index + 1) depth inString escaped rest

def firstJsonObject (raw : List Char) : Option (List Char) :=
  match raw.dropWhile (· ≠ '\x7b') with
  | [] => none
  | start => (closingBrace 0 0 false false (start.flatMap String.utf8EncodeChar)).map fun index =>
      takeBytes (index + 1) start

/-! ### Loops -/

structure ControlHost where
  fromStr : String → Option Value
  hash : String → UInt64

structure LoopRuntimeState where
  iteration : Nat
  outputHashes : List Nat

def loopRuntimeStateSpec : StructSpec where
  fields := [(unsigned u64Max).field "iteration",
    (list (unsigned u64Max)).defaultedField "output_hashes"]
  denyUnknown := false

def loopRuntimeState : Codec LoopRuntimeState where
  encode state := .object [
    ("iteration", (unsigned u64Max).encode state.iteration),
    ("output_hashes", (list (unsigned u64Max)).encode state.outputHashes)]
  decode v := do
    let entries ← structEntries loopRuntimeStateSpec v
    return {
      iteration := ← required entries "iteration" (unsigned u64Max)
      outputHashes := ← requiredOr entries "output_hashes" (list (unsigned u64Max)) [] }

inductive ControlResolution where
  | complete (summary : String) (runtimeState : Option Value)
  | fail (summary error : String) (runtimeState : Option Value)
  | repeats (bodyStepId : String) (runtimeState : Value)

section

variable (host : ControlHost) (output : String)

def outputHash : Nat := (host.hash (trim output)).toNat

/-- A flag of the first object in the text. -/
def objectFlag (name : String) : Option Bool :=
  (((firstJsonObject output.toList).bind fun object => host.fromStr (String.ofList object)).bind
    (·.member name)).bind Value.asBool

/-- The word behind the last separator, if there is no object that tells. -/
def parsePass : Option Bool :=
  (objectFlag host output "pass").or
    (match String.ofList ((toAsciiLowercase (trim output)).toList.reverse.takeWhile fun c =>
        !(isWhitespace c || c = ':' || c = '：')).reverse with
    | "pass" => some true
    | "fail" => some false
    | _ => none)

def stopNow (maxIterations : Nat) (stop : LoopStopPolicy) (state : LoopRuntimeState) : Bool :=
  state.iteration ≥ max maxIterations 1 ||
    match stop with
    | .maxIterations => false
    | .predicate doneMarker =>
      contains doneMarker output || objectFlag host output "done" = some true
    | .stable quietRounds =>
      state.outputHashes.length > max quietRounds 1 &&
        (state.outputHashes.drop (state.outputHashes.length - max quietRounds 1 - 1)).IsChain
          (· = ·)
    | .approved => parsePass host output = some true

def advanced (state : LoopRuntimeState) : LoopRuntimeState :=
  ⟨saturatingAdd u64Max state.iteration 1, state.outputHashes ++ [outputHash host output]⟩

end

/-- The state that the newest attempt of the controller carries. -/
def storedState (attempts : List ReportedAttempt) (controller : ReportedStep) : Option Value :=
  (latestAttempt attempts controller.stepId).bind (·.runtimeState)

def evaluateLoop (host : ControlHost) (maxIterations : Nat) (stop : LoopStopPolicy)
    (dependencies : List ReportedStep) (attempts : List ReportedAttempt)
    (controller : ReportedStep) : ControlResolution :=
  match dependencies with
  | [body] =>
    let output := (latestOutput attempts body.stepId).getD ""
    let read := (storedState attempts controller).bind fun value =>
      (loopRuntimeState.decode value).toOption
    let state := advanced host output (read.getD ⟨0, []⟩)
    if stopNow host output maxIterations stop state then
      .complete ("循环在第 " ++ toString state.iteration ++ " 轮结束。\n\n" ++ trim output)
        (some (loopRuntimeState.encode state))
    else .repeats body.stepId (loopRuntimeState.encode state)
  | _ => .fail "循环控制器必须且只能有一个主体步骤" "loop requires exactly one body dependency" none

/-! ### The summary of an execution -/

structure ReportedExecution where
  steps : List ReportedStep
  dependencies : List ExecutionStepDependency
  attempts : List ReportedAttempt

variable (detail : ReportedExecution)

def currentSteps : List ReportedStep := detail.steps.filter (·.supersededInRevision.isNone)

def businessSteps : List ReportedStep :=
  (currentSteps detail).filter fun step =>
    step.kind = .agent && step.agentMode ≠ some .synthesis

def reportedEdges : List (String × String) :=
  (detail.dependencies.filter (·.supersededInRevision.isNone)).map fun dependency =>
    (dependency.blockerStepId, dependency.blockedStepId)

/-- One edge of the inner loop. The end of the frontier is the head of its list. -/
def absorb (blocked : String) (state : List String × List String) (edge : String × String) :
    List String × List String :=
  if edge.2 = blocked && edge.1 ∉ state.1 then (edge.1 :: state.1, edge.1 :: state.2) else state

/-- The ancestors and the frontier. There is no result when the fuel does not suffice. -/
def climb (edges : List (String × String)) : Nat → List String × List String → Option (List String)
  | _, (ancestors, []) => some ancestors
  | 0, (_, _ :: _) => none
  | fuel + 1, (ancestors, blocked :: frontier) =>
    climb edges fuel (edges.foldl (absorb blocked) (ancestors, frontier))

def dependencyAncestorsCover (sinkId : String) (requiredIds : List String)
    (edges : List (String × String)) : Option Bool := do
  let ancestors ← climb edges (edges.length + 1) ([], [sinkId])
  return requiredIds.all (· ∈ ancestors)

def aggregateSummary : String :=
  "\n".intercalate ((currentSteps detail).map fun step =>
    step.title ++ " | " ++ step.status.text ++ " | " ++ String.ofList
      (((latestOutput detail.attempts step.stepId).getD "-").toList.take 800))

def trimmedOutput (step : ReportedStep) : Option String :=
  ((latestOutput detail.attempts step.stepId).map trim).filter (!·.isEmpty)

/-- A completed synthesis that depends on all the work. -/
def ownsSummary (step : ReportedStep) : Option Bool :=
  if step.status = .completed && step.agentMode = some .synthesis then
    dependencyAncestorsCover step.stepId ((businessSteps detail).map (·.stepId))
      (reportedEdges detail)
  else some false

def terminalSummary : Option String := do
  match (← (currentSteps detail).reverse.findM? (ownsSummary detail)).bind
      (trimmedOutput detail) with
  | some summary => return summary
  | none =>
    match businessSteps detail with
    | [step] => return (trimmedOutput detail step).getD (aggregateSummary detail)
    | _ => return aggregateSummary detail

end Nomifun.Source.AgentExecution
