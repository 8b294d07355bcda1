import Nomifun.Source.AgentRuntime.Plan

/-!
# The observation ledger of a turn's work

nomifun-agent-runtime, workflow.rs:8-57, 96-157 and 172-329, execution_policy.rs:40-53 and
136-168. The ledger counts what was observed and fences it: any effect on the workspace
opens a new epoch, and a command counts as current only while no later effect has.
-/
namespace Nomifun.Source.AgentRuntime
open Library Library.MachineInt Library.Json Source.AgentContracts

inductive AgentEffectClass where
  | readOnly | managedEffect | externalUncertainEffect
  deriving DecidableEq

structure AgentCommandObservation where
  processId : String
  launchCallId : Option String
  observationCallId : String
  state : String
  exitCode : Option Int
  cleanupProven : Bool
  (launchWorkspaceEpoch provenanceWorkspaceEpoch : Option Nat)
  interactionCallIds : List String
  omittedInteractions : Nat
  observedWorkspaceEpoch : Nat
  wasCurrentAtObservation : Bool
  deriving DecidableEq

structure CommandProvenance where
  (launchEpoch currentEpoch : Option Nat)
  launchCallId : String
  interactionCallIds : List String
  omittedInteractions : Nat

/-- `CommandTracker`: the launches of this turn by process. -/
abbrev CommandTracker := StringMap CommandProvenance

def CommandProvenance.interaction (c : CommandProvenance) (callId : String) (before after : Nat)
    (attributable : Bool) : CommandProvenance :=
  let (ids, omitted) := if c.interactionCallIds.length < 8
    then (c.interactionCallIds ++ [callId], c.omittedInteractions)
    else (c.interactionCallIds, saturatingAdd u32Max c.omittedInteractions 1)
  { c with
    interactionCallIds := ids
    omittedInteractions := omitted
    currentEpoch :=
      if attributable && c.currentEpoch = some before && omitted = 0 then some after else none }

structure AgentWorkStatus where
  observedProcesses : StringSet
  runningProcesses : StringSet
  (successfulWorkspaceMutations successfulCommands failedCommands failedTools : Nat)
  commandObservedAfterLatestMutation : Bool
  workspaceObservationEpoch : Nat
  recentCommands : List AgentCommandObservation
  omittedCommandObservations : Nat
  deriving DecidableEq

def AgentWorkStatus.empty : AgentWorkStatus := ⟨∅, ∅, 0, 0, 0, 0, false, 0, [], 0⟩

/-! ### Serialized form -/

def stringSetValue (s : StringSet) : Value := .array ((s.sort (· ≤ ·)).map .string)

def AgentCommandObservation.toValue (c : AgentCommandObservation) : Value :=
  .object [("process_id", .string c.processId), ("launch_call_id", .option .string c.launchCallId),
    ("observation_call_id", .string c.observationCallId), ("state", .string c.state),
    ("exit_code", .option .int c.exitCode), ("cleanup_proven", .bool c.cleanupProven),
    ("launch_workspace_epoch", .option .nat c.launchWorkspaceEpoch),
    ("provenance_workspace_epoch", .option .nat c.provenanceWorkspaceEpoch),
    ("interaction_call_ids", .array (c.interactionCallIds.map .string)),
    ("omitted_interactions", .nat c.omittedInteractions),
    ("observed_workspace_epoch", .nat c.observedWorkspaceEpoch),
    ("was_current_at_observation", .bool c.wasCurrentAtObservation)]

def AgentWorkStatus.toValue (w : AgentWorkStatus) : Value :=
  .object [("observed_processes", stringSetValue w.observedProcesses),
    ("running_processes", stringSetValue w.runningProcesses),
    ("successful_workspace_mutations", .nat w.successfulWorkspaceMutations),
    ("successful_commands", .nat w.successfulCommands), ("failed_commands", .nat w.failedCommands),
    ("failed_tools", .nat w.failedTools),
    ("command_observed_after_latest_mutation", .bool w.commandObservedAfterLatestMutation),
    ("workspace_observation_epoch", .nat w.workspaceObservationEpoch),
    ("recent_commands", .array (w.recentCommands.map AgentCommandObservation.toValue)),
    ("omitted_command_observations", .nat w.omittedCommandObservations)]

/-! ### Execution policy -/

def affectsWorkspaceContract (capabilityId : CapabilityId) (effect : AgentEffectClass) : Bool :=
  match capabilityId with
  | "workspace.process" => true
  | "workspace.files" | "workspace.vcs" | "workspace.artifacts" => effect != .readOnly
  | _ => false

section

variable (platform : Platform)

/-- The owner refused the operation before it had any effect. -/
def workspaceProcessOperationNotApplied (action : ActionId) (result : AgentToolResult) : Bool :=
  let refused (operation : String) := (result.json platform).any fun value =>
    value.get "schema" == .string "nomifun.process-control-observation.v1" &&
      value.get "state" == .string "not_executed" &&
      value.get "code" == .string "PROCESS_REFERENCE_INVALID" &&
      value.get "operation" == .string operation && value.get "control_applied" == .bool false &&
      value.get "success" == .bool false && (value.member "process_id").isNone
  match action with
  | "workspace.process/start" => (result.json platform).any fun value =>
      value.get "schema" == .string "nomifun.process-start-observation.v1" &&
        value.get "state" == .string "not_started" &&
        value.get "user_code_started" == .bool false && value.get "success" == .bool false &&
        (value.member "process_id").isNone
  | "workspace.process/poll" => refused "poll"
  | "workspace.process/input" => refused "stdin"
  | "workspace.process/close_stdin" => refused "close_stdin"
  | "workspace.process/resize" => refused "resize"
  | "workspace.process/cancel" => refused "cancel"
  | _ => false

def boundedProcessId (value : Value) : Option String :=
  (value.get "process_id").asStr.filter fun id => !id.isEmpty && id.utf8ByteSize ≤ 128

/-- The control came after the process had ended. -/
def processControlRejectedTerminalAction (action : ActionId) (result : AgentToolResult) : Bool :=
  let ended (operation : String) := (result.json platform).any fun value =>
    value.get "schema" == .string "nomifun.process-control-observation.v1" &&
      value.get "code" == .string "PROCESS_ALREADY_TERMINATED" &&
      value.get "operation" == .string operation && value.get "control_applied" == .bool false &&
      value.get "success" == .bool false &&
      (value.get "state").asStr.any (· ∈ ["exited", "cancelled", "timed_out", "lost"]) &&
      (boundedProcessId value).isSome && (value.get "cleanup").get "reaped" == .bool true
  match action with
  | "workspace.process/input" => ended "stdin"
  | "workspace.process/close_stdin" => ended "close_stdin"
  | "workspace.process/resize" => ended "resize"
  | _ => false

end

/-! ### Observations -/

/-- `as_i64` within the range of `i32`. -/
def asI32 : Value → Option Int
  | .number (.posInt n) => if n < 2 ^ 31 then some n else none
  | .number (.negInt n) => if n < 2 ^ 31 then some (-(n : Int) - 1) else none
  | _ => none

namespace AgentWorkStatus

variable (platform : Platform)

variable (w : AgentWorkStatus) (tracker : CommandTracker)

def invalidateWorkspaceObservation : AgentWorkStatus :=
  { w with
    workspaceObservationEpoch := saturatingAdd u32Max w.workspaceObservationEpoch 1
    commandObservedAfterLatestMutation := false }

def observeChildWorkspaceChange : AgentWorkStatus :=
  w.invalidateWorkspaceObservation

def observeDeferred : AgentWorkStatus :=
  { w with failedTools := saturatingAdd u32Max w.failedTools 1 }

def observeOwnedProcess (observation : AgentOwnedProcessObservation) :
    EngineResult AgentWorkStatus := do
  observation.validate platform
  let id := observation.processId
  if id ∉ w.runningProcesses then
    invalidContract "wait observation targets a process outside this turn's live owner set"
  if !observation.reaped then return w
  let w := { w with runningProcesses := w.runningProcesses.erase id }
  if id ∈ w.observedProcesses then return w
  let w := { w with observedProcesses := insert id w.observedProcesses }
  match observation.poll with
  | .exited (some 0) _ _ _ =>
    return { w with successfulCommands := saturatingAdd u32Max w.successfulCommands 1 }
  | _ => return { w with failedCommands := saturatingAdd u32Max w.failedCommands 1 }

/-- A process joins the running ones while there is room. -/
def running (id : String) : AgentWorkStatus :=
  if w.runningProcesses.card < 64 then
    { w with runningProcesses := insert id w.runningProcesses }
  else w

/-- A process has ended: it is counted and recorded once. -/
def observeTerminal (operation : String) (call : ChatToolCall) (result : AgentToolResult)
    (value : Value) (id state : String) : AgentWorkStatus :=
  let cleanupProven := (value.get "cleanup").get "reaped" == .bool true
  let w := if cleanupProven then { w with runningProcesses := w.runningProcesses.erase id }
    else w.running id
  let alreadyCounted := decide (id ∈ w.observedProcesses)
  if alreadyCounted && w.recentCommands.any (·.processId = id) ||
      !alreadyCounted && w.observedProcesses.card ≥ 64 then w
  else
    let exitCode := asI32 (value.get "exit_code")
    let started := tracker[id]?
    let current := state == "exited" && exitCode.isSome && cleanupProven &&
      w.runningProcesses = ∅ && started.any fun provenance =>
        provenance.currentEpoch == some w.workspaceObservationEpoch &&
          provenance.omittedInteractions == 0
    let succeeded := !alreadyCounted && state == "exited" && exitCode == some 0 && cleanupProven &&
      !result.isError
    let settled := (operation == "cancel" || operation == "poll") && state == "cancelled" &&
      cleanupProven && !result.isError
    let recorded : AgentCommandObservation := {
      processId := id
      launchCallId := started.map (·.launchCallId)
      observationCallId := call.callId
      state := state
      exitCode := exitCode
      cleanupProven := cleanupProven
      launchWorkspaceEpoch := started.bind (·.launchEpoch)
      provenanceWorkspaceEpoch := started.bind (·.currentEpoch)
      interactionCallIds := (started.map (·.interactionCallIds)).getD []
      omittedInteractions := (started.map (·.omittedInteractions)).getD 0
      observedWorkspaceEpoch := w.workspaceObservationEpoch
      wasCurrentAtObservation := current }
    let full := w.recentCommands.length ≥ 16
    { w with
      observedProcesses := insert id w.observedProcesses
      successfulCommands := if succeeded then saturatingAdd u32Max w.successfulCommands 1
        else w.successfulCommands
      failedCommands := if !succeeded && !alreadyCounted && !settled
        then saturatingAdd u32Max w.failedCommands 1 else w.failedCommands
      commandObservedAfterLatestMutation := w.commandObservedAfterLatestMutation || current
      recentCommands := (if full then w.recentCommands.drop 1 else w.recentCommands) ++ [recorded]
      omittedCommandObservations := if full
        then saturatingAdd u32Max w.omittedCommandObservations 1
        else w.omittedCommandObservations }

/-- The provenance of the launch or interaction a process result reports. -/
def tracked (launch interaction : Bool) (previousEpoch : Nat) (call : ChatToolCall)
    (result : AgentToolResult) (id : String) : CommandTracker :=
  let epoch := if !result.isError && w.runningProcesses = ∅ then some w.workspaceObservationEpoch
    else none
  let tracker := if launch && tracker.size < 64 && id ∉ tracker
    then tracker.insert id ⟨epoch, epoch, call.callId, [], 0⟩ else tracker
  let attributable := !result.isError && w.runningProcesses.card = 1 && id ∈ w.runningProcesses &&
    (call.arguments.get "process_id").asStr = some id
  match tracker[id]? with
  | some provenance =>
    if interaction then tracker.insert id
      (provenance.interaction call.callId previousEpoch w.workspaceObservationEpoch attributable)
    else tracker
  | none => tracker

/-- The process branch of `observe_contract`. -/
def observeProcess (actionId : ActionId) (call : ChatToolCall) (result : AgentToolResult)
    (tracker : CommandTracker) : AgentWorkStatus × CommandTracker :=
  let operation := (RustText.stripStart "workspace.process/" actionId).getD ""
  let launch := operation == "exec" || operation == "start"
  let rejectedTerminal := processControlRejectedTerminalAction platform actionId result
  let workspaceInteraction := !rejectedTerminal &&
    (operation == "input" || operation == "close_stdin" || operation == "resize")
  let interaction := workspaceInteraction || operation == "poll" || rejectedTerminal
  let previousEpoch := w.workspaceObservationEpoch
  let w := if launch || workspaceInteraction then w.invalidateWorkspaceObservation else w
  match (result.json platform).bind fun value => (boundedProcessId value).map (value, ·) with
  | none => (w, tracker)
  | some (value, id) =>
    let tracker := w.tracked tracker launch interaction previousEpoch call result id
    let state := ((value.get "state").asStr).getD ""
    if state = "running" then (w.running id, tracker)
    else if state ∉ ["exited", "cancelled", "timed_out", "lost"] then (w, tracker)
    else (w.observeTerminal tracker operation call result value id state, tracker)

/-- What an attempted invocation shows, under the contract it was frozen with. -/
def observeContract (capabilityId : CapabilityId) (actionId : ActionId)
    (effect : AgentEffectClass) (call : ChatToolCall) (result : AgentToolResult)
    (tracker : CommandTracker) : AgentWorkStatus × CommandTracker :=
  let w := if result.isError then w.observeDeferred else w
  if capabilityId = "workspace.process" then
    if workspaceProcessOperationNotApplied platform actionId result then (w, tracker)
    else w.observeProcess platform actionId call result tracker
  else if affectsWorkspaceContract capabilityId effect && effect ≠ .readOnly then
    let w := w.invalidateWorkspaceObservation
    (if result.isError then w
      else { w with successfulWorkspaceMutations :=
        saturatingAdd u32Max w.successfulWorkspaceMutations 1 }, tracker)
  else (w, tracker)

end AgentWorkStatus
end Nomifun.Source.AgentRuntime
