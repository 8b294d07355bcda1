import Nomifun.Source.AgentRuntime.Collaboration

/-!
# The plan and its exact actions

nomifun-agent-runtime, planning.rs:10-38 and 271-278, exact_actions.rs:9-28 and 87-200,
requirements.rs:7-34. A plan may commit to exact actions: a call counts for one of them only
if its arguments have the committed digests, and it succeeds only by a receipt of the owner.
The ordered map of argument digests is the list of its entries.
-/
namespace Nomifun.Source.AgentRuntime
open Library.MachineInt Library.Json Library.Serde Source.AgentContracts

structure AgentInputCitation where
  input : Nat
  quote : String
  deriving DecidableEq

structure AgentRequirementOrigin where
  turnOperationId : String
  requirementId : String
  source : AgentInputCitation
  deriving DecidableEq

structure AgentTaskRequirement where
  id : String
  description : String
  source : AgentInputCitation
  origin : Option AgentRequirementOrigin
  deriving DecidableEq

structure AgentExactAction where
  id : String
  source : AgentInputCitation
  tool : String
  fields : List (String × String)
  (stdinSha256 receiverRef receiverDigest : Option String)
  receiverClosed : Bool
  attemptedCallId : Option String
  succeeded : Bool
  deriving DecidableEq

inductive AgentPlanStatus where
  | pending | inProgress | completed | blocked
  deriving DecidableEq

structure AgentPlanStep where
  step : String
  status : AgentPlanStatus
  deriving DecidableEq

structure AgentPlan where
  revision : Nat
  explanation : String
  steps : List AgentPlanStep
  needsReplan : Bool
  requirements : List AgentTaskRequirement
  exactActions : List AgentExactAction
  deriving DecidableEq

def AgentPlan.empty : AgentPlan := ⟨0, "", [], false, [], []⟩

/-! ### Serialized form, in declaration order -/

/-- A field with `skip_serializing_if = "Option::is_none"`. -/
def optionalEntry {α : Type} (name : String) (encode : α → Value) : Option α → List (String × Value)
  | none => []
  | some a => [(name, encode a)]

def AgentInputCitation.toValue (c : AgentInputCitation) : Value :=
  .object [("input", .nat c.input), ("quote", .string c.quote)]

def AgentRequirementOrigin.toValue (o : AgentRequirementOrigin) : Value :=
  .object [("turn_operation_id", .string o.turnOperationId),
    ("requirement_id", .string o.requirementId), ("source", o.source.toValue)]

def AgentTaskRequirement.toValue (r : AgentTaskRequirement) : Value :=
  .object ([("id", .string r.id), ("description", .string r.description),
    ("source", r.source.toValue)] ++ optionalEntry "origin" AgentRequirementOrigin.toValue r.origin)

def AgentExactAction.toValue (a : AgentExactAction) : Value :=
  .object ([("id", .string a.id), ("source", a.source.toValue), ("tool", .string a.tool),
      ("fields", .object (a.fields.map fun field => (field.1, .string field.2)))] ++
    optionalEntry "stdin_sha256" .string a.stdinSha256 ++
    optionalEntry "receiver_ref" .string a.receiverRef ++
    optionalEntry "receiver_digest" .string a.receiverDigest ++
    (if a.receiverClosed then [("receiver_closed", .bool true)] else []) ++
    optionalEntry "attempted_call_id" .string a.attemptedCallId ++
    [("succeeded", .bool a.succeeded)])

def AgentPlanStatus.name : AgentPlanStatus → String
  | .pending => "pending"
  | .inProgress => "in_progress"
  | .completed => "completed"
  | .blocked => "blocked"

def AgentPlanStep.toValue (s : AgentPlanStep) : Value :=
  .object [("step", .string s.step), ("status", .string s.status.name)]

def AgentPlan.toValue (p : AgentPlan) : Value :=
  .object ([("revision", .nat p.revision), ("explanation", .string p.explanation),
      ("steps", .array (p.steps.map AgentPlanStep.toValue)), ("needs_replan", .bool p.needsReplan),
      ("requirements", .array (p.requirements.map AgentTaskRequirement.toValue))] ++
    if p.exactActions = [] then []
    else [("exact_actions", .array (p.exactActions.map AgentExactAction.toValue))])

/-! ### Exact actions -/

section

variable (platform : Platform)

def utf8Bytes (chars : List Char) : List UInt8 := chars.flatMap String.utf8EncodeChar

/-- The digest of a parameter as it is written. -/
def sha (v : Value) : String := digestBytes platform (utf8Bytes (compact platform.floatText v))

/-- The bytes a call writes to a process. -/
def stdinBytes (arguments : Value) : Option (List UInt8) :=
  (arguments.get "input").asStr.map fun input =>
    utf8Bytes input.toList ++
      if ((arguments.member "append_newline").bind Value.asBool).getD false then [10] else []

namespace AgentExactAction

def matchesObservation (action : AgentExactAction) (call : ChatToolCall) : Bool :=
  action.tool == call.name && action.fields.all (fun field =>
      (call.arguments.member field.1).any fun v => sha platform v == field.2) &&
    (action.receiverRef.isNone || action.receiverDigest.any fun digest =>
      (call.arguments.member "process_id").any fun v => sha platform v == digest) &&
    (action.stdinSha256.isNone || action.stdinSha256.any fun digest =>
      (stdinBytes call.arguments).any fun bytes => digestBytes platform bytes == digest)

end AgentExactAction

section

variable (call : ChatToolCall) (value : Value) (result : AgentToolResult)

/-- The result as JSON, if its text is a document. -/
def AgentToolResult.json : Option Value :=
  fromText platform verbatim.decode result.outputText

/-- The owner proved that it started no process. -/
def provenNonstart : Bool :=
  call.name == "start_process" && (result.json platform).any fun value =>
    value.get "schema" == .string "nomifun.process-start-observation.v1" &&
      value.get "state" == .string "not_started" && value.get "user_code_started" == .bool false &&
      value.get "success" == .bool false && (value.member "process_id").isNone

/-- One file of a patch receipt against the file that was requested. -/
def patchedAsRequested (file request : Value) : Bool :=
  file.get "path" == request.get "path" && (file.get "written_sha256").asStr.any validDigest &&
    (file.get "bytes_before").asU64.isSome && (file.get "bytes_after").asU64.isSome &&
    (request.get "hunks").asArray.any fun hunks =>
      (file.get "hunks_applied").asU64 == some hunks.length

/-- A receipt of the process the call is bound to: it ended well, or it is running. -/
def processSucceeded : Bool :=
  let bound := (value.get "process_id").asStr.any (!·.isEmpty) &&
    (call.name != "write_process_stdin" ||
      value.get "process_id" == call.arguments.get "process_id")
  let exited := value.get "state" == .string "exited" && value.get "exit_code" == .nat 0 &&
    (value.get "cleanup").get "reaped" == .bool true && value.get "success" == .bool true
  let running := value.get "state" == .string "running" &&
    value.member "control_applied" != some (.bool false) &&
    (value.get "pid").asU64.any (fun pid => 0 < pid && pid ≤ u32Max) &&
    ((value.get "output").get "text").asStr.isSome &&
    ((value.get "output").get "next_cursor").asU64.isSome &&
    value.member "success" != some (.bool false)
  bound && (exited || running)

/-- Whether the owner's receipt shows that the call did what it asked for. -/
def receiptSucceeded : Bool :=
  match call.name with
  | "write_file" =>
    value.get "written" == .bool true && value.get "path" == call.arguments.get "path" &&
      (call.arguments.get "content").asStr.any fun content =>
        (value.get "bytes").asU64 == some content.utf8ByteSize &&
          (value.get "sha256").asStr == some (digestBytes platform (utf8Bytes content.toList))
  | "apply_patch" =>
    (value.get "files").asArray.any fun files =>
      files ≠ [] && some files.length == (value.get "file_count").asU64 &&
        (call.arguments.get "files").asArray.any fun requested =>
          requested.length = files.length &&
            (files.zip requested).all fun pair => patchedAsRequested pair.1 pair.2
  | "delete_path" =>
    value.get "deleted" == .bool true && value.get "path" == call.arguments.get "path"
  | "read_file" =>
    value.get "path" == call.arguments.get "path" && ((value.get "sha256").asStr.any validDigest ||
        value.get "kind" == .string "workspace_file_absent")
  | "start_process" | "write_process_stdin" => processSucceeded call value
  | _ => false

def ownerSucceeded : Bool :=
  !result.isError && (result.json platform).any (receiptSucceeded platform call)

end

namespace AgentPlan

/-- The outcome of a call, recorded with the action it was attempted for, and whether there
is one. -/
def applyExactOutcome (plan : AgentPlan) (call : ChatToolCall) (result : AgentToolResult)
    (notApplied : Bool) : AgentPlan × Bool :=
  match plan.exactActions.findIdx? fun action =>
    action.attemptedCallId == some call.callId && action.matchesObservation platform call with
  | none => (plan, false)
  | some index =>
    ({ plan with exactActions := plan.exactActions.modify index fun action =>
        if notApplied then { action with attemptedCallId := none, succeeded := false }
        else { action with succeeded := ownerSucceeded platform call result } }, true)

end AgentPlan
end

def validateReceiver (earlier : List AgentExactAction) (action : AgentExactAction) :
    Except String Unit :=
  match action.receiverRef with
  | some id =>
    if action.tool ≠ "write_process_stdin" || action.fields.any (·.1 = "process_id") ||
        !earlier.any (fun start => start.id = id && start.tool = "start_process") then
      .error "receiver_ref must name an earlier start_process commitment in this same plan"
    else .ok ()
  | none =>
    if action.receiverDigest.isSome then
      .error "receiver binding requires its source start action"
    else .ok ()

def validateReceivers (actions : List AgentExactAction) : Except String Unit :=
  actions.zipIdx.forM fun entry => validateReceiver (actions.take entry.2) entry.1

def closeReceivers (actions : List AgentExactAction) : List AgentExactAction :=
  actions.map fun action =>
    if action.receiverRef.isSome && !action.succeeded then { action with receiverClosed := true }
    else action

/-- The ledger bound of `requirements.rs`. -/
def validateLedgerBudget (platform : Platform) (requirements : List AgentTaskRequirement) :
    Except String Unit :=
  if requirements.length > 32 || size platform.floatText
      (.array (requirements.map AgentTaskRequirement.toValue)) > 24 * 1024 then
    .error ("Requirement ledger exceeds 32 items or 24 KiB; keep requirements concise without " ++
      "dropping accepted scope")
  else .ok ()

end Nomifun.Source.AgentRuntime
