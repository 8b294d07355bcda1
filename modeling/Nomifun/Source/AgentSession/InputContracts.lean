import Nomifun.Source.AgentSession.SharedContent

/-!
# Contracts of session inputs

nomifun-agent-contracts, session_input.rs, channel_input_delivery.rs:10-51 and 125-127;
nomifun-agent-session, session_input.rs:71-84. An accepted input waits in the queue of its session
until a turn starts from it, a running turn takes it as steering, or its owner cancels it.
-/
namespace Nomifun.Source.AgentSession
open Library.Json Library.MachineInt Library.RustText Library.Serde Source.AgentContracts

/-! ### Delivery and queue control -/

inductive SessionInputDeliveryIntent where
  | queue
  | preferCurrent (turnId : EventId)
  deriving DecidableEq

def SessionInputDeliveryIntent.codec : Codec SessionInputDeliveryIntent where
  encode
    | .queue => .object [("kind", .string "queue")]
    | .preferCurrent turnId =>
      .object [("kind", .string "prefer_current"), ("turn_id", .string turnId)]
  decode value := do
    let content ← tagged "kind" value
    match content.1 with
    | "queue" =>
      let _ ← structEntries ⟨[], true⟩ content.2
      return .queue
    | "prefer_current" =>
      let entries ← structEntries ⟨[text.field "turn_id"], true⟩ content.2
      return .preferCurrent (← required entries "turn_id" text)
    | other => .error (.unknownVariant other)

inductive SessionInputQueueAction where
  | pause
  | resume
  | remove (messageId : EventId)
  | clear
  | reorder (messageIds : List EventId)
  | promote (messageId turnId : EventId)
  deriving DecidableEq

def SessionInputQueueAction.codec : Codec SessionInputQueueAction where
  encode
    | .pause => .object [("kind", .string "pause")]
    | .resume => .object [("kind", .string "resume")]
    | .remove messageId => .object [("kind", .string "remove"), ("message_id", .string messageId)]
    | .clear => .object [("kind", .string "clear")]
    | .reorder messageIds =>
      .object [("kind", .string "reorder"), ("message_ids", (list text).encode messageIds)]
    | .promote messageId turnId => .object [("kind", .string "promote"),
        ("message_id", .string messageId), ("turn_id", .string turnId)]
  decode value := do
    let content ← tagged "kind" value
    let fields (specs : List FieldSpec) := structEntries ⟨specs, true⟩ content.2
    match content.1 with
    | "pause" =>
      let _ ← fields []
      return .pause
    | "resume" =>
      let _ ← fields []
      return .resume
    | "remove" =>
      let entries ← fields [text.field "message_id"]
      return .remove (← required entries "message_id" text)
    | "clear" =>
      let _ ← fields []
      return .clear
    | "reorder" =>
      let entries ← fields [(list text).field "message_ids"]
      return .reorder (← required entries "message_ids" (list text))
    | "promote" =>
      let entries ← fields [text.field "message_id", text.field "turn_id"]
      return .promote (← required entries "message_id" text) (← required entries "turn_id" text)
    | other => .error (.unknownVariant other)

inductive SessionInputQueueCommand where
  | replace (messageId : EventId) (content : String)
  | control (action : SessionInputQueueAction)

inductive SessionInputQueueChange where
  | replace (messageId replacementMessageId : EventId)
  | control (action : SessionInputQueueAction)
  deriving DecidableEq

namespace SessionInputQueueChange

def decodeReplace (value : Value) : Except DecodeError SessionInputQueueChange := do
  let content ← tagged "kind" value
  match content.1 with
  | "replace" =>
    let entries ← structEntries
      ⟨[text.field "message_id", text.field "replacement_message_id"], true⟩ content.2
    return .replace (← required entries "message_id" text)
      (← required entries "replacement_message_id" text)
  | other => .error (.unknownVariant other)

/-- `Control` is an untagged variant: it is tried when no tagged one fits. -/
def codec : Codec SessionInputQueueChange where
  encode
    | .replace messageId replacementMessageId => .object [("kind", .string "replace"),
        ("message_id", .string messageId),
        ("replacement_message_id", .string replacementMessageId)]
    | .control action => SessionInputQueueAction.codec.encode action
  decode value :=
    match decodeReplace value, SessionInputQueueAction.codec.decode value with
    | .ok change, _ => .ok change
    | .error _, .ok action => .ok (.control action)
    | .error _, .error _ => .error (.custom "data did not match any variant")

end SessionInputQueueChange

/-- The payload of `message/input-queue-changed`. -/
structure SessionInputQueueChanged where
  action : SessionInputQueueChange
  (expectedVersion throughSeq : Option Nat)
  exceptMessageIds : List EventId

namespace SessionInputQueueChanged

def spec : StructSpec where
  fields := [SessionInputQueueChange.codec.field "action",
    (nullable (unsigned u64Max)).field "expected_version",
    (nullable (unsigned u64Max)).defaultedField "through_seq",
    (list text).defaultedField "except_message_ids"]
  denyUnknown := true

/-- `to_value` keeps the members in key order and leaves the last two out where they are empty. -/
def codec : Codec SessionInputQueueChanged where
  encode change :=
    let exempt : List (String × Value) := if change.exceptMessageIds.isEmpty then []
      else [("except_message_ids", (list text).encode change.exceptMessageIds)]
    let cutoff : List (String × Value) := match change.throughSeq with
      | none => []
      | some seq => [("through_seq", .nat seq)]
    .object ([("action", SessionInputQueueChange.codec.encode change.action)] ++ exempt ++
      [("expected_version", (nullable (unsigned u64Max)).encode change.expectedVersion)] ++ cutoff)
  decode value := do
    let entries ← structEntries spec value
    return {
      action := ← required entries "action" SessionInputQueueChange.codec
      expectedVersion := ← requiredOr entries "expected_version" (nullable (unsigned u64Max)) none
      throughSeq := ← requiredOr entries "through_seq" (nullable (unsigned u64Max)) none
      exceptMessageIds := ← requiredOr entries "except_message_ids" (list text) [] }

end SessionInputQueueChanged

/-! ### What a reader sees of an input -/

inductive SessionInputPlacement where
  | queued | steering | transcript
  deriving DecidableEq

inductive SessionInputKind where
  | root | steering

inductive SessionInputState where
  | pending | blocked | claimed | discarded | cancelled
  deriving DecidableEq

structure SessionInputView where
  state : SessionInputState
  reason : Option String
  eventSeq : Nat
  placement : SessionInputPlacement
  kind : SessionInputKind
  turnId : Option EventId
  orderSeq : Nat

inductive SessionInputBlockedReason where
  | attachmentPreparationFailed | skillUnavailable | inputBudgetExceeded
  | contextPreparationFailed | cancelledByOwner
  deriving DecidableEq

namespace SessionInputBlockedReason

def identity : SessionInputBlockedReason → String
  | .attachmentPreparationFailed => "attachment_preparation_failed"
  | .skillUnavailable => "skill_unavailable"
  | .inputBudgetExceeded => "input_budget_exceeded"
  | .contextPreparationFailed => "context_preparation_failed"
  | .cancelledByOwner => "cancelled_by_owner"

def nameOf : SessionInputBlockedReason → String
  | .attachmentPreparationFailed => "ATTACHMENT_PREPARATION_FAILED"
  | .skillUnavailable => "SKILL_UNAVAILABLE"
  | .inputBudgetExceeded => "INPUT_BUDGET_EXCEEDED"
  | .contextPreparationFailed => "CONTEXT_PREPARATION_FAILED"
  | .cancelledByOwner => "CANCELLED_BY_OWNER"

def codec : Codec SessionInputBlockedReason :=
  unitVariants [("ATTACHMENT_PREPARATION_FAILED", .attachmentPreparationFailed),
    ("SKILL_UNAVAILABLE", .skillUnavailable), ("INPUT_BUDGET_EXCEEDED", .inputBudgetExceeded),
    ("CONTEXT_PREPARATION_FAILED", .contextPreparationFailed),
    ("CANCELLED_BY_OWNER", .cancelledByOwner)] nameOf

end SessionInputBlockedReason

/-! ### The channel an input came from -/

structure ChannelInputSource where
  (platform channelPluginId chatId channelSessionId inboundMessageKey : String)

/-- The field `limit` counts bytes. -/
def bounded (value : String) (limit : Nat) : Bool :=
  !value.isEmpty && trim value = value && value.utf8ByteSize ≤ limit && !value.toList.any isControl

namespace ChannelInputSource

def spec : StructSpec where
  fields := [text.field "platform", text.field "channel_plugin_id", text.field "chat_id",
    text.field "channel_session_id", text.field "inbound_message_key"]
  denyUnknown := true

def decode (value : Value) : Except DecodeError ChannelInputSource := do
  let entries ← structEntries spec value
  return {
    platform := ← required entries "platform" text
    channelPluginId := ← required entries "channel_plugin_id" text
    chatId := ← required entries "chat_id" text
    channelSessionId := ← required entries "channel_session_id" text
    inboundMessageKey := ← required entries "inbound_message_key" text }

def validate (source : ChannelInputSource) : Except String Unit :=
  if !bounded source.platform 64 || !bounded source.channelPluginId 512 ||
      !bounded source.chatId 1024 || !bounded source.channelSessionId 512 ||
      !bounded source.inboundMessageKey 1024 then
    .error "invalid trusted Channel input source"
  else .ok ()

def fromInput (platform : Platform) (input : Value) : Except String (Option ChannelInputSource) :=
  match input.member "channel_source" with
  | none => .ok none
  | some value =>
    match decode value with
    | .error problem => .error (platform.describe problem)
    | .ok source => source.validate.map fun _ => some source

def destination (source : ChannelInputSource) : String × String × String :=
  (source.platform, source.channelPluginId, source.chatId)

def sameDestination (left right : Option ChannelInputSource) : Bool :=
  match left, right with
  | none, none => true
  | some left, some right => left.destination = right.destination
  | _, _ => false

end ChannelInputSource

end Nomifun.Source.AgentSession
