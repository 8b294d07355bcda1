import Nomifun.Library.LastPosition
import Nomifun.Source.AgentRuntime.Basic

/-!
# Recent tool exchanges

nomifun-agent-runtime, context_tail.rs:12-215. A suffix of the messages that holds whole
batches of tool calls with their results; it is found from its last batch backwards. The
set of call identities next to their list in the source has the same members.
-/
namespace Nomifun.Source.AgentRuntime
open Library

def maxExchangeCalls : Nat := 64

def maxRetainedExchanges : Nat := 3

structure RecentToolExchange where
  source : List ChatMessage
  start : Nat
  callIds : List ToolCallId
  hasImages : Bool
  hasAssistantFollowup : Bool
  exchanges : Nat
  deriving DecidableEq

def invalidCompaction {α : Type} (message : String) : EngineResult α :=
  .error (.compaction message)

def ChatContentPart.callId : ChatContentPart → Option ToolCallId
  | .toolCall call => some call.callId
  | _ => none

def ChatContentPart.isToolPart : ChatContentPart → Bool
  | .toolCall _ | .toolResult _ _ _ => true
  | _ => false

def ChatToolResultPart.isImage : ChatToolResultPart → Bool
  | .image _ _ => true
  | .text _ | .audio _ _ => false

/-- An assistant message with a tool call. -/
def ChatMessage.startsBatch (m : ChatMessage) : Bool :=
  m.role = .assistant && m.content.any (·.callId.isSome)

namespace RecentToolExchange

/-- One part of the batch's own message. -/
def collectCall (callIds : List ToolCallId) (part : ChatContentPart) :
    EngineResult (List ToolCallId) :=
  match part.callId with
  | none => .ok callIds
  | some id =>
    if callIds.length ≥ maxExchangeCalls || id.isEmpty || id.utf8ByteSize > 256 || id ∈ callIds then
      invalidCompaction "Recent tool exchange has invalid or duplicate call identities"
    else .ok (callIds ++ [id])

/-- What follows the batch. -/
structure Following where
  results : StringSet
  hasImages : Bool
  hasAssistantFollowup : Bool

/-- One part of a result message. -/
def collectResult (callIds : List ToolCallId) (f : Following) (part : ChatContentPart) :
    EngineResult Following :=
  match part with
  | .toolResult id output _ =>
    if output = [] || id ∉ callIds || id ∈ f.results then
      invalidCompaction "Recent tool exchange has inconsistent call/result identities"
    else .ok { f with
      results := insert id f.results
      hasImages := f.hasImages || output.any ChatToolResultPart.isImage }
  | _ => invalidCompaction "Recent tool result message contains non-result content"

/-- One message after the batch. -/
def follow (callIds : List ToolCallId) (f : Following) (m : ChatMessage) : EngineResult Following :=
  match m.role with
  | .user =>
    if m.content.any (·.isToolPart) then
      invalidCompaction "User input cannot supply recent tool identities"
    else .ok f
  | .tool =>
    if m.content = [] || f.hasAssistantFollowup then
      invalidCompaction "Recent tool exchange has an empty or late result message"
    else m.content.foldlM (collectResult callIds) f
  | .assistant =>
    if f.results ≠ callIds.toFinset || m.content = [] || m.content.any (·.isToolPart) then
      invalidCompaction ("Assistant follow-up precedes complete tool results or contains " ++
        "unmatched tool content")
    else .ok { f with hasAssistantFollowup := true }
  | .system => invalidCompaction "Unexpected role after the recent tool batch"

/-- The batch at `start`, whose message has the given content. -/
def exchangeAt (messages : List ChatMessage) (start : Nat) (content : List ChatContentPart) :
    EngineResult (Option RecentToolExchange) := do
  let callIds ← content.foldlM collectCall []
  if callIds = [] then return none
  let f ← (messages.drop (start + 1)).foldlM (follow callIds) ⟨∅, false, false⟩
  if callIds.toFinset ≠ f.results then
    invalidCompaction "Recent tool exchange is incomplete; compaction cannot repair missing results"
  return some ⟨messages, start, callIds, f.hasImages, f.hasAssistantFollowup, 1⟩

def latest (messages : List ChatMessage) : EngineResult (Option RecentToolExchange) :=
  match rposition ChatMessage.startsBatch messages with
  | none => .ok none
  | some start => exchangeAt messages start ((messages[start]?.map (·.content)).getD [])

/-- The end of the last system message before the exchange. -/
def boundary (e : RecentToolExchange) : Nat :=
  ((rposition (fun m => m.role = .system) (e.source.take e.start)).map (· + 1)).getD 0

/-- The exchange with one whole batch more. -/
def earlier (e : RecentToolExchange) : EngineResult (Option RecentToolExchange) := do
  if e.exchanges ≥ maxRetainedExchanges then return none
  let found ← latest ((e.source.take e.start).drop e.boundary)
  match found with
  | none => return none
  | some previous =>
    if previous.callIds.length + e.callIds.length > maxExchangeCalls ||
        previous.callIds.any (· ∈ e.callIds) then
      return none
    return some { e with
      start := e.boundary + previous.start
      callIds := previous.callIds ++ e.callIds
      exchanges := e.exchanges + 1 }

theorem earlier_eq_some {e next : RecentToolExchange} (ok : e.earlier = .ok (some next)) :
    e.exchanges < maxRetainedExchanges ∧
      ∃ previous, latest ((e.source.take e.start).drop e.boundary) = .ok (some previous) ∧
        previous.callIds.length + e.callIds.length ≤ maxExchangeCalls ∧
        (∀ id ∈ previous.callIds, id ∉ e.callIds) ∧
        next = { e with
          start := e.boundary + previous.start
          callIds := previous.callIds ++ e.callIds
          exchanges := e.exchanges + 1 } := by
  simp only [earlier] at ok
  split at ok
  · cases ok
  next room =>
    obtain ⟨found, latest, ok⟩ := bind_eq_ok.mp ok
    split at ok
    · cases ok
    next previous =>
      split at ok
      · cases ok
      next fits =>
        cases ok
        simp only [Bool.or_eq_true, decide_eq_true_eq, not_or, List.any_eq_true, not_exists,
          not_and] at fits
        exact ⟨by omega, previous, latest, by omega, fits.2, rfl⟩

/-- The loop of `selected`. -/
def selectFrom (callIds : List ToolCallId) (e : RecentToolExchange) :
    EngineResult (Option RecentToolExchange) :=
  if e.callIds = callIds then .ok (some e)
  else if e.callIds.length ≥ callIds.length then .ok none
  else
    match _stepped : e.earlier with
    | .error problem => .error problem
    | .ok none => .ok none
    | .ok (some previous) => selectFrom callIds previous
  termination_by maxRetainedExchanges - e.exchanges
  decreasing_by
    obtain ⟨room, _, -, -, -, rfl⟩ := earlier_eq_some _stepped
    simp only
    omega

/-- The exchange with exactly these calls, if a suffix of the messages has them. -/
def selected (messages : List ChatMessage) (callIds : List ToolCallId) :
    EngineResult (Option RecentToolExchange) := do
  let found ← latest messages
  match found with
  | none => return none
  | some e => selectFrom callIds e

end RecentToolExchange
end Nomifun.Source.AgentRuntime
