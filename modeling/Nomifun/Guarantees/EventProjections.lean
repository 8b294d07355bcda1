import Nomifun.Library.Fragments
import Nomifun.Source.ChatModelBroker.Wire

/-!
# What canonical events carry

Projections of canonical events in which the guarantees of the decoders are stated: the fragment of
arguments an event adds to a call, the fragment of text it adds to a part, and the call and name of
a proposal.
-/
namespace Nomifun.Guarantees.EventProjections
open Library.Json Library.Fragments Source.ChatModelBroker

def argumentsPart : ChatModelEvent → Option (String × String)
  | .toolCallDelta id _ text => some (id, text)
  | _ => none

/-- The streamed arguments of a call. -/
abbrev argumentsOf (id : String) (events : List ChatModelEvent) : String :=
  collected argumentsPart id events

/-- The call and the name of a proposal. -/
def proposalOf : ChatModelEvent → Option (String × String)
  | .toolCallCompleted call => some (call.callId, call.name)
  | .toolCallRejected id name _ => some (id, name)
  | _ => none

def textPart : ChatModelEvent → Option (Option ChatOutputTextSource × String)
  | .outputTextDelta text source => some (source, text)
  | _ => none

/-- The streamed text of a part. -/
abbrev textOf (source : ChatOutputTextSource) (events : List ChatModelEvent) : String :=
  collected textPart (some source) events

/-- The proposals for a call. -/
def proposalsOf (id : String) (events : List ChatModelEvent) : List ChatModelEvent :=
  events.filter fun event => (proposalOf event).any (·.1 = id)

section

variable (parser : ToolArgumentParser) (id name : String) (input : ToolArgumentInput)
  (metadata : Option Value)

theorem proposalOf_proposalEvent :
    proposalOf (proposalEvent parser id name input metadata) = some (id, name) := by
  unfold proposalEvent
  split <;> rfl

theorem argumentsPart_proposalEvent :
    argumentsPart (proposalEvent parser id name input metadata) = none := by
  unfold proposalEvent
  split <;> rfl

theorem textPart_proposalEvent : textPart (proposalEvent parser id name input metadata) = none := by
  unfold proposalEvent
  split <;> rfl

theorem isTerminal_proposalEvent :
    (proposalEvent parser id name input metadata).isTerminal = false := by
  unfold proposalEvent
  split <;> rfl

end

variable {events : List ChatModelEvent} {id : String}

theorem argumentsOf_append (first second : List ChatModelEvent) :
    argumentsOf id (first ++ second) = argumentsOf id first ++ argumentsOf id second :=
  collected_append first second

theorem textOf_append (first second : List ChatModelEvent) :
    textOf source (first ++ second) = textOf source first ++ textOf source second :=
  collected_append first second

theorem arguments_plain (none_streamed : ∀ event ∈ events, argumentsPart event = none) :
    argumentsOf id events = "" :=
  collected_eq_empty fun event member text found => by
    rw [none_streamed event member] at found
    cases found

theorem text_plain (none_streamed : ∀ event ∈ events, textPart event = none) :
    textOf source events = "" :=
  collected_eq_empty fun event member text found => by
    rw [none_streamed event member] at found
    cases found

theorem proposalsOf_append (first second : List ChatModelEvent) :
    proposalsOf id (first ++ second) = proposalsOf id first ++ proposalsOf id second :=
  List.filter_append ..

theorem proposalsOf_eq_nil (none_proposed : ∀ event ∈ events, proposalOf event = none) :
    proposalsOf id events = [] := by
  refine List.filter_eq_nil_iff.mpr fun event member => ?_
  simp [none_proposed event member]

theorem proposalsOf_singleton (found : proposalOf event = some (id, name)) :
    proposalsOf id [event] = [event] := by
  simp [proposalsOf, found]

end Nomifun.Guarantees.EventProjections
