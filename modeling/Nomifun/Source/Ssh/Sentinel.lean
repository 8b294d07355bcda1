import Mathlib.Data.List.DropRight
import Nomifun.Library.FirstMatch
import Nomifun.Source.Ssh.ShellOutput

/-!
# The end of a remote command

nomi-ssh, shell.rs:78-86, 732-804 and 864-905. A command is followed by a line that prints a
sentinel: a prefix with the number of the command, the exit code, two underscores and the working
directory. The reader collects the output of the shell until the text holds such a line.

The channel is the list of what waiting on it gives; behind the list it is gone. The answers that
the reader writes to the channel do not touch the collected text and are left out, with the time
that writing them takes.
-/
namespace Nomifun.Source.Ssh
open Library Library.ByteOffsets

/-- The prefix of the sentinel of a command. -/
def sentinelPrefix (nonce : Nat) : List Char :=
  "__NOMI_END_".toList ++ (toString nonce).toList ++ "__".toList

/-- `str::parse::<i32>`: an optional sign and digits, in the range of the type. -/
def parseDigits (digits : List Char) : Option Nat :=
  if digits ≠ [] ∧ digits.all Char.isDigit then
    some (digits.foldl (fun value c => value * 10 + (c.toNat - '0'.toNat)) 0)
  else none

def parseI32 : List Char → Option Int
  | '-' :: digits => ((parseDigits digits).filter (· ≤ 2 ^ 31)).map fun n => -(n : Int)
  | '+' :: digits => ((parseDigits digits).filter (· < 2 ^ 31)).map Int.ofNat
  | digits => ((parseDigits digits).filter (· < 2 ^ 31)).map Int.ofNat

/-- The exit code and the directory behind an occurrence of the prefix. -/
def sentinelTail (after : List Char) : Option (Int × String) := do
  let (digits, rest) ← splitFirst ['_', '_'] after
  let code ← parseI32 digits
  let (line, _) ← splitFirst ['\n'] rest
  return (code, String.ofList (line.rdropWhile (· = '\r')))

/-- The loop of `find_sentinel` over what is left of the text behind a position. The loop would not
get past an empty prefix, which is never searched for. -/
def findSentinelFrom (start : List Char) (position : Nat) (text : List Char) :
    Option (Nat × Int × String) :=
  match _found : splitFirst start text with
  | none => none
  | some (before, after) =>
    match sentinelTail after with
    | some (code, directory) => some (position + bytes before, code, directory)
    | none =>
      if _empty : start = [] then none
      else findSentinelFrom start (position + bytes before + bytes start) after
termination_by text.length
decreasing_by
  have whole := congrArg List.length (splitFirst_eq _found)
  have nonempty := List.length_pos_iff.mpr _empty
  simp only [List.length_append] at whole
  omega

def findSentinel (text start : List Char) : Option (Nat × Int × String) :=
  findSentinelFrom start 0 text

/-- Carriage returns are dropped, and one line feed at the end. -/
def clean (text : List Char) : List Char :=
  let output := text.filter (· ≠ '\r')
  if output.getLast? = some '\n' then output.dropLast else output

/-- The output of a command, from what was collected until its sentinel was found. -/
def outputBefore (text start : List Char) : List Char :=
  match findSentinel text start with
  | some (position, _, _) => clean (takeBytes position text)
  | none => clean text

inductive SentinelEnd where
  | found (exitCode : Int) (cwd : String)
  | timedOut
  | closed (exitCode : Option Int)
  | outputLimitExceeded (actual : Nat)
  deriving DecidableEq

/-- What waiting on the channel gives. -/
inductive ChannelEvent where
  | data (bytes : List UInt8)
  | extendedData (bytes : List UInt8)
  | exitStatus (status : Nat)
  | close
  | other
  | elapsed

/-- A packet of output: the end of the collection, if it comes to one, and the output. -/
def receive (start : List Char) (sink : ShellOutput) (data : List UInt8) :
    Option SentinelEnd × ShellOutput :=
  match sink.append data with
  | (.error actual, sink) => (some (.outputLimitExceeded actual), sink)
  | (.ok (), sink) =>
    ((findSentinel sink.text start).map fun (_, code, directory) => .found code directory, sink)

def collectLoop (start : List Char) (terminal : Option Int) (sink : ShellOutput) :
    List ChannelEvent → SentinelEnd × ShellOutput
  | [] => (.closed terminal, sink)
  | event :: rest =>
    match event with
    | .data bytes | .extendedData bytes =>
      match receive start sink bytes with
      | (some ended, sink) => (ended, sink)
      | (none, sink) => collectLoop start terminal sink rest
    | .exitStatus status =>
      collectLoop start (if status < 2 ^ 31 then some (status : Int) else none) sink rest
    | .close => (.closed terminal, sink)
    | .other => collectLoop start terminal sink rest
    | .elapsed => (.timedOut, sink)

def collectUntilSentinel (start : List Char) (sink : ShellOutput) (events : List ChannelEvent) :
    SentinelEnd × ShellOutput :=
  match findSentinel sink.text start with
  | some (_, code, directory) => (.found code directory, sink)
  | none =>
    let (ended, sink) := collectLoop start none sink events
    match sink.finish with
    | (.ok (), sink) => (ended, sink)
    | (.error actual, sink) => (.outputLimitExceeded actual, sink)

end Nomifun.Source.Ssh
