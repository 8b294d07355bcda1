import Nomifun.Library.Checks
import Nomifun.Library.Json
import Nomifun.Library.RustText
import Nomifun.Library.Utf8

/-!
# Frames from a stream of server-sent events

nomifun-model-invoke, chat_sse.rs:1-267. The transport delivers a body in chunks of any size; the
stream cuts it into lines and the lines into events, and yields a frame for each event with data.
What `finish_event` does with `[DONE]`, to return a frame and to stop, is the emission `done`; the
stream stops when it sees it. `unread` is the part of the chunk behind the offset. Lengths are
bounded by the limits, far below the range of `usize`.

How a JSON text is read is a parameter.
-/
namespace Nomifun.Source.ModelInvoke
open Library Library.Json Library.RustText

def maxFrameBytes : Nat := 16 * 1024 * 1024

def maxLinesPerEvent : Nat := 65536

def pollWorkBytes : Nat := 64 * 1024

def pollWorkSteps : Nat := 256

inductive InvokeError (ε : Type) where
  | parse (message : String)
  /-- An error of the transport. -/
  | transport (error : ε)

/-- The diagnostic of a frame from this layer is always empty. -/
structure SingleAttemptFrame where
  event : String
  data : Value

inductive Emission where
  | frame (frame : SingleAttemptFrame)
  | done

def Emission.toFrame : Emission → SingleAttemptFrame
  | .frame value => value
  | .done => ⟨"done", .object []⟩

/-! ### Lines and events -/

/-- What is known of the current line and the current event. -/
structure SseEvent where
  line : List UInt8
  event : String
  data : String
  dataSeen : Bool
  eventBytes : Nat
  eventLines : Nat
  firstLine : Bool

def SseEvent.new : SseEvent := ⟨[], "", "", false, 0, 0, true⟩

def carriageReturn : UInt8 := 13

def lineFeed : UInt8 := 10

/-- A byte that ends no line. -/
def isText (byte : UInt8) : Bool := !(byte = carriageReturn || byte = lineFeed)

def byteOrderMark : List UInt8 := [0xEF, 0xBB, 0xBF]

section

variable {ε : Type} (fromStr : String → Option Value)

/-- The event is over. -/
def SseEvent.reset (state : SseEvent) : SseEvent :=
  { state with
    event := ""
    data := if state.dataSeen then "" else state.data
    dataSeen := false
    eventBytes := 0
    eventLines := 0 }

def finishEvent (state : SseEvent) : Except (InvokeError ε) (Option Emission × SseEvent) :=
  if !state.dataSeen then .ok (none, state.reset)
  else if trim state.data = "[DONE]" then
    if state.event = "" || state.event = "message" || state.event = "done" then
      .ok (some .done, state.reset)
    else .error (.parse "provider SSE terminal marker contradicts its event name")
  else
    match fromStr state.data with
    | none => .error (.parse "provider SSE data is not valid JSON")
    | some data =>
      .ok (some (.frame ⟨if state.event = "" then "message" else state.event, data⟩), state.reset)

/-- `split_once(':')`, or the whole line and nothing; one blank before the value is dropped. -/
def fieldOf (line : List Char) : String × String :=
  let field := line.takeWhile (· ≠ ':')
  let value := (line.drop field.length).drop 1
  (String.ofList field, String.ofList (if value.head? = some ' ' then value.tail else value))

/-- A field of the event. -/
def applyField (field value : String) (state : SseEvent) : Except (InvokeError ε) SseEvent :=
  if field = "event" then .ok { state with event := value }
  else if field = "data" then
    let separator := if state.dataSeen then "\n" else ""
    let data := state.data ++ separator ++ value
    if data.utf8ByteSize > maxFrameBytes then
      .error (.parse "provider SSE data exceeds the framing limit")
    else .ok { state with data := data, dataSeen := true }
  else .ok state

def consumeLine (state : SseEvent) : Except (InvokeError ε) (Option Emission × SseEvent) := do
  let counted := { state with
    eventLines := state.eventLines + 1
    eventBytes := state.eventBytes + state.line.length + 1 }
  if counted.eventBytes > maxFrameBytes || counted.eventLines > maxLinesPerEvent then
    .error (.parse "provider SSE event exceeds the framing limit")
  -- One byte order mark is permitted at the start.
  let bytes := if state.firstLine && byteOrderMark.isPrefixOf state.line
    then state.line.drop byteOrderMark.length else state.line
  let taken := { counted with line := [], firstLine := false }
  match Utf8.fromUtf8 bytes with
  | .error _ => .error (.parse "provider SSE line is not UTF-8")
  | .ok [] => finishEvent fromStr taken
  | .ok (':' :: _) => return (none, taken)
  | .ok line =>
    let (field, value) := fieldOf line
    return (none, ← applyField field value taken)

/-- A line without a terminator at the end of the body. -/
def lastLine (state : SseEvent) : Except (InvokeError ε) SseEvent :=
  if state.line.isEmpty then .ok state else (consumeLine fromStr state).map (·.2)

/-- Something of an event has been read. -/
def SseEvent.incomplete (state : SseEvent) : Bool :=
  !state.line.isEmpty || state.dataSeen || state.event ≠ ""

end

/-! ### Polling -/

/-- What a poll of the transport returns; behind the list it has ended. -/
inductive SourcePoll (ε : Type) where
  | pending
  | chunk (bytes : List UInt8)
  | failed (error : ε)

structure SseFrameStream (ε : Type) where
  source : List (SourcePoll ε)
  unread : List UInt8
  current : SseEvent
  skipLf : Bool
  finished : Bool

abbrev SseItem (ε : Type) := Except (InvokeError ε) SingleAttemptFrame

inductive Poll (α : Type) where
  | pending
  | ready (value : α)

/-- The outcome of one round of the loop of `poll_next`. -/
inductive Turn (ε : Type) where
  /-- The loop goes on; so many bytes were worked on. -/
  | again (work : Nat) (stream : SseFrameStream ε)
  | pending (stream : SseFrameStream ε)
  | item (item : SseItem ε) (stream : SseFrameStream ε)
  | ended (stream : SseFrameStream ε)

namespace SseFrameStream

variable {ε : Type} (fromStr : String → Option Value) (maxLineBytes : Nat)

def new (source : List (SourcePoll ε)) : SseFrameStream ε := ⟨source, [], .new, false, false⟩

variable (stream : SseFrameStream ε)

def stop : SseFrameStream ε :=
  { stream with
    source := []
    unread := []
    current := { stream.current with line := [], data := "", event := "" }
    finished := true }

def fail (error : InvokeError ε) (stream : SseFrameStream ε) : Turn ε :=
  .item (.error error) stream.stop

/-- The transport has ended. -/
def atEnd : Turn ε :=
  let incomplete := stream.current.incomplete
  match lastLine fromStr stream.current with
  | .error error => stream.fail error
  | .ok state =>
    if incomplete && state.dataSeen && trim state.data = "[DONE]" then
      match finishEvent fromStr state with
      | .ok (some emission, _) => .item (.ok emission.toFrame) stream.stop
      | .ok (none, _) => .ended stream.stop
      | .error error => stream.fail error
    else if incomplete then
      stream.fail (.parse "provider SSE stream ended before the event delimiter")
    else .ended stream.stop

/-- Nothing is unread: the transport is polled. -/
def readSource : Turn ε :=
  match stream.source with
  | [] => stream.atEnd fromStr
  | .pending :: rest => .pending { stream with source := rest }
  | .chunk bytes :: rest =>
    if bytes.length > maxFrameBytes then
      stream.fail (.parse "provider SSE transport chunk exceeds the framing limit")
    else .again 0 { stream with source := rest, unread := bytes }
  | .failed error :: _ => stream.fail (.transport error)

/-- A line is complete. -/
def lineEnd (work : Nat) (stream : SseFrameStream ε) : Turn ε :=
  match consumeLine fromStr stream.current with
  | .error error => stream.fail error
  | .ok (none, state) => .again work { stream with current := state }
  | .ok (some (.frame frame), state) => .item (.ok frame) { stream with current := state }
  | .ok (some .done, state) =>
    .item (.ok Emission.done.toFrame) { stream with current := state }.stop

/-- Up to the next terminator, or to the end of the chunk. -/
def readLine : Turn ε :=
  let text := stream.unread.takeWhile isText
  let count := text.length
  if stream.current.line.length + count > maxLineBytes then
    stream.fail (.parse "provider SSE line exceeds the configured limit")
  else
    let extended := { stream.current with line := stream.current.line ++ text }
    match stream.unread.dropWhile isText with
    | [] => .again count { stream with unread := [], current := extended, skipLf := false }
    | delimiter :: rest =>
      lineEnd fromStr (count + 1) { stream with
        unread := rest
        current := extended
        skipLf := delimiter = carriageReturn }

/-- One round of the loop. -/
def turn : Turn ε :=
  match stream.unread with
  | [] => stream.readSource fromStr
  | byte :: rest =>
    if stream.skipLf && byte = lineFeed then
      .again 1 { stream with skipLf := false, unread := rest }
    else stream.readLine fromStr maxLineBytes

def pollLoop : Nat → Nat → SseFrameStream ε → Poll (Option (SseItem ε)) × SseFrameStream ε
  | steps, work, stream =>
    if stream.finished then (.ready none, stream)
    else match steps with
      | 0 => (.pending, stream)
      | steps + 1 =>
        -- A source that is always ready must not keep the task from yielding.
        if work ≥ pollWorkBytes then (.pending, stream)
        else match stream.turn fromStr maxLineBytes with
          | .again more next => pollLoop steps (work + more) next
          | .pending next => (.pending, next)
          | .item item next => (.ready (some item), next)
          | .ended next => (.ready none, next)

def pollNext : Poll (Option (SseItem ε)) × SseFrameStream ε :=
  stream.pollLoop fromStr maxLineBytes pollWorkSteps 0

end SseFrameStream

end Nomifun.Source.ModelInvoke
