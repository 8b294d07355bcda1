import Nomifun.Library.Json
import Nomifun.Library.Utf8
import Nomifun.Source.File.PatchLines

/-!
# Bounded pages of a text

nomifun-file, agent_text_read.rs:14-129 and 310-364. A page is a stretch of the text between two
character boundaries together with what describes it. The page becomes JSON text inside the JSON of
a tool result, so both layers of escapes count for its size, and the stretch is halved until the
page fits. A request names a byte offset, or a line by the line feeds before it.

The digest of the acquired bytes is a parameter, and the presentation of the canonical path in the
workspace, which is read from the file system, is given.
-/
namespace Nomifun.Source.File
open Library Library.Json Library.ByteOffsets
open Source.AgentExecution (AppError)

def maxFileBytes : Nat := 8 * 1024 * 1024
def maxPageBytes : Nat := 16 * 1024
def maxJsonBytes : Nat := 24 * 1024
def maxToolTextBytes : Nat := 24 * 1024

/-- The JSON text of a value, and the size of that text as a JSON string. -/
def jsonText (value : Value) : List Char := compact (fun _ => []) value

def wireBytes (json : List Char) : Nat := bytes (quoted (String.ofList json))

def fitsTextResult (value : Value) (reserve : Nat) : Bool :=
  bytes (jsonText value) + reserve ≤ maxJsonBytes &&
    wireBytes (jsonText value) + reserve ≤ maxToolTextBytes

structure AgentTextReadRequest where
  path : String
  offset : Nat
  limit : Nat
  expectedSha256 : Option String
  (startLine lineCount : Option Nat)

structure WorkspacePathObservation where
  rootSha256 : String
  path : String
  caseResolved : Bool

def WorkspacePathObservation.json (observation : WorkspacePathObservation) : Value :=
  .object [("root_sha256", .string observation.rootSha256), ("path", .string observation.path),
    ("case_resolved", .bool observation.caseResolved)]

structure AgentTextPage where
  path : String
  workspacePath : Option WorkspacePathObservation
  content : String
  sha256 : String
  totalBytes : Nat
  offset : Nat
  nextOffset : Option Nat
  eof : Bool
  startLine : Nat
  startColumnBytes : Nat
  sourceVersionPinned : Bool

def AgentTextPage.json (page : AgentTextPage) : Value :=
  .object ([("path", .string page.path)] ++
    (page.workspacePath.map fun observation => ("workspace_path", observation.json)).toList ++
    [("content", .string page.content), ("sha256", .string page.sha256),
      ("total_bytes", .nat page.totalBytes), ("offset", .nat page.offset),
      ("next_offset", .option .nat page.nextOffset), ("eof", .bool page.eof),
      ("start_line", .nat page.startLine), ("start_column_bytes", .nat page.startColumnBytes),
      ("source_version_pinned", .bool page.sourceVersionPinned)])

/-- A SHA-256 as it is printed. -/
def isHexDigest (hash : String) : Bool :=
  hash.utf8ByteSize = 64 && hash.toList.all fun c => c.isDigit || ('a' ≤ c && c ≤ 'f')

def invalidTextRead : String :=
  "Invalid text read: use a native absolute or Session-relative path and either byte offset/" ++
    "limit 4..16384 or start_line/line_count. expected_sha256 optionally pins the current " ++
    "source version."

def validateAgentTextReadRequest (request : AgentTextReadRequest) : Except AppError Unit :=
  let byLines := request.startLine.isSome || request.lineCount.isSome
  if request.path.isEmpty || request.path.utf8ByteSize > 4096 ||
      request.path.toList.contains '\x00' ||
      !(4 ≤ request.limit && request.limit ≤ maxPageBytes) || request.offset > maxFileBytes ||
      request.startLine.any (fun line => line = 0 || line > maxFileBytes + 1) ||
      request.lineCount.any (fun lines => !(1 ≤ lines && lines ≤ 2000)) ||
      (byLines && (request.offset ≠ 0 || request.limit ≠ maxPageBytes)) ||
      request.expectedSha256.any (!isHexDigest ·) then
    badRequest invalidTextRead
  else .ok ()

/-- The byte positions of a character, in a text that starts at a position. -/
def matchIndices (wanted : Char) (start : Nat) : List Char → List Nat
  | [] => []
  | c :: rest =>
    (if c = wanted then [start] else []) ++ matchIndices wanted (start + c.utf8Size) rest

/-- The position behind a line feed, counted from zero, or the end of the text. -/
def behindLineFeed (text : List Char) (count : Nat) : Nat :=
  match (matchIndices '\n' 0 text)[count]? with
  | some index => index + 1
  | none => bytes text

def startOfLine (text : List Char) (line : Nat) : Nat :=
  if line = 1 then 0 else behindLineFeed text (line - 2)

/-- The offset and the limit of a request by lines. -/
def selectLines (request : AgentTextReadRequest) (text : List Char) : AgentTextReadRequest :=
  if request.startLine.isSome || request.lineCount.isSome then
    let start := startOfLine text (request.startLine.getD 1)
    let stop := start + behindLineFeed (dropBytes start text) (request.lineCount.getD 200 - 1)
    { request with offset := start, limit := min (stop - start) maxPageBytes }
  else request

section

variable (request : AgentTextReadRequest) (text : List Char) (sha256 : String)
  (workspacePath : Option WorkspacePathObservation)

/-- The page from the offset of the request to another boundary. -/
def pageTo (stop : Nat) : AgentTextPage :=
  let start := request.offset
  let (startLine, startColumnBytes) := linePosition text start
  { path := request.path
    workspacePath := workspacePath
    content := String.ofList (slice text start stop)
    sha256 := sha256
    totalBytes := bytes text
    offset := start
    nextOffset := if stop = bytes text then none else some stop
    eof := stop = bytes text
    startLine := startLine
    startColumnBytes := startColumnBytes
    sourceVersionPinned := request.expectedSha256.isSome }

/-- Half of the way to the offset, at a boundary. -/
def halfway (stop : Nat) : Nat :=
  floorBoundary text (request.offset + (stop - request.offset) / 2)

theorem halfway_lt (behind : ¬ stop ≤ request.offset) : halfway request text stop < stop := by
  have below := floorBoundary_le text (request.offset + (stop - request.offset) / 2)
  unfold halfway
  omega

/-- The loop of `page`; the end never falls below the offset. -/
def shrinkPage (stop : Nat) : Except AppError AgentTextPage :=
  let result := pageTo request text sha256 workspacePath stop
  if fitsTextResult result.json 0 then .ok result
  else if _behind : stop ≤ request.offset then badRequest "Text page metadata exceeds its envelope"
  else
    let next := halfway request text stop
    if next = request.offset then badRequest "Text page cannot fit one UTF-8 character"
    else shrinkPage next
termination_by stop
decreasing_by exact halfway_lt request text _behind

/-- The end of the longest page that the limit admits. -/
def pageEnd : Nat := floorBoundary text (min (request.offset + request.limit) (bytes text))

def page : Except AppError AgentTextPage :=
  if request.offset > bytes text || !isBoundary text request.offset then
    badRequest "Text offset must be a UTF-8 boundary within total_bytes; use next_offset"
  else shrinkPage request text sha256 workspacePath (pageEnd request text)

end

def decodeSourceText (source : List UInt8) : Except AppError (List Char) :=
  match Utf8.fromUtf8 source with
  | .ok text => .ok text
  | .error _ =>
    badRequest "Text source is not UTF-8; no lossy binary conversion was performed"

def contentChanged : String :=
  "FILE_CONTENT_CHANGED: discard prior pages and restart at offset 0 without expected_sha256"

def projectAgentTextPage (digest : List UInt8 → String) (request : AgentTextReadRequest)
    (source : List UInt8) (sha256 : String)
    (workspacePath : Option WorkspacePathObservation) : Except AppError AgentTextPage := do
  validateAgentTextReadRequest request
  if source.length > maxFileBytes then badRequest "Source is not a bounded regular file"
  else if sha256 ≠ digest source then
    .error (.internal "Acquired text source digest does not match its bytes")
  else
    let text ← decodeSourceText source
    if request.expectedSha256.any (· ≠ sha256) then .error (.conflict contentChanged)
    else page (selectLines request text) text sha256 workspacePath

end Nomifun.Source.File
