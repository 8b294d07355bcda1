import Nomifun.Source.File.PatchLines

/-!
# Applying the hunks of a patch

nomifun-file, service.rs:42-60, 150-171 and 1592-1717. A hunk names a range of the source and one of
the output and lists its lines; everything between the hunks is copied. Positions and counts are
`usize`; those that are added to are bounded by the number of lines.
-/
namespace Nomifun.Source.File
open Source.AgentExecution (AppError)

def maxAgentPatchLinesPerFile : Nat := 131072

def maxAgentPatchFileBytes : Nat := 8 * 1024 * 1024

inductive AgentSessionPatchLine where
  | context (text : String)
  | add (text : String)
  | remove (text : String)

structure AgentSessionPatchHunk where
  (oldStart oldLines newStart newLines : Nat)
  lines : List AgentSessionPatchLine

def invalidAgentHunk {α : Type} (hunk : AgentSessionPatchHunk) (reason : String) :
    Except AppError α :=
  badRequest ("invalid patch hunk (old " ++ toString hunk.oldStart ++ "+" ++
    toString hunk.oldLines ++ ", new " ++ toString hunk.newStart ++ "+" ++
    toString hunk.newLines ++ "): " ++ reason)

def agentPatchLineMismatch {α : Type} (hunk : AgentSessionPatchHunk) (sourcePosition : Nat)
    (kind : String) : Except AppError α :=
  invalidAgentHunk hunk (kind ++ " line does not match source line " ++
    toString (sourcePosition + 1) ++ "; re-read and rebuild the hunk")

def tooManyLines {α : Type} : Except AppError α :=
  badRequest ("patched file has too many lines; maximum is " ++ toString maxAgentPatchLinesPerFile)

/-- How far the hunks have come: the source lines that are done, and the output. -/
structure PatchState where
  sourceCursor : Nat
  output : List PatchLine

/-- How far the lines of a hunk have come. -/
structure HunkState where
  output : List PatchLine
  (sourcePosition oldConsumed newProduced : Nat)

section

variable (source : PatchText)

variable (state : PatchState) (hunk : AgentSessionPatchHunk)

/-- The source line at which a hunk starts. A hunk without old lines inserts after `oldStart` lines;
the position before the next line is taken for it where `newStart` says so. -/
def hunkStart : Except AppError Nat :=
  if hunk.oldLines = 0 then
    if hunk.oldStart = state.sourceCursor + 1 && hunk.newStart = state.output.length + 1 then
      .ok state.sourceCursor
    else .ok hunk.oldStart
  else match hunk.oldStart with
    | 0 => invalidAgentHunk hunk "old_start must be at least 1 for a non-empty hunk"
    | before + 1 => .ok before

/-- The output position that a hunk must name. A hunk without new lines comes after the lines that
survive; the position before the next line is accepted as well. -/
def expectedNewStart (outputStart : Nat) (hunk : AgentSessionPatchHunk) : Nat :=
  if hunk.newLines = 0 then
    if hunk.newStart = outputStart + 1 then hunk.newStart else outputStart
  else outputStart + 1

/-- A line of a hunk against the source. -/
def matchLine (state : HunkState) :
    AgentSessionPatchLine → Except AppError HunkState
  | .context text =>
    match source.lines[state.sourcePosition]? with
    | some current =>
      if current.text ≠ text then agentPatchLineMismatch hunk state.sourcePosition "context"
      else .ok ⟨state.output ++ [current], state.sourcePosition + 1, state.oldConsumed + 1,
        state.newProduced + 1⟩
    | none => agentPatchLineMismatch hunk state.sourcePosition "context"
  | .remove text =>
    match source.lines[state.sourcePosition]? with
    | some current =>
      if current.text ≠ text then agentPatchLineMismatch hunk state.sourcePosition "removed"
      else .ok { state with
        sourcePosition := state.sourcePosition + 1
        oldConsumed := state.oldConsumed + 1 }
    | none => agentPatchLineMismatch hunk state.sourcePosition "removed"
  | .add text => .ok { state with
      output := state.output ++ [⟨text, source.preferredEnding⟩]
      newProduced := state.newProduced + 1 }

def hunkLine (state : HunkState) (line : AgentSessionPatchLine) : Except AppError HunkState := do
  let next ← matchLine source hunk state line
  if next.oldConsumed > hunk.oldLines || next.newProduced > hunk.newLines then
    invalidAgentHunk hunk "hunk line counts are smaller than the supplied lines"
  return next

def applyHunk : Except AppError PatchState := do
  let start ← hunkStart state hunk
  if start < state.sourceCursor || start > source.lines.length then
    invalidAgentHunk hunk "old_start is outside the source file"
  let output := state.output ++ (source.lines.take start).drop state.sourceCursor
  if hunk.newStart ≠ expectedNewStart output.length hunk then
    invalidAgentHunk hunk "hunks must be ordered and new_start must match the output position"
  let done ← hunk.lines.foldlM (hunkLine source hunk) ⟨output, start, 0, 0⟩
  if done.oldConsumed ≠ hunk.oldLines || done.newProduced ≠ hunk.newLines then
    invalidAgentHunk hunk
      "hunk line counts do not match the supplied context/add/remove lines"
  if done.output.length > maxAgentPatchLinesPerFile then tooManyLines
  return ⟨done.sourcePosition, done.output⟩

end

def applyAgentPatchHunks (original : String) (hunks : List AgentSessionPatchHunk) :
    Except AppError String := do
  let source ← PatchText.parse original maxAgentPatchLinesPerFile
  let state ← hunks.foldlM (applyHunk source) ⟨0, []⟩
  let output := state.output ++ source.lines.drop state.sourceCursor
  if output.length > maxAgentPatchLinesPerFile then tooManyLines
  source.render output maxAgentPatchFileBytes

end Nomifun.Source.File
