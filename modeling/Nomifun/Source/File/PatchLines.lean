import Nomifun.Library.ByteOffsets
import Nomifun.Library.LogicalLines
import Nomifun.Source.AgentExecution.Execution

/-!
# The lines of a patched text

nomifun-file, agent_patch_lines.rs:1-77 and 82-137. A patch sees a text as lines that keep their
terminators. CR and LF are bytes of their own in UTF-8, so the scan over bytes is a scan over
characters; the offsets that the iterator also returns are used by the search only and left out.
`linePosition` numbers the line of a byte position for the pages of a text. Sizes are counted in
bytes and stay far below the range of `usize`.
-/
namespace Nomifun.Source.File
open Library Library.RustText List
open Source.AgentExecution (AppError)

def badRequest {α : Type} (message : String) : Except AppError α := .error (.badRequest message)

structure PatchLine where
  text : String
  ending : LineEnding

variable {lines : List PatchLine}

structure PatchText where
  lines : List PatchLine
  preferredEnding : LineEnding
  /-- The byte order mark, or nothing. -/
  bom : String
  trailingNewline : Bool

def logicalLines (text : String) : List PatchLine :=
  (LogicalLine.split [] text.toList).map fun line => ⟨String.ofList line.text, line.ending⟩

/-- The loop of `line_position`: the position of the character that is next, the number of its line
and the position where that line starts. -/
def scanPosition (offset : Nat) (at_ line lineStart : Nat) : List Char → Nat × Nat
  | [] => (line, offset - lineStart + 1)
  | '\n' :: rest =>
    if at_ < offset then scanPosition offset (at_ + 1) (line + 1) (at_ + 1) rest
    else (line, offset - lineStart + 1)
  | '\r' :: '\n' :: rest =>
    if at_ + 2 ≤ offset then scanPosition offset (at_ + 2) (line + 1) (at_ + 2) rest
    else (line, offset - lineStart + 1)
  | '\r' :: rest =>
    if at_ < offset then scanPosition offset (at_ + 1) (line + 1) (at_ + 1) rest
    else (line, offset - lineStart + 1)
  | c :: rest =>
    if at_ < offset then scanPosition offset (at_ + c.utf8Size) line lineStart rest
    else (line, offset - lineStart + 1)

/-- The number of the line of a byte position, and the position in that line, both from one. -/
def linePosition (text : List Char) (offset : Nat) : Nat × Nat := scanPosition offset 0 1 0 text

/-- The byte order mark and the text after it. -/
def stripBom (original : String) : String × String :=
  match stripStart "\ufeff" original with
  | some text => ("\ufeff", text)
  | none => ("", original)

namespace PatchText

/-- The loop of `parse`: the lines so far and the first terminator among them. -/
def pushLine (maxLines : Nat) (state : List PatchLine × Option LineEnding) (line : PatchLine) :
    Except AppError (List PatchLine × Option LineEnding) := do
  if state.1.length ≥ maxLines then
    badRequest "patch source exceeds the bounded logical line count"
  return (state.1 ++ [line], if line.ending = .none then state.2 else state.2.or (some line.ending))

def parse (original : String) (maxLines : Nat) : Except AppError PatchText := do
  let (bom, text) := stripBom original
  let (lines, firstEnding) ← (logicalLines text).foldlM (pushLine maxLines) ([], none)
  return {
    lines := lines
    preferredEnding := firstEnding.getD .lf
    bom := bom
    trailingNewline := lines.getLast?.any (·.ending ≠ .none) }

variable (patch : PatchText)

/-- A line that had no terminator gets one where another line follows it. -/
def separator (line : PatchLine) : LineEnding :=
  if line.ending = .none then patch.preferredEnding else line.ending

/-- The terminator of a rendered line; the end of the text is kept as it was. -/
def endingOf (last : Bool) (line : PatchLine) : LineEnding :=
  if last && !patch.trailingNewline then .none else patch.separator line

/-- One round of the loop of `render`. -/
def renderLine (count maxBytes : Nat) (result : String) (entry : PatchLine × Nat) :
    Except AppError String := do
  let (line, index) := entry
  let ending := patch.endingOf (index + 1 = count) line
  let next := result ++ line.text ++ String.ofList ending.chars
  if next.utf8ByteSize > maxBytes then
    badRequest ("patched file exceeds the " ++ toString maxBytes ++ " byte per-file limit")
  return next

def render (lines : List PatchLine) (maxBytes : Nat) : Except AppError String := do
  let result ← lines.zipIdx.foldlM (patch.renderLine lines.length maxBytes) patch.bom
  if result.utf8ByteSize > maxBytes then badRequest "patch text prefix exceeds the byte limit"
  return result

end PatchText

/-! ### Parsing -/

/-- The first terminator of the lines. -/
def firstEnding (lines : List PatchLine) : LineEnding :=
  ((lines.map (·.ending)).find? (· ≠ .none)).getD .lf

/-- What `parse` finds. -/
def parsedText (original : String) : PatchText :=
  let lines := logicalLines (stripBom original).2
  ⟨lines, firstEnding lines, (stripBom original).1, lines.getLast?.any (·.ending ≠ .none)⟩

theorem firstEnding_ne_none (lines : List PatchLine) : firstEnding lines ≠ .none := by
  unfold firstEnding
  cases found : (lines.map (·.ending)).find? (· ≠ .none) with
  | none => exact LineEnding.noConfusion
  | some ending => simpa using find?_some found

section

variable {original : String} {patch : PatchText}

theorem pushLines_ok (ok : lines.foldlM (PatchText.pushLine maxLines) ([], none) = .ok state) :
    state = (lines, (lines.map (·.ending)).find? (· ≠ .none)) := by
  refine foldlM_history (fun seen state => state = (seen, (seen.map PatchLine.ending).find?
    (· ≠ .none))) ?_ rfl ok
  rintro seen _ line next rfl pushed
  simp only [PatchText.pushLine, badRequest, guard_eq_ok] at pushed
  obtain rfl := Except.ok.inj pushed.2
  rw [map_append, find?_append]
  by_cases bare : line.ending = .none
  · simp [bare]
  · simp [bare]

theorem pushLines_succeeds (few : lines.length ≤ maxLines) :
    ∃ state, lines.foldlM (PatchText.pushLine maxLines) ([], none) = .ok state := by
  refine (foldlM_succeeds (fun seen (state : List PatchLine × Option LineEnding) => state.1 = seen)
    (fun seen state line rest split same => ?_) rfl).imp fun _ done => done.1
  have room : ¬ state.1.length ≥ maxLines := by
    rw [split, length_append, length_cons, ← same] at few
    omega
  refine ⟨(state.1 ++ [line], if line.ending = .none then state.2
    else state.2.or (some line.ending)), ?_, by rw [same]⟩
  simp only [PatchText.pushLine, badRequest, guard_eq_ok]
  exact ⟨room, rfl⟩

theorem stripBom_eq (original : String) :
    original = (stripBom original).1 ++ (stripBom original).2 := by
  unfold stripBom
  cases stripped : stripStart "\ufeff" original with
  | none => exact String.empty_append.symm
  | some text => exact stripStart_eq_some stripped

theorem parse_ok (ok : PatchText.parse original maxLines = .ok patch) :
    patch = parsedText original := by
  simp only [PatchText.parse, bind_eq_ok] at ok
  obtain ⟨state, pushed, ok⟩ := ok
  cases pushLines_ok pushed
  exact (Except.ok.inj ok).symm

theorem parse_succeeds (few : (logicalLines (stripBom original).2).length ≤ maxLines) :
    PatchText.parse original maxLines = .ok (parsedText original) := by
  obtain ⟨state, pushed⟩ := pushLines_succeeds few
  cases pushLines_ok pushed
  simp only [PatchText.parse, pushed]
  rfl

end

/-! ### Rendering -/

variable (patch : PatchText)

/-- The lines with the terminators that they are rendered with. -/
def terminate : List PatchLine → List LogicalLine
  | [] => []
  | line :: rest => ⟨line.text.toList, patch.endingOf rest.isEmpty line⟩ :: terminate rest

/-- The rendered text behind the byte order mark. -/
def renderedBody (lines : List PatchLine) : String :=
  String.ofList (LogicalLine.join (terminate patch lines))

theorem renderedBody_cons (line : PatchLine) (rest : List PatchLine) :
    renderedBody patch (line :: rest) = line.text ++
      String.ofList (patch.endingOf rest.isEmpty line).chars ++ renderedBody patch rest := by
  refine String.toList_inj.mp ?_
  simp [renderedBody, terminate, LogicalLine.join]

variable {patch}

theorem renderLines_eq {count start : Nat} (whole : start + lines.length = count)
    (fits : (result ++ renderedBody patch lines).utf8ByteSize ≤ maxBytes) :
    (lines.zipIdx start).foldlM (patch.renderLine count maxBytes) result =
      .ok (result ++ renderedBody patch lines) := by
  induction lines generalizing start result with
  | nil => simp [renderedBody, terminate, LogicalLine.join, pure, Except.pure]
  | cons line lines ih =>
    rw [length_cons] at whole
    have last : decide (start + 1 = count) = lines.isEmpty := by
      cases lines with
      | nil => simpa using whole
      | cons next rest =>
        rw [length_cons] at whole
        simp only [isEmpty_cons, decide_eq_false_iff_not]
        omega
    have rounded : result ++ renderedBody patch (line :: lines) =
        result ++ line.text ++ String.ofList (patch.endingOf lines.isEmpty line).chars ++
          renderedBody patch lines := by
      rw [renderedBody_cons]
      simp [String.append_assoc]
    rw [rounded] at fits ⊢
    have room : ¬ (result ++ line.text ++
        String.ofList (patch.endingOf lines.isEmpty line).chars).utf8ByteSize > maxBytes := by
      rw [String.utf8ByteSize_append] at fits
      omega
    rw [zipIdx_cons, foldlM_cons, bind_eq_ok]
    refine ⟨_, ?_, ih (by omega) fits⟩
    simp only [PatchText.renderLine, badRequest, guard_eq_ok, last]
    exact ⟨room, rfl⟩

theorem render_eq (fits : (patch.bom ++ renderedBody patch lines).utf8ByteSize ≤ maxBytes) :
    patch.render lines maxBytes = .ok (patch.bom ++ renderedBody patch lines) := by
  have rendered := renderLines_eq (Nat.zero_add lines.length) fits
  simp only [PatchText.render, rendered, badRequest]
  rw [bind_eq_ok]
  refine ⟨_, rfl, ?_⟩
  rw [guard_eq_ok]
  exact ⟨Nat.not_lt.mpr fits, rfl⟩

end Nomifun.Source.File
