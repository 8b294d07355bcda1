import Nomifun.Guarantees.PatchRoundTrip

/-!
# Patches as unified diffs

A well-formed unified diff from the lines of a text to other lines is accepted, and the lines that
it produces are those it describes: lines of the text with their terminators, and added ones with
the first terminator of the text. The result reads as these lines unless two of them meet: a line
that ends with a lone CR, and after it an empty line that ends with LF, read as one line that ends
with CRLF.
-/
namespace Nomifun.Guarantees.UnifiedDiffs
open Library Source.File List

variable {source : PatchText} {hunk : AgentSessionPatchHunk} {state : PatchState} {old : Nat}
  {gap : List String} {rest : List String} {lines : List AgentSessionPatchLine} {original : String}
  {line : PatchLine}

/-! ### Unified diffs -/

/-- The lines that a hunk stands for in the source. -/
def oldTexts (lines : List AgentSessionPatchLine) : List String :=
  lines.filterMap fun
    | .context text | .remove text => some text
    | .add _ => none

/-- The lines that a hunk stands for in the target. -/
def newTexts (lines : List AgentSessionPatchLine) : List String :=
  lines.filterMap fun
    | .context text | .add text => some text
    | .remove _ => none

/-- The hunks lead from the rest of the source to the rest of the target, behind `old` lines of the
one and `new` lines of the other. A range without lines starts after the line it names. -/
inductive UnifiedDiff : (old new : Nat) → List String → List AgentSessionPatchHunk →
    List String → Prop where
  | done (old new : Nat) (rest : List String) : UnifiedDiff old new rest [] rest
  | hunk {old new : Nat} {gap rest target : List String} {hunk : AgentSessionPatchHunk}
    {hunks : List AgentSessionPatchHunk}
    (oldLines : hunk.oldLines = (oldTexts hunk.lines).length)
    (newLines : hunk.newLines = (newTexts hunk.lines).length)
    (oldStart : hunk.oldStart = old + gap.length + if hunk.oldLines = 0 then 0 else 1)
    (newStart : hunk.newStart = new + gap.length + if hunk.newLines = 0 then 0 else 1)
    (later : UnifiedDiff (old + gap.length + hunk.oldLines) (new + gap.length + hunk.newLines)
      rest hunks target) :
    UnifiedDiff old new (gap ++ oldTexts hunk.lines ++ rest) (hunk :: hunks)
      (gap ++ newTexts hunk.lines ++ target)

/-! ### The lines that a diff describes -/

/-- The lines that a hunk leaves of those from its start on. -/
def hunkTarget (added : LineEnding) : List PatchLine → List AgentSessionPatchLine → List PatchLine
  | _, [] => []
  | lines, .context _ :: more => lines.take 1 ++ hunkTarget added (lines.drop 1) more
  | lines, .add text :: more => ⟨text, added⟩ :: hunkTarget added lines more
  | lines, .remove _ :: more => hunkTarget added (lines.drop 1) more

/-- The lines that the hunks leave of those behind `old` lines. -/
def described (added : LineEnding) (old : Nat) (lines : List PatchLine) :
    List AgentSessionPatchHunk → List PatchLine
  | [] => lines
  | hunk :: hunks =>
    let gap := hunk.oldStart - (if hunk.oldLines = 0 then 0 else 1) - old
    lines.take gap ++ hunkTarget added (lines.drop gap) hunk.lines ++
      described added (old + gap + hunk.oldLines) (lines.drop (gap + hunk.oldLines)) hunks

def targetLines (original : String) (hunks : List AgentSessionPatchHunk) : List PatchLine :=
  let lines := logicalLines (stripBom original).2
  described (firstEnding lines) 0 lines hunks

/-- The terminator of a line that another one follows. -/
def endingIn (original : String) (line : PatchLine) : LineEnding :=
  if line.ending = .none then firstEnding (logicalLines (stripBom original).2) else line.ending

/-- The terminators of the two lines read as one. -/
def Joins (original : String) (line next : PatchLine) : Prop :=
  endingIn original line = .cr ∧ next.text = "" ∧ endingIn original next = .lf

instance decidableJoins (original : String) (line next : PatchLine) :
    Decidable (Joins original line next) :=
  inferInstanceAs (Decidable (_ ∧ _ ∧ _))

theorem hunkTarget_texts {old : List PatchLine}
    (texts : old.map (·.text) = oldTexts lines ++ rest) :
    (hunkTarget added old lines).map (·.text) = newTexts lines := by
  induction lines generalizing old with
  | nil => rfl
  | cons line lines ih =>
    cases line with
    | add text => exact congrArg (text :: ·) (ih texts)
    | context text =>
      obtain ⟨current, old, rfl, rfl, further⟩ := map_eq_cons_iff.mp texts
      exact congrArg (current.text :: ·) (ih further)
    | remove text =>
      obtain ⟨current, old, rfl, rfl, further⟩ := map_eq_cons_iff.mp texts
      exact ih further

/-! ### Applying the lines of a hunk -/

theorem drop_cons_of_texts (texts : (source.lines.drop position).map (·.text) = text :: rest) :
    ∃ line, source.lines[position]? = some line ∧ line.text = text ∧
      source.lines.drop position = line :: source.lines.drop (position + 1) ∧
      (source.lines.drop (position + 1)).map (·.text) = rest := by
  cases dropped : source.lines.drop position with
  | nil => simp [dropped] at texts
  | cons line more =>
    have later : source.lines.drop (position + 1) = more := by
      rw [← drop_drop, dropped]
      rfl
    rw [dropped, map_cons, cons.injEq] at texts
    refine ⟨line, ?_, texts.1, by rw [later], later ▸ texts.2⟩
    rw [← head?_drop, dropped]
    rfl

/-- The state behind some lines of a hunk that produced `produced`. -/
def HunkState.after (state : HunkState) (lines : List AgentSessionPatchLine)
    (produced : List PatchLine) : HunkState :=
  ⟨state.output ++ produced, state.sourcePosition + (oldTexts lines).length,
    state.oldConsumed + (oldTexts lines).length, state.newProduced + (newTexts lines).length⟩

/-- One line of a hunk, and what it leaves to the others. -/
theorem matchLine_ok {line : AgentSessionPatchLine} (state : HunkState)
    (texts : (source.lines.drop state.sourcePosition).map (·.text) = oldTexts [line] ++ rest) :
    ∃ produced, matchLine source hunk state line = .ok (HunkState.after state [line] produced) ∧
      (source.lines.drop (state.sourcePosition + (oldTexts [line]).length)).map (·.text) = rest ∧
      ∀ lines, hunkTarget source.preferredEnding (source.lines.drop state.sourcePosition)
        (line :: lines) = produced ++ hunkTarget source.preferredEnding
          (source.lines.drop (state.sourcePosition + (oldTexts [line]).length)) lines := by
  cases line with
  | add text => exact ⟨[⟨text, source.preferredEnding⟩], rfl, texts, fun _ => rfl⟩
  | context text =>
    obtain ⟨current, found, rfl, dropped, further⟩ := drop_cons_of_texts texts
    refine ⟨[current], ?_, further, fun lines => by rw [dropped]; rfl⟩
    simp [matchLine, found, HunkState.after, oldTexts, newTexts]
  | remove text =>
    obtain ⟨current, found, rfl, dropped, further⟩ := drop_cons_of_texts texts
    refine ⟨[], ?_, further, fun lines => by rw [dropped]; rfl⟩
    simp [matchLine, found, HunkState.after, oldTexts, newTexts]

theorem hunkLines_ok (state : HunkState)
    (texts : (source.lines.drop state.sourcePosition).map (·.text) = oldTexts lines ++ rest)
    (oldRoom : state.oldConsumed + (oldTexts lines).length ≤ hunk.oldLines)
    (newRoom : state.newProduced + (newTexts lines).length ≤ hunk.newLines) :
    lines.foldlM (hunkLine source hunk) state = .ok (HunkState.after state lines
        (hunkTarget source.preferredEnding (source.lines.drop state.sourcePosition) lines)) := by
  induction lines generalizing state with
  | nil => simp [HunkState.after, oldTexts, newTexts, hunkTarget, pure, Except.pure]
  | cons line lines ih =>
    have old : oldTexts (line :: lines) = oldTexts [line] ++ oldTexts lines :=
      filterMap_append (l := [line])
    have new : newTexts (line :: lines) = newTexts [line] ++ newTexts lines :=
      filterMap_append (l := [line])
    rw [old, append_assoc] at texts
    rw [old, length_append, ← Nat.add_assoc] at oldRoom
    rw [new, length_append, ← Nat.add_assoc] at newRoom
    obtain ⟨produced, matched, further, target⟩ := matchLine_ok state texts
    have folded := ih (HunkState.after state [line] produced) further oldRoom newRoom
    rw [foldlM_cons, bind_eq_ok]
    refine ⟨_, ?_, folded.trans ?_⟩
    · simp only [hunkLine, bind_eq_ok, invalidAgentHunk, badRequest, guard_eq_ok]
      refine ⟨_, matched, ?_, rfl⟩
      have old := Nat.le_trans (Nat.le_add_right _ _) oldRoom
      have new := Nat.le_trans (Nat.le_add_right _ _) newRoom
      simpa using ⟨old, new⟩
    · simp [HunkState.after, old, new, target, Nat.add_assoc]

/-! ### Applying the hunks -/

section

/-- The lines of the source between two positions. -/
def between (source : PatchText) (from' until' : Nat) : List PatchLine :=
  (source.lines.take until').drop from'

theorem take_drop_append (lines : List PatchLine) (le : first ≤ second) :
    (lines.take second).drop first ++ lines.drop second = lines.drop first := by
  obtain ⟨more, rfl⟩ := Nat.le.dest le
  rw [drop_take, Nat.add_sub_cancel_left, ← drop_drop, take_append_drop]

theorem between_append (le : first ≤ second) (le' : second ≤ third) :
    between source first second ++ between source second third = between source first third := by
  have joined := take_drop_append (source.lines.take third) le
  rwa [take_take, Nat.min_eq_left le'] at joined

theorem between_texts (texts : (source.lines.drop old).map (·.text) = gap ++ rest) :
    (between source old (old + gap.length)).map (·.text) = gap ∧
      (source.lines.drop (old + gap.length)).map (·.text) = rest := by
  unfold between
  rw [drop_take, Nat.add_sub_cancel_left, map_take, texts, ← drop_drop, map_drop, texts]
  exact ⟨take_left, drop_left⟩

/-- How far the code is when the diff is at `old` and `new`: lines may still have to be copied. -/
structure Lags (source : PatchText) (state : PatchState) (old new : Nat) : Prop where
  behind : state.sourceCursor ≤ old
  inside : old ≤ source.lines.length
  output : new = state.output.length + (old - state.sourceCursor)

/-- Where a hunk starts: where the diff is, or earlier if the hunk is empty. -/
theorem hunkStart_ok {new gap : Nat} (lags : Lags source state old new)
    (oldStart : hunk.oldStart = old + gap + if hunk.oldLines = 0 then 0 else 1)
    (newStart : hunk.newStart = new + gap + if hunk.newLines = 0 then 0 else 1) :
    hunkStart state hunk = .ok (old + gap) ∨ hunkStart state hunk = .ok state.sourceCursor ∧
      hunk.oldLines = 0 ∧ hunk.newLines = 0 ∧ hunk.newStart = state.output.length + 1 := by
  unfold hunkStart
  have output := lags.output
  by_cases empty : hunk.oldLines = 0
  · rw [if_pos empty] at oldStart ⊢
    split
    next alias' =>
      simp only [Bool.and_eq_true, decide_eq_true_eq] at alias'
      have behind := lags.behind
      refine .inr ⟨rfl, empty, ?_, alias'.2⟩
      by_contra produces
      rw [if_neg produces] at newStart
      omega
    next => exact .inl (congrArg Except.ok (by omega))
  · rw [if_neg empty] at oldStart ⊢
    rw [oldStart]
    exact .inl rfl

/-- What an accepted hunk leaves: the diff is behind the hunk, and the output with what is still to
be copied has got the lines up to the hunk and those that the hunk produced. -/
structure Applied (source : PatchText) (state next : PatchState) (hunk : AgentSessionPatchHunk)
    (start old new : Nat) : Prop where
  lags : Lags source next old new
  output : next.output ++ between source next.sourceCursor old =
    state.output ++ between source state.sourceCursor start ++
      hunkTarget source.preferredEnding (source.lines.drop start) hunk.lines

variable {new : Nat}

section

variable (lags : Lags source state old new)
  (oldLines : hunk.oldLines = (oldTexts hunk.lines).length)
  (newLines : hunk.newLines = (newTexts hunk.lines).length)
  (inside : old + gap.length ≤ source.lines.length)
  (few : new + gap.length + hunk.newLines ≤ maxAgentPatchLinesPerFile)
include lags oldLines newLines inside few

theorem applyHunk_empty (started : hunkStart state hunk = .ok state.sourceCursor)
    (noOld : hunk.oldLines = 0) (noNew : hunk.newLines = 0)
    (newStart : hunk.newStart = state.output.length + 1) :
    applyHunk source state hunk = .ok state ∧ Applied source state state hunk (old + gap.length)
      (old + gap.length + hunk.oldLines) (new + gap.length + hunk.newLines) := by
  have behind := lags.behind
  have output := lags.output
  have noTexts : newTexts hunk.lines = [] := length_eq_zero_iff.mp (newLines.symm.trans noNew)
  have noLines : hunk.lines = [] := by
    cases lines : hunk.lines with
    | nil => rfl
    | cons line rest =>
      rw [lines] at noTexts oldLines
      rw [noOld] at oldLines
      have noOldTexts := length_eq_zero_iff.mp oldLines.symm
      cases line <;> simp [oldTexts, newTexts] at noTexts noOldTexts
  refine ⟨?_, ⟨by omega, by omega, by omega⟩, ?_⟩
  · simp only [applyHunk, started, bind_eq_ok, invalidAgentHunk, tooManyLines, badRequest,
      guard_eq_ok]
    refine ⟨_, rfl, ?_, ?_, ⟨state.output, state.sourceCursor, 0, 0⟩, ?_, ?_, ?_, rfl⟩
    · have within := lags.inside
      simp only [Bool.or_eq_true, decide_eq_true_eq]
      omega
    · have nothing : (source.lines.take state.sourceCursor).drop state.sourceCursor = [] := by simp
      simp [expectedNewStart, noNew, newStart, nothing]
    · rw [noLines]
      simp [pure, Except.pure]
    · simp [noOld, noNew]
    · show ¬ state.output.length > maxAgentPatchLinesPerFile
      omega
  · rw [noOld, noLines, hunkTarget, append_nil]
    rfl

theorem applyHunk_here
    (texts : (source.lines.drop (old + gap.length)).map (·.text) = oldTexts hunk.lines ++ rest)
    (newStart : hunk.newStart = new + gap.length + if hunk.newLines = 0 then 0 else 1)
    (started : hunkStart state hunk = .ok (old + gap.length)) :
    ∃ next, applyHunk source state hunk = .ok next ∧
      Applied source state next hunk (old + gap.length) (old + gap.length + hunk.oldLines)
        (new + gap.length + hunk.newLines) := by
  have behind := lags.behind
  have output := lags.output
  let start : HunkState :=
    ⟨state.output ++ between source state.sourceCursor (old + gap.length), old + gap.length, 0, 0⟩
  let produced := hunkTarget source.preferredEnding (source.lines.drop (old + gap.length))
    hunk.lines
  have folded := hunkLines_ok start texts
    (show 0 + (oldTexts hunk.lines).length ≤ hunk.oldLines by omega)
    (show 0 + (newTexts hunk.lines).length ≤ hunk.newLines by omega)
  have copied : start.output.length = new + gap.length := by
    simp only [start, between, length_append, length_drop, length_take]
    omega
  have made : produced.length = hunk.newLines := by
    rw [newLines, ← hunkTarget_texts texts, length_map]
  have ends : old + gap.length + hunk.oldLines ≤ source.lines.length := by
    have lengths := congrArg length texts
    simp only [length_map, length_drop, length_append] at lengths
    omega
  refine ⟨⟨old + gap.length + hunk.oldLines, start.output ++ produced⟩, ?_, ?_⟩
  · simp only [applyHunk, started, bind_eq_ok, invalidAgentHunk, tooManyLines, badRequest,
      guard_eq_ok]
    refine ⟨_, rfl, ?_, ?_, _, folded, ?_, ?_, ?_⟩
    · simp only [Bool.or_eq_true, decide_eq_true_eq]
      omega
    · show ¬ hunk.newStart ≠ expectedNewStart start.output.length hunk
      rw [copied, expectedNewStart, newStart, not_not]
      split
      next => simp
      next => rfl
    · simp [HunkState.after, start, oldLines, newLines]
    · show ¬ (start.output ++ produced).length > maxAgentPatchLinesPerFile
      rw [length_append, copied, made]
      omega
    · simp only [HunkState.after, oldLines]
      rfl
  · refine ⟨⟨Nat.le_refl _, ends, ?_⟩, ?_⟩
    · rw [length_append, copied, made, Nat.sub_self, Nat.add_zero]
    · have nothing : between source (old + gap.length + hunk.oldLines)
          (old + gap.length + hunk.oldLines) = [] := by simp [between]
      rw [nothing, append_nil]

end

theorem hunks_ok (diff : UnifiedDiff old new rest hunks target) (lags : Lags source state old new)
    (texts : (source.lines.drop old).map (·.text) = rest)
    (few : new + target.length ≤ maxAgentPatchLinesPerFile) :
    (described source.preferredEnding old (source.lines.drop old) hunks).map (·.text) = target ∧
    ∃ next, hunks.foldlM (applyHunk source) state = .ok next ∧
      next.output ++ source.lines.drop next.sourceCursor =
        state.output ++ between source state.sourceCursor old ++
          described source.preferredEnding old (source.lines.drop old) hunks := by
  induction diff generalizing state with
  | done old new rest =>
    refine ⟨texts, state, rfl, ?_⟩
    rw [append_assoc, between, described, take_drop_append _ lags.behind]
  | @hunk old new gap rest target hunk hunks oldLines newLines oldStart newStart later ih =>
    rw [append_assoc] at texts
    obtain ⟨gapTexts, further⟩ := between_texts texts
    have lengths := congrArg length texts
    simp only [length_map, length_drop, length_append] at lengths few
    have within := lags.inside
    have inside : old + gap.length ≤ source.lines.length := by omega
    obtain ⟨next, done, effect⟩ : ∃ next, applyHunk source state hunk = .ok next ∧
        Applied source state next hunk (old + gap.length) (old + gap.length + hunk.oldLines)
          (new + gap.length + hunk.newLines) := by
      obtain here | ⟨early, noOld, noNew, named⟩ := hunkStart_ok lags oldStart newStart
      · exact applyHunk_here lags oldLines newLines inside (by omega) further newStart here
      · exact ⟨state, applyHunk_empty lags oldLines newLines inside (by omega) early noOld noNew
          named⟩
    have behindHunk : (source.lines.drop (old + gap.length + hunk.oldLines)).map (·.text) =
        rest := by
      rw [← drop_drop, map_drop, further, oldLines, drop_left]
    obtain ⟨laterTexts, final, folded, output⟩ := ih effect.lags behindHunk (by omega)
    have split : described source.preferredEnding old (source.lines.drop old) (hunk :: hunks) =
        between source old (old + gap.length) ++
          hunkTarget source.preferredEnding (source.lines.drop (old + gap.length)) hunk.lines ++
          described source.preferredEnding (old + gap.length + hunk.oldLines)
            (source.lines.drop (old + gap.length + hunk.oldLines)) hunks := by
      have start : hunk.oldStart - (if hunk.oldLines = 0 then 0 else 1) - old = gap.length := by
        omega
      simp only [described, start, drop_drop, between, drop_take, Nat.add_sub_cancel_left,
        Nat.add_assoc]
    rw [split]
    refine ⟨?_, final, ?_, ?_⟩
    · rw [map_append, map_append, gapTexts, laterTexts, hunkTarget_texts further]
    · rw [foldlM_cons, bind_eq_ok]
      exact ⟨next, done, folded⟩
    · rw [output, effect.output, ← between_append lags.behind (Nat.le_add_right old gap.length)]
      simp

end

/-! ### The guarantee -/

theorem terminate_texts (lines : List PatchLine) :
    (terminate patch lines).map (·.text) = lines.map (·.text.toList) := by
  induction lines with
  | nil => rfl
  | cons line lines ih => rw [terminate, map_cons, ih, map_cons]

/-- The rendered lines are terminated, as far as the last one needs it. -/
theorem terminated_terminate (ended : patch.preferredEnding ≠ .none) {lines : List PatchLine}
    (last : ∀ line, lines.getLast? = some line → line.text ≠ "" ∨ patch.trailingNewline = true) :
    LogicalLine.Terminated (terminate patch lines) := by
  have separates (line : PatchLine) : patch.separator line ≠ .none := by
    unfold PatchText.separator
    split
    next => exact ended
    next own => exact own
  induction lines with
  | nil => trivial
  | cons line lines ih =>
    cases lines with
    | nil =>
      have here := last line rfl
      simp only [terminate, LogicalLine.Terminated, isEmpty_nil, PatchText.endingOf, Bool.true_and]
      cases kept : patch.trailingNewline with
      | true => exact .inl (separates line)
      | false =>
        rw [kept] at here
        have nonempty := here.resolve_right Bool.false_ne_true
        exact .inr fun empty => nonempty (String.toList_eq_nil_iff.mp empty)
    | cons next rest =>
      have later := ih fun line found => last line (by rwa [getLast?_cons_cons])
      refine ⟨?_, later⟩
      simpa [PatchText.endingOf] using separates line

/-- The texts of the target are texts of the source and added ones. -/
theorem UnifiedDiff.forall_target {holds : String → Prop}
    (diff : UnifiedDiff old new rest hunks target) (source : ∀ text ∈ rest, holds text)
    (added : ∀ hunk ∈ hunks, ∀ text, .add text ∈ hunk.lines → holds text) :
    ∀ text ∈ target, holds text := by
  induction diff with
  | done => exact source
  | @hunk _ _ gap rest target hunk hunks _ _ _ _ _ ih =>
    simp only [forall_mem_append] at source ⊢
    obtain ⟨⟨inGap, inHunk⟩, behind⟩ := source
    rw [forall_mem_cons] at added
    refine ⟨⟨inGap, fun text made => ?_⟩, ih behind added.2⟩
    obtain ⟨line, listed, isNew⟩ := mem_filterMap.mp made
    cases line with
    | context quoted => exact inHunk text (mem_filterMap.mpr ⟨_, listed, isNew⟩)
    | add written => exact added.1 text (Option.some.inj isNew ▸ listed)
    | remove => cases isNew

theorem endingOf_eq (kept : atEnd = true → (parsedText original).trailingNewline = true) :
    (parsedText original).endingOf atEnd line = endingIn original line := by
  have same : (parsedText original).separator line = endingIn original line := by
    simp only [PatchText.separator, endingIn, parsedText]
  rw [PatchText.endingOf, same, if_neg]
  simpa using kept

/-- Rendered lines meet where the lines join; an empty line at the end has a terminator. -/
theorem isChain_terminate_iff {original : String} {lines : List PatchLine}
    (last : ∀ line, lines.getLast? = some line →
      line.text ≠ "" ∨ (parsedText original).trailingNewline = true) :
    (terminate (parsedText original) lines).IsChain (fun line next =>
        ¬ LogicalLine.Meets line next) ↔
      lines.IsChain fun line next => ¬ Joins original line next := by
  induction lines with
  | nil => simp [terminate]
  | cons line lines ih =>
    cases lines with
    | nil => simp [terminate]
    | cons next rest =>
      have later := ih fun line found => last line (by rwa [getLast?_cons_cons])
      rw [terminate, terminate, isChain_cons_cons, isChain_cons_cons, ← later, terminate]
      refine and_congr_left fun _ => not_congr ?_
      simp only [LogicalLine.Meets, Joins, String.toList_eq_nil_iff]
      have ending : (parsedText original).endingOf (next :: rest).isEmpty line =
          endingIn original line := endingOf_eq (by simp)
      rw [ending]
      refine and_congr_right fun _ => and_congr_right fun empty => ?_
      rw [endingOf_eq fun atEnd => ?_]
      obtain rfl := isEmpty_iff.mp atEnd
      exact (last next rfl).resolve_left fun nonempty => nonempty empty

/-- The lines of a text, as a patch sees them. -/
def linesOf (text : String) : List String := (logicalLines text).map (·.text)

theorem linesOf_renderedBody (patch : PatchText) (lines : List PatchLine) :
    linesOf (renderedBody patch lines) =
      ((LogicalLine.split [] (LogicalLine.join (terminate patch lines))).map (·.text)).map
        String.ofList := by
  rw [linesOf, logicalLines, renderedBody, String.toList_ofList, map_map, map_map]
  rfl

theorem map_ofList_inj {right : List String} :
    left.map String.ofList = right ↔ left = right.map String.toList := by
  constructor
  · rintro rfl
    simp [Function.comp_def]
  · rintro rfl
    simp [Function.comp_def]

/-- The text that a diff describes, behind the byte order mark. -/
def targetText (original : String) (hunks : List AgentSessionPatchHunk) : String :=
  renderedBody (parsedText original) (targetLines original hunks)

end Nomifun.Guarantees.UnifiedDiffs
