import Nomifun.Source.File.AgentPatch

/-!
# Patches that change nothing

A text that was split into lines is rendered as it was, whatever its terminators. A patch whose
hunks only quote the text therefore leaves it as it is.
-/
namespace Nomifun.Guarantees.PatchRoundTrip
open Library Source.File List

/-! ### Rendering what was parsed -/

section

variable {original : String} {patch : PatchText}

/-- The lines of a text are rendered with the terminators that they had. -/
theorem terminate_own (terminated : LogicalLine.Terminated lines)
    (trailing : patch.trailingNewline = lines.getLast?.any (·.ending ≠ .none)) :
    terminate patch (lines.map fun line => ⟨String.ofList line.text, line.ending⟩) = lines := by
  induction lines with
  | nil => rfl
  | cons line rest ih =>
    obtain ⟨text, ending⟩ := line
    rw [map_cons, terminate, String.toList_ofList]
    cases rest with
    | nil =>
      simp only [map_nil, terminate, isEmpty_nil, PatchText.endingOf, trailing, PatchText.separator]
      by_cases bare : ending = .none
      · simp [bare]
      · simp [bare]
    | cons next rest =>
      rw [ih terminated.2 (by simpa using trailing)]
      have own : patch.endingOf false ⟨String.ofList text, ending⟩ = ending := by
        simp only [PatchText.endingOf, Bool.false_and, PatchText.separator]
        simp [terminated.1]
      rw [map_cons, isEmpty_cons, own]

theorem renderedBody_own (original : String) : (parsedText original).bom ++
    renderedBody (parsedText original) (parsedText original).lines = original := by
  have trailing : (parsedText original).trailingNewline =
      (LogicalLine.split [] (stripBom original).2.toList).getLast?.any (·.ending ≠ .none) := by
    rw [parsedText, logicalLines, getLast?_map, Option.any_map]
  rw [renderedBody]
  show (stripBom original).1 ++ String.ofList (LogicalLine.join (terminate _
    ((LogicalLine.split [] (stripBom original).2.toList).map _))) = original
  rw [terminate_own (LogicalLine.terminated_split _ _) trailing, LogicalLine.join_split,
    nil_append, String.ofList_toList]
  exact (stripBom_eq original).symm

end

/-! ### Hunks of context -/

section

variable {source : PatchText} {hunk : AgentSessionPatchHunk}

def isContext : AgentSessionPatchLine → Bool
  | .context _ => true
  | .add _ | .remove _ => false

theorem hunkLine_context (context : isContext line = true)
    (copied : state.output = source.lines.take state.sourcePosition)
    (ok : hunkLine source hunk state line = .ok post) :
    post.output = source.lines.take post.sourcePosition := by
  cases line with
  | add | remove => cases context
  | context text =>
    simp only [hunkLine, bind_eq_ok, invalidAgentHunk, badRequest, guard_eq_ok] at ok
    obtain ⟨moved, matched, -, done⟩ := ok
    cases done
    cases found : source.lines[state.sourcePosition]? with
    | none =>
      simp [matchLine, found, agentPatchLineMismatch, invalidAgentHunk, badRequest] at matched
    | some current =>
      simp only [matchLine, found, agentPatchLineMismatch, invalidAgentHunk, badRequest,
        last_guard_eq_ok] at matched
      obtain rfl := Except.ok.inj matched.2
      rw [copied, take_add_one, found]
      rfl

theorem applyHunk_context (context : ∀ line ∈ hunk.lines, isContext line = true)
    (copied : state.output = source.lines.take state.sourceCursor)
    (ok : applyHunk source state hunk = .ok post) :
    post.output = source.lines.take post.sourceCursor := by
  simp only [applyHunk, bind_eq_ok, invalidAgentHunk, tooManyLines, badRequest, guard_eq_ok,
    Bool.or_eq_true, decide_eq_true_eq, not_or, Nat.not_lt] at ok
  obtain ⟨start, -, ⟨after, -⟩, -, done, folded, -, -, ok⟩ := ok
  cases ok
  refine foldlM_invariant (fun state : HunkState => state.output =
    source.lines.take state.sourcePosition) (fun state line post listed before stepped =>
      hunkLine_context (context line listed) before stepped) ?_ folded
  have shorter : source.lines.take state.sourceCursor =
      (source.lines.take start).take state.sourceCursor := by
    rw [take_take, Nat.min_eq_left after]
  rw [copied, shorter, take_append_drop]

end

/-! ### The guarantee -/

/-- A text within the limits is rendered back from its lines, and hunks that only quote it, where
they are accepted, return it. -/
theorem patch_text_round_trips (original : String) (maxLines maxBytes : Nat)
    (few : (logicalLines (stripBom original).2).length ≤ maxLines)
    (fits : original.utf8ByteSize ≤ maxBytes) :
    (∃ patch, PatchText.parse original maxLines = .ok patch ∧
      patch.render patch.lines maxBytes = .ok original) ∧
    ∀ (hunks : List AgentSessionPatchHunk) (result : String),
      original.utf8ByteSize ≤ maxAgentPatchFileBytes →
      (∀ hunk ∈ hunks, ∀ line ∈ hunk.lines, isContext line = true) →
      applyAgentPatchHunks original hunks = .ok result → result = original := by
  refine ⟨?_, fun hunks result small context ok => ?_⟩
  · have whole := renderedBody_own original
    refine ⟨_, parse_succeeds few, ?_⟩
    rw [render_eq (by rwa [whole]), whole]
  · simp only [applyAgentPatchHunks, bind_eq_ok, tooManyLines, badRequest, guard_eq_ok] at ok
    obtain ⟨source, read, state, folded, -, rendered⟩ := ok
    obtain rfl := parse_ok read
    have own := renderedBody_own original
    have copied : state.output = (parsedText original).lines.take state.sourceCursor :=
      foldlM_invariant (fun state : PatchState =>
        state.output = (parsedText original).lines.take state.sourceCursor)
        (fun state hunk next listed before applied =>
          applyHunk_context (context hunk listed) before applied) rfl folded
    rw [copied, take_append_drop, render_eq (by rwa [own]), own] at rendered
    exact (Except.ok.inj rendered).symm

/-- A text with a byte order mark and all three terminators. -/
def mixedText : String := "\ufeffa\r\nb\rc\nd"

theorem mixedText_round_trips :
    (∃ patch, PatchText.parse mixedText 4 = .ok patch ∧
      patch.render patch.lines 11 = .ok mixedText) ∧
    applyAgentPatchHunks mixedText [⟨2, 1, 2, 1, [.context "b"]⟩] = .ok mixedText := by
  have both := patch_text_round_trips mixedText 4 11 (by decide) (by decide)
  refine ⟨both.1, ?_⟩
  cases applied : applyAgentPatchHunks mixedText [⟨2, 1, 2, 1, [.context "b"]⟩] with
  | error refused =>
    have accepted : (applyAgentPatchHunks mixedText
      [⟨2, 1, 2, 1, [.context "b"]⟩]).toOption.isSome = true := by decide
    simp [applied, Except.toOption] at accepted
  | ok result =>
    rw [both.2 [⟨2, 1, 2, 1, [.context "b"]⟩] result (by decide) (by decide) applied]

end Nomifun.Guarantees.PatchRoundTrip
