import Nomifun.Source.File.AgentTextRead

/-!
# Pages that start at a line

A request names a line by its number, and the page names the line that it starts in. The first
number counts line feeds, the second counts the lines of patches, for which a lone carriage return
ends a line too. The two agree exactly when none of the lines before the requested one ends with a
lone carriage return.
-/
namespace Nomifun.Guarantees.LineSelection
open Library Library.ByteOffsets Source.File List
open LogicalLine (split join)
open Source.AgentExecution (AppError)

variable {before after : List LogicalLine} {lines : List LogicalLine} {offset position : Nat}
  {text : List Char}

/-! ### The position of a line -/

theorem join_cons (line : LogicalLine) (rest : List LogicalLine) :
    bytes (join (line :: rest)) =
      bytes line.text + bytes line.ending.chars + bytes (join rest) := by
  simp [join, Nat.add_assoc]

/-- The scan stops at the position. -/
theorem scanPosition_stopped (reached : offset ≤ position) (line lineStart : Nat)
    (text : List Char) :
    scanPosition offset position line lineStart text = (line, offset - lineStart + 1) := by
  unfold scanPosition
  split
  · rfl
  · exact if_neg (by omega)
  · exact if_neg (by omega)
  · exact if_neg (by omega)
  · exact if_neg (by omega)

/-- A column in the first line is not behind its text. -/
theorem column_le
    (inside : column = 0 ∨ ∃ own later, after = own :: later ∧ column ≤ bytes own.text)
    (first : after = own :: rest) : column ≤ bytes own.text := by
  rcases inside with rfl | ⟨other, later, same, short⟩
  · exact Nat.zero_le _
  · rw [first] at same
    cases same
    exact short

/-- The scan goes on behind the end of a line. -/
theorem scanPosition_ending {ending : LineEnding} (isEnd : ending ≠ .none)
    (apart : ending = .cr → rest.head? ≠ some '\n')
    (behind : position + bytes ending.chars ≤ offset) (line lineStart : Nat) :
    scanPosition offset position line lineStart (ending.chars ++ rest) =
      scanPosition offset (position + bytes ending.chars) (line + 1)
        (position + bytes ending.chars) rest := by
  have one : '\n'.utf8Size = 1 ∧ '\r'.utf8Size = 1 := by decide
  cases ending with
  | none => exact absurd rfl isEnd
  | lf =>
    simp only [LineEnding.chars, bytes_cons, bytes_nil, one] at behind ⊢
    rw [singleton_append, scanPosition, if_pos (by omega)]
  | crlf =>
    simp only [LineEnding.chars, bytes_cons, bytes_nil, one] at behind ⊢
    rw [cons_append, singleton_append, scanPosition, if_pos (by omega)]
  | cr =>
    simp only [LineEnding.chars, bytes_cons, bytes_nil, one] at behind ⊢
    rw [singleton_append, scanPosition, if_pos (by omega)]
    rintro later rfl
    exact apart rfl rfl

/-- Where the scan has read `current` of the line that starts at `lineStart`, and the position is
`column` bytes behind the lines `before`. -/
def Positioned (current text : List Char) (before : List LogicalLine) (column : Nat) : Prop :=
  ∀ line lineStart, scanPosition (lineStart + bytes (join before) + column)
    (lineStart + bytes current) line lineStart text = (line + before.length, column + 1)

theorem positioned_ended {current rest : List Char} {ending : LineEnding}
    {before after : List LogicalLine} {column : Nat}
    (apart : ending = .cr → rest.head? ≠ some '\n')
    (lines : ⟨current, ending⟩ :: split [] rest = before ++ after)
    (ended : ∀ earlier ∈ before, earlier.ending ≠ .none)
    (inside : column = 0 ∨ ∃ own later, after = own :: later ∧ column ≤ bytes own.text)
    (ih : ∀ before, split [] rest = before ++ after →
      (∀ earlier ∈ before, earlier.ending ≠ .none) → Positioned [] rest before column) :
    Positioned current (ending.chars ++ rest) before column := by
  intro line lineStart
  cases before with
  | nil =>
    have short := column_le inside lines.symm
    rw [scanPosition_stopped (by simpa [join] using short)]
    simp [join]
  | cons first earlier =>
    obtain ⟨rfl, later⟩ := cons.inj lines
    rw [forall_mem_cons] at ended
    have step := ih earlier later ended.2 (line + 1)
      (lineStart + bytes current + bytes ending.chars)
    rw [join_cons, scanPosition_ending ended.1 apart (by simp only; omega)]
    rw [bytes_nil, Nat.add_zero] at step
    simp only [← Nat.add_assoc, length_cons] at step ⊢
    rw [step, Nat.add_right_comm]

/-- A position that is some bytes behind the start of a line, and not behind the text of it. -/
theorem positioned_line (lines : split current text = before ++ after)
    (ended : ∀ earlier ∈ before, earlier.ending ≠ .none)
    (inside : column = 0 ∨ ∃ own later, after = own :: later ∧ column ≤ bytes own.text) :
    Positioned current text before column := by
  fun_induction split current text generalizing before with
  | case1 =>
    obtain ⟨rfl, rfl⟩ := append_eq_nil_iff.mp lines.symm
    intro line lineStart
    rw [scanPosition]
    simp [join]
  | case2 current nonempty =>
    cases before with
    | nil =>
      intro line lineStart
      rw [scanPosition]
      simp [join]
    | cons first earlier =>
      obtain ⟨rfl, _⟩ := cons.inj lines
      exact absurd rfl (ended _ mem_cons_self)
  | case3 current rest ih =>
    exact @positioned_ended current rest .lf before after column (by simp) lines ended inside
      fun _ => ih
  | case4 current rest ih =>
    exact @positioned_ended current rest .crlf before after column (by simp) lines ended inside
      fun _ => ih
  | case5 current rest single ih =>
    refine @positioned_ended current rest .cr before after column (fun _ starts => ?_) lines ended
      inside fun _ => ih
    obtain ⟨later, rfl⟩ := head?_eq_some_iff.mp starts
    exact single later rfl
  | case6 current c rest notLf notCrLf notCr ih =>
    have step := ih lines ended
    intro line lineStart
    have goesOn := step line lineStart
    rw [bytes_append, bytes_cons, bytes_nil, Nat.add_zero, ← Nat.add_assoc] at goesOn
    by_cases reached : lineStart + bytes (join before) + column ≤ lineStart + bytes current
    · rw [scanPosition_stopped reached]
      rw [scanPosition_stopped (by omega)] at goesOn
      exact goesOn
    · rw [scanPosition, if_pos (Nat.lt_of_not_le reached)]
      · exact goesOn
      · exact notLf
      · exact notCrLf
      · exact notCr

/-! ### The line feeds of a text -/

def endsWithFeed (line : LogicalLine) : Bool := line.ending = .lf || line.ending = .crlf

/-- The positions of the line feeds that end lines. -/
def feeds (start : Nat) : List LogicalLine → List Nat
  | [] => []
  | line :: rest =>
    let next := start + bytes line.text + bytes line.ending.chars
    (if endsWithFeed line then [next - 1] else []) ++ feeds next rest

theorem matchIndices_eq_feeds (start : Nat) (current text : List Char) :
    matchIndices '\n' (start + bytes current) text = feeds start (split current text) := by
  have one : '\n'.utf8Size = 1 ∧ '\r'.utf8Size = 1 := by decide
  fun_induction split current text generalizing start with
  | case1 => rfl
  | case2 current nonempty => rfl
  | case3 current rest ih =>
    have next := ih (start + bytes current + 1)
    simpa [matchIndices, feeds, endsWithFeed, LineEnding.chars, one] using next
  | case4 current rest ih =>
    have next := ih (start + bytes current + 2)
    simpa [matchIndices, feeds, endsWithFeed, LineEnding.chars, one] using next
  | case5 current rest single ih =>
    have next := ih (start + bytes current + 1)
    simpa [matchIndices, feeds, endsWithFeed, LineEnding.chars, one] using next
  | case6 current c rest notLf _ _ ih =>
    have other : c ≠ '\n' := notLf
    have next := ih start
    simpa [matchIndices, other, Nat.add_assoc] using next

theorem feeds_length (start : Nat) (lines : List LogicalLine) :
    (feeds start lines).length = lines.countP endsWithFeed := by
  induction lines generalizing start with
  | nil => rfl
  | cons line rest ih =>
    rw [feeds, length_append, ih, countP_cons]
    split <;> simp [Nat.add_comm]

/-- The line that a line feed ends. -/
theorem feeds_get {start count index : Nat} (found : (feeds start lines)[count]? = some index) :
    ∃ before line after, lines = before ++ line :: after ∧ endsWithFeed line = true ∧
      before.countP endsWithFeed = count ∧ index + 1 = start + bytes (join (before ++ [line])) := by
  induction lines generalizing start count with
  | nil => cases found
  | cons line rest ih =>
    rw [feeds] at found
    by_cases feed : endsWithFeed line = true
    · rw [if_pos feed] at found
      cases count with
      | zero =>
        have nonempty : 0 < bytes line.ending.chars := by
          rcases line with ⟨text, ending⟩
          cases ending <;> simp [endsWithFeed, LineEnding.chars, Char.utf8Size_pos] at feed ⊢
        cases found
        refine ⟨[], line, rest, rfl, feed, rfl, ?_⟩
        rw [nil_append, join_cons]
        simp only [join, flatMap_nil, bytes_nil]
        omega
      | succ count =>
        obtain ⟨before, last, after, rfl, ends, counted, position⟩ := ih found
        refine ⟨line :: before, last, after, rfl, ends, ?_, ?_⟩
        · rw [countP_cons_of_pos feed, counted]
        · rw [cons_append, join_cons, position]
          omega
    · rw [if_neg feed] at found
      obtain ⟨before, last, after, rfl, ends, counted, position⟩ := ih found
      refine ⟨line :: before, last, after, rfl, ends, ?_, ?_⟩
      · rw [countP_cons_of_neg feed, counted]
      · rw [cons_append, join_cons, position]
        omega

/-! ### The position that a line number selects -/

theorem terminated_append (terminated : LogicalLine.Terminated (before ++ line :: after)) :
    (∀ earlier ∈ before, earlier.ending ≠ .none) ∧ LogicalLine.Terminated (line :: after) := by
  induction before with
  | nil => exact ⟨nofun, terminated⟩
  | cons first before ih =>
    obtain ⟨ended, rest⟩ := ih terminated.tail
    refine ⟨forall_mem_cons.mpr ⟨?_, ended⟩, rest⟩
    cases before <;> exact terminated.1

theorem linePosition_line {text : List Char} {before after : List LogicalLine}
    (lines : split [] text = before ++ after) (ended : ∀ earlier ∈ before, earlier.ending ≠ .none) :
    linePosition text (bytes (join before)) = (before.length + 1, 1) := by
  have found := positioned_line lines ended (.inl rfl) 1 0
  rw [bytes_nil, Nat.zero_add, Nat.add_comm 1] at found
  exact found

/-- The end of a text is behind its last line, or in it. -/
theorem linePosition_end (lines : split [] text = before ++ [last]) :
    linePosition text (bytes text) = (before.length + 2, 1) ∨
      ∃ column, linePosition text (bytes text) = (before.length + 1, column + 2) := by
  have terminated := LogicalLine.terminated_split [] text
  have whole : text = join (before ++ [last]) := by
    rw [← lines, LogicalLine.join_split, nil_append]
  rw [lines] at terminated
  obtain ⟨ended, alone⟩ := terminated_append terminated
  by_cases open_ : last.ending = .none
  · refine .inr ?_
    have own : last.text ≠ [] := alone.resolve_left (not_not_intro open_)
    have found := positioned_line lines ended (.inr ⟨last, [], rfl, Nat.le_refl _⟩) 1 0
    have size : bytes text = bytes (join before) + bytes last.text := by
      rw [whole]
      simp [join, open_, LineEnding.chars]
    have positive : 0 < bytes last.text := Nat.pos_of_ne_zero fun zero => own (bytes_eq_zero zero)
    refine ⟨bytes last.text - 1, ?_⟩
    rw [bytes_nil, Nat.zero_add, Nat.add_comm 1, ← size] at found
    rw [linePosition, found]
    congr 1
    omega
  · refine .inl ?_
    have all : ∀ line ∈ before ++ [last], line.ending ≠ .none := by
      rw [forall_mem_append, forall_mem_singleton]
      exact ⟨ended, open_⟩
    have found := @linePosition_line text (before ++ [last]) [] (by simpa using lines) all
    rw [← whole] at found
    simpa using found

/-- Lines that end and not with a lone carriage return end with a line feed. -/
theorem countP_feeds (ended : ∀ line ∈ lines, line.ending ≠ .none) :
    (∀ line ∈ lines, line.ending ≠ .cr) ↔ lines.countP endsWithFeed = lines.length := by
  refine (forall₂_congr fun line member => ?_).trans countP_eq_length.symm
  unfold endsWithFeed
  cases ending : line.ending <;> simp_all

theorem selected_position_iff {n : Nat} (positive : 0 < n) (enough : n ≤ (split [] text).length) :
    linePosition text (startOfLine text n) = (n, 1) ↔
      ∀ line ∈ (split [] text).take (n - 1), line.ending ≠ .cr := by
  obtain rfl | ⟨k, rfl⟩ : n = 1 ∨ ∃ k, n = k + 2 := by
    rcases n with _ | _ | k
    · cases positive
    · exact .inl rfl
    · exact .inr ⟨k, rfl⟩
  · have first : linePosition text (startOfLine text 1) = (1, 1) :=
      scanPosition_stopped (Nat.le_refl 0) 1 0 text
    simp [first]
  have terminated := LogicalLine.terminated_split [] text
  -- The lines before the requested one end, since it is there.
  have endedTake : ∀ line ∈ (split [] text).take (k + 1), line.ending ≠ .none := by
    have more : k + 1 < (split [] text).length := by omega
    rw [← take_append_drop (k + 1) (split [] text), drop_eq_getElem_cons more] at terminated
    exact (terminated_append terminated).1
  have takeLength : ((split [] text).take (k + 1)).length = k + 1 := by
    rw [length_take]
    omega
  have selected : startOfLine text (k + 2) = behindLineFeed text k := by simp [startOfLine]
  rw [selected, show k + 2 - 1 = k + 1 from rfl]
  unfold behindLineFeed
  have indices := matchIndices_eq_feeds 0 [] text
  rw [bytes_nil] at indices
  rw [indices]
  cases found : (feeds 0 (split [] text))[k]? with
  | some index =>
    obtain ⟨before, line, after, lines, feed, counted, position⟩ := feeds_get found
    rw [lines] at terminated endedTake takeLength ⊢
    have ended : ∀ l ∈ before ++ [line], l.ending ≠ .none := by
      rw [forall_mem_append, forall_mem_singleton]
      refine ⟨(terminated_append terminated).1, fun none => ?_⟩
      simp [endsWithFeed, none] at feed
    have place := @linePosition_line text (before ++ [line]) after (by simpa using lines) ended
    rw [length_append, length_singleton] at place
    dsimp only
    rw [position, Nat.zero_add, place, Prod.mk.injEq]
    have atMost := countP_le_length (p := endsWithFeed) (l := before)
    rw [countP_feeds endedTake, takeLength]
    constructor
    · rintro ⟨same, _⟩
      have length : (before ++ [line]).length = k + 1 := by
        rw [length_append, length_singleton]
        omega
      rw [append_cons, take_left' length, countP_append, counted, countP_singleton, if_pos feed]
    · refine fun all => ⟨?_, rfl⟩
      by_contra different
      have longer : k + 1 ≤ before.length := by omega
      rw [take_append_of_le_length longer] at all
      have some := List.Sublist.countP_le (p := endsWithFeed) (take_sublist (k + 1) before)
      omega
  | none =>
    have few := getElem?_eq_none_iff.mp found
    rw [feeds_length] at few
    have nonempty : split [] text ≠ [] := by
      intro none
      rw [none] at enough
      cases enough
    have lines := (dropLast_append_getLast nonempty).symm
    have length := congrArg length lines
    rw [length_append, length_singleton] at length
    constructor
    · intro same
      rcases linePosition_end lines with behind | ⟨column, within⟩
      · rw [behind, Prod.mk.injEq] at same
        omega
      · rw [within, Prod.mk.injEq] at same
        omega
    · intro notCr
      have all := (countP_feeds endedTake).mp notCr
      have some := List.Sublist.countP_le (p := endsWithFeed)
        (take_sublist (k + 1) (split [] text))
      omega

/-! ### Requests by lines -/

section

variable {digest : List UInt8 → String} {request : AgentTextReadRequest} {source : List UInt8}
  {sha256 : String} {workspacePath : Option WorkspacePathObservation} {page : AgentTextPage}

/-- What an accepted request comes to. -/
theorem projectAgentTextPage_ok
    (ok : projectAgentTextPage digest request source sha256 workspacePath = .ok page) :
    validateAgentTextReadRequest request = .ok () ∧ ∃ text, decodeSourceText source = .ok text ∧
      Source.File.page (selectLines request text) text sha256 workspacePath = .ok page := by
  obtain ⟨_, valid, ok⟩ := bind_eq_ok.mp ok
  obtain ⟨_, ok⟩ := last_guard_eq_ok.mp ok
  obtain ⟨_, ok⟩ := last_guard_eq_ok.mp ok
  obtain ⟨text, decoded, ok⟩ := bind_eq_ok.mp ok
  obtain ⟨_, ok⟩ := last_guard_eq_ok.mp ok
  exact ⟨valid, text, decoded, ok⟩

theorem valid_startLine (valid : validateAgentTextReadRequest request = .ok ())
    (named : request.startLine = some n) : 0 < n := by
  unfold validateAgentTextReadRequest at valid
  obtain ⟨accepted, valid⟩ := last_guard_eq_ok.mp valid
  rw [named] at accepted
  refine Nat.pos_of_ne_zero fun zero => accepted ?_
  simp [zero]

end

/-- The loop returns the page of an end that it tried. -/
theorem shrinkPage_ok {page : AgentTextPage}
    (ok : shrinkPage request text sha256 workspacePath stop = .ok page) :
    ∃ tried, page = pageTo request text sha256 workspacePath tried := by
  fun_induction shrinkPage request text sha256 workspacePath stop with
  | case1 stop => exact ⟨stop, (Except.ok.inj ok).symm⟩
  | case2 => cases ok
  | case3 => cases ok
  | case4 _ _ _ _ _ _ ih => exact ih ok

/-- A page that was requested by the number of a line, where the text has as many lines, starts at
that line exactly when none of the lines before it ends with a lone carriage return. -/
theorem selected_line_iff (digest : List UInt8 → String) (request : AgentTextReadRequest)
    (source : List UInt8) (sha256 : String) (workspacePath : Option WorkspacePathObservation)
    (text : List Char) (page : AgentTextPage) (n : Nat) (named : request.startLine = some n)
    (decoded : decodeSourceText source = .ok text)
    (enough : n ≤ (logicalLines (String.ofList text)).length)
    (ok : projectAgentTextPage digest request source sha256 workspacePath = .ok page) :
    (page.startLine = n ∧ page.startColumnBytes = 1) ↔
      ∀ line ∈ (logicalLines (String.ofList text)).take (n - 1), line.ending ≠ .cr := by
  obtain ⟨valid, other, same, ok⟩ := projectAgentTextPage_ok ok
  rw [decoded] at same
  cases same
  have offset : (selectLines request text).offset = startOfLine text n := by
    simp [selectLines, named]
  obtain ⟨_, ok⟩ := last_guard_eq_ok.mp ok
  obtain ⟨stop, rfl⟩ := shrinkPage_ok ok
  have place : linePosition text (selectLines request text).offset =
      ((pageTo (selectLines request text) text sha256 workspacePath stop).startLine,
        (pageTo (selectLines request text) text sha256 workspacePath stop).startColumnBytes) := rfl
  rw [offset] at place
  have lines : logicalLines (String.ofList text) =
      (split [] text).map fun line => ⟨String.ofList line.text, line.ending⟩ := by
    rw [logicalLines, String.toList_ofList]
  rw [lines, length_map] at enough
  rw [lines, ← map_take, forall_mem_map,
    ← selected_position_iff (valid_startLine valid named) enough, place, Prod.mk.injEq]

def lineHost (_ : List UInt8) : String := ""

def lineRequest (line : Nat) : AgentTextReadRequest :=
  ⟨"text", 0, maxPageBytes, none, some line, none⟩

/-- The text `a`, CRLF, `b`: the second line is selected. -/
theorem second_line_selected : ∃ page,
    projectAgentTextPage lineHost (lineRequest 2) [97, 13, 10, 98] "" none = .ok page ∧
      page.startLine = 2 ∧ page.startColumnBytes = 1 := by
  have ran : (projectAgentTextPage lineHost (lineRequest 2) [97, 13, 10, 98] ""
      none).toOption.isSome := by decide +kernel
  obtain ⟨page, accepted⟩ := Option.isSome_iff_exists.mp ran
  have ok := toOption_eq_some.mp accepted
  have decoded : decodeSourceText [97, 13, 10, 98] = .ok ['a', '\r', '\n', 'b'] := by decide +kernel
  exact ⟨page, ok, (selected_line_iff lineHost (lineRequest 2) [97, 13, 10, 98] "" none
    ['a', '\r', '\n', 'b'] page 2 rfl decoded (by decide) ok).mpr (by decide)⟩

/-- The text `a`, CR, `b`, LF, `c` has three lines, and the request for the second one gives the
third. -/
theorem second_line_missed :
    decodeSourceText [97, 13, 98, 10, 99] = .ok ['a', '\r', 'b', '\n', 'c'] ∧
      2 ≤ (logicalLines (String.ofList ['a', '\r', 'b', '\n', 'c'])).length ∧
      ∃ page, projectAgentTextPage lineHost (lineRequest 2) [97, 13, 98, 10, 99] "" none =
        .ok page ∧ page.startLine = 3 := by
  have ran : ((projectAgentTextPage lineHost (lineRequest 2) [97, 13, 98, 10, 99] ""
      none).toOption.map (·.startLine)) = some 3 := by decide +kernel
  obtain ⟨page, accepted, line⟩ := Option.map_eq_some_iff.mp ran
  exact ⟨by decide +kernel, by decide +kernel, page, toOption_eq_some.mp accepted, line⟩

end Nomifun.Guarantees.LineSelection
