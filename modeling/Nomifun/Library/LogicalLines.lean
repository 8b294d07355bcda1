import Mathlib.Data.List.Basic

/-!
# Lines and their terminators

A text is split at LF, CRLF and lone CR; each line keeps the terminator it had. Joining the lines of
a text gives the text back (`join_split`). Splitting the join of given lines merges a line that
ends with a lone CR and an empty line after it that ends with LF: the two terminators read as one
CRLF (`split_join`). Where no two lines meet in this way the lines come back (`split_join_iff`).
-/
namespace Nomifun.Library
open List

/-- The terminator of a line; the last line of a text may have none. -/
inductive LineEnding where
  | none | lf | crlf | cr
  deriving DecidableEq

def LineEnding.chars : LineEnding → List Char
  | .none => []
  | .lf => ['\n']
  | .crlf => ['\r', '\n']
  | .cr => ['\r']

structure LogicalLine where
  text : List Char
  ending : LineEnding

variable {lines : List LogicalLine} {line : LogicalLine}

namespace LogicalLine

/-- The lines of what follows `current`, the part of the line that has been read. -/
def split (current : List Char) : List Char → List LogicalLine
  | [] => if current = [] then [] else [⟨current, .none⟩]
  | '\n' :: rest => ⟨current, .lf⟩ :: split [] rest
  | '\r' :: '\n' :: rest => ⟨current, .crlf⟩ :: split [] rest
  | '\r' :: rest => ⟨current, .cr⟩ :: split [] rest
  | c :: rest => split (current ++ [c]) rest

def join (lines : List LogicalLine) : List Char :=
  lines.flatMap fun line => line.text ++ line.ending.chars

/-- The text of a line has no terminator in it. -/
def Plain (text : List Char) : Prop := '\n' ∉ text ∧ '\r' ∉ text

/-- Only the last line may go without a terminator, and then it is not empty. -/
def Terminated : List LogicalLine → Prop
  | [] => True
  | [line] => line.ending ≠ .none ∨ line.text ≠ []
  | line :: next :: rest => line.ending ≠ .none ∧ Terminated (next :: rest)

/-- The terminators of the two lines read as one. -/
def Meets (line next : LogicalLine) : Prop :=
  line.ending = .cr ∧ next.text = [] ∧ next.ending = .lf

instance (line next : LogicalLine) : Decidable (Meets line next) :=
  inferInstanceAs (Decidable (_ ∧ _ ∧ _))

/-- The lines as they read once they are joined. -/
def merge : List LogicalLine → List LogicalLine
  | [] => []
  | [line] => [line]
  | line :: next :: rest =>
    if Meets line next then ⟨line.text, .crlf⟩ :: merge rest else line :: merge (next :: rest)

/-! ### Splitting -/

theorem join_split (current text : List Char) : join (split current text) = current ++ text := by
  fun_induction split current text with
  | case1 => rfl
  | case2 current nonempty => simp [join, LineEnding.chars]
  | case3 current rest ih => simpa [join, LineEnding.chars] using ih
  | case4 current rest ih => simpa [join, LineEnding.chars] using ih
  | case5 current rest single ih => simpa [join, LineEnding.chars] using ih
  | case6 current c rest _ _ _ ih => simpa using ih

theorem plain_nil : Plain [] := ⟨not_mem_nil, not_mem_nil⟩

theorem plain_split (current text : List Char) (plain : Plain current) :
    ∀ line ∈ split current text, Plain line.text := by
  fun_induction split current text with
  | case1 => simp
  | case2 current nonempty => simpa using plain
  | case3 current rest ih | case4 current rest ih => simpa using ⟨plain, ih plain_nil⟩
  | case5 current rest single ih => simpa using ⟨plain, ih plain_nil⟩
  | case6 current c rest notLf _ notCr ih =>
    refine ih ⟨?_, ?_⟩
    · simpa [plain.1] using fun same => notLf same.symm
    · simpa [plain.2] using fun same => notCr same.symm

theorem terminated_cons (ended : line.ending ≠ .none) (terminated : Terminated lines) :
    Terminated (line :: lines) := by
  cases lines with
  | nil => exact .inl ended
  | cons next rest => exact ⟨ended, terminated⟩

theorem terminated_split (current text : List Char) : Terminated (split current text) := by
  fun_induction split current text with
  | case1 => trivial
  | case2 current nonempty => exact .inr nonempty
  | case3 current rest ih | case4 current rest ih => exact terminated_cons nofun ih
  | case5 current rest single ih => exact terminated_cons nofun ih
  | case6 current c rest _ _ _ ih => exact ih

/-! ### Joining -/

theorem split_append {current text : List Char} (plain : Plain text) (rest : List Char) :
    split current (text ++ rest) = split (current ++ text) rest := by
  induction text generalizing current with
  | nil => simp
  | cons c text ih =>
    obtain ⟨notLf, notCr⟩ := plain
    rw [mem_cons, not_or] at notLf notCr
    rw [cons_append, split, ih ⟨notLf.2, notCr.2⟩]
    · simp
    · exact fun same => notLf.1 same.symm
    · exact fun _ same => absurd same.symm notCr.1
    · exact fun same => notCr.1 same.symm

/-- A terminated line in front of a text that its terminator does not run into. -/
theorem split_cons (line : LogicalLine) {rest : List Char} (plain : Plain line.text)
    (ended : line.ending ≠ .none) (apart : line.ending = .cr → rest.head? ≠ some '\n') :
    split [] (line.text ++ line.ending.chars ++ rest) = line :: split [] rest := by
  rw [append_assoc, split_append plain]
  obtain ⟨text, ending⟩ := line
  cases ending with
  | none => exact absurd rfl ended
  | lf => rfl
  | crlf => rfl
  | cr =>
    cases rest with
    | nil => rfl
    | cons c rest =>
      have other : c ≠ '\n' := fun same => apart rfl (by rw [same]; rfl)
      show split text ('\r' :: c :: rest) = _
      rw [split]
      exact fun rest' same => other (List.cons.inj same).1

theorem Terminated.tail {line : LogicalLine} {lines : List LogicalLine}
    (terminated : Terminated (line :: lines)) : Terminated lines := by
  cases lines with
  | nil => trivial
  | cons next rest => exact terminated.2

/-- What a line may be followed by without a join. -/
theorem head_join (plain : Plain later.text) (terminated : Terminated (later :: rest))
    (apart : ¬ Meets line later) (cr : line.ending = .cr) :
    (join (later :: rest)).head? ≠ some '\n' := by
  obtain ⟨text, ending⟩ := later
  cases text with
  | cons c text =>
    intro starts
    have same : c = '\n' := by simpa [join] using starts
    exact plain.1 (by simp [same])
  | nil =>
    cases ending with
    | none => cases rest <;> simp [Terminated] at terminated
    | lf => exact absurd ⟨cr, rfl, rfl⟩ apart
    | crlf => simp [join, LineEnding.chars]
    | cr => simp [join, LineEnding.chars]

theorem split_join (plain : ∀ line ∈ lines, Plain line.text) (terminated : Terminated lines) :
    split [] (join lines) = merge lines := by
  fun_induction merge lines with
  | case1 => rfl
  | case2 line =>
    have own : Plain line.text := plain line (mem_singleton_self line)
    by_cases ended : line.ending = .none
    · have nonempty : line.text ≠ [] := terminated.resolve_left (not_not_intro ended)
      obtain ⟨text, ending⟩ := line
      obtain rfl : ending = .none := ended
      have whole : join [⟨text, .none⟩] = text ++ [] := by simp [join, LineEnding.chars]
      rw [whole, split_append own, nil_append, split, if_neg nonempty]
    · have whole : join [line] = line.text ++ line.ending.chars ++ [] := by simp [join]
      rw [whole, split_cons line own ended fun _ => by simp]
      rfl
  | case3 line next rest meets ih =>
    -- The CR of the line and the LF of the empty line after it.
    rw [forall_mem_cons, forall_mem_cons] at plain
    obtain ⟨cr, empty, lf⟩ := meets
    have whole : join (line :: next :: rest) = line.text ++ LineEnding.crlf.chars ++ join rest := by
      simp [join, cr, empty, lf, LineEnding.chars]
    have merged : split [] (line.text ++ LineEnding.crlf.chars ++ join rest) =
        ⟨line.text, .crlf⟩ :: split [] (join rest) :=
      split_cons ⟨line.text, .crlf⟩ plain.1 nofun nofun
    rw [whole, merged, ih plain.2.2 terminated.tail.tail]
  | case4 line next rest apart ih =>
    rw [forall_mem_cons] at plain
    have whole : join (line :: next :: rest) =
        line.text ++ line.ending.chars ++ join (next :: rest) := rfl
    rw [whole, split_cons line plain.1 terminated.1, ih plain.2 terminated.2]
    exact head_join (plain.2 next mem_cons_self) terminated.2 apart

theorem merge_length_le (lines : List LogicalLine) : (merge lines).length ≤ lines.length := by
  fun_induction merge lines with
  | case1 | case2 => exact Nat.le_refl _
  | case3 line next rest _ ih =>
    simp only [length_cons]
    omega
  | case4 line next rest _ ih =>
    simp only [length_cons] at ih ⊢
    omega

/-- The lines come back where no two of them meet, and only there. -/
theorem merge_texts_iff (lines : List LogicalLine) :
    (merge lines).map text = lines.map text ↔ lines.IsChain fun line next => ¬ Meets line next := by
  fun_induction merge lines with
  | case1 => simp
  | case2 line => simp
  | case3 line next rest meets ih =>
    have shorter := merge_length_le rest
    constructor
    · intro same
      have lengths := congrArg List.length same
      simp only [length_cons, length_map] at lengths
      omega
    · intro chain
      exact absurd meets (isChain_cons_cons.mp chain).1
  | case4 line next rest apart ih =>
    rw [map_cons, map_cons, List.cons.injEq, ih, isChain_cons_cons]
    exact ⟨fun ⟨_, chain⟩ => ⟨apart, chain⟩, fun ⟨_, chain⟩ => ⟨rfl, chain⟩⟩

theorem split_join_iff (plain : ∀ line ∈ lines, Plain line.text) (terminated : Terminated lines) :
    (split [] (join lines)).map text = lines.map text ↔
      lines.IsChain fun line next => ¬ Meets line next := by
  rw [split_join plain terminated, merge_texts_iff]

end LogicalLine

end Nomifun.Library
