import Nomifun.Library.ByteOffsets

/-!
# Stage directions

nomifun-common, stage_direction.rs:30-177. A text is a list of characters, so that what the source
cuts at byte offsets is here what stands before and after a character. The source tests the bytes of
an inner text; a character that is not ASCII has only bytes that fail the test.
-/
namespace Nomifun.Source.Common
open Library.ByteOffsets

def delimiters : List (Char × Char) := [('[', ']'), ('【', '】')]

def maxInnerBytes : Nat := 24

def maxWithheldBytes : Nat := 3 + maxInnerBytes

def closerFor (opener : Char) : Option Char := (delimiters.find? (·.1 = opener)).map (·.2)

/-- The next opening delimiter, with the text before it, the closer it expects and the text
behind. -/
def nextOpener : List Char → Option (List Char × Char × Char × List Char)
  | [] => none
  | c :: text =>
    match closerFor c with
    | some closer => some ([], c, closer, text)
    | none => (nextOpener text).map fun (before, found) => (c :: before, found)

def canBeStageDirection (inner : List Char) : Bool :=
  bytes inner ≤ maxInnerBytes && inner.all fun c => c.isAlphanum || c ∈ [' ', '_', '-', ':']

def isStageDirection (inner : List Char) : Bool :=
  canBeStageDirection inner && inner.any Char.isAlpha

/-- The text up to the closer, which is looked for among the first characters only. -/
def innerText (closer : Char) (afterOpen : List Char) : Option (List Char) :=
  let near := afterOpen.take (maxInnerBytes + 1)
  if closer ∈ near then some (near.takeWhile (· ≠ closer)) else none

theorem nextOpener_eq_some (found : nextOpener text = some (before, opener, closer, afterOpen)) :
    text = before ++ opener :: afterOpen ∧ nextOpener before = none ∧
      closerFor opener = some closer := by
  induction text generalizing before with
  | nil => cases found
  | cons c text ih =>
    unfold nextOpener at found
    split at found
    next isCloser =>
      cases found
      exact ⟨rfl, rfl, isCloser⟩
    next plain =>
      obtain ⟨⟨earlier, _⟩, isNext, same⟩ := Option.map_eq_some_iff.mp found
      cases same
      obtain ⟨rfl, free, isCloser⟩ := ih isNext
      exact ⟨rfl, by simp [nextOpener, plain, free], isCloser⟩

/-- The loop of `push` on what is left to read: the text to emit and the text to withhold. -/
def scan (rest : List Char) : List Char × List Char :=
  match _found : nextOpener rest with
  | none => (rest, [])
  | some (before, opener, closer, afterOpen) =>
    match innerText closer afterOpen with
    | some inner =>
      if isStageDirection inner then
        let (out, pending) := scan (afterOpen.drop (inner.length + 1))
        (before ++ out, pending)
      else
        let (out, pending) := scan afterOpen
        (before ++ opener :: out, pending)
    | none =>
      if canBeStageDirection afterOpen then (before, opener :: afterOpen)
      else
        let (out, pending) := scan afterOpen
        (before ++ opener :: out, pending)
termination_by rest.length
decreasing_by
  all_goals
    rw [(nextOpener_eq_some _found).1]
    simp
    omega

structure StageDirectionFilter where
  pending : List Char

namespace StageDirectionFilter

def default : StageDirectionFilter := ⟨[]⟩

/-- The text that is safe to emit, and the filter after the delta. -/
def push (filter : StageDirectionFilter) (delta : List Char) : List Char × StageDirectionFilter :=
  let (out, rest) := scan (filter.pending ++ delta)
  (out, ⟨rest⟩)

def flush (filter : StageDirectionFilter) : List Char × StageDirectionFilter :=
  (filter.pending, default)

end StageDirectionFilter

def stripStageDirections (text : List Char) : List Char :=
  let (out, filter) := StageDirectionFilter.default.push text
  out ++ filter.flush.1

end Nomifun.Source.Common
