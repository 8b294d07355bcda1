
/-!
# The first occurrence of a word

`splitFirst` cuts a list at the first occurrence of a word. The list is what stands before it, the
word and what stands behind it (`splitFirst_eq`); no occurrence is earlier
(`splitFirst_occurrence`), and more behind the list does not move the first one
(`splitFirst_append`). A list that a word is put behind is cut there, unless the word begins in the
list already (`splitFirst_behind`).
-/
namespace Nomifun.Library
open List

variable {α : Type} [DecidableEq α]

/-- What stands before the first occurrence of a word and behind it. -/
def splitFirst (word : List α) : List α → Option (List α × List α)
  | [] => if word = [] then some ([], []) else none
  | a :: rest =>
    if word.isPrefixOf (a :: rest) then some ([], (a :: rest).drop word.length)
    else (splitFirst word rest).map fun cut => (a :: cut.1, cut.2)

variable {word list before after : List α}

theorem splitFirst_eq (found : splitFirst word list = some (before, after)) :
    list = before ++ (word ++ after) := by
  induction list generalizing before with
  | nil =>
    rw [splitFirst] at found
    split at found
    next empty =>
      cases found
      simp [empty]
    next => cases found
  | cons a rest ih =>
    rw [splitFirst] at found
    split at found
    next starts =>
      cases found
      have begins := isPrefixOf_iff_prefix.mp starts
      exact (prefix_iff_eq_append.mp begins).symm
    next =>
      obtain ⟨⟨front, behind⟩, cut, same⟩ := Option.map_eq_some_iff.mp found
      cases same
      rw [cons_append, ← ih cut]

/-- More behind the list does not move the first occurrence. -/
theorem splitFirst_append (more : List α) (found : splitFirst word list = some (before, after)) :
    splitFirst word (list ++ more) = some (before, after ++ more) := by
  induction list generalizing before with
  | nil =>
    rw [splitFirst] at found
    split at found
    next empty =>
      cases found
      subst empty
      cases more with
      | nil => rfl
      | cons a more => simp [splitFirst]
    next => cases found
  | cons a rest ih =>
    rw [splitFirst] at found
    rw [cons_append, splitFirst]
    split at found
    next starts =>
      cases found
      have inside := isPrefixOf_iff_prefix.mp starts
      have still : word.isPrefixOf (a :: (rest ++ more)) = true := by
        apply isPrefixOf_iff_prefix.mpr
        exact inside.trans (prefix_append (a :: rest) more)
      rw [if_pos still, ← cons_append, drop_append_of_le_length inside.length_le]
    next starts =>
      obtain ⟨⟨front, behind⟩, cut, same⟩ := Option.map_eq_some_iff.mp found
      cases same
      -- The occurrence lies in the list, so that the word is no longer than the list is.
      have long : word.length ≤ (a :: rest).length := by
        rw [splitFirst_eq cut]
        simp only [length_cons, length_append]
        omega
      have notYet : ¬ word.isPrefixOf (a :: (rest ++ more)) = true := by
        intro begins
        have later := isPrefixOf_iff_prefix.mp begins
        apply starts
        apply isPrefixOf_iff_prefix.mpr
        exact prefix_of_prefix_length_le later (prefix_append (a :: rest) more) long
      rw [if_neg notYet, ih cut]
      rfl

/-- No occurrence is earlier than the first one. -/
theorem splitFirst_occurrence (before after : List α) :
    ∃ front behind, splitFirst word (before ++ (word ++ after)) = some (front, behind) ∧
      front.length ≤ before.length := by
  induction before with
  | nil =>
    cases whole : word ++ after with
    | nil =>
      obtain ⟨rfl, rfl⟩ := append_eq_nil_iff.mp whole
      exact ⟨[], [], rfl, Nat.le_refl 0⟩
    | cons a rest =>
      have starts : word.isPrefixOf (a :: rest) = true := by
        rw [← whole, isPrefixOf_iff_prefix]
        exact prefix_append word after
      exact ⟨[], (a :: rest).drop word.length, if_pos starts, Nat.le_refl 0⟩
  | cons a before ih =>
    rw [cons_append, splitFirst]
    split
    · exact ⟨[], _, rfl, Nat.zero_le _⟩
    · obtain ⟨front, behind, cut, early⟩ := ih
      rw [cut]
      exact ⟨a :: front, behind, rfl, Nat.succ_le_succ early⟩

/-- What stands behind an occurrence stands behind the first one. -/
theorem suffix_splitFirst
    (found : splitFirst word (before ++ (word ++ after)) = some (front, behind)) :
    after <:+ behind := by
  obtain ⟨_, _, same, early⟩ := @splitFirst_occurrence α _ word before after
  rw [found] at same
  cases same
  have whole := splitFirst_eq found
  have lengths := congrArg length whole
  have ends : after <:+ before ++ (word ++ after) :=
    (suffix_append word after).trans (suffix_append before _)
  have endsToo : behind <:+ before ++ (word ++ after) := by
    rw [whole]
    exact (suffix_append word behind).trans (suffix_append front _)
  refine suffix_of_suffix_length_le ends endsToo ?_
  simp only [length_append] at lengths
  omega

/-- The first occurrence is the one behind a text in which the word does not begin. -/
theorem splitFirst_behind (after : List α) (apart : ¬ word <:+: before ++ word.dropLast) :
    splitFirst word (before ++ (word ++ after)) = some (before, after) := by
  obtain ⟨front, behind, found, early⟩ := @splitFirst_occurrence α _ word before after
  have whole := splitFirst_eq found
  rcases Nat.eq_or_lt_of_le early with same | earlier
  · obtain ⟨rfl, rest⟩ := append_inj whole same.symm
    rw [found, append_cancel_left rest]
  · have first : front ++ word <+: before ++ (word ++ after) := by
      rw [whole, ← append_assoc]
      exact prefix_append ..
    have shorter := dropLast_prefix word
    have second : before ++ word.dropLast <+: before ++ (word ++ after) :=
      (prefix_append_right_inj before).mpr (shorter.trans (prefix_append ..))
    have inside := prefix_of_prefix_length_le first second (by
      simp only [length_append, length_dropLast]
      omega)
    exact absurd ((suffix_append front word).isInfix.trans inside.isInfix) apart

/-- A word that begins in a text and ends behind it comes first. -/
theorem splitFirst_overlapping (after : List α) (occurs : word <:+: before ++ word.dropLast)
    (nonempty : word ≠ []) :
    ∃ front behind, splitFirst word (before ++ (word ++ after)) = some (front, behind) ∧
      front.length < before.length := by
  obtain ⟨first, last, split⟩ := occurs
  have whole : before ++ (word ++ after) =
      first ++ (word ++ (last ++ (word.getLast nonempty :: after))) := by
    have ends : word ++ after = word.dropLast ++ (word.getLast nonempty :: after) := by
      rw [← singleton_append, ← append_assoc, dropLast_concat_getLast]
    rw [ends, ← append_assoc before, ← split, append_assoc, append_assoc]
  have lengths := congrArg length split
  have long := length_pos_iff.mpr nonempty
  simp only [length_append, length_dropLast] at lengths
  obtain ⟨front, behind, found, early⟩ :=
    @splitFirst_occurrence α _ word first (last ++ (word.getLast nonempty :: after))
  exact ⟨front, behind, whole ▸ found, by omega⟩
end Nomifun.Library
