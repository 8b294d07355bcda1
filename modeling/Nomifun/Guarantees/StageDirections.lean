import Mathlib.Data.List.Induction
import Nomifun.Source.Common.StageDirection

/-!
# Stage directions are removed whatever the deltas

What the filter decides about an opening delimiter does not change when more text follows
(`scan_append`), so feeding a text in deltas gives the text that is stripped as a whole. What is
withheld is the rest of the text behind the last opener that is still undecided. A second pass
changes a text only if stage directions are nested.
-/
namespace Nomifun.Guarantees.StageDirections
open Library.ByteOffsets Source.Common List

variable {text more before afterOpen inner : List Char} {opener closer : Char}

/-! ### More text does not change a decision -/

theorem nextOpener_append (free : nextOpener before = none) :
    nextOpener (before ++ text) =
      (nextOpener text).map fun (earlier, found) => (before ++ earlier, found) := by
  induction before with
  | nil => simp
  | cons c before ih =>
    unfold nextOpener at free
    split at free
    · cases free
    next plain =>
      rw [cons_append, nextOpener, plain]
      simp only [ih (Option.map_eq_none_iff.mp free), Option.map_map]
      rfl

theorem canBeStageDirection_append (can : canBeStageDirection (text ++ more) = true) :
    canBeStageDirection text = true := by
  simp only [canBeStageDirection, bytes_append, all_append, Bool.and_eq_true,
    decide_eq_true_eq] at can ⊢
  exact ⟨by omega, can.2.1⟩

/-- The inner text is the text before the first closer, if that comes early enough. -/
theorem innerText_eq_some : innerText closer text = some inner ↔
    closer ∉ inner ∧ inner.length ≤ maxInnerBytes ∧ inner ++ [closer] <+: text := by
  have cut {inner : List Char} (free : closer ∉ inner) (later : List Char) :
      (inner ++ closer :: later).takeWhile (· ≠ closer) = inner := by
    rw [takeWhile_append_of_pos]
    · simp
    · rintro c member
      simpa using ne_of_mem_of_not_mem member free
  unfold innerText
  rw [Option.ite_none_right_eq_some]
  constructor
  · rintro ⟨near, same⟩
    obtain ⟨first, later, split, free⟩ := eq_append_cons_of_mem near
    rw [split, cut free, Option.some.injEq] at same
    subst same
    have few := congrArg length split
    simp only [length_take, length_append, length_cons] at few
    have taken := take_prefix (maxInnerBytes + 1) text
    refine ⟨free, by omega, .trans ⟨later, ?_⟩ taken⟩
    rw [split, append_assoc, singleton_append]
  · rintro ⟨free, few, later, rfl⟩
    have near : (inner ++ [closer] ++ later).take (maxInnerBytes + 1) =
        inner ++ closer :: later.take (maxInnerBytes - inner.length) := by
      rw [append_assoc, take_append, take_of_length_le (by omega), Nat.succ_sub few]
      rfl
    rw [near, cut free]
    simp

theorem innerText_append (found : innerText closer text = some inner) :
    innerText closer (text ++ more) = some inner := by
  rw [innerText_eq_some] at found ⊢
  exact ⟨found.1, found.2.1, found.2.2.trans (prefix_append _ _)⟩

/-- A closer that comes with more text closes an inner text that begins with the text so far. -/
theorem prefix_of_innerText (none_yet : innerText closer text = none)
    (found : innerText closer (text ++ more) = some inner) : text <+: inner := by
  obtain ⟨free, few, closed⟩ := innerText_eq_some.mp found
  have open' : ¬ inner ++ [closer] <+: text := fun early => by
    rw [innerText_eq_some.mpr ⟨free, few, early⟩] at none_yet
    cases none_yet
  rcases prefix_or_prefix_of_prefix closed (prefix_append text more) with early | within
  · exact absurd early open'
  · rcases prefix_concat_iff.mp within with rfl | within
    · exact absurd prefix_rfl open'
    · exact within

/-! ### The loop -/

/-- What the loop does from an opener on. -/
def atOpener (opener closer : Char) (afterOpen : List Char) : List Char × List Char :=
  match innerText closer afterOpen with
  | some inner =>
    if isStageDirection inner then scan (afterOpen.drop (inner.length + 1))
    else (opener :: (scan afterOpen).1, (scan afterOpen).2)
  | none =>
    if canBeStageDirection afterOpen then ([], opener :: afterOpen)
    else (opener :: (scan afterOpen).1, (scan afterOpen).2)

theorem scan_eq : scan text = match nextOpener text with
    | none => (text, [])
    | some (before, opener, closer, afterOpen) =>
      (before ++ (atOpener opener closer afterOpen).1, (atOpener opener closer afterOpen).2) := by
  rw [scan]
  split
  next found => rw [found]
  next before opener closer afterOpen found =>
    rw [found]
    unfold atOpener
    dsimp only
    cases innerText closer afterOpen with
    | some inner =>
      dsimp only
      split <;> rfl
    | none =>
      dsimp only
      split <;> simp

theorem scan_plain (free : nextOpener before = none) :
    scan (before ++ text) = (before ++ (scan text).1, (scan text).2) := by
  rw [scan_eq, @scan_eq text, nextOpener_append free]
  cases nextOpener text with
  | none => rfl
  | some found => simp

section

variable (isCloser : closerFor opener = some closer)
include isCloser

theorem scan_opener : scan (opener :: afterOpen) = atOpener opener closer afterOpen := by
  rw [scan_eq, nextOpener, isCloser]
  rfl

/-- An opener is content once no stage direction can follow it. -/
theorem scan_content (closed : ∀ inner, innerText closer afterOpen = some inner →
    isStageDirection inner = false)
    (unclosed : innerText closer afterOpen = none → canBeStageDirection afterOpen = false) :
    scan (opener :: afterOpen) = (opener :: (scan afterOpen).1, (scan afterOpen).2) := by
  rw [scan_opener isCloser, atOpener]
  cases found : innerText closer afterOpen with
  | some inner => simp [closed inner found]
  | none => simp [unclosed found]

theorem closerFor_mem : (opener, closer) ∈ delimiters := by
  obtain ⟨pair, found, rfl⟩ := Option.map_eq_some_iff.mp isCloser
  obtain rfl : pair.1 = opener := by simpa using find?_some found
  exact mem_of_find?_eq_some found

theorem closerFor_size : opener.utf8Size ≤ 3 := by
  have all : ∀ pair ∈ delimiters, pair.1.utf8Size ≤ 3 := by decide
  exact all _ (closerFor_mem isCloser)

end

theorem scan_found (found : nextOpener text = some (before, opener, closer, afterOpen)) :
    scan (text ++ more) = (before ++ (scan (opener :: (afterOpen ++ more))).1,
      (scan (opener :: (afterOpen ++ more))).2) := by
  obtain ⟨rfl, free, -⟩ := nextOpener_eq_some found
  rw [append_assoc, scan_plain free, cons_append]

/-- Behind a text that was scanned, more text is read together with what was withheld. -/
theorem scan_append : scan (text ++ more) =
    ((scan text).1 ++ (scan ((scan text).2 ++ more)).1, (scan ((scan text).2 ++ more)).2) := by
  fun_induction scan text with
  | case1 rest found => exact scan_plain found
  | case2 rest before opener closer afterOpen found inner isInner stage out pending eq ih =>
    have closed : inner.length + 1 ≤ afterOpen.length := by
      simpa using (innerText_eq_some.mp isInner).2.2.length_le
    rw [scan_found found, scan_opener (nextOpener_eq_some found).2.2, atOpener,
      innerText_append isInner]
    simp only [stage, if_true]
    rw [drop_append_of_le_length closed, ih, eq, append_assoc]
  | case3 rest before opener closer afterOpen found inner isInner content out pending eq ih =>
    rw [scan_found found, scan_content (nextOpener_eq_some found).2.2, ih, eq]
    · simp
    · rintro later isLater
      cases (innerText_append isInner).symm.trans isLater
      simpa using content
    · rintro unclosed
      cases (innerText_append isInner).symm.trans unclosed
  | case4 rest before opener closer afterOpen found unclosed can => exact scan_found found
  | case5 rest before opener closer afterOpen found unclosed cannot out pending eq ih =>
    have never : canBeStageDirection (afterOpen ++ more) = false :=
      Bool.eq_false_iff.mpr fun can => cannot (canBeStageDirection_append can)
    rw [scan_found found, scan_content (nextOpener_eq_some found).2.2, ih, eq]
    · simp
    · -- an inner text that is closed later begins with the text that cannot be one
      rintro later isLater
      obtain ⟨_, rfl⟩ := prefix_of_innerText unclosed isLater
      exact Bool.eq_false_iff.mpr fun stage =>
        cannot (canBeStageDirection_append (Bool.and_eq_true_iff.mp stage).1)
    · exact fun _ => never

theorem scan_withheld : bytes (scan text).2 ≤ maxWithheldBytes ∧ (scan text).2 <:+ text := by
  fun_induction scan text with
  | case1 rest found => exact ⟨Nat.zero_le _, nil_suffix⟩
  | case2 rest before opener closer afterOpen found inner isInner stage out pending eq ih =>
    rw [eq] at ih
    obtain ⟨rfl, -, -⟩ := nextOpener_eq_some found
    exact ⟨ih.1, ih.2.trans ((drop_suffix _ _).trans
      ((suffix_cons _ _).trans (suffix_append _ _)))⟩
  | case4 rest before opener closer afterOpen found unclosed can =>
    obtain ⟨rfl, -, isCloser⟩ := nextOpener_eq_some found
    refine ⟨?_, suffix_append _ _⟩
    have few : bytes afterOpen ≤ maxInnerBytes :=
      of_decide_eq_true (Bool.and_eq_true_iff.mp can).1
    have small := closerFor_size isCloser
    rw [bytes_cons, maxWithheldBytes]
    omega
  | case3 rest before opener closer afterOpen found _ _ _ out pending eq ih
  | case5 rest before opener closer afterOpen found _ _ out pending eq ih =>
    rw [eq] at ih
    obtain ⟨rfl, -, -⟩ := nextOpener_eq_some found
    exact ⟨ih.1, ih.2.trans ((suffix_cons _ _).trans (suffix_append _ _))⟩

/-! ### A text fed in deltas -/

/-- The text that one filter emits for the deltas, and the filter after the last of them. -/
def feed (deltas : List (List Char)) : List Char × StageDirectionFilter :=
  deltas.foldl
    (fun (out, filter) delta => let (more, next) := filter.push delta; (out ++ more, next))
    ([], .default)

theorem feed_eq (deltas : List (List Char)) :
    feed deltas = ((scan deltas.flatten).1, ⟨(scan deltas.flatten).2⟩) := by
  induction deltas using reverseRecOn with
  | nil =>
    rw [flatten_nil, scan_eq]
    rfl
  | append_singleton deltas delta ih =>
    rw [feed, foldl_append, ← feed, ih, flatten_append, scan_append]
    simp [StageDirectionFilter.push]

/-- However a text is cut into deltas, the filter emits the text without its stage directions, and
what it withholds after any of the deltas is a short end of the text it was fed. -/
theorem deltas_filtered_as_one_text (deltas : List (List Char)) :
    (feed deltas).1 ++ (feed deltas).2.flush.1 = stripStageDirections deltas.flatten ∧ ∀ pushes,
        let fed := deltas.take pushes
        bytes (feed fed).2.pending ≤ 27 ∧ (feed fed).2.pending <:+ fed.flatten := by
  refine ⟨?_, fun pushes => ?_⟩
  · rw [feed_eq]
    rfl
  · dsimp only
    rw [feed_eq]
    exact scan_withheld

/-! ### A second pass -/

/-- A delimiter is no character of a stage direction. -/
theorem delimiter_outside (isCloser : closerFor opener = some closer)
    (can : canBeStageDirection inner = true) :
    opener ∉ inner ∧ closer ∉ inner ∧ closerFor closer = none := by
  have all : ∀ pair ∈ delimiters, closerFor pair.2 = none ∧ ∀ c ∈ [pair.1, pair.2],
      (c.isAlphanum || c ∈ [' ', '_', '-', ':']) = false := by simp [delimiters, closerFor]
  obtain ⟨last, outside⟩ := all _ (closerFor_mem isCloser)
  simp only [canBeStageDirection, Bool.and_eq_true, all_eq_true] at can
  have absent (c : Char) (is : c ∈ [opener, closer]) : c ∉ inner := fun member =>
    Bool.eq_false_iff.mp (outside c is) (can.2 c member)
  exact ⟨absent _ (by simp), absent _ (by simp), last⟩

theorem plain_inner (can : canBeStageDirection inner = true) : ∀ c ∈ inner, closerFor c = none := by
  intro c member
  cases isCloser : closerFor c with
  | none => rfl
  | some closer => exact absurd member (delimiter_outside isCloser can).1

theorem can_of_stage (stage : isStageDirection inner = true) : canBeStageDirection inner = true :=
  (Bool.and_eq_true_iff.mp stage).1

theorem length_le_bytes : text.length ≤ bytes text := by
  induction text with
  | nil => exact Nat.le_refl 0
  | cons c text ih =>
    have := c.utf8Size_pos
    rw [length_cons, bytes_cons]
    omega

/-- The text begins with a stage direction. -/
def Starts (text : List Char) : Prop := ∃ opener closer inner rest,
  closerFor opener = some closer ∧ isStageDirection inner = true ∧
    text = opener :: (inner ++ closer :: rest)

theorem strip_eq : stripStageDirections text = (scan text).1 ++ (scan text).2 := rfl

theorem strip_nil : stripStageDirections [] = [] := by simp [strip_eq, scan_eq, nextOpener]

theorem strip_plain (plain : closerFor c = none) :
    stripStageDirections (c :: text) = c :: stripStageDirections text := by
  have scanned : scan ([c] ++ text) = ([c] ++ (scan text).1, (scan text).2) :=
    scan_plain (by simp [nextOpener, plain])
  rw [strip_eq, ← singleton_append, scanned]
  rfl

theorem strip_direction (isCloser : closerFor opener = some closer)
    (stage : isStageDirection inner = true) :
    stripStageDirections (opener :: (inner ++ closer :: text)) = stripStageDirections text := by
  have can := can_of_stage stage
  have few : bytes inner ≤ maxInnerBytes := of_decide_eq_true (Bool.and_eq_true_iff.mp can).1
  have found : innerText closer (inner ++ closer :: text) = some inner :=
    innerText_eq_some.mpr ⟨(delimiter_outside isCloser can).2.1, Nat.le_trans length_le_bytes few,
      text, by simp⟩
  simp [strip_eq, scan_opener isCloser, atOpener, found, stage]

theorem strip_keep (starts : ¬ Starts (c :: text)) :
    stripStageDirections (c :: text) = c :: stripStageDirections text := by
  cases isCloser : closerFor c with
  | none => exact strip_plain isCloser
  | some closer =>
    rw [strip_eq, strip_eq, scan_opener isCloser, atOpener]
    cases found : innerText closer text with
    | some inner =>
      have content : isStageDirection inner = false := by
        refine Bool.eq_false_iff.mpr fun stage => starts ?_
        obtain ⟨-, -, rest, rfl⟩ := innerText_eq_some.mp found
        exact ⟨c, closer, inner, rest, isCloser, stage, by simp⟩
      simp [content]
    | none =>
      by_cases can : canBeStageDirection text = true
      · cases next : nextOpener text with
        | none => simp [can, scan_eq, next]
        | some found =>
          obtain ⟨rfl, -, opens⟩ := nextOpener_eq_some next
          rw [plain_inner can _ (by simp)] at opens
          cases opens
      · simp [can]

theorem strip_induction {holds : List Char → Prop} (nil : holds [])
    (direction : ∀ {opener closer inner rest}, closerFor opener = some closer →
      isStageDirection inner = true → holds rest → holds (opener :: (inner ++ closer :: rest)))
    (keep : ∀ {c rest}, ¬ Starts (c :: rest) → holds rest → holds (c :: rest))
    (text : List Char) : holds text := by
  induction size : text.length using Nat.strongRecOn generalizing text with
  | ind size ih =>
    by_cases starts : Starts text
    · obtain ⟨opener, closer, inner, rest, isCloser, stage, rfl⟩ := starts
      exact direction isCloser stage (ih _ (by simp at size; omega) rest rfl)
    · cases text with
      | nil => exact nil
      | cons c rest => exact keep starts (ih _ (by simp at size; omega) rest rfl)

theorem strip_length_le (text : List Char) : (stripStageDirections text).length ≤ text.length := by
  induction text using strip_induction with
  | nil => simp [strip_nil]
  | direction isCloser stage ih =>
    rw [strip_direction isCloser stage, length_cons, length_append, length_cons]
    omega
  | keep starts ih =>
    rw [strip_keep starts]
    exact Nat.succ_le_succ ih

theorem strip_cons_eq_self : stripStageDirections (c :: text) = c :: text ↔
    ¬ Starts (c :: text) ∧ stripStageDirections text = text := by
  by_cases starts : Starts (c :: text)
  · refine ⟨fun same => ?_, fun free => absurd starts free.1⟩
    obtain ⟨opener, closer, inner, rest, isCloser, stage, is⟩ := starts
    rw [is, strip_direction isCloser stage] at same
    have shorter := strip_length_le rest
    rw [same, length_cons, length_append, length_cons] at shorter
    omega
  · rw [strip_keep starts, cons.injEq, eq_self, true_and, and_iff_right starts]

/-- A text into which stage directions were put. -/
inductive Woven : List Char → List Char → Prop
  | nil : Woven [] []
  | keep (c : Char) {woven plain : List Char} : Woven woven plain → Woven (c :: woven) (c :: plain)
  | put {opener closer : Char} {inner woven plain : List Char} :
      closerFor opener = some closer → isStageDirection inner = true → Woven woven plain →
      Woven (opener :: (inner ++ closer :: woven)) plain

/-- However a text is cut into deltas, the filter takes nothing but stage directions out of it. -/
theorem only_stage_directions_taken (deltas : List (List Char)) :
    Woven deltas.flatten ((feed deltas).1 ++ (feed deltas).2.flush.1) := by
  rw [feed_eq]
  change Woven _ (stripStageDirections deltas.flatten)
  induction deltas.flatten using strip_induction with
  | nil =>
    rw [strip_nil]
    exact .nil
  | direction isCloser stage ih =>
    rw [strip_direction isCloser stage]
    exact .put isCloser stage ih
  | keep starts ih =>
    rw [strip_keep starts]
    exact .keep _ ih

/-- No delimiters enclose stage directions together with characters that alone would be one. -/
def Unnested (text : List Char) : Prop :=
  ∀ opener closer woven inner rest, closerFor opener = some closer → Woven woven inner →
    isStageDirection inner = true → opener :: (woven ++ closer :: rest) <:+ text → woven = inner

theorem strip_woven (is : Woven woven inner) (plain : ∀ c ∈ inner, closerFor c = none) :
    stripStageDirections (woven ++ text) = inner ++ stripStageDirections text := by
  induction is with
  | nil => rfl
  | keep c _ ih =>
    rw [forall_mem_cons] at plain
    rw [cons_append, strip_plain plain.1, ih plain.2, cons_append]
  | put isCloser stage _ ih =>
    rw [cons_append, append_assoc, cons_append, strip_direction isCloser stage, ih plain]

/-- What is left between two delimiters stood between them before, with stage directions in it. -/
theorem woven_of_strip (left : stripStageDirections text = inner ++ closer :: rest) :
    ∃ woven later, Woven woven inner ∧ text = woven ++ closer :: later := by
  induction text using strip_induction generalizing inner with
  | nil => simp [strip_nil] at left
  | direction isCloser stage ih =>
    rw [strip_direction isCloser stage] at left
    obtain ⟨woven, later, is, rfl⟩ := ih left
    exact ⟨_, later, .put isCloser stage is, by simp⟩
  | @keep c text starts ih =>
    rw [strip_keep starts] at left
    cases inner with
    | nil => exact ⟨[], text, .nil, by rw [(cons.inj left).1]; rfl⟩
    | cons d inner =>
      obtain ⟨rfl, same⟩ := cons.inj left
      obtain ⟨woven, later, is, rfl⟩ := ih same
      exact ⟨c :: woven, later, .keep c is, rfl⟩

/-- Text that ends like a stage direction has nothing put into it. -/
theorem Woven.eq_of_closed (is : Woven woven inner) (closes : closer ∉ inner)
    (last : closerFor closer = none) (plain : ∀ c ∈ other, closerFor c = none)
    (same : woven ++ text = other ++ closer :: rest) : woven = inner := by
  induction is generalizing other with
  | nil => rfl
  | keep c _ ih =>
    rw [mem_cons, not_or] at closes
    cases other with
    | nil => exact absurd (cons.inj same).1.symm closes.1
    | cons d other =>
      rw [forall_mem_cons] at plain
      rw [ih closes.2 plain.2 (cons.inj same).2]
  | put isCloser _ _ _ =>
    cases other with
    | nil => cases isCloser.symm.trans ((cons.inj same).1 ▸ last)
    | cons d other => cases isCloser.symm.trans ((cons.inj same).1 ▸ plain d mem_cons_self)

theorem suffix_of_plain (opens : closerFor opener = some closer)
    (plain : ∀ c ∈ before, closerFor c = none) (suffix : opener :: text <:+ before ++ rest) :
    opener :: text <:+ rest := by
  induction before with
  | nil => exact suffix
  | cons c before ih =>
    rw [forall_mem_cons] at plain
    rcases suffix_cons_iff.mp suffix with same | later
    · cases opens.symm.trans ((cons.inj same).1 ▸ plain.1)
    · exact ih plain.2 later

theorem Unnested.suffix (unnested : Unnested text) (suffix : rest <:+ text) : Unnested rest :=
  fun _ _ _ _ _ isCloser is stage inside =>
    unnested _ _ _ _ _ isCloser is stage (inside.trans suffix)

theorem unnested_direction (isCloser : closerFor opener = some closer)
    (stage : isStageDirection inner = true) :
    Unnested (opener :: (inner ++ closer :: text)) ↔ Unnested text := by
  have plain := plain_inner (can_of_stage stage)
  have last := (delimiter_outside isCloser (can_of_stage stage)).2.2
  refine ⟨fun unnested => unnested.suffix ((suffix_cons _ _).trans
    ((suffix_append _ _).trans (suffix_cons _ _))), ?_⟩
  intro unnested opener' closer' woven inner' rest isCloser' is stage' suffix
  rcases suffix_cons_iff.mp suffix with same | later
  · exact is.eq_of_closed (delimiter_outside isCloser (can_of_stage stage')).2.1 last plain
      (cons.inj same).2
  · have behind := suffix_of_plain isCloser' plain later
    refine unnested _ _ _ _ rest isCloser' is stage' ?_
    exact @suffix_of_plain _ [closer] _ _ _ isCloser' (by simpa using last) behind

/-- A character that is kept begins a nested run exactly if it begins a stage direction after the
pass. -/
theorem unnested_keep (starts : ¬ Starts (c :: text)) :
    Unnested (c :: text) ↔ ¬ Starts (c :: stripStageDirections text) ∧ Unnested text := by
  constructor
  · refine fun unnested => ⟨?_, unnested.suffix (suffix_cons _ _)⟩
    rintro ⟨opener, closer, inner, rest, isCloser, stage, same⟩
    obtain ⟨rfl, left⟩ := cons.inj same
    obtain ⟨woven, later, is, rfl⟩ := woven_of_strip left
    cases unnested _ closer woven inner later isCloser is stage suffix_rfl
    exact starts ⟨_, closer, _, later, isCloser, stage, rfl⟩
  · rintro ⟨free, unnested⟩ opener closer woven inner rest isCloser is stage suffix
    rcases suffix_cons_iff.mp suffix with same | later
    · obtain ⟨rfl, rfl⟩ := cons.inj same
      have can := can_of_stage stage
      rw [strip_woven is (plain_inner can),
        strip_plain (delimiter_outside isCloser can).2.2] at free
      exact absurd ⟨_, closer, inner, _, isCloser, stage, rfl⟩ free
    · exact unnested _ _ _ _ _ isCloser is stage later

/-- A second pass changes nothing exactly if no stage direction has others inside. -/
theorem second_pass_idle_iff (text : List Char) :
    stripStageDirections (stripStageDirections text) = stripStageDirections text ↔
      Unnested text := by
  induction text using strip_induction with
  | nil =>
    refine ⟨fun _ _ _ _ _ _ _ _ _ none => ?_, fun _ => by rw [strip_nil, strip_nil]⟩
    cases suffix_nil.mp none
  | direction isCloser stage ih =>
    rw [strip_direction isCloser stage, ih, unnested_direction isCloser stage]
  | keep starts ih => rw [strip_keep starts, strip_cons_eq_self, ih, unnested_keep starts]

/-- The outer run of `[[a]b]` becomes a stage direction when the inner one is removed. -/
theorem nested_direction_is_left :
    let once := stripStageDirections ['[', '[', 'a', ']', 'b', ']']
    once = ['[', 'b', ']'] ∧ stripStageDirections once ≠ once := by
  have outer : scan ['[', '[', 'a', ']', 'b', ']'] =
      ('[' :: (scan ['[', 'a', ']', 'b', ']']).1, (scan ['[', 'a', ']', 'b', ']']).2) :=
    scan_content rfl (by rintro _ ⟨⟩; rfl) nofun
  have removed : stripStageDirections ('[' :: (['a'] ++ ']' :: ['b', ']'])) = ['b', ']'] := by
    rw [strip_direction rfl rfl, strip_plain rfl, strip_plain rfl, strip_nil]
  have once : stripStageDirections ['[', '[', 'a', ']', 'b', ']'] = ['[', 'b', ']'] := by
    rw [strip_eq, outer]
    exact congrArg _ removed
  rw [once]
  exact ⟨rfl, fun same => (strip_cons_eq_self.mp same).1 ⟨'[', ']', ['b'], [], rfl, rfl, rfl⟩⟩

end Nomifun.Guarantees.StageDirections
