import Mathlib.Data.String.Basic
import Nomifun.Source.Requirement.OrderKey

/-!
# Sort texts order the keys whose segments they order

A segment is padded to eight digits. A longer one is not, so that it can sort before a smaller
number: their digits are compared from the first on, as if the shorter one went on with zeros. A key
whose first eight digits reach the sentinel does not sort before the malformed ones.
-/
namespace Nomifun.Guarantees.OrderKeys
open Library Source.Requirement List

variable {m n : Nat} {as bs : List Nat} {s t u v : List Char}

/-- What follows a segment: nothing, or a dot and the next one. -/
def suffixOf (segments : List Nat) : List Char :=
  segments.flatMap fun n => '.' :: (padded n).toList

theorem suffixOf_cons : suffixOf (n :: as) = '.' :: ((padded n).toList ++ suffixOf as) :=
  flatMap_cons

theorem padded_digits (member : c ∈ (padded n).toList) : c.isDigit = true := by
  simp only [padded, String.toList_ofList, mem_append, mem_replicate] at member
  rcases member with ⟨-, rfl⟩ | digit
  · rfl
  · exact Nat.isDigit_of_mem_toDigits (by decide) (by decide) digit

theorem padded_value (n : Nat) : Nat.ofDigitChars 10 (padded n).toList 0 = n := by
  rw [padded, String.toList_ofList, Nat.ofDigitChars_append, Nat.ofDigitChars_replicate_zero,
    Nat.mul_zero, Nat.ofDigitChars_toDigits (by decide) (by decide)]

theorem padded_inj (same : (padded m).toList = (padded n).toList) : m = n := by
  rw [← padded_value m, same, padded_value]

/-- No digit sorts before what follows a segment. -/
theorem suffixOf_lt (digit : c.isDigit = true) : suffixOf as < c :: t := by
  cases as with
  | nil => exact nil_lt_cons ..
  | cons n as =>
    refine cons_lt_cons_iff.mpr (.inl ?_)
    exact Nat.lt_of_lt_of_le (by decide) (Char.isDigit_iff_toNat.mp digit).1

theorem append_lt_same : u ++ s < u ++ t ↔ s < t := by
  induction u with
  | nil => rfl
  | cons c u ih => simp [ih]

/-- Different digits are compared without what follows them. -/
theorem append_lt_iff (left : ∀ c ∈ u, c.isDigit = true) (right : ∀ c ∈ v, c.isDigit = true)
    (differ : u ≠ v) : u ++ suffixOf as < v ++ suffixOf bs ↔ u < v := by
  induction u generalizing v with
  | nil =>
    cases v with
    | nil => exact absurd rfl differ
    | cons d v => exact iff_of_true (suffixOf_lt (right d mem_cons_self)) (nil_lt_cons ..)
  | cons c u ih =>
    cases v with
    | nil =>
      exact iff_of_false (List.lt_asymm (suffixOf_lt (left c mem_cons_self))) (List.not_lt_nil _)
    | cons d v =>
      rw [cons_append, cons_append, cons_lt_cons_iff, cons_lt_cons_iff]
      by_cases same : c = d
      · subst same
        rw [ih (fun e member => left e (.tail c member)) (fun e member => right e (.tail c member))
          fun same => differ (same ▸ rfl)]
      · simp [same]

/-! ### Digits -/

/-- The digits of a padded segment, eight at least. -/
def width (n : Nat) : Nat := max 8 (Nat.toDigits 10 n).length

theorem width_mono (le : m ≤ n) : width m ≤ width n := by
  have fits := (Nat.length_toDigits_le_iff (b := 10) (by decide) Nat.length_toDigits_pos).mp
    (Nat.le_refl (Nat.toDigits 10 n).length)
  have shorter := (Nat.length_toDigits_le_iff (by decide) Nat.length_toDigits_pos).mpr
    (Nat.lt_of_le_of_lt le fits)
  unfold width
  omega

theorem length_padded (n : Nat) : (padded n).toList.length = width n := by
  simp only [padded, String.toList_ofList, length_append, length_replicate, segmentWidth, width]
  omega

theorem value_cons (c : Char) (s : List Char) : Nat.ofDigitChars 10 (c :: s) 0 =
    10 ^ s.length * (c.toNat - 48) + Nat.ofDigitChars 10 s 0 := by
  rw [Nat.ofDigitChars_cons, Nat.ofDigitChars_eq_ofDigitChars_zero, Nat.mul_zero, Nat.zero_add]
  rfl

theorem digit_range {c : Char} (digit : c.isDigit = true) : 48 ≤ c.toNat ∧ c.toNat ≤ 57 :=
  Char.isDigit_iff_toNat.mp digit

theorem value_lt (digits : ∀ c ∈ s, c.isDigit = true) :
    Nat.ofDigitChars 10 s 0 < 10 ^ s.length := by
  induction s with
  | nil => decide
  | cons c s ih =>
    rw [forall_mem_cons] at digits
    have range := digit_range digits.1
    have digit := Nat.mul_le_mul_left (10 ^ s.length) (show c.toNat - 48 ≤ 9 by omega)
    have rest := ih digits.2
    rw [value_cons, length_cons, Nat.pow_succ]
    omega

/-- Digits are compared as numbers in which the shorter one goes on with zeros. -/
theorem digits_lt_iff (left : ∀ c ∈ u, c.isDigit = true) (right : ∀ c ∈ v, c.isDigit = true)
    (shorter : v.length ≤ u.length) : u < v ↔ Nat.ofDigitChars 10 u 0 <
      Nat.ofDigitChars 10 v 0 * 10 ^ (u.length - v.length) := by
  induction u generalizing v with
  | nil =>
    obtain rfl := length_eq_zero_iff.mp (Nat.le_zero.mp shorter)
    simp
  | cons c u ih =>
    cases v with
    | nil => simp
    | cons d v =>
      rw [forall_mem_cons] at left right
      rw [length_cons, length_cons, Nat.add_le_add_iff_right] at shorter
      have rangeC := digit_range left.1
      have rangeD := digit_range right.1
      have restU := value_lt left.2
      have restV := Nat.mul_lt_mul_of_pos_right (value_lt right.2)
        (Nat.pow_pos (n := u.length - v.length) (show 0 < 10 by decide))
      rw [← Nat.pow_add, Nat.add_sub_cancel' shorter] at restV
      rw [cons_lt_cons_iff, ih left.2 right.2 shorter, length_cons, length_cons,
        Nat.add_sub_add_right, value_cons, value_cons, Nat.add_mul, Nat.mul_right_comm,
        ← Nat.pow_add, Nat.add_sub_cancel' shorter]
      -- The first digits decide, unless they are equal.
      rcases lt_trichotomy c d with below | rfl | above
      · have next : c.toNat < d.toNat := below
        have first := Nat.mul_le_mul_left (10 ^ u.length)
          (show c.toNat - 48 + 1 ≤ d.toNat - 48 by omega)
        rw [Nat.mul_add_one] at first
        simp only [below, true_or, true_iff]
        omega
      · simp
      · have next : d.toNat < c.toNat := above
        have first := Nat.mul_le_mul_left (10 ^ u.length)
          (show d.toNat - 48 + 1 ≤ c.toNat - 48 by omega)
        rw [Nat.mul_add_one] at first
        simp only [above.not_gt, above.ne', false_and, or_self, false_iff]
        omega

/-- The smaller of two numbers does not exceed the other one at its width. -/
def keepsOrder (m n : Nat) : Bool :=
  min m n * 10 ^ (width (max m n) - width (min m n)) ≤ max m n

theorem padded_lt_iff (le : n ≤ m) : padded m < padded n ↔ m < n * 10 ^ (width m - width n) := by
  have compared := digits_lt_iff (u := (padded m).toList) (v := (padded n).toList)
    (fun _ => padded_digits) (fun _ => padded_digits)
  rw [length_padded, length_padded, padded_value, padded_value] at compared
  rw [String.lt_iff_toList_lt]
  exact compared (width_mono le)

theorem keepsOrder_iff (differ : m ≠ n) :
    (padded m < padded n ↔ m < n) ↔ keepsOrder m n = true := by
  have texts : padded m ≠ padded n := fun same => differ (padded_inj (same ▸ rfl))
  rw [keepsOrder, decide_eq_true_eq]
  rcases Nat.lt_or_gt_of_ne differ with below | above
  · rw [Nat.min_eq_left below.le, Nat.max_eq_right below.le, iff_true_right below,
      ← not_lt, ← padded_lt_iff below.le, not_lt]
    exact ⟨le_of_lt, fun le => lt_of_le_of_ne le texts⟩
  · rw [Nat.min_eq_right above.le, Nat.max_eq_left above.le, iff_false_right above.not_gt,
      padded_lt_iff above.le, not_lt]

/-- The first segments in which the keys differ keep their order. -/
def ordered : List Nat → List Nat → Bool
  | m :: as, n :: bs => if m = n then ordered as bs else keepsOrder m n
  | [], _ | _, [] => true

theorem suffixOf_lt_iff : (suffixOf as < suffixOf bs ↔ as < bs) ↔ ordered as bs = true := by
  induction as, bs using ordered.induct with
  | case1 as n bs ih =>
    rw [ordered, if_pos rfl, ← ih, suffixOf_cons, suffixOf_cons]
    simp [append_lt_same]
  | case2 m as n bs differ =>
    have apart := @append_lt_iff as bs _ _ (fun _ => padded_digits) (fun _ => padded_digits)
      (mt padded_inj differ)
    rw [ordered, if_neg differ, ← keepsOrder_iff differ, String.lt_iff_toList_lt, ← apart,
      suffixOf_cons, suffixOf_cons]
    simp [cons_lt_cons_iff, differ]
  | case3 bs => cases bs <;> simp [ordered, suffixOf]
  | case4 as => cases as <;> simp [ordered, suffixOf]

theorem joined_eq : (".".intercalate ((m :: as).map padded)).toList =
    (padded m).toList ++ suffixOf as := by
  induction as generalizing m with
  | nil => simp [suffixOf]
  | cons n as ih =>
    have rest := @ih n
    simp only [String.toList_intercalate, map_cons] at rest ⊢
    rw [intercalate_cons_cons, rest, suffixOf_cons]
    simp

theorem toSortSeq_ok (parsed : segments key = some as) :
    ∃ m rest, as = m :: rest ∧ (toSortSeq key).toList = (padded m).toList ++ suffixOf rest := by
  have filled : (RustText.trim key).isEmpty = false := by
    refine Bool.eq_false_iff.mpr fun empty => ?_
    have malformed : segments key = none := by
      rw [segments, String.isEmpty_iff.mp empty]
      decide
    exact Option.some_ne_none as (parsed.symm.trans malformed)
  have given := parsed
  obtain ⟨raw, later, cut⟩ :=
    exists_cons_of_ne_nil (splitOn_ne_nil '.' (RustText.trim key).toList)
  rw [segments, cut, mapM_cons] at given
  obtain ⟨m, -, given⟩ := Option.bind_eq_some_iff.mp given
  obtain ⟨rest, -, given⟩ := Option.bind_eq_some_iff.mp given
  cases given
  exact ⟨m, rest, rfl, by simp only [toSortSeq, filled, Bool.false_eq_true, if_false, parsed,
    joined_eq]⟩

/-- Two well-formed keys sort as their segments exactly if the first segments that differ keep their
order, and one sorts before the malformed keys exactly if the first eight digits of its first
segment are below the sentinel. -/
theorem sort_texts_order_keys_iff (isA : segments a = some as) (isB : segments b = some bs)
    (malformed : segments c = none) :
    ((toSortSeq a < toSortSeq b ↔ as < bs) ↔ ordered as bs = true) ∧
    (toSortSeq a < toSortSeq c ↔ ∃ m ∈ as.head?, m < 99999999 * 10 ^ (width m - 8)) := by
  obtain ⟨m, as, rfl, textA⟩ := toSortSeq_ok isA
  obtain ⟨n, bs, rfl, textB⟩ := toSortSeq_ok isB
  constructor
  · rw [← suffixOf_lt_iff, suffixOf_cons, suffixOf_cons, cons_lt_cons_iff, String.lt_iff_toList_lt,
      textA, textB]
    simp
  · have last : toSortSeq c = sentinel := by simp only [toSortSeq, malformed, ite_self]
    have first : (padded m).toList < sentinel.toList ↔ m < 99999999 * 10 ^ (width m - 8) := by
      have compared := digits_lt_iff (u := (padded m).toList) (v := sentinel.toList)
        (fun _ => padded_digits) (all_eq_true.mp rfl)
      rw [length_padded, padded_value] at compared
      exact compared (Nat.le_max_left ..)
    simp only [last, String.lt_iff_toList_lt, textA, head?_cons, Option.mem_def, Option.some.injEq,
      exists_eq_left', ← first]
    conv_lhs => rw [← append_nil sentinel.toList]
    by_cases same : (padded m).toList = sentinel.toList
    · rw [same, append_lt_same]
      simp
    · exact @append_lt_iff as [] _ _ (fun _ => padded_digits) (all_eq_true.mp rfl) same

theorem short_keys_sort_in_order : toSortSeq "1.2" < toSortSeq " 1.10" ∧
    toSortSeq "1.2" < toSortSeq "1.x" := by
  have holds := @sort_texts_order_keys_iff [1, 2] [1, 10] "1.2" " 1.10" "1.x" (by decide +kernel)
    (by decide +kernel) (by decide +kernel)
  exact ⟨(holds.1.mpr (by decide)).mpr (by decide), holds.2.mpr ⟨1, rfl, by decide⟩⟩

/-- Nine digits sort before eight, and eight nines are the sentinel. -/
theorem long_segment_sorts_first :
    segments "100000000" = some [100000000] ∧ segments "20000000" = some [20000000] ∧
    toSortSeq "100000000" < toSortSeq "20000000" ∧ ¬ toSortSeq "99999999" < toSortSeq "" := by
  decide +kernel

end Nomifun.Guarantees.OrderKeys
