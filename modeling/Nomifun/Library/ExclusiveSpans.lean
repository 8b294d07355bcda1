import Mathlib.Data.List.Basic

/-!
# Exclusive spans

A log that opens and closes spans named by keys. At most one span is open at a time and a key
is opened at most once. What a log of this kind looks like follows from how it was written,
one mark after another.
-/
namespace Nomifun.Library.ExclusiveSpans
open List

inductive Mark (κ : Type) where
  | opens (key : κ)
  | closes (key : κ)
  | neutral
  deriving DecidableEq

variable {κ : Type}

/-- The logs that can be written, each with the key of the span that is open at its end. -/
inductive Orderly : List (Mark κ) → Option κ → Prop
  | nil : Orderly [] none
  | opens {log : List (Mark κ)} {key : κ} :
      Orderly log none → .opens key ∉ log → Orderly (log ++ [.opens key]) (some key)
  | closes {log : List (Mark κ)} {key : κ} :
      Orderly log (some key) → Orderly (log ++ [.closes key]) none
  | neutral {log : List (Mark κ)} {active : Option κ} :
      Orderly log active → Orderly (log ++ [.neutral]) active

namespace Orderly

variable {log : List (Mark κ)} {active : Option κ} {key : κ}

theorem of_empty (orderly : Orderly ([] : List (Mark κ)) active) : active = none := by
  generalize empty : ([] : List (Mark κ)) = log at orderly
  cases orderly with
  | nil => rfl
  | opens | closes | neutral => simp at empty

theorem active_opened (orderly : Orderly log (some key)) : .opens key ∈ log := by
  generalize isOpen : some key = active at orderly
  induction orderly with
  | nil => cases isOpen
  | opens => simp_all
  | closes => cases isOpen
  | neutral _ ih => exact mem_append_left _ (ih isOpen)

theorem closed_opened (orderly : Orderly log active) (closed : .closes key ∈ log) :
    .opens key ∈ log := by
  induction orderly with
  | nil => simp at closed
  | opens _ _ ih => exact mem_append_left _ (ih (by simpa using closed))
  | neutral _ ih => exact mem_append_left _ (ih (by simpa using closed))
  | closes before ih =>
    refine mem_append_left _ ?_
    rcases mem_append.mp closed with earlier | last
    · exact ih earlier
    · obtain rfl : key = _ := by simpa using last
      exact before.active_opened

theorem active_unclosed (orderly : Orderly log (some key)) : .closes key ∉ log := by
  generalize isOpen : some key = active at orderly
  induction orderly with
  | nil => cases isOpen
  | closes => cases isOpen
  | neutral _ ih => simpa using ih isOpen
  | opens before fresh =>
    obtain rfl : key = _ := by simpa using isOpen
    -- A close of the key would have needed an open of it.
    intro closed
    exact fresh (before.closed_opened (by simpa using closed))

/-- The key of the open span is the last one opened. -/
theorem active_last_opened (orderly : Orderly log (some key)) {i m : Nat} (later : i < m)
    (opened : log[i]? = some (.opens key)) (other : κ) : log[m]? ≠ some (.opens other) := by
  generalize isOpen : some key = active at orderly
  induction orderly with
  | nil => simp at opened
  | closes => cases isOpen
  | @opens log _ _ fresh =>
    obtain rfl : key = _ := by simpa using isOpen
    have last : i = log.length := by
      by_contra different
      have inside : log[i]? = some (.opens key) := by grind
      exact fresh (mem_of_getElem? inside)
    grind
  | neutral _ ih => grind

/-- Every close comes after the open of its key. -/
theorem opened_before_closed (orderly : Orderly log active) {i j : Nat}
    (opened : log[i]? = some (.opens key)) (closed : log[j]? = some (.closes key)) : i < j := by
  induction orderly with
  | nil => simp at opened
  | neutral _ ih => grind
  | closes _ ih => grind
  | @opens log _ before fresh ih =>
    have inside : log[j]? = some (.closes key) := by grind
    have present := before.closed_opened (mem_of_getElem? inside)
    grind

/-- Between the open of a key and its close nothing is opened. -/
theorem nothing_opened_between (orderly : Orderly log active) {i j m : Nat}
    (opened : log[i]? = some (.opens key)) (closed : log[j]? = some (.closes key))
    (after : i < m) (before : m < j) (other : κ) : log[m]? ≠ some (.opens other) := by
  induction orderly with
  | nil => simp at opened
  | neutral _ ih => grind
  | opens _ _ ih => grind
  | @closes log last orderly ih =>
    by_cases final : j = log.length
    · obtain rfl : last = key := by grind
      have inside : log[i]? = some (.opens last) := by grind
      have := orderly.active_last_opened after inside other
      grind
    · grind

variable [DecidableEq κ]

theorem count_opens_le (orderly : Orderly log active) : log.count (.opens key) ≤ 1 := by
  induction orderly with
  | nil => simp
  | closes _ ih | neutral _ ih => simpa [count_append] using ih
  | @opens log last _ fresh ih =>
    by_cases same : last = key
    · subst same
      simp [count_append, count_eq_zero_of_not_mem fresh]
    · simpa [count_append, count_singleton, same] using ih

theorem count_closes_le (orderly : Orderly log active) : log.count (.closes key) ≤ 1 := by
  induction orderly with
  | nil => simp
  | opens _ _ ih | neutral _ ih => simpa [count_append] using ih
  | @closes log last before ih =>
    by_cases same : last = key
    · subst same
      simp [count_append, count_eq_zero_of_not_mem before.active_unclosed]
    · simpa [count_append, count_singleton, same] using ih

end Orderly

end Nomifun.Library.ExclusiveSpans
