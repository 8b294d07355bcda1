
/-!
# Scanning a stream that arrives in pieces

A scanner looks at the front of a buffer and either recognises one item of known
width or is starved: the buffer may still grow into an item. Recognition is stable,
so bytes that arrive later never change an item already recognised. Everything
about packet boundaries follows from that: scanning piece by piece with the
unfinished rest carried over yields the same items and the same final rest as
scanning the whole stream at once (`scan_append`).
-/
namespace Nomifun.Library

universe u v

inductive Verdict (β : Type v) where
  | item (value : β) (width : Nat)
  | starved

structure Scanner (α : Type u) (β : Type v) where
  front : List α → Verdict β
  width_pos : ∀ {xs : List α} {value : β} {width : Nat}, front xs = .item value width → 0 < width
  width_le : ∀ {xs : List α} {value : β} {width : Nat},
    front xs = .item value width → width ≤ xs.length
  stable : ∀ {xs : List α} {value : β} {width : Nat} (later : List α),
    front xs = .item value width → front (xs ++ later) = .item value width

namespace Scanner

variable {α : Type u} {β : Type v} (s : Scanner α β)

/-- The recognised items and the starved rest. -/
def scan (xs : List α) : List β × List α :=
  match _found : s.front xs with
  | .starved => ([], xs)
  | .item value width =>
    let rest := scan (xs.drop width)
    (value :: rest.1, rest.2)
termination_by xs.length
decreasing_by
  have hpos := s.width_pos _found
  have hle := s.width_le _found
  simp only [List.length_drop]
  omega

theorem scan_starved (h : s.front xs = .starved) : s.scan xs = ([], xs) := by
  rw [scan]
  split
  next => rfl
  next value width hitem => simp [h] at hitem

theorem scan_item (h : s.front xs = .item value width) :
    s.scan xs = (value :: (s.scan (xs.drop width)).1, (s.scan (xs.drop width)).2) := by
  conv => lhs; rw [scan]
  split
  next hstarved => simp [h] at hstarved
  next value' width' hitem =>
    rw [h] at hitem
    cases hitem
    rfl

@[simp] theorem front_nil : s.front [] = .starved := by
  cases h : s.front [] with
  | starved => rfl
  | item value width =>
    have hpos := s.width_pos h
    have hle := s.width_le h
    simp at hle
    omega

@[simp] theorem scan_nil : s.scan [] = ([], []) := s.scan_starved s.front_nil

/-- Induction along the items of a scan: the starved buffer, and a buffer whose
first item has been taken off. -/
theorem scan_induction {motive : List α → Prop}
    (starved : ∀ xs, s.front xs = .starved → motive xs)
    (item : ∀ xs value width, s.front xs = .item value width → motive (xs.drop width) → motive xs) :
    ∀ xs, motive xs := by
  intro xs
  induction hn : xs.length using Nat.strongRecOn generalizing xs with
  | ind n ih =>
    cases h : s.front xs with
    | starved => exact starved xs h
    | item value width =>
      have hpos := s.width_pos h
      have hle := s.width_le h
      exact item xs value width h
        (ih (xs.drop width).length (by simp only [List.length_drop]; omega) _ rfl)

/-- What is carried over is itself starved. -/
theorem scan_carry_starved (xs : List α) : s.front (s.scan xs).2 = .starved := by
  refine s.scan_induction (motive := fun xs => s.front (s.scan xs).2 = .starved) ?_ ?_ xs
  · intro xs h
    rw [s.scan_starved h]
    exact h
  · intro xs value width h ih
    rw [s.scan_item h]
    exact ih

/-- A later piece continues from the carried rest and changes no earlier item. -/
theorem scan_append (xs later : List α) :
    s.scan (xs ++ later) = ((s.scan xs).1 ++ (s.scan ((s.scan xs).2 ++ later)).1,
        (s.scan ((s.scan xs).2 ++ later)).2) := by
  refine s.scan_induction (motive := fun xs => s.scan (xs ++ later) =
    ((s.scan xs).1 ++ (s.scan ((s.scan xs).2 ++ later)).1,
      (s.scan ((s.scan xs).2 ++ later)).2)) ?_ ?_ xs
  · intro xs h
    simp [s.scan_starved h]
  · intro xs value width h ih
    have hle := s.width_le h
    have hdrop : (xs ++ later).drop width = xs.drop width ++ later :=
      List.drop_append_of_le_length hle
    rw [s.scan_item (s.stable later h), hdrop, ih, s.scan_item h]
    simp

end Scanner
end Nomifun.Library
