import Mathlib.Algebra.Ring.Nat

/-!
# Byte positions in a text

A text is a list of characters, and a position counts the bytes of its UTF-8 form. A position is a
boundary when it does not fall inside a character (`isBoundary_iff`). Cutting at boundaries gives
back what stands between them (`slice_append`), and `floorBoundary` is the last boundary at or
before a position.
-/
namespace Nomifun.Library.ByteOffsets

def bytes (text : List Char) : Nat := (text.map Char.utf8Size).sum

section

variable (c : Char) (text more : List Char)

@[simp] theorem bytes_nil : bytes [] = 0 := rfl

@[simp] theorem bytes_cons : bytes (c :: text) = c.utf8Size + bytes text := rfl

@[simp] theorem bytes_append : bytes (text ++ more) = bytes text + bytes more := by
  simp [bytes]

theorem bytes_eq_zero {text : List Char} (zero : bytes text = 0) : text = [] := by
  cases text with
  | nil => rfl
  | cons c text =>
    have positive := Char.utf8Size_pos c
    rw [bytes_cons] at zero
    omega

end

def isBoundary : List Char → Nat → Bool
  | [], n => n = 0
  | c :: rest, n => n = 0 || (c.utf8Size ≤ n && isBoundary rest (n - c.utf8Size))

theorem isBoundary_iff {text : List Char} {n : Nat} :
    isBoundary text n = true ↔ ∃ before after, text = before ++ after ∧ bytes before = n := by
  induction text generalizing n with
  | nil =>
    simp only [isBoundary, decide_eq_true_eq]
    constructor
    · rintro rfl
      exact ⟨[], [], rfl, rfl⟩
    · rintro ⟨before, after, split, rfl⟩
      obtain ⟨rfl, _⟩ := List.append_eq_nil_iff.mp split.symm
      rfl
  | cons c rest ih =>
    simp only [isBoundary, Bool.or_eq_true, Bool.and_eq_true, decide_eq_true_eq, ih]
    constructor
    · rintro (rfl | ⟨inside, before, after, rfl, size⟩)
      · exact ⟨[], c :: rest, rfl, rfl⟩
      · refine ⟨c :: before, after, rfl, ?_⟩
        rw [bytes_cons]
        omega
    · rintro ⟨before, after, split, rfl⟩
      cases before with
      | nil => exact .inl rfl
      | cons first before =>
        obtain ⟨rfl, rfl⟩ := List.cons.inj split
        refine .inr ⟨?_, before, after, rfl, ?_⟩
        · rw [bytes_cons]
          omega
        · rw [bytes_cons, Nat.add_sub_cancel_left]

/-- A boundary at or behind another one. -/
theorem boundary_behind {before after : List Char} {n : Nat}
    (boundary : isBoundary (before ++ after) n = true) (behind : bytes before ≤ n) :
    ∃ between rest, after = between ++ rest ∧ n = bytes before + bytes between := by
  obtain ⟨front, rest, split, rfl⟩ := isBoundary_iff.mp boundary
  rcases List.append_eq_append_iff.mp split with ⟨between, rfl, rfl⟩ | ⟨short, rfl, rfl⟩
  · exact ⟨between, rest, rfl, bytes_append _ _⟩
  · rw [bytes_append] at behind
    obtain rfl : short = [] := bytes_eq_zero (by omega)
    exact ⟨[], after, rfl, by simp⟩

def takeBytes : Nat → List Char → List Char
  | _, [] => []
  | n, c :: rest => if c.utf8Size ≤ n then c :: takeBytes (n - c.utf8Size) rest else []

def dropBytes : Nat → List Char → List Char
  | _, [] => []
  | n, c :: rest => if n = 0 then c :: rest else dropBytes (n - c.utf8Size) rest

/-- What stands between two boundaries. -/
def slice (text : List Char) (start stop : Nat) : List Char :=
  takeBytes (stop - start) (dropBytes start text)

theorem takeBytes_zero (text : List Char) : takeBytes 0 text = [] := by
  cases text with
  | nil => rfl
  | cons c text =>
    have positive := Char.utf8Size_pos c
    rw [takeBytes, if_neg (by omega)]

theorem takeBytes_add (front rest : List Char) (n : Nat) :
    takeBytes (bytes front + n) (front ++ rest) = front ++ takeBytes n rest := by
  induction front with
  | nil => rw [bytes_nil, Nat.zero_add, List.nil_append, List.nil_append]
  | cons c front ih =>
    rw [List.cons_append, takeBytes, bytes_cons, Nat.add_assoc, if_pos (Nat.le_add_right ..),
      Nat.add_sub_cancel_left, ih, List.cons_append]

theorem takeBytes_append (front rest : List Char) :
    takeBytes (bytes front) (front ++ rest) = front := by
  rw [← Nat.add_zero (bytes front), takeBytes_add, takeBytes_zero, List.append_nil]

theorem takeBytes_of_le {text : List Char} (fits : bytes text ≤ n) : takeBytes n text = text := by
  obtain ⟨more, rfl⟩ := Nat.le.dest fits
  simpa [takeBytes] using takeBytes_add text [] more

theorem takeBytes_cons_eq_nil : takeBytes n (c :: rest) = [] ↔ n < c.utf8Size := by
  rw [takeBytes]
  split <;> simp <;> omega

theorem takeBytes_starts (n : Nat) (text : List Char) : takeBytes n text <+: text := by
  fun_induction takeBytes n text with
  | case1 => exact List.prefix_rfl
  | case2 _ c rest _ ih => exact List.cons_prefix_cons.mpr ⟨rfl, ih⟩
  | case3 => exact List.nil_prefix

theorem bytes_takeBytes_le (n : Nat) (text : List Char) : bytes (takeBytes n text) ≤ n := by
  fun_induction takeBytes n text with
  | case1 => exact Nat.zero_le _
  | case2 n c rest fits ih =>
    rw [bytes_cons]
    omega
  | case3 => exact Nat.zero_le _

theorem dropBytes_append (front rest : List Char) :
    dropBytes (bytes front) (front ++ rest) = rest := by
  induction front with
  | nil => cases rest <;> rfl
  | cons c front ih =>
    have positive := Char.utf8Size_pos c
    rw [List.cons_append, dropBytes, bytes_cons, if_neg (by omega), Nat.add_sub_cancel_left, ih]

theorem slice_append (before between rest : List Char) :
    slice (before ++ (between ++ rest)) (bytes before) (bytes before + bytes between) =
      between := by
  rw [slice, dropBytes_append, Nat.add_sub_cancel_left, takeBytes_append]

/-- The last boundary at or before a position. -/
def floorBoundary (text : List Char) : Nat → Nat
  | 0 => 0
  | n + 1 => if isBoundary text (n + 1) then n + 1 else floorBoundary text n

theorem isBoundary_zero (text : List Char) : isBoundary text 0 = true :=
  isBoundary_iff.mpr ⟨[], text, rfl, rfl⟩

theorem floorBoundary_le (text : List Char) (n : Nat) : floorBoundary text n ≤ n := by
  induction n with
  | zero => exact Nat.le_refl 0
  | succ n ih =>
    rw [floorBoundary]
    split <;> omega

theorem isBoundary_floorBoundary (text : List Char) (n : Nat) :
    isBoundary text (floorBoundary text n) = true := by
  induction n with
  | zero => exact isBoundary_zero text
  | succ n ih =>
    rw [floorBoundary]
    split
    next boundary => exact boundary
    next => exact ih

theorem le_floorBoundary {text : List Char} {m n : Nat} (boundary : isBoundary text m = true)
    (le : m ≤ n) : m ≤ floorBoundary text n := by
  induction n with
  | zero => exact le
  | succ n ih =>
    rw [floorBoundary]
    split
    next => exact le
    next inside =>
      have different : m ≠ n + 1 := by
        rintro rfl
        exact inside boundary
      exact ih (by omega)

/-- The last boundary behind a text takes what fits of the rest. -/
theorem floorBoundary_append (before after : List Char) (n : Nat) :
    floorBoundary (before ++ after) (bytes before + n) =
      bytes before + bytes (takeBytes n after) := by
  apply Nat.le_antisymm
  · have start : isBoundary (before ++ after) (bytes before) = true :=
      isBoundary_iff.mpr ⟨before, after, rfl, rfl⟩
    obtain ⟨between, rest, rfl, last⟩ := boundary_behind
      (isBoundary_floorBoundary (before ++ after) (bytes before + n))
      (le_floorBoundary start (Nat.le_add_right ..))
    have within := floorBoundary_le (before ++ (between ++ rest)) (bytes before + n)
    obtain ⟨more, rfl⟩ := Nat.le.dest (show bytes between ≤ n by omega)
    rw [last, takeBytes_add, bytes_append]
    omega
  · obtain ⟨rest, split⟩ := takeBytes_starts n after
    refine le_floorBoundary (isBoundary_iff.mpr ⟨before ++ takeBytes n after, rest, ?_, ?_⟩)
      (Nat.add_le_add_left (bytes_takeBytes_le n after) _)
    · rw [List.append_assoc, split]
    · exact bytes_append _ _

end Nomifun.Library.ByteOffsets
