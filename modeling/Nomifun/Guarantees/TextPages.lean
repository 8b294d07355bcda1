import Nomifun.Source.File.AgentTextRead

/-!
# Reading a text page by page

A reader starts at an offset and follows the offset that each page names. A page that does not fit
the result is halved, and the halves are cut back to the character boundary before them. Where the
first character is wider than the half, nothing is left of it and the read fails, although the page
of that character alone may fit. Reads at every boundary and up to a limit come to the end of the
text exactly when the pages that cannot be halved fit: those of less than twice the width of their
first character.
-/
namespace Nomifun.Guarantees.TextPages
open Library.ByteOffsets Library.Json Source.File List
open Source.AgentExecution (AppError)

/-! ### Walks -/

/-- The pages from an offset to the end of the text. -/
inductive Walk (read : Nat → Except AppError AgentTextPage) : Nat → List AgentTextPage → Prop
  | last {offset : Nat} {page : AgentTextPage} :
    read offset = .ok page → page.eof = true → Walk read offset [page]
  | next {offset following : Nat} {page : AgentTextPage} {pages : List AgentTextPage} :
    read offset = .ok page → page.eof = false → page.nextOffset = some following →
      Walk read following pages → Walk read offset (page :: pages)

theorem Walk.reads {read : Nat → Except AppError AgentTextPage} (walk : Walk read offset pages) :
    ∃ page, read offset = .ok page := by
  cases walk with
  | last ok => exact ⟨_, ok⟩
  | next ok => exact ⟨_, ok⟩

/-- What a reader relies on. -/
structure WalksThrough (read : Nat → Except AppError AgentTextPage) (text : List Char)
    (offset : Nat) (pages : List AgentTextPage) : Prop where
  walk : Walk read offset pages
  whole : pages.flatMap (·.content.toList) = text
  fits : ∀ page ∈ pages, fitsTextResult page.json 0 = true
  behind : ∀ page ∈ pages, offset ≤ page.offset
  increasing : (pages.map (·.offset)).Pairwise (· < ·)

/-- A request for a text, with what the pages say of their source. -/
structure Reading where
  request : AgentTextReadRequest
  text : List Char
  sha256 : String
  workspacePath : Option WorkspacePathObservation

namespace Reading

/-! ### One page -/

section

variable (r : Reading) (before stretch : List Char)

/-- The page of a stretch of the text. -/
abbrev pageOf : AgentTextPage :=
  pageTo { r.request with offset := bytes before } r.text r.sha256 r.workspacePath
    (bytes before + bytes stretch)

/-- The page of a stretch fits the result. -/
def Fits : Prop := fitsTextResult (r.pageOf before stretch).json 0 = true

/-- The page of any single character of the text fits. -/
def SingleFits : Prop := ∀ before c after, r.text = before ++ c :: after → r.Fits before [c]

/-- The read at an offset, for the same path, limit and version. -/
def readAt (offset : Nat) : Except AppError AgentTextPage :=
  Source.File.page { r.request with offset := offset } r.text r.sha256 r.workspacePath

abbrev shrinkFrom : Except AppError AgentTextPage :=
  shrinkPage { r.request with offset := bytes before } r.text r.sha256 r.workspacePath
    (bytes before + bytes stretch)

def Shrinks : Prop := ∃ page, r.shrinkFrom before stretch = .ok page

variable {r before stretch} {after : List Char} {page : AgentTextPage}
  (split : r.text = before ++ after)
include split

/-- The loop returns the page of the stretch, or goes on with the first half of it. -/
theorem shrinkFrom_eq_ok : r.shrinkFrom before stretch = .ok page ↔
    r.Fits before stretch ∧ page = r.pageOf before stretch ∨
    ¬ r.Fits before stretch ∧ takeBytes (bytes stretch / 2) after ≠ [] ∧
      r.shrinkFrom before (takeBytes (bytes stretch / 2) after) = .ok page := by
  have half : halfway { r.request with offset := bytes before } r.text
      (bytes before + bytes stretch) =
        bytes before + bytes (takeBytes (bytes stretch / 2) after) := by
    rw [halfway, Nat.add_sub_cancel_left, split, floorBoundary_append]
  have nothing : bytes before + bytes (takeBytes (bytes stretch / 2) after) = bytes before ↔
      takeBytes (bytes stretch / 2) after = [] := by
    rw [Nat.add_eq_left]
    exact ⟨bytes_eq_zero, fun empty => empty ▸ rfl⟩
  rw [shrinkFrom, shrinkPage]
  dsimp only
  rw [half]
  split
  next fits =>
    have fits : r.Fits before stretch := fits
    simp only [fits, true_and, not_true_eq_false, false_and, or_false, Except.ok.injEq]
    exact eq_comm
  next tooBig =>
    have tooBig : ¬ r.Fits before stretch := tooBig
    simp only [tooBig, false_and, false_or, not_false_iff, true_and]
    split
    next behind =>
      have empty : bytes stretch = 0 := by omega
      simp [badRequest, empty, takeBytes_zero]
    next =>
      rw [if_congr nothing rfl rfl]
      split
      next empty => simp [badRequest, empty]
      next more => simp [more]

theorem shrinks_iff : r.Shrinks before stretch ↔ r.Fits before stretch ∨
    takeBytes (bytes stretch / 2) after ≠ [] ∧
      r.Shrinks before (takeBytes (bytes stretch / 2) after) := by
  constructor
  · rintro ⟨page, ok⟩
    rcases (shrinkFrom_eq_ok split).mp ok with ⟨fits, -⟩ | ⟨-, more, ok⟩
    · exact .inl fits
    · exact .inr ⟨more, page, ok⟩
  · by_cases fits : r.Fits before stretch
    · exact fun _ => ⟨_, (shrinkFrom_eq_ok split).mpr (.inl ⟨fits, rfl⟩)⟩
    · rintro (fit | ⟨more, page, ok⟩)
      · exact absurd fit fits
      · exact ⟨page, (shrinkFrom_eq_ok split).mpr (.inr ⟨fits, more, ok⟩)⟩

/-- The page that is returned is that of a stretch, which is not empty as long as there is text
left. -/
theorem shrinkFrom_ok (isPart : stretch <+: after) (progress : after ≠ [] → stretch ≠ [])
    (ok : r.shrinkFrom before stretch = .ok page) :
    ∃ part rest, after = part ++ rest ∧ (after ≠ [] → part ≠ []) ∧ r.Fits before part ∧
      page = r.pageOf before part := by
  induction size : bytes stretch using Nat.strongRecOn generalizing stretch with
  | ind remaining ih =>
    rcases (shrinkFrom_eq_ok split).mp ok with ⟨fits, rfl⟩ | ⟨-, more, ok⟩
    · obtain ⟨rest, rfl⟩ := isPart
      exact ⟨stretch, rest, rfl, progress, fits, rfl⟩
    · have within := bytes_takeBytes_le (bytes stretch / 2) after
      have some : bytes (takeBytes (bytes stretch / 2) after) ≠ 0 := fun zero =>
        more (bytes_eq_zero zero)
      exact ih _ (by omega) (takeBytes_starts ..) (fun _ => more) ok rfl

theorem readAt_eq :
    r.readAt (bytes before) = r.shrinkFrom before (takeBytes r.request.limit after) := by
  have inside : ¬ (decide (bytes before > bytes r.text) || !isBoundary r.text (bytes before)) =
      true := by
    have boundary := isBoundary_iff.mpr ⟨before, after, split, rfl⟩
    have within : bytes before ≤ bytes r.text := by simp [split]
    simp [boundary, within]
  have stop : pageEnd { r.request with offset := bytes before } r.text =
      bytes before + bytes (takeBytes r.request.limit after) := by
    show floorBoundary r.text (min (bytes before + r.request.limit) (bytes r.text)) = _
    rw [split, bytes_append, Nat.add_min_add_left, floorBoundary_append]
    rcases Nat.le_total r.request.limit (bytes after) with short | long
    · rw [Nat.min_eq_left short]
    · rw [Nat.min_eq_right long, takeBytes_of_le long, takeBytes_of_le (Nat.le_refl _)]
  rw [readAt, Source.File.page, if_neg inside, stop]

omit split in
/-- Four bytes are room for any character. -/
theorem takeBytes_limit (room : 4 ≤ limit) (more : after ≠ []) : takeBytes limit after ≠ [] := by
  obtain ⟨c, rest, rfl⟩ := exists_cons_of_ne_nil more
  have wide := Char.utf8Size_le_four c
  rw [ne_eq, takeBytes_cons_eq_nil]
  omega

end

/-! ### The walk -/

section

variable (r : Reading) (before after : List Char)

/-- A text that is read to its end from a boundary: there is text left, or there never was any. -/
def ToRead : Prop := r.text = before ++ after ∧ (after ≠ [] ∨ r.text = [])

/-- The pages that cannot be halved fit. Those that are narrower than twice their first character
leave nothing of it, and the two characters that a half may consist of leave nothing of themselves
if they have two bytes and one. -/
structure Indivisible (limit : Nat) : Prop where
  narrow : ∀ before c rest, r.text = before ++ c :: rest →
    bytes (takeBytes limit (c :: rest)) < 2 * c.utf8Size →
    r.Fits before (takeBytes limit (c :: rest))
  pair : ∀ before c d rest, r.text = before ++ c :: rest → c.utf8Size = 2 → d.utf8Size = 1 →
    takeBytes (bytes (takeBytes limit (c :: rest)) / 2) (c :: rest) = [c, d] →
    r.Fits before (takeBytes limit (c :: rest)) ∨ r.Fits before [c, d]

variable {r before after}

theorem walksThrough_of_reads (room : 4 ≤ r.request.limit) (toRead : r.ToRead before after)
    (reads : ∀ before after, r.ToRead before after → ∃ page, r.readAt (bytes before) = .ok page) :
    ∃ pages, WalksThrough r.readAt after (bytes before) pages := by
  induction left : bytes after using Nat.strongRecOn generalizing before after with
  | ind remaining ih =>
    obtain ⟨page, ok⟩ := reads before after toRead
    obtain ⟨split, -⟩ := toRead
    have shrunk := ok
    rw [readAt_eq split] at shrunk
    obtain ⟨part, rest, rfl, progress, fits, rfl⟩ := shrinkFrom_ok split (takeBytes_starts ..)
      (takeBytes_limit room) shrunk
    have content : (r.pageOf before part).content.toList = part := by
      show (String.ofList (slice r.text (bytes before) _)).toList = part
      rw [String.toList_ofList, split, slice_append]
    have total : bytes r.text = bytes before + bytes part + bytes rest := by
      rw [split, bytes_append, bytes_append, Nat.add_assoc]
    by_cases atEnd : rest = []
    · -- The page comes to the end of the text.
      subst atEnd
      refine ⟨[_], .last ok (decide_eq_true total.symm), ?_, ?_, ?_, pairwise_singleton ..⟩
      · simp [content]
      · exact forall_mem_singleton.mpr fits
      · exact forall_mem_singleton.mpr (Nat.le_refl _)
    · have apart : bytes before + bytes part ≠ bytes r.text := fun same =>
        atEnd (bytes_eq_zero (by omega))
      have forward : bytes part ≠ 0 := fun zero =>
        progress (append_ne_nil_of_right_ne_nil _ atEnd) (bytes_eq_zero zero)
      have shorter : bytes rest < remaining := by
        rw [← left, bytes_append]
        omega
      have later : r.text = (before ++ part) ++ rest := by rw [split, append_assoc]
      obtain ⟨pages, through⟩ := ih (bytes rest) shorter ⟨later, .inl atEnd⟩ rfl
      rw [bytes_append] at through
      have far : ∀ page ∈ pages, bytes before < page.offset := fun page member => by
        have behind := through.behind page member
        omega
      refine ⟨_ :: pages, .next ok (decide_eq_false apart) (if_neg apart) through.walk, ?_,
        forall_mem_cons.mpr ⟨fits, through.fits⟩,
        forall_mem_cons.mpr ⟨Nat.le_refl _, fun page member => (far page member).le⟩, ?_⟩
      · rw [flatMap_cons, through.whole, content]
      · rw [map_cons, pairwise_cons, forall_mem_map]
        exact ⟨far, through.increasing⟩

/-- Less than twice the first character cannot be halved. -/
theorem fits_of_narrow (split : r.text = before ++ c :: rest)
    (narrow : bytes stretch < 2 * c.utf8Size) (shrinks : r.Shrinks before stretch) :
    r.Fits before stretch := by
  refine ((shrinks_iff split).mp shrinks).resolve_right ?_
  rintro ⟨more, -⟩
  rw [ne_eq, takeBytes_cons_eq_nil] at more
  omega

/-- A stretch of the text that the limit admits is shrunk to a page that fits. -/
theorem shrinks_of_indivisible (single : r.SingleFits) (split : r.text = before ++ c :: rest)
    (room : 4 ≤ limit) (fits : ∀ small, 4 ≤ small → small ≤ limit → r.Indivisible small) :
    r.Shrinks before (takeBytes limit (c :: rest)) := by
  induction limit using Nat.strongRecOn with
  | ind limit ih =>
    have here := fits limit room (Nat.le_refl _)
    have alone := (shrinks_iff split).mpr (.inl (single before c rest split))
    by_cases fit : r.Fits before (takeBytes limit (c :: rest))
    · exact (shrinks_iff split).mpr (.inl fit)
    have wide : c.utf8Size ≤ bytes (takeBytes limit (c :: rest)) / 2 := by
      by_contra narrow
      exact fit (here.narrow before c rest split (by omega))
    have within := bytes_takeBytes_le limit (c :: rest)
    refine (shrinks_iff split).mpr (.inr ⟨by rw [ne_eq, takeBytes_cons_eq_nil]; omega, ?_⟩)
    generalize half : bytes (takeBytes limit (c :: rest)) / 2 = small at wide
    by_cases enough : 4 ≤ small
    · exact ih small (by omega) enough fun other some within => fits other some (by omega)
    -- At most three bytes are left.
    have first : takeBytes small (c :: rest) = c :: takeBytes (small - c.utf8Size) rest := by
      rw [takeBytes, if_pos wide]
    rw [first]
    have tailFits := bytes_takeBytes_le (small - c.utf8Size) rest
    cases tail : takeBytes (small - c.utf8Size) rest with
    | nil => exact alone
    | cons d more =>
      have positive := Char.utf8Size_pos d
      rw [tail, bytes_cons] at tailFits
      by_cases one : c.utf8Size = 1
      · have quarter : bytes (c :: d :: more) / 2 = 1 := by
          rw [bytes_cons, bytes_cons]
          omega
        have only : takeBytes 1 (c :: rest) = [c] := by
          rw [takeBytes, if_pos one.le, one, takeBytes_zero]
        refine (shrinks_iff split).mpr (.inr ?_)
        rw [quarter, only]
        exact ⟨cons_ne_nil _ _, alone⟩
      · have atLeast := Char.utf8Size_pos c
        obtain rfl : more = [] := bytes_eq_zero (by omega)
        have pair := here.pair before c d rest split (by omega) (by omega)
          (by rw [half, first, tail])
        exact (shrinks_iff split).mpr (.inl (pair.resolve_left fit))

end

/-! ### Reading a text -/

abbrev limited (r : Reading) (limit : Nat) : Reading :=
  { r with request := { r.request with limit := limit } }

end Reading

open Reading

/-- The sizes of a text with one and with two layers of escapes. -/
def escapedSizes (text : List Char) : Nat × Nat :=
  (bytes (text.flatMap escape), bytes ((text.flatMap escape).flatMap escape))

theorem escapedSizes_append (text more : List Char) :
    escapedSizes (text ++ more) = escapedSizes text + escapedSizes more := by
  simp [escapedSizes]

theorem escapedSizes_repeat (block : List Char) (n : Nat) :
    escapedSizes (replicate n block).flatten =
      (n * (escapedSizes block).1, n * (escapedSizes block).2) := by
  induction n with
  | zero => simp [escapedSizes]
  | succ n ih =>
    rw [replicate_succ, flatten_cons, escapedSizes_append, ih]
    simp [Prod.ext_iff, Nat.succ_mul, Nat.add_comm]

/-- The path adds its own sizes to those of the page. -/
theorem fits_iff {page : AgentTextPage} (sizes : escapedSizes page.path.toList = (json, wire)) :
    fitsTextResult page.json 0 = true ↔
      json + bytes (jsonText { page with path := "" }.json) ≤ maxJsonBytes ∧
        2 + wire + bytes ((jsonText { page with path := "" }.json).flatMap escape) ≤
          maxToolTextBytes := by
  obtain ⟨tail, here, empty, filled⟩ : ∃ tail,
      page.json = .object (("path", .string page.path) :: tail) ∧
      { page with path := "" }.json = .object (("path", .string "") :: tail) ∧ tail ≠ [] :=
    ⟨_, rfl, rfl, by simp⟩
  have text (path : String) : jsonText (.object (("path", .string path) :: tail)) =
      "\x7b\"path\":\"".toList ++ path.toList.flatMap escape ++
        ('"' :: ',' :: compactEntries (fun _ => []) tail ++ ['\x7d']) := by
    rw [jsonText, compact, compactEntries, compact]
    · simp [quoted]
      rfl
    · exact filled
  have quote : '"'.utf8Size = 1 := by decide
  cases sizes
  simp only [fitsTextResult, wireBytes, quoted, here, empty, text, String.toList_ofList,
    String.toList_empty, flatMap_append, flatMap_nil, bytes_append, bytes_cons, bytes_nil, quote,
    Bool.and_eq_true, decide_eq_true_eq]
  omega

def letter : Reading := ⟨⟨"a", 0, 4, none, none, none⟩, ['x'], "", none⟩

/-- Two characters of three and two bytes. -/
def twoCharacters (path : String) : Reading :=
  ⟨⟨path, 0, maxPageBytes, none, none, none⟩, ['中', 'é'], String.ofList (replicate 64 '0'), none⟩

/-- A path of directories whose names are control characters, which take six bytes in JSON text and
seven in the JSON of that text. -/
def deepPath : List Char :=
  (replicate 17 ('/' :: replicate 200 '\x01')).flatten ++ '/' :: replicate 71 '\x01' ++
    ['a', 'a', 'a', 'a']

abbrev deep : Reading := twoCharacters (String.ofList deepPath)

theorem deepPath_sizes : escapedSizes (String.ofList deepPath).toList = (20848, 24319) := by
  have directory : escapedSizes ('/' :: replicate 200 '\x01') = (1201, 1401) := by decide +kernel
  have name : escapedSizes ('/' :: replicate 71 '\x01' ++ ['a', 'a', 'a', 'a']) = (431, 502) := by
    decide +kernel
  rw [String.toList_ofList, deepPath, append_assoc, escapedSizes_append, escapedSizes_repeat,
    directory, name]
  rfl

theorem deep_single : deep.SingleFits := by
  intro before c after split
  refine (@fits_iff _ _ (deep.pageOf before [c]) deepPath_sizes).mpr ?_
  rcases before with _ | ⟨first, _ | ⟨second, rest⟩⟩
  all_goals simp only [deep, twoCharacters, nil_append, cons_append, cons.injEq] at split
  · obtain ⟨rfl, rfl⟩ := split
    decide +kernel
  · obtain ⟨rfl, rfl, rfl⟩ := split
    decide +kernel
  · simp at split

end Nomifun.Guarantees.TextPages
