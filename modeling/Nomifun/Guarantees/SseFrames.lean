import Mathlib.Data.List.TakeWhile
import Nomifun.Source.ModelInvoke.Sse

/-!
# Frames do not depend on chunks

What a stream of server-sent events yields is a function of the bytes of the body. `decode` reads
them one at a time; a poll of the stream takes as many of them as the chunk, the terminators and
the budget allow. Whatever the chunks are and however often the transport has nothing yet, the
frames are those that `decode` finds, and after `[DONE]` or an error nothing follows.
-/
namespace Nomifun.Guarantees.SseFrames
open Library Library.Json Library.RustText Source.ModelInvoke SseFrameStream List

/-! ### Reading byte by byte -/

/-- How a stream ends. -/
inductive SseEnd (ε : Type) where
  | ended
  | done
  | failed (error : InvokeError ε)

def SseEnd.items {ε : Type} : SseEnd ε → List (SseItem ε)
  | .ended => []
  | .done => [.ok Emission.done.toFrame]
  | .failed error => [.error error]

section

variable {ε : Type} (fromStr : String → Option Value) (maxLineBytes : Nat) {state : SseEvent}
  {skipLf : Bool} {text : List UInt8}

/-- The end of the body. -/
def endOf (state : SseEvent) : SseEnd ε :=
  match (lastLine fromStr state : Except (InvokeError ε) SseEvent) with
  | .error error => .failed error
  | .ok last =>
    if state.incomplete && last.dataSeen && trim last.data = "[DONE]" then
      match (finishEvent fromStr last : Except (InvokeError ε) _) with
      | .ok _ => .done
      | .error error => .failed error
    else if state.incomplete then
      .failed (.parse "provider SSE stream ended before the event delimiter")
    else .ended

/-- The frames of a body and how it ends. `skipLf` says that the byte before was a CR. -/
def decode (skipLf : Bool) (state : SseEvent) : List UInt8 → List SingleAttemptFrame × SseEnd ε
  | [] => ([], endOf fromStr state)
  | byte :: rest =>
    if skipLf && byte = lineFeed then decode false state rest
    else if byte = carriageReturn || byte = lineFeed then
      match consumeLine fromStr state with
      | .error error => ([], .failed error)
      | .ok (none, next) => decode (byte = carriageReturn) next rest
      | .ok (some (.frame frame), next) =>
        let later := decode (byte = carriageReturn) next rest
        (frame :: later.1, later.2)
      | .ok (some .done, _) => ([], .done)
    else if state.line.length + 1 > maxLineBytes then
      ([], .failed (.parse "provider SSE line exceeds the configured limit"))
    else decode false { state with line := state.line ++ [byte] } rest

variable {fromStr maxLineBytes}

/-- Bytes of a line within the limit. -/
theorem decode_append (rest : List UInt8)
    (plain : ∀ byte ∈ text, byte ≠ carriageReturn ∧ byte ≠ lineFeed) (nonempty : text ≠ [])
    (fits : state.line.length + text.length ≤ maxLineBytes) :
    (decode fromStr maxLineBytes skipLf state (text ++ rest) : _ × SseEnd ε) =
      decode fromStr maxLineBytes false { state with line := state.line ++ text } rest := by
  induction text generalizing skipLf state with
  | nil => exact absurd rfl nonempty
  | cons byte text ih =>
    rw [forall_mem_cons] at plain
    obtain ⟨⟨notCr, notLf⟩, plainRest⟩ := plain
    rw [length_cons] at fits
    have room : ¬ state.line.length + 1 > maxLineBytes := by omega
    rw [cons_append, decode]
    simp only [notCr, notLf, decide_false, Bool.and_false, Bool.false_or, Bool.false_eq_true,
      if_false, if_neg room]
    cases text with
    | nil => rfl
    | cons next text =>
      rw [ih plainRest nofun (by simp only [List.length_append, List.length_cons,
        List.length_nil] at fits ⊢; omega)]
      simp

/-- Bytes of a line beyond the limit. -/
theorem decode_overlong (rest : List UInt8)
    (plain : ∀ byte ∈ text, byte ≠ carriageReturn ∧ byte ≠ lineFeed)
    (within : state.line.length ≤ maxLineBytes)
    (exceeds : state.line.length + text.length > maxLineBytes) :
    (decode fromStr maxLineBytes skipLf state (text ++ rest) : _ × SseEnd ε) =
      ([], .failed (.parse "provider SSE line exceeds the configured limit")) := by
  induction text generalizing skipLf state with
  | nil =>
    rw [length_nil] at exceeds
    omega
  | cons byte text ih =>
    rw [forall_mem_cons] at plain
    obtain ⟨⟨notCr, notLf⟩, plainRest⟩ := plain
    rw [length_cons] at exceeds
    rw [cons_append, decode]
    simp only [notCr, notLf, decide_false, Bool.and_false, Bool.false_or, Bool.false_eq_true,
      if_false]
    split
    next => rfl
    next room =>
      refine ih plainRest ?_ ?_
      all_goals
        simp only [length_append, length_singleton]
        omega

theorem decode_terminator (rest : List UInt8)
    (terminator : (byte = carriageReturn || byte = lineFeed) = true)
    (lone : (skipLf && byte = lineFeed) = false) :
    (decode fromStr maxLineBytes skipLf state (byte :: rest) : _ × SseEnd ε) =
      match consumeLine fromStr state with
      | .error error => ([], .failed error)
      | .ok (none, next) => decode fromStr maxLineBytes (byte = carriageReturn) next rest
      | .ok (some (.frame frame), next) =>
        let later := decode fromStr maxLineBytes (byte = carriageReturn) next rest
        (frame :: later.1, later.2)
      | .ok (some .done, _) => ([], .done) := by
  rw [decode, if_neg (by rw [lone]; exact Bool.false_ne_true), if_pos terminator]

/-- After a CR only an LF reads differently. -/
theorem decode_skip (other : bytes.head? ≠ some lineFeed) :
    (decode fromStr maxLineBytes skipLf state bytes : _ × SseEnd ε) =
      decode fromStr maxLineBytes false state bytes := by
  cases bytes with
  | nil => rfl
  | cons byte rest =>
    have notLf : byte ≠ lineFeed := fun same => other (by rw [same]; rfl)
    simp [decode, notLf]

end

/-! ### One round of the loop -/

section

variable {ε : Type} {fromStr : String → Option Value} {maxLineBytes : Nat} {state next : SseEvent}

/-- The transport does not fail, and its chunks are within the limit. -/
def Calm : SourcePoll ε → Prop
  | .pending => True
  | .chunk bytes => bytes.length ≤ maxFrameBytes
  | .failed _ => False

def bytesOf (source : List (SourcePoll ε)) : List UInt8 :=
  source.flatMap fun
    | .chunk bytes => bytes
    | .pending | .failed _ => []

/-- The polls of the transport and the bytes that are left. -/
def size (stream : SseFrameStream ε) : Nat :=
  stream.unread.length + stream.source.length + (bytesOf stream.source).length

/-- The stream is at work, and `result` is what is left for it to yield. -/
structure Reads (fromStr : String → Option Value) (maxLineBytes : Nat) (stream : SseFrameStream ε)
    (result : List SingleAttemptFrame × SseEnd ε) : Prop where
  unfinished : stream.finished = false
  calm : ∀ poll ∈ stream.source, Calm poll
  within : stream.current.line.length ≤ maxLineBytes
  decodes : decode fromStr maxLineBytes stream.skipLf stream.current
    (stream.unread ++ bytesOf stream.source) = result

/-- What a round does: the stream gets smaller, and what it yields is the head of the result. -/
inductive Progress (fromStr : String → Option Value) (maxLineBytes bound : Nat)
    (result : List SingleAttemptFrame × SseEnd ε) : Turn ε → Prop where
  | again {work : Nat} {next : SseFrameStream ε} (reads : Reads fromStr maxLineBytes next result)
      (smaller : size next < bound) : Progress _ _ _ _ (.again work next)
  | pending {next : SseFrameStream ε} (reads : Reads fromStr maxLineBytes next result)
      (smaller : size next < bound) : Progress _ _ _ _ (.pending next)
  | frame {frame : SingleAttemptFrame} {next : SseFrameStream ε}
      {later : List SingleAttemptFrame × SseEnd ε} (reads : Reads fromStr maxLineBytes next later)
      (smaller : size next < bound) (head : result = (frame :: later.1, later.2)) :
      Progress _ _ _ _ (.item (.ok frame) next)
  | done {next : SseFrameStream ε} (finished : next.finished = true) (last : result = ([], .done)) :
      Progress _ _ _ _ (.item (.ok Emission.done.toFrame) next)
  | failed {error : InvokeError ε} {next : SseFrameStream ε} (finished : next.finished = true)
      (last : result = ([], .failed error)) : Progress _ _ _ _ (.item (.error error) next)
  | ended {next : SseFrameStream ε} (finished : next.finished = true)
      (last : result = ([], .ended)) : Progress _ _ _ _ (.ended next)

theorem finishEvent_line
    (ok : (finishEvent fromStr state : Except (InvokeError ε) _) = .ok (emission, next)) :
    next.line = state.line := by
  unfold finishEvent at ok
  split at ok
  next => cases ok; rfl
  next =>
    split at ok
    next =>
      split at ok
      next => cases ok; rfl
      next => cases ok
    next =>
      split at ok
      next => cases ok
      next => cases ok; rfl

theorem applyField_line
    (ok : (applyField field value state : Except (InvokeError ε) _) = .ok next) :
    next.line = state.line := by
  unfold applyField at ok
  by_cases named : field = "event"
  · rw [if_pos named] at ok
    cases ok
    rfl
  · by_cases data : field = "data"
    · simp only [if_neg named, if_pos data, last_guard_eq_ok] at ok
      cases ok.2
      rfl
    · rw [if_neg named, if_neg data] at ok
      cases ok
      rfl

/-- The line has been taken. -/
theorem consumeLine_line
    (ok : (consumeLine fromStr state : Except (InvokeError ε) _) = .ok (emission, next)) :
    next.line = [] := by
  simp only [consumeLine, guard_eq_ok] at ok
  obtain ⟨-, ok⟩ := ok
  split at ok
  next => cases ok
  next => exact finishEvent_line ok
  next => cases ok; rfl
  next =>
    rw [bind_eq_ok] at ok
    obtain ⟨applied, field, ok⟩ := ok
    cases ok
    exact applyField_line field

theorem finishEvent_done (seen : state.dataSeen = true) (marker : trim state.data = "[DONE]") :
    (∃ next, (finishEvent fromStr state : Except (InvokeError ε) _) = .ok (some .done, next)) ∨
      ∃ error, (finishEvent fromStr state : Except (InvokeError ε) _) = .error error := by
  simp only [finishEvent, seen, Bool.not_true, Bool.false_eq_true, if_false, if_pos marker]
  split
  next => exact .inl ⟨_, rfl⟩
  next => exact .inr ⟨_, rfl⟩

theorem Progress.fail {stream : SseFrameStream ε} {result : List SingleAttemptFrame × SseEnd ε}
    (last : result = ([], .failed error)) :
    Progress fromStr maxLineBytes bound result (stream.fail error) := by
  unfold SseFrameStream.fail
  exact .failed rfl last

theorem atEnd_progress {stream : SseFrameStream ε} :
    Progress fromStr maxLineBytes bound ([], endOf fromStr stream.current)
      (stream.atEnd fromStr) := by
  unfold SseFrameStream.atEnd endOf
  cases (lastLine fromStr stream.current : Except (InvokeError ε) SseEvent) with
  | error error => exact .fail rfl
  | ok last =>
    by_cases marker : (stream.current.incomplete && last.dataSeen &&
        trim last.data = "[DONE]") = true
    · simp only [if_pos marker]
      simp only [Bool.and_eq_true, decide_eq_true_eq] at marker
      obtain ⟨next, finished⟩ | ⟨error, failed⟩ := finishEvent_done (ε := ε) marker.1.2 marker.2
      · rw [finished]
        exact .done rfl rfl
      · rw [failed]
        exact .fail rfl
    · simp only [if_neg marker]
      by_cases incomplete : stream.current.incomplete = true
      · simp only [if_pos incomplete]
        exact .fail rfl
      · simp only [if_neg incomplete]
        exact .ended rfl rfl

variable {stream : SseFrameStream ε} {result : List SingleAttemptFrame × SseEnd ε}
  (reads : Reads fromStr maxLineBytes stream result)
include reads

theorem readSource_progress (nothing : stream.unread = []) :
    Progress fromStr maxLineBytes (size stream) result (stream.readSource fromStr) := by
  obtain ⟨unfinished, calm, within, decodes⟩ := reads
  rw [nothing, nil_append] at decodes
  unfold SseFrameStream.readSource
  cases polls : stream.source with
  | nil =>
    rw [polls] at decodes
    rw [← decodes]
    exact atEnd_progress
  | cons poll rest =>
    rw [polls, forall_mem_cons] at calm
    rw [polls] at decodes
    cases poll with
    | pending =>
      refine .pending ⟨unfinished, calm.2, within, ?_⟩ ?_
      · rw [nothing, nil_append]
        exact decodes
      · simp [size, polls, bytesOf, nothing]
    | chunk bytes =>
      have small : ¬ bytes.length > maxFrameBytes := Nat.not_lt.mpr calm.1
      simp only [if_neg small]
      refine .again ⟨unfinished, calm.2, within, decodes⟩ ?_
      simp only [size, polls, bytesOf, nothing, flatMap_cons, length_append,
        length_cons, length_nil]
      omega
    | failed error => exact calm.1.elim

omit reads in
/-- A terminator after the line. -/
theorem lineEnd_progress {work bound : Nat}
    (terminator : (byte = carriageReturn || byte = lineFeed) = true) (skip : Bool)
    (lone : (skip && byte = lineFeed) = false)
    (next : stream.skipLf = decide (byte = carriageReturn)) (unfinished : stream.finished = false)
    (calm : ∀ poll ∈ stream.source, Calm poll)
    (decodes : decode fromStr maxLineBytes skip stream.current
      (byte :: (stream.unread ++ bytesOf stream.source)) = result) (smaller : size stream < bound) :
    Progress fromStr maxLineBytes bound result (stream.lineEnd fromStr work) := by
  rw [decode_terminator _ terminator lone, ← next] at decodes
  unfold SseFrameStream.lineEnd
  cases consumed : (consumeLine fromStr stream.current : Except (InvokeError ε) _) with
  | error error =>
    rw [consumed] at decodes
    exact .fail decodes.symm
  | ok taken =>
    obtain ⟨emission, state⟩ := taken
    have empty : state.line = [] := consumeLine_line consumed
    have within : state.line.length ≤ maxLineBytes := by rw [empty]; exact Nat.zero_le _
    rw [consumed] at decodes
    match emission with
    | none => exact .again ⟨unfinished, calm, within, decodes⟩ smaller
    | some (.frame frame) =>
      exact .frame ⟨unfinished, calm, within, rfl⟩ smaller decodes.symm
    | some .done => exact .done rfl decodes.symm

theorem readLine_progress {byte : UInt8} (bytes : stream.unread = byte :: rest)
    (lone : (stream.skipLf && byte = lineFeed) = false) :
    Progress fromStr maxLineBytes (size stream) result
      (stream.readLine fromStr maxLineBytes) := by
  obtain ⟨unfinished, calm, within, decodes⟩ := reads
  have plain : ∀ byte ∈ stream.unread.takeWhile isText,
      byte ≠ carriageReturn ∧ byte ≠ lineFeed := by
    intro byte listed
    simpa [isText] using mem_takeWhile_imp listed
  have whole : stream.unread.takeWhile isText ++ stream.unread.dropWhile isText = stream.unread :=
    takeWhile_append_dropWhile
  have stopped : ∀ next, (stream.unread.dropWhile isText).head? = some next →
      isText next = false := by
    intro next first
    simpa [first] using head?_dropWhile_not isText stream.unread
  rw [← whole, append_assoc] at decodes
  unfold SseFrameStream.readLine
  by_cases exceeds :
      stream.current.line.length + (stream.unread.takeWhile isText).length > maxLineBytes
  · rw [decode_overlong _ plain within exceeds] at decodes
    simp only [if_pos exceeds]
    exact .fail decodes.symm
  · simp only [if_neg exceeds]
    have fits := Nat.not_lt.mp exceeds
    generalize stream.unread.takeWhile isText = text at *
    generalize stream.unread.dropWhile isText = later at *
    cases later with
    | nil =>
      have nonempty : text ≠ [] := by
        rintro rfl
        rw [← whole] at bytes
        cases bytes
      rw [decode_append _ plain nonempty fits] at decodes
      refine .again ⟨unfinished, calm, ?_, by simpa using decodes⟩ ?_
      · simpa using fits
      · simp only [size, bytes, length_nil, length_cons]
        omega
    | cons delimiter later =>
      have terminator : (delimiter = carriageReturn || delimiter = lineFeed) = true := by
        simpa only [isText, Bool.not_eq_eq_eq_not, Bool.not_false] using stopped delimiter rfl
      have lengths := congrArg length whole
      simp only [length_append, length_cons] at lengths
      have smaller : stream.unread.length > later.length := by omega
      by_cases empty : text = []
      · subst empty
        have first : delimiter = byte := by
          rw [← whole] at bytes
          exact (cons.inj bytes).1
        refine lineEnd_progress terminator stream.skipLf (first ▸ lone) rfl unfinished calm ?_ ?_
        · simpa using decodes
        · simp only [size]
          omega
      · rw [decode_append _ plain empty fits] at decodes
        refine lineEnd_progress terminator false rfl rfl unfinished calm decodes ?_
        simp only [size]
        omega

theorem turn_progress :
    Progress fromStr maxLineBytes (size stream) result (stream.turn fromStr maxLineBytes) := by
  unfold SseFrameStream.turn
  cases bytes : stream.unread with
  | nil => exact readSource_progress reads bytes
  | cons byte rest =>
    by_cases lf : (stream.skipLf && byte = lineFeed) = true
    · simp only [if_pos lf]
      obtain ⟨unfinished, calm, within, decodes⟩ := reads
      refine .again ⟨unfinished, calm, within, ?_⟩ (by simp [size, bytes])
      rw [bytes, cons_append, decode, if_pos lf] at decodes
      exact decodes
    · simp only [if_neg lf]
      exact readLine_progress reads bytes (Bool.eq_false_iff.mpr lf)

end

/-! ### Polls -/

section

variable {ε : Type} {fromStr : String → Option Value} {maxLineBytes : Nat}
  {stream : SseFrameStream ε} {result : List SingleAttemptFrame × SseEnd ε}

/-- What a poll returns, in the same way. -/
inductive Polled (fromStr : String → Option Value) (maxLineBytes bound : Nat)
    (result : List SingleAttemptFrame × SseEnd ε) :
    Poll (Option (SseItem ε)) × SseFrameStream ε → Prop where
  | pending {next : SseFrameStream ε} (reads : Reads fromStr maxLineBytes next result)
      (smaller : size next < bound) : Polled _ _ _ _ (.pending, next)
  | frame {frame : SingleAttemptFrame} {next : SseFrameStream ε}
      {later : List SingleAttemptFrame × SseEnd ε} (reads : Reads fromStr maxLineBytes next later)
      (smaller : size next < bound) (head : result = (frame :: later.1, later.2)) :
      Polled _ _ _ _ (.ready (some (.ok frame)), next)
  | last {item : Option (SseItem ε)} {next : SseFrameStream ε} (finished : next.finished = true)
      (none' : result.1 = []) (last : result.2.items = item.toList) :
      Polled _ _ _ _ (.ready item, next)

theorem Polled.mono (polled : Polled fromStr maxLineBytes bound result poll) (le : bound ≤ bound') :
    Polled fromStr maxLineBytes bound' result poll := by
  cases polled with
  | pending reads smaller => exact .pending reads (Nat.lt_of_lt_of_le smaller le)
  | frame reads smaller head => exact .frame reads (Nat.lt_of_lt_of_le smaller le) head
  | last finished none' last => exact .last finished none' last

section

variable (reads : Reads fromStr maxLineBytes stream result)
include reads

/-- One round, given what the rounds after it do. -/
theorem pollLoop_round (idle : ¬ work ≥ pollWorkBytes)
    (later : ∀ more next, Reads fromStr maxLineBytes next result → size next < size stream →
      Polled fromStr maxLineBytes (size stream) result
        (next.pollLoop fromStr maxLineBytes steps (work + more))) :
    Polled fromStr maxLineBytes (size stream) result
      (stream.pollLoop fromStr maxLineBytes (steps + 1) work) := by
  unfold SseFrameStream.pollLoop
  simp only [reads.unfinished, Bool.false_eq_true, if_false, if_neg idle]
  cases turned : stream.turn fromStr maxLineBytes with
  | again more next =>
    cases turned ▸ turn_progress reads with
    | again further smaller => exact later more next further (by omega)
  | pending next =>
    cases turned ▸ turn_progress reads with
    | pending further smaller => exact .pending further (by omega)
  | item item next =>
    cases turned ▸ turn_progress reads with
    | frame further smaller head => exact .frame further (by omega) head
    | done finished last => exact .last finished (by rw [last]) (by rw [last]; rfl)
    | failed finished last => exact .last finished (by rw [last]) (by rw [last]; rfl)
  | ended next =>
    cases turned ▸ turn_progress reads with
    | ended finished last => exact .last finished (by rw [last]) (by rw [last]; rfl)

theorem pollLoop_polled (steps work : Nat) :
    Polled fromStr maxLineBytes (size stream + 1) result
      (stream.pollLoop fromStr maxLineBytes steps work) := by
  induction steps generalizing stream work with
  | zero =>
    simp only [SseFrameStream.pollLoop, reads.unfinished, Bool.false_eq_true, if_false]
    exact .pending reads (Nat.lt_succ_self _)
  | succ steps ih =>
    by_cases busy : work ≥ pollWorkBytes
    · unfold SseFrameStream.pollLoop
      simp only [reads.unfinished, Bool.false_eq_true, if_false, if_pos busy]
      exact .pending reads (Nat.lt_succ_self _)
    · have round := pollLoop_round reads busy
        fun more next further smaller => (ih further (work + more)).mono (by omega)
      exact round.mono (by omega)

/-- A poll makes at least one round. -/
theorem pollNext_polled :
    Polled fromStr maxLineBytes (size stream) result
      (stream.pollNext fromStr maxLineBytes) :=
  pollLoop_round reads (by decide) fun _ _ further smaller =>
    (pollLoop_polled further 255 _).mono (by omega)

end

/-- The items that so many polls return, and the stream after them. -/
def outputs (fromStr : String → Option Value) (maxLineBytes : Nat) :
    Nat → SseFrameStream ε → List (SseItem ε) × SseFrameStream ε
  | 0, stream => ([], stream)
  | polls + 1, stream =>
    let polled := stream.pollNext fromStr maxLineBytes
    let later := outputs fromStr maxLineBytes polls polled.2
    match polled.1 with
    | .ready (some item) => (item :: later.1, later.2)
    | .ready none | .pending => later

theorem outputs_finished (polls : Nat) (finished : stream.finished = true) :
    outputs fromStr maxLineBytes polls stream = ([], stream) := by
  induction polls with
  | zero => rfl
  | succ polls ih =>
    have done : stream.pollNext fromStr maxLineBytes = (.ready none, stream) := by
      unfold SseFrameStream.pollNext SseFrameStream.pollLoop
      rw [if_pos finished]
    simp [outputs, done, ih]

/-- Enough polls return everything, and leave the stream finished. -/
theorem outputs_eq (reads : Reads fromStr maxLineBytes stream result)
    (enough : size stream < polls) :
    (outputs fromStr maxLineBytes polls stream).1 = result.1.map .ok ++ result.2.items ∧
      (outputs fromStr maxLineBytes polls stream).2.finished = true := by
  induction polls generalizing stream result with
  | zero => omega
  | succ polls ih =>
    unfold outputs
    cases polled : stream.pollNext fromStr maxLineBytes with
    | mk outcome next =>
      have spec := polled ▸ pollNext_polled reads
      cases spec with
      | pending further smaller =>
        have shorter : size next < polls := Nat.lt_of_lt_of_le smaller (Nat.le_of_lt_succ enough)
        exact ih further shorter
      | @frame frame _ later further smaller head =>
        have shorter : size next < polls := Nat.lt_of_lt_of_le smaller (Nat.le_of_lt_succ enough)
        obtain ⟨items, finished⟩ := ih further shorter
        refine ⟨?_, finished⟩
        rw [head]
        exact congrArg (Except.ok frame :: ·) items
      | @last item _ finished none' last =>
        rw [none', last]
        cases item with
        | none => simp [outputs_finished polls finished, finished]
        | some item => simp [outputs_finished polls finished, finished]

/-- A round that yields an error has stopped the stream. -/
def StopsOnError : Turn ε → Prop
  | .item (.error _) next => next.finished = true
  | _ => True

theorem lineEnd_stopsOnError (work : Nat) : StopsOnError (stream.lineEnd fromStr work) := by
  unfold lineEnd
  split
  all_goals first | exact rfl | exact trivial

theorem atEnd_stopsOnError : StopsOnError (stream.atEnd fromStr) := by
  unfold atEnd
  split
  · exact rfl
  · dsimp only
    split
    · split
      all_goals first | exact rfl | exact trivial
    · split
      all_goals first | exact rfl | exact trivial

theorem turn_stopsOnError : StopsOnError (stream.turn fromStr maxLineBytes) := by
  unfold turn
  split
  · unfold readSource
    split
    · exact atEnd_stopsOnError
    · exact trivial
    · split
      all_goals first | exact rfl | exact trivial
    · exact rfl
  · split
    · exact trivial
    · unfold readLine
      dsimp only
      split
      · exact rfl
      · split
        · exact trivial
        · exact lineEnd_stopsOnError _

theorem pollLoop_error (polled : stream.pollLoop fromStr maxLineBytes steps work =
      (.ready (some (.error error)), post)) : post.finished = true := by
  induction steps generalizing stream work with
  | zero =>
    unfold pollLoop at polled
    split at polled <;> cases polled
  | succ steps ih =>
    have stops := @turn_stopsOnError ε fromStr maxLineBytes stream
    unfold pollLoop at polled
    split at polled
    · cases polled
    · dsimp only at polled
      split at polled
      · cases polled
      · cases turned : stream.turn fromStr maxLineBytes with
        | again more later => exact ih (by simpa only [turned] using polled)
        | pending later => simp [turned] at polled
        | ended later => simp [turned] at polled
        | item item later =>
          simp only [turned, Prod.mk.injEq, Poll.ready.injEq, Option.some.injEq] at polled
          obtain ⟨rfl, rfl⟩ := polled
          rw [turned] at stops
          exact stops

/-- An error is the last item. -/
theorem error_finishes (polls : Nat)
    (failed : .error error ∈ (outputs fromStr maxLineBytes polls stream).1) :
    (outputs fromStr maxLineBytes polls stream).2.finished = true := by
  induction polls generalizing stream with
  | zero => cases failed
  | succ polls ih =>
    unfold outputs at failed ⊢
    cases polled : stream.pollNext fromStr maxLineBytes with
    | mk outcome next =>
      rw [polled] at failed
      match outcome with
      | .pending | .ready none => exact ih failed
      | .ready (some (.ok frame)) =>
        rcases mem_cons.mp failed with same | later
        · cases same
        · exact ih later
      | .ready (some (.error found)) =>
        have finished := pollLoop_error polled
        simp [outputs_finished polls finished, finished]

/-- No poll of a finished stream returns an item. -/
theorem outputs_settled (more : Nat)
    (finished : (outputs fromStr maxLineBytes polls stream).2.finished = true) :
    outputs fromStr maxLineBytes (polls + more) stream =
      outputs fromStr maxLineBytes polls stream := by
  induction polls generalizing stream with
  | zero =>
    rw [Nat.zero_add]
    exact outputs_finished more finished
  | succ polls ih =>
    rw [Nat.succ_add]
    unfold outputs at finished ⊢
    cases polled : stream.pollNext fromStr maxLineBytes with
    | mk outcome next =>
      rw [polled] at finished
      match outcome with
      | .pending | .ready none => exact ih finished
      | .ready (some item) => simp [ih finished]

theorem reads_new {source : List (SourcePoll ε)} (calm : ∀ poll ∈ source, Calm poll) :
    Reads fromStr maxLineBytes (.new source)
      (decode fromStr maxLineBytes false .new (bytesOf source)) :=
  ⟨rfl, calm, Nat.zero_le _, rfl⟩

end

/-! ### Terminators -/

section

variable {bytes : List UInt8}

/-- Every LF becomes CR LF. -/
def withCrLf (bytes : List UInt8) : List UInt8 :=
  bytes.flatMap fun byte => if byte = lineFeed then [carriageReturn, lineFeed] else [byte]

/-- Every LF becomes CR. -/
def withCr (bytes : List UInt8) : List UInt8 :=
  bytes.map fun byte => if byte = lineFeed then carriageReturn else byte

/-- A spelling of the line ends that the decoder reads as LF. -/
theorem decode_spelled {spelled : List UInt8 → List UInt8} (empty : spelled [] = [])
    (plain : ∀ byte rest, byte ≠ lineFeed → spelled (byte :: rest) = byte :: spelled rest)
    (ended : ∀ rest, ∃ behind, spelled (lineFeed :: rest) = carriageReturn :: behind ∧
      ∀ next, (decode fromStr maxLineBytes true next behind : _ × SseEnd ε) =
        decode fromStr maxLineBytes false next (spelled rest))
    (noCr : carriageReturn ∉ bytes) :
    (decode fromStr maxLineBytes false state (spelled bytes) : _ × SseEnd ε) =
      decode fromStr maxLineBytes false state bytes := by
  induction bytes generalizing state with
  | nil => rw [empty]
  | cons byte rest ih =>
    rw [mem_cons, not_or] at noCr
    by_cases lf : byte = lineFeed
    · subst lf
      obtain ⟨behind, first, skipped⟩ := ended rest
      rw [first, decode_terminator _ rfl rfl, decode_terminator _ rfl rfl]
      simp only [decide_true, skipped, ih noCr.2]
      rfl
    · have other : byte ≠ carriageReturn := Ne.symm noCr.1
      simp only [plain byte rest lf, decode, lf, other, decide_false, Bool.and_false, Bool.or_self,
        Bool.false_eq_true, if_false, ih noCr.2]

theorem decode_withCrLf (noCr : carriageReturn ∉ bytes) :
    (decode fromStr maxLineBytes false state (withCrLf bytes) : _ × SseEnd ε) =
      decode fromStr maxLineBytes false state bytes := by
  refine decode_spelled rfl (fun byte rest lf => by simp [withCrLf, lf]) (fun rest => ?_) noCr
  refine ⟨lineFeed :: withCrLf rest, rfl, fun next => ?_⟩
  rw [decode, if_pos (by decide)]

theorem decode_withCr (noCr : carriageReturn ∉ bytes) :
    (decode fromStr maxLineBytes false state (withCr bytes) : _ × SseEnd ε) =
      decode fromStr maxLineBytes false state bytes := by
  refine decode_spelled rfl (fun byte rest lf => by simp [withCr, lf]) (fun rest => ?_) noCr
  refine ⟨withCr rest, rfl, fun next => decode_skip ?_⟩
  cases rest with
  | nil => nofun
  | cons next rest =>
    simp only [withCr, map_cons, head?_cons, ne_eq, Option.some.injEq]
    split
    next => decide
    next other => exact other

end

/-! ### The guarantee -/

/-- Every transport that delivers a body in chunks within the limit yields what `decode` finds in
its bytes: enough polls return the frames, then at most one item that ends the stream, `[DONE]` or
an error, and no number of polls returns more. A body without CR reads the same with CRLF or CR
for LF. An error ends the stream whatever the transport does. -/
theorem sse_frames_depend_on_bytes_only {ε : Type} (fromStr : String → Option Value)
    (maxLineBytes : Nat) :
    (∀ source : List (SourcePoll ε), (∀ poll ∈ source, Calm poll) → ∃ enough, ∀ polls ≥ enough,
        let result : List SingleAttemptFrame × SseEnd ε :=
          decode fromStr maxLineBytes false .new (bytesOf source)
        let yielded := outputs fromStr maxLineBytes polls (.new source)
        yielded.1 = result.1.map .ok ++ result.2.items ∧ yielded.2.finished = true) ∧
    (∀ bytes : List UInt8, carriageReturn ∉ bytes →
      let result : List SingleAttemptFrame × SseEnd ε :=
        decode fromStr maxLineBytes false .new bytes
      decode fromStr maxLineBytes false .new (withCrLf bytes) = result ∧
      decode fromStr maxLineBytes false .new (withCr bytes) = result) ∧
    (∀ (stream : SseFrameStream ε) (polls more : Nat) (error : InvokeError ε),
      .error error ∈ (outputs fromStr maxLineBytes polls stream).1 →
        outputs fromStr maxLineBytes (polls + more) stream =
          outputs fromStr maxLineBytes polls stream) := by
  refine ⟨fun source calm => ?_, fun bytes noCr => ?_, fun stream polls more error failed => ?_⟩
  · exact ⟨size (.new source) + 1, fun polls enough => outputs_eq (reads_new calm) enough⟩
  · exact ⟨decode_withCrLf noCr, decode_withCr noCr⟩
  · exact outputs_settled more (error_finishes polls failed)

end Nomifun.Guarantees.SseFrames
