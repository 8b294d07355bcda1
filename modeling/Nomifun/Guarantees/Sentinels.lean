import Nomifun.Guarantees.ShellText
import Nomifun.Source.Ssh.Sentinel

/-!
# The sentinel of a command in the packets of a shell

The reader of a shell looks for the sentinel after each packet. What it finds in a part of the
output it finds in the whole output too: an occurrence of the prefix that was skipped stays one that
is skipped, since the prefix itself holds two underscores and so fixes the code of every occurrence
before it. Whether the sentinel is found, with which code and directory and with which output before
it, then depends on the bytes of the shell and not on their packets. A sentinel that is there is
found, unless the output before it ends with a part of the prefix that the sentinel completes.
-/
namespace Nomifun.Guarantees.Sentinels
open Library Library.Utf8 Library.ByteOffsets Source.Ssh ShellText List Option

/-! ### One occurrence of the prefix -/

section

variable {after more start : List Char} {result : Int × String}

theorem sentinelTail_eq_some : sentinelTail after = some result ↔
    ∃ digits rest code line later, splitFirst ['_', '_'] after = some (digits, rest) ∧
      parseI32 digits = some code ∧ splitFirst ['\n'] rest = some (line, later) ∧
      result = (code, String.ofList (line.rdropWhile (· = '\r'))) := by
  constructor
  · intro found
    obtain ⟨⟨digits, rest⟩, cut, found⟩ := bind_eq_some_iff.mp found
    obtain ⟨code, parsed, found⟩ := bind_eq_some_iff.mp found
    obtain ⟨⟨line, later⟩, ended, found⟩ := bind_eq_some_iff.mp found
    cases found
    exact ⟨digits, rest, code, line, later, cut, parsed, ended, rfl⟩
  · rintro ⟨digits, rest, code, line, later, cut, parsed, ended, rfl⟩
    simp [sentinelTail, cut, parsed, ended]

theorem sentinelTail_append (found : sentinelTail after = some result) (more : List Char) :
    sentinelTail (after ++ more) = some result := by
  obtain ⟨digits, rest, code, line, later, cut, parsed, ended, same⟩ :=
    sentinelTail_eq_some.mp found
  exact sentinelTail_eq_some.mpr ⟨digits, rest ++ more, code, line, later ++ more,
    splitFirst_append more cut, parsed, splitFirst_append more ended, same⟩

theorem newline_mem (found : sentinelTail after = some result) : '\n' ∈ after := by
  obtain ⟨digits, rest, code, line, later, cut, _, ended, _⟩ := sentinelTail_eq_some.mp found
  rw [splitFirst_eq cut, splitFirst_eq ended]
  simp

/-- An occurrence that is skipped before one that is found stays skipped. -/
theorem sentinelTail_skipped (marked : ['_', '_'] <+: start)
    (whole : after = before ++ (start ++ behind)) (found : sentinelTail behind = some result)
    (skipped : sentinelTail after = none) (more : List Char) :
    sentinelTail (after ++ more) = none := by
  obtain ⟨name, rfl⟩ := marked
  rw [append_assoc] at whole
  obtain ⟨digits, rest, cut, _⟩ := @splitFirst_occurrence Char _ ['_', '_'] before (name ++ behind)
  have ends := suffix_splitFirst cut
  rw [← whole] at cut
  -- The line of the occurrence that is found ends the line of this one, so its code was bad.
  have newline : '\n' ∈ rest :=
    ends.subset (mem_append_right name (newline_mem found))
  obtain ⟨line, later, split⟩ := append_of_mem newline
  obtain ⟨front, last, ended, _⟩ := @splitFirst_occurrence Char _ ['\n'] line later
  rw [singleton_append, ← split] at ended
  have bad : parseI32 digits = none := by
    cases parsed : parseI32 digits with
    | none => rfl
    | some code =>
      have other := sentinelTail_eq_some.mpr
        ⟨digits, rest, code, front, last, cut, parsed, ended, rfl⟩
      rw [skipped] at other
      cases other
  unfold sentinelTail
  rw [splitFirst_append more cut]
  simp [bad]

end

/-! ### The search -/

section

variable {start text : List Char} {position : Nat} {result : Nat × Int × String}

theorem findSentinelFrom_some (found : findSentinelFrom start position text = some result) :
    ∃ before behind, text = before ++ (start ++ behind) ∧ sentinelTail behind = some result.2 ∧
      result.1 = position + bytes before := by
  fun_induction findSentinelFrom start position text with
  | case1 => cases found
  | case2 position text before after cut code directory tail =>
    cases found
    exact ⟨before, after, splitFirst_eq cut, tail, rfl⟩
  | case3 => cases found
  | case4 position text before after cut _ _ ih =>
    obtain ⟨front, behind, whole, tail, place⟩ := ih found
    refine ⟨before ++ (start ++ front), behind, ?_, tail, ?_⟩
    · rw [splitFirst_eq cut, whole]
      simp
    · simp only [bytes_append]
      omega

theorem sentinelPrefix_marked (nonce : Nat) : ['_', '_'] <+: sentinelPrefix nonce := by
  have name : ['_', '_'] <+: "__NOMI_END_".toList := by
    decide
  unfold sentinelPrefix
  rw [append_assoc]
  exact name.trans (prefix_append _ _)

variable (marked : ['_', '_'] <+: start)
include marked

/-- What is found in a text is found in every longer one. -/
theorem findSentinelFrom_append (found : findSentinelFrom start position text = some result)
    (more : List Char) : findSentinelFrom start position (text ++ more) = some result := by
  fun_induction findSentinelFrom start position text with
  | case1 => cases found
  | case2 position text before after cut code directory tail =>
    rw [findSentinelFrom, splitFirst_append more cut]
    simp only [sentinelTail_append tail more]
    exact found
  | case3 => cases found
  | case4 position text before after cut skipped nonempty ih =>
    obtain ⟨front, behind, whole, tail, _⟩ := findSentinelFrom_some found
    rw [findSentinelFrom, splitFirst_append more cut]
    simp only [sentinelTail_skipped marked whole tail skipped more, dif_neg nonempty]
    exact ih found

theorem findSentinel_append (found : findSentinel text start = some result) (more : List Char) :
    findSentinel (text ++ more) start = some result :=
  findSentinelFrom_append marked found more

/-- The output before the sentinel stays the same. -/
theorem outputBefore_append (found : findSentinel text start = some result) (more : List Char) :
    outputBefore (text ++ more) start = outputBefore text start := by
  obtain ⟨before, behind, whole, _, place⟩ := findSentinelFrom_some found
  rw [Nat.zero_add] at place
  unfold outputBefore
  rw [found, findSentinel_append marked found more]
  dsimp only
  rw [place, whole, append_assoc before, takeBytes_append, takeBytes_append]

end

/-! ### The packets of a shell -/

section

variable {start : List Char} {sink : ShellOutput} {packets : List (List UInt8)}

/-- All that the packets come to behind what was collected. -/
def wholeText (sink : ShellOutput) (packets : List (List UInt8)) : List Char :=
  sink.text ++ decoded (sink.pending ++ packets.flatten)

/-- The collection did not end at the limit. -/
def Within (ended : SentinelEnd) : Prop := ∀ actual, ended ≠ .outputLimitExceeded actual

instance (ended : SentinelEnd) : Decidable (Within ended) :=
  match ended with
  | .outputLimitExceeded actual => isFalse fun within => within actual rfl
  | .found .. | .timedOut | .closed _ => isTrue (by simp [Within])

/-- A packet within the limit. -/
theorem receive_eq (room : bytes (sink.extended data).text +
      (sink.extended data).pending.length ≤ maxSshOutputBytes) :
    receive start sink data = ((findSentinel (sink.extended data).text start).map fun result =>
      .found result.2.1 result.2.2, sink.extended data) := by
  unfold receive
  rw [ShellOutput.append_eq, validateOutputSize, if_pos (decide_eq_true room)]

theorem room_of_within (within : ∀ ended ∈ (receive start sink data).1, Within ended) :
    bytes (sink.extended data).text + (sink.extended data).pending.length ≤ maxSshOutputBytes := by
  by_contra large
  unfold receive at within
  rw [ShellOutput.append_eq, validateOutputSize, if_neg (by simpa using large)] at within
  exact within _ rfl _ rfl

theorem collectLoop_data (start : List Char) (terminal : Option Int) (sink : ShellOutput)
    (data : List UInt8) (packets : List (List UInt8)) :
    collectLoop start terminal sink ((data :: packets).map .data) =
      match receive start sink data with
      | (some ended, sink) => (ended, sink)
      | (none, sink) => collectLoop start terminal sink (packets.map .data) := rfl

theorem collectLoop_packets (marked : ['_', '_'] <+: start) (settled : Settled sink)
    (notYet : findSentinel sink.text start = none) {terminal : Option Int}
    (ran : collectLoop start terminal sink (packets.map .data) = (ended, last))
    (within : Within ended) :
    match findSentinel (wholeText sink packets) start with
    | some result => ended = .found result.2.1 result.2.2 ∧
        findSentinel last.text start = some result ∧
        ∃ more, wholeText sink packets = last.text ++ more
    | none => ended = .closed terminal := by
  induction packets generalizing sink with
  | nil =>
    have same : wholeText sink [] = sink.text := by
      simp [wholeText, (decoded_starved settled).1]
    rw [same, notYet]
    exact (Prod.mk.inj ran).1.symm
  | cons data packets ih =>
    rw [collectLoop_data] at ran
    have accepted : ∀ ended ∈ (receive start sink data).1, Within ended := by
      intro reported given
      cases received : receive start sink data with
      | mk reported next =>
        rw [received] at ran given
        dsimp only at given
        subst given
        cases ran
        exact within
    have whole : wholeText sink (data :: packets) = wholeText (sink.extended data) packets :=
      decoded_extended.symm
    rw [receive_eq (room_of_within accepted)] at ran
    rw [whole]
    cases found : findSentinel (sink.extended data).text start with
    | some result =>
      rw [found] at ran
      cases ran
      unfold wholeText
      rw [findSentinel_append marked found]
      exact ⟨rfl, found, _, rfl⟩
    | none =>
      rw [found] at ran
      exact ih (utf8Scanner.scan_carry_starved _) found ran

/-- What the bytes of the packets come to is what the collection ends with. -/
theorem collect_packets (marked : ['_', '_'] <+: start) (settled : Settled sink)
    (ran : collectUntilSentinel start sink (packets.map .data) = (ended, last))
    (within : Within ended) :
    match findSentinel (wholeText sink packets) start with
    | some result => ended = .found result.2.1 result.2.2 ∧
        outputBefore last.text start = outputBefore (wholeText sink packets) start
    | none => ended = .closed none := by
  unfold collectUntilSentinel at ran
  cases already : findSentinel sink.text start with
  | some result =>
    -- The sentinel was there before the first packet.
    have stays := findSentinel_append marked already (decoded (sink.pending ++ packets.flatten))
    rw [already] at ran
    cases ran
    unfold wholeText
    rw [stays]
    exact ⟨rfl, (outputBefore_append marked already _).symm⟩
  | none =>
    cases looped : collectLoop start none sink (packets.map .data) with | mk ended last
    simp only [already, looped, ShellOutput.finish] at ran
    -- The unfinished character at the end was within the limit, too.
    by_cases small :
        validateOutputSize (bytes last.text + bytes (fromUtf8Lossy last.pending)) = true
    · rw [if_pos small] at ran
      cases ran
      have collected := collectLoop_packets marked settled already looped within
      cases found : findSentinel (wholeText sink packets) start with
      | none =>
        rw [found] at collected
        exact collected
      | some result =>
        rw [found] at collected
        obtain ⟨isFound, inLast, more, whole⟩ := collected
        refine ⟨isFound, ?_⟩
        rw [whole, outputBefore_append marked inLast, outputBefore_append marked inLast]
    · rw [if_neg small] at ran
      cases ran
      exact absurd rfl (within _)

end

/-- For the prefix of a command, what is found in a text is found in every longer one. So whether
the reader of a shell finds the sentinel, the exit code, the directory and the output before it are
the same for any two ways to cut the bytes of the shell into packets that stay within the limit. -/
theorem sentinel_independent_of_packets (nonce : Nat) :
    (∀ text more result, findSentinel text (sentinelPrefix nonce) = some result →
      findSentinel (text ++ more) (sentinelPrefix nonce) = some result) ∧
    ∀ (sink : ShellOutput) (packets others : List (List UInt8)), Settled sink →
      packets.flatten = others.flatten →
      Within (collectUntilSentinel (sentinelPrefix nonce) sink (packets.map .data)).1 →
      Within (collectUntilSentinel (sentinelPrefix nonce) sink (others.map .data)).1 →
      ∀ exitCode cwd, (collectUntilSentinel (sentinelPrefix nonce) sink (packets.map .data)).1 =
          .found exitCode cwd →
        (collectUntilSentinel (sentinelPrefix nonce) sink (others.map .data)).1 =
            .found exitCode cwd ∧
          outputBefore (collectUntilSentinel (sentinelPrefix nonce) sink (packets.map .data)).2.text
              (sentinelPrefix nonce) =
            outputBefore (collectUntilSentinel (sentinelPrefix nonce) sink
              (others.map .data)).2.text (sentinelPrefix nonce) := by
  have marked := sentinelPrefix_marked nonce
  refine ⟨fun text more result found => findSentinel_append marked found more, ?_⟩
  intro sink packets others settled same within withinToo exitCode cwd isFound
  have collected := collect_packets marked settled (Prod.eta _).symm within
  have collectedToo := collect_packets marked settled (Prod.eta _).symm withinToo
  have whole : wholeText sink others = wholeText sink packets := by
    unfold wholeText
    rw [same]
  rw [whole] at collectedToo
  cases found : findSentinel (wholeText sink packets) (sentinelPrefix nonce) with
  | none =>
    rw [found] at collected
    rw [isFound] at collected
    cases collected
  | some result =>
    rw [found] at collected collectedToo
    obtain ⟨ended, output⟩ := collected
    obtain ⟨endedToo, outputToo⟩ := collectedToo
    rw [isFound] at ended
    refine ⟨endedToo.trans ended.symm, ?_⟩
    rw [output, outputToo]

/-! A command that prints `hi`, in one packet and in two. -/

def sentinelBytes : List UInt8 :=
  ("hi\n__NOMI_END_7__0__/tmp\n".toList.map fun c => UInt8.ofNat c.toNat)

theorem split_sentinel_found :
    (collectUntilSentinel (sentinelPrefix 7) .default [.data sentinelBytes]).1 = .found 0 "/tmp" ∧
      (collectUntilSentinel (sentinelPrefix 7) .default
        [.data (sentinelBytes.take 9), .data (sentinelBytes.drop 9)]).1 = .found 0 "/tmp" := by
  have whole : (collectUntilSentinel (sentinelPrefix 7) .default
      ([sentinelBytes].map .data)).1 = .found 0 "/tmp" := by decide +kernel
  have joined : [sentinelBytes].flatten =
      [sentinelBytes.take 9, sentinelBytes.drop 9].flatten := by decide
  have within : ∀ packets ∈ [[sentinelBytes], [sentinelBytes.take 9, sentinelBytes.drop 9]],
      Within (collectUntilSentinel (sentinelPrefix 7) .default (packets.map .data)).1 := by
    decide +kernel
  obtain ⟨found, _⟩ := (sentinel_independent_of_packets 7).2 .default [sentinelBytes]
    [sentinelBytes.take 9, sentinelBytes.drop 9] settled_default joined
    (within _ (.head _)) (within _ (.tail _ (.head _))) 0 "/tmp" whole
  exact ⟨whole, found⟩

/-! ### The end of a command -/

variable {nonce code : Nat} {output cwd : List Char}

/-- What the shell prints when a command has ended. -/
def sentinelLine (nonce code : Nat) (cwd : List Char) : List Char :=
  sentinelPrefix nonce ++ ((toString code).toList ++ (['_', '_'] ++ (cwd ++ ['\n'])))

theorem parseI32_code : ∀ code : Fin 256,
    parseI32 (toString code.val).toList = some (code : Int) ∧ '_' ∉ (toString code.val).toList := by
  decide +kernel

theorem sentinelTail_line (small : code ≤ 255) (line : '\n' ∉ cwd)
    (bare : cwd.getLast? ≠ some '\r') :
    sentinelTail ((toString code).toList ++ (['_', '_'] ++ (cwd ++ ['\n']))) =
      some ((code : Int), String.ofList cwd) := by
  obtain ⟨parsed, plain⟩ := parseI32_code ⟨code, by omega⟩
  refine sentinelTail_eq_some.mpr ⟨_, cwd ++ ['\n'], _, cwd, [], ?_, parsed, ?_, ?_⟩
  · refine splitFirst_behind _ fun twice => ?_
    have count := twice.sublist.count_le '_'
    rw [count_append, count_eq_zero.mpr plain] at count
    exact absurd count (by decide)
  · refine splitFirst_behind [] fun inside => line ?_
    simpa using inside.subset mem_cons_self
  · rw [rdropWhile_eq_self_iff.mpr fun nonempty => ?_]
    simpa [getLast?_eq_some_getLast nonempty] using bare

theorem bytes_lt_of_shorter {text more whole : List Char} (first : text <+: whole)
    (second : more <+: whole) (shorter : text.length < more.length) : bytes text < bytes more := by
  obtain ⟨rest, rfl⟩ := prefix_of_prefix_length_le first second shorter.le
  rw [bytes_append, Nat.lt_add_right_iff_pos, Nat.pos_iff_ne_zero]
  intro nothing
  simp [bytes_eq_zero nothing] at shorter

/-- The end of a command is recognised, with the output cut where the sentinel starts, exactly when
the prefix does not begin in the output and end in the sentinel. -/
theorem sentinel_recognised_iff (free : ¬ sentinelPrefix nonce <:+: output) (small : code ≤ 255)
    (line : '\n' ∉ cwd) (bare : cwd.getLast? ≠ some '\r') :
    findSentinel (output ++ sentinelLine nonce code cwd) (sentinelPrefix nonce) =
        some (bytes output, (code : Int), String.ofList cwd) ↔
      ¬ sentinelPrefix nonce <:+: output ++ (sentinelPrefix nonce).dropLast := by
  have nonempty : sentinelPrefix nonce ≠ [] := append_ne_nil_of_right_ne_nil _ (by decide)
  rw [findSentinel, findSentinelFrom, sentinelLine]
  constructor
  · intro found occurs
    obtain ⟨front, behind, first, early⟩ := splitFirst_overlapping _ occurs nonempty
    have whole := splitFirst_eq first
    have isOutput := prefix_append output (sentinelLine nonce code cwd)
    have isFront : front <+: output ++ sentinelLine nonce code cwd := by
      rw [sentinelLine, whole]
      exact prefix_append ..
    have isNext : front ++ sentinelPrefix nonce <+: output ++ sentinelLine nonce code cwd := by
      rw [sentinelLine, whole, ← append_assoc front]
      exact prefix_append ..
    have before := bytes_lt_of_shorter isFront isOutput early
    have passed : bytes output < bytes (front ++ sentinelPrefix nonce) := by
      refine bytes_lt_of_shorter isOutput isNext (not_le.mp fun shorter => free ?_)
      exact (suffix_append ..).isInfix.trans
        (prefix_of_prefix_length_le isNext isOutput shorter).isInfix
    rw [first] at found
    simp only [Nat.zero_add, dif_neg nonempty] at found
    split at found
    · rw [(Prod.mk.inj (Option.some.inj found)).1] at before
      exact lt_irrefl _ before
    · obtain ⟨_, _, -, -, place⟩ := findSentinelFrom_some found
      rw [bytes_append] at passed
      simp only at place
      omega
  · intro apart
    rw [splitFirst_behind _ apart]
    simp only [sentinelTail_line small line bare, Nat.zero_add]

/-- A command that prints a part of the prefix. -/
theorem recognised_behind_output :
    findSentinel ("END_7".toList ++ sentinelLine 7 0 ['/']) (sentinelPrefix 7) = some (5, 0, "/") :=
  (sentinel_recognised_iff (by decide +kernel) (by decide) (by decide) (by decide)).mpr
    (by decide +kernel)

/-- A command that prints the prefix up to its last two characters: its end is not recognised. -/
theorem overlapping_output_not_recognised : ¬ sentinelPrefix 7 <:+: "__NOMI_END_7".toList ∧
    findSentinel ("__NOMI_END_7".toList ++ sentinelLine 7 0 ['/']) (sentinelPrefix 7) = none := by
  decide +kernel

end Nomifun.Guarantees.Sentinels
