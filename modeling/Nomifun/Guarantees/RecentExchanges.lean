import Nomifun.Source.AgentRuntime.ContextTail

/-!
# Recent exchanges are whole

A recent exchange, however often it was expanded, is a suffix of the messages in which
calls and results are paired (`Paired`), and its call identities alone find it again.
Pairing is a property of segments: that of one batch is what `latest` checks, and two
paired segments with different calls are paired together.
-/
namespace Nomifun.Guarantees.RecentExchanges
open Library Source.AgentRuntime RecentToolExchange List

variable {messages : List ChatMessage} {m : ChatMessage} {ids : List ToolCallId}
  {content : List ChatContentPart} {first e : RecentToolExchange} {f next : Following}
  {id : ToolCallId}

/-! ### Calls and results of messages -/

def resultId : ChatContentPart → Option ToolCallId
  | .toolResult id _ _ => some id
  | _ => none

/-- The calls an assistant makes in the message. -/
def callsOf (m : ChatMessage) : List ToolCallId :=
  if m.role = .assistant then m.content.filterMap ChatContentPart.callId else []

/-- The results a tool message has. -/
def resultsOf (m : ChatMessage) : List ToolCallId :=
  if m.role = .tool then m.content.filterMap resultId else []

def calls (messages : List ChatMessage) : List ToolCallId := messages.flatMap callsOf

def results (messages : List ChatMessage) : List ToolCallId := messages.flatMap resultsOf

/-- Every call of the segment has one result, after it, and there is no other result. -/
structure Paired (segment : List ChatMessage) (ids : List ToolCallId) : Prop where
  calls : calls segment = ids
  nodup : ids.Nodup
  known : ∀ id ∈ results segment, id ∈ ids
  answered : ∀ before m after, segment = before ++ m :: after →
    ∀ id ∈ callsOf m, (results after).count id = 1

theorem results_append (first second : List ChatMessage) :
    results (first ++ second) = results first ++ results second := by
  simp [results]

/-- Segments with different calls are paired together. -/
theorem Paired.append {first second : List ChatMessage} (one : Paired first ids)
    (two : Paired second others) (apart : ∀ id ∈ ids, id ∉ others) :
    Paired (first ++ second) (ids ++ others) := by
  refine ⟨?_, ?_, ?_, ?_⟩
  · rw [RecentExchanges.calls, flatMap_append, ← one.calls, ← two.calls]
    rfl
  · exact nodup_append.mpr ⟨one.nodup, two.nodup, fun a member b other same =>
      apart a member (same ▸ other)⟩
  · intro id member
    rw [results_append, mem_append] at member
    exact mem_append.mpr (member.imp (one.known id) (two.known id))
  · intro before m after whole id member
    rcases append_eq_append_iff.mp whole with ⟨rest, -, inSecond⟩ | ⟨rest, inFirst, cut⟩
    · exact two.answered rest m after inSecond id member
    · rcases cons_eq_append_iff.mp cut with ⟨-, atStart⟩ | ⟨later, rfl, rfl⟩
      · exact two.answered [] m after atStart id member
      · have called : id ∈ ids := by
          rw [← one.calls, inFirst, RecentExchanges.calls, flatMap_append]
          simp [member]
        have absent : (results second).count id = 0 :=
          count_eq_zero.mpr fun answer => apart id called (two.known id answer)
        rw [results_append, count_append, absent, one.answered before m later inFirst id member]

/-! ### One batch -/

theorem collectCall_collects (ok : content.foldlM collectCall [] = .ok ids) :
    ids = content.filterMap ChatContentPart.callId ∧ ids.Nodup ∧ ids.length ≤ maxExchangeCalls := by
  refine foldlM_history (fun seen ids => ids = seen.filterMap ChatContentPart.callId ∧
    ids.Nodup ∧ ids.length ≤ maxExchangeCalls) ?_ (by simp) ok
  rintro seen before part after ⟨collected, nodup, bounded⟩ stepped
  unfold collectCall at stepped
  split at stepped
  next other =>
    cases stepped
    exact ⟨by simp [other, collected], nodup, bounded⟩
  next id call =>
    simp only [invalidCompaction, last_guard_eq_ok, Bool.or_eq_true, decide_eq_true_eq,
      not_or] at stepped
    obtain ⟨⟨⟨⟨room, -⟩, -⟩, fresh⟩, done⟩ := stepped
    cases done
    refine ⟨by simp [call, collected], ?_, ?_⟩
    · rw [← concat_eq_append]
      exact nodup.concat fresh
    · rw [length_append, length_singleton]
      omega

/-- What the messages after a batch may be: they start no batch and their results are of
the batch, each once. -/
structure Follows (ids : List ToolCallId) (seen : List ChatMessage) (f : Following) : Prop where
  quiet : ∀ m ∈ seen, m.startsBatch = false
  nodup : (results seen).Nodup
  known : ∀ id ∈ results seen, id ∈ ids
  recorded : f.results = (results seen).toFinset

theorem collectResult_collects {earlier : List ToolCallId} (nodup : earlier.Nodup)
    (known : ∀ id ∈ earlier, id ∈ ids) (recorded : f.results = earlier.toFinset)
    (ok : content.foldlM (collectResult ids) f = .ok next) :
    (earlier ++ content.filterMap resultId).Nodup ∧
      (∀ id ∈ earlier ++ content.filterMap resultId, id ∈ ids) ∧
      next.results = (earlier ++ content.filterMap resultId).toFinset := by
  refine foldlM_history (fun seen f => (earlier ++ seen.filterMap resultId).Nodup ∧
    (∀ id ∈ earlier ++ seen.filterMap resultId, id ∈ ids) ∧
    f.results = (earlier ++ seen.filterMap resultId).toFinset) ?_ (by simp_all) ok
  rintro seen before part after ⟨nodup, known, recorded⟩ stepped
  unfold collectResult at stepped
  split at stepped
  next id output isError =>
    simp only [invalidCompaction, last_guard_eq_ok, Bool.or_eq_true, decide_eq_true_eq, not_or,
      not_not, recorded, mem_toFinset] at stepped
    obtain ⟨⟨⟨-, called⟩, fresh⟩, done⟩ := stepped
    cases done
    have grown : earlier ++ (seen ++ [ChatContentPart.toolResult id output isError]).filterMap
        resultId = earlier ++ seen.filterMap resultId ++ [id] := by
      simp [resultId]
    rw [grown]
    refine ⟨?_, ?_, ?_⟩
    · rw [← concat_eq_append]
      exact nodup.concat fresh
    · exact forall_mem_append.mpr ⟨known, forall_mem_singleton.mpr called⟩
    · ext other
      simp only [Finset.mem_insert, Finset.mem_union, mem_toFinset, mem_singleton, toFinset_append]
      tauto
  next => cases stepped

/-- A message without tool parts makes no call. -/
theorem startsBatch_of_plain (plain : ¬ m.content.any (·.isToolPart) = true) :
    m.startsBatch = false := by
  have silent : m.content.any (·.callId.isSome) = false := by
    rw [any_eq_false]
    intro part member call
    refine plain (any_eq_true.mpr ⟨part, member, ?_⟩)
    cases part <;> simp_all [ChatContentPart.callId, ChatContentPart.isToolPart]
  simp [ChatMessage.startsBatch, silent]

theorem follow_follows {seen : List ChatMessage} (follows : Follows ids seen f)
    (ok : follow ids f m = .ok next) : Follows ids (seen ++ [m]) next := by
  have grown : results (seen ++ [m]) = results seen ++ resultsOf m := by simp [results]
  have quiet (plain : m.startsBatch = false) : ∀ other ∈ seen ++ [m], other.startsBatch = false :=
    forall_mem_append.mpr ⟨follows.quiet, forall_mem_singleton.mpr plain⟩
  -- a message that is no tool message adds no result
  have plain : m.role ≠ .tool → m.startsBatch = false → next.results = f.results →
      Follows ids (seen ++ [m]) next := by
    intro other silent same
    have nothing : resultsOf m = [] := if_neg other
    rw [nothing, append_nil] at grown
    exact ⟨quiet silent, grown ▸ follows.nodup, grown ▸ follows.known,
      by rw [grown, same, follows.recorded]⟩
  unfold follow at ok
  split at ok
  next role =>
    simp only [invalidCompaction, last_guard_eq_ok] at ok
    obtain ⟨silent, done⟩ := ok
    cases done
    exact plain (by simp [role]) (startsBatch_of_plain silent) rfl
  next role =>
    simp only [invalidCompaction, last_guard_eq_ok] at ok
    obtain ⟨-, collected⟩ := ok
    have added : resultsOf m = m.content.filterMap resultId := if_pos role
    obtain ⟨nodup, known, recorded⟩ :=
      collectResult_collects follows.nodup follows.known follows.recorded collected
    rw [← added, ← grown] at nodup known recorded
    exact ⟨quiet (by simp [ChatMessage.startsBatch, role]), nodup, known, recorded⟩
  next role =>
    simp only [invalidCompaction, last_guard_eq_ok, Bool.or_eq_true, not_or] at ok
    obtain ⟨⟨-, silent⟩, done⟩ := ok
    cases done
    exact plain (by simp [role]) (startsBatch_of_plain silent) rfl
  next => cases ok

theorem callsOf_of_quiet (quiet : m.startsBatch = false) : callsOf m = [] := by
  unfold callsOf
  split
  next role =>
    simp only [ChatMessage.startsBatch, role, decide_true, Bool.true_and, any_eq_false] at quiet
    exact filterMap_eq_nil_iff.mpr fun part member => by simpa using quiet part member
  next => rfl

/-- A batch with all its results is paired. -/
theorem Follows.paired {head : ChatMessage} {after : List ChatMessage}
    (batch : head.role = .assistant) (nodup : (callsOf head).Nodup)
    (follows : Follows (callsOf head) after f) (complete : (callsOf head).toFinset = f.results) :
    Paired (head :: after) (callsOf head) := by
  have silent : calls after = [] :=
    flatMap_eq_nil_iff.mpr fun m member => callsOf_of_quiet (follows.quiet m member)
  have own : resultsOf head = [] := if_neg (by simp [batch])
  refine ⟨?_, nodup, ?_, ?_⟩
  · simpa [RecentExchanges.calls] using silent
  · rw [results, flatMap_cons, own]
    exact follows.known
  · intro before m rest whole id member
    rcases cons_eq_append_iff.mp whole with ⟨rfl, first⟩ | ⟨_, rfl, later⟩
    · cases first
      refine count_eq_one_of_mem follows.nodup ?_
      rw [← mem_toFinset, ← follows.recorded, ← complete, mem_toFinset]
      exact member
    · have quiet := follows.quiet m (by simp [later])
      rw [callsOf_of_quiet quiet] at member
      cases member

/-- What `latest` finds: the messages end with one paired batch. -/
theorem latest_finds (ok : latest messages = .ok (some e)) :
    ∃ before head after, messages = before ++ head :: after ∧ e.source = messages ∧
      e.start = before.length ∧ e.exchanges = 1 ∧ e.callIds ≠ [] ∧
      e.callIds.length ≤ maxExchangeCalls ∧ Paired (head :: after) e.callIds ∧
      (head :: after).countP ChatMessage.startsBatch = 1 := by
  unfold latest at ok
  split at ok
  · cases ok
  next start found =>
    obtain ⟨before, head, after, rfl, rfl, starts, quiet⟩ := rposition_eq_some found
    have content : (((before ++ head :: after)[before.length]?.map (·.content)).getD []) =
        head.content := by simp
    have behind : (before ++ head :: after).drop (before.length + 1) = after := by simp
    simp only [content, exchangeAt, behind, bind_eq_ok, invalidCompaction] at ok
    obtain ⟨ids, collected, ok⟩ := ok
    split at ok
    · cases ok
    next nonempty =>
      simp only [bind_eq_ok, guard_eq_ok] at ok
      obtain ⟨f, followed, complete, done⟩ := ok
      cases done
      obtain ⟨rfl, nodup, bounded⟩ := collectCall_collects collected
      have batch : head.role = .assistant := by
        simp only [ChatMessage.startsBatch, Bool.and_eq_true, decide_eq_true_eq] at starts
        exact starts.1
      have made : callsOf head = head.content.filterMap ChatContentPart.callId := if_pos batch
      have follows := foldlM_history (Follows (callsOf head))
        (fun _ _ _ _ => follow_follows) ⟨by simp, by simp [results], by simp [results],
          by simp [results]⟩ (made ▸ followed)
      refine ⟨before, head, after, rfl, rfl, rfl, rfl, nonempty, bounded, ?_, ?_⟩
      · have paired := follows.paired batch (made ▸ nodup) (made ▸ not_not.mp complete)
        exact made ▸ paired
      · rw [countP_cons_of_pos starts, countP_eq_zero.mpr fun m member => by
          simp [quiet m member]]

/-! ### Expansion -/

/-- One exchange comes from the other by expansions. -/
abbrev Expands : RecentToolExchange → RecentToolExchange → Prop :=
  Relation.ReflTransGen fun e next => e.earlier = .ok (some next)

/-- The exchange comes from the latest one of the messages. -/
def Recent (messages : List ChatMessage) (e : RecentToolExchange) : Prop :=
  ∃ first, latest messages = .ok (some first) ∧ Expands first e

/-- A suffix of the messages, of a bounded number of paired batches. -/
structure Whole (messages : List ChatMessage) (e : RecentToolExchange) : Prop where
  source : e.source = messages
  paired : Paired (messages.drop e.start) e.callIds
  bounded : e.callIds.length ≤ maxExchangeCalls
  few : e.exchanges ≤ maxRetainedExchanges
  batches : (messages.drop e.start).countP ChatMessage.startsBatch = e.exchanges

theorem latest_whole (ok : latest messages = .ok (some e)) : Whole messages e := by
  obtain ⟨before, head, after, rfl, source, start, one, -, bounded, paired, batch⟩ :=
    latest_finds ok
  have suffix : (before ++ head :: after).drop e.start = head :: after := by
    rw [start, drop_left]
  refine ⟨source, ?_, bounded, ?_, ?_⟩
  · rw [suffix]
    exact paired
  · rw [one]
    decide
  · rw [suffix, one]
    exact batch

/-- The expanded suffix is the batch found before it, and then the old one. -/
theorem drop_expanded {source before segment : List ChatMessage} {start cut : Nat}
    (found : (source.take start).drop cut = before ++ segment) (nonempty : segment ≠ []) :
    source.drop (cut + before.length) = segment ++ source.drop start := by
  have inside : cut ≤ (source.take start).length := by
    by_contra outside
    rw [drop_eq_nil_of_le (by omega)] at found
    exact nonempty (append_eq_nil_iff.mp found.symm).2
  have whole : source = (source.take start).take cut ++ (before ++ segment) ++
      source.drop start := by
    rw [← found, take_append_drop, take_append_drop]
  have length : ((source.take start).take cut ++ before).length = cut + before.length := by
    rw [length_append, length_take, Nat.min_eq_left inside]
  nth_rewrite 1 [whole]
  rw [← length, ← append_assoc, append_assoc _ segment, drop_left]

theorem earlier_whole {next : RecentToolExchange} (whole : Whole messages e)
    (ok : e.earlier = .ok (some next)) :
    Whole messages next ∧ e.callIds.length < next.callIds.length := by
  obtain ⟨room, previous, found, fits, apart, rfl⟩ := earlier_eq_some ok
  obtain ⟨before, head, after, segment, -, start, -, nonempty, -, paired, batch⟩ :=
    latest_finds found
  rw [whole.source] at segment
  have suffix : messages.drop (e.boundary + previous.start) =
      (head :: after) ++ messages.drop e.start := by
    rw [start]
    exact drop_expanded segment (cons_ne_nil _ _)
  refine ⟨⟨whole.source, ?_, ?_, room, ?_⟩, ?_⟩
  · simp only [suffix]
    exact paired.append whole.paired apart
  · simpa using fits
  · simp only [suffix]
    rw [countP_append, batch, whole.batches, Nat.add_comm]
  · have grown := length_pos_of_ne_nil nonempty
    simp only [length_append]
    omega

theorem expands_whole (whole : Whole messages first) (expands : Expands first e) :
    Whole messages e ∧ first.callIds.length ≤ e.callIds.length := by
  induction expands with
  | refl => exact ⟨whole, le_refl _⟩
  | tail _ stepped ih =>
    obtain ⟨next, grown⟩ := earlier_whole ih.1 stepped
    exact ⟨next, by omega⟩

/-- Selection walks the same expansions, since each of them has more calls. -/
theorem selectFrom_expanded (whole : Whole messages first) (expands : Expands first e) :
    selectFrom e.callIds first = .ok (some e) := by
  induction expands using Relation.ReflTransGen.head_induction_on with
  | refl => rw [selectFrom, if_pos rfl]
  | head stepped rest ih =>
    obtain ⟨next, grown⟩ := earlier_whole whole stepped
    have longer := (expands_whole next rest).2
    rw [selectFrom, if_neg fun same => by rw [same] at grown; omega, if_neg (by omega)]
    split
    next failed => rw [stepped] at failed; cases failed
    next missing => rw [stepped] at missing; cases missing
    next previous found =>
      rw [stepped] at found
      cases found
      exact ih next

theorem mem_callsOf :
    id ∈ callsOf m ↔ m.role = .assistant ∧ ∃ call, .toolCall call ∈ m.content ∧
      call.callId = id := by
  have made : ∀ part : ChatContentPart, part.callId = some id ↔
      ∃ call, part = .toolCall call ∧ call.callId = id := by
    intro part
    cases part <;> simp [ChatContentPart.callId]
  unfold callsOf
  split
  next role =>
    grind
  next role => simp [role]

theorem mem_resultsOf (role : m.role = .tool) (result : .toolResult id output isError ∈ m.content) :
    id ∈ resultsOf m := by
  rw [resultsOf, if_pos role]
  exact mem_filterMap.mpr ⟨_, result, rfl⟩

/-- A recent exchange is found again by its call identities, spans at most three batches
and 64 different calls, and pairs every call with its one result. -/
theorem recent_exchange_is_reselected_and_paired (messages : List ChatMessage)
    (e : RecentToolExchange) (recent : Recent messages e) :
    (∃ found, selected messages e.callIds = .ok (some found) ∧ found.start = e.start ∧
      found.callIds = e.callIds) ∧
    (messages.drop e.start).countP ChatMessage.startsBatch ≤ 3 ∧
    e.callIds.Nodup ∧ e.callIds.length ≤ 64 ∧
    (∀ before m after, messages.drop e.start = before ++ m :: after → m.role = .assistant →
      ∀ call, .toolCall call ∈ m.content →
        call.callId ∈ e.callIds ∧ (results after).count call.callId = 1) ∧
    ∀ m ∈ messages.drop e.start, m.role = .tool →
      ∀ id output isError, .toolResult id output isError ∈ m.content →
        ∃ caller ∈ messages.drop e.start, caller.role = .assistant ∧
          ∃ call, .toolCall call ∈ caller.content ∧ call.callId = id := by
  obtain ⟨first, found, expands⟩ := recent
  obtain ⟨whole, -⟩ := expands_whole (latest_whole found) expands
  refine ⟨⟨e, ?_, rfl, rfl⟩, ?_, whole.paired.nodup, whole.bounded, ?_, ?_⟩
  · rw [selected, found]
    exact selectFrom_expanded (latest_whole found) expands
  · rw [whole.batches]
    exact whole.few
  · intro before m after split role call made
    have called : call.callId ∈ callsOf m := mem_callsOf.mpr ⟨role, call, made, rfl⟩
    refine ⟨?_, whole.paired.answered before m after split _ called⟩
    rw [← whole.paired.calls, split]
    exact mem_flatMap.mpr ⟨m, by simp, called⟩
  · intro m member role id output isError result
    have known := whole.paired.known id
      (mem_flatMap.mpr ⟨m, member, mem_resultsOf role result⟩)
    rw [← whole.paired.calls] at known
    obtain ⟨caller, present, called⟩ := mem_flatMap.mp known
    exact ⟨caller, present, mem_callsOf.mp called⟩

/-! ### An example -/

def asks (id : ToolCallId) : ChatMessage :=
  ⟨.assistant, [.text "", .toolCall ⟨id, "read_file", .null, none⟩], none⟩

def answers (id : ToolCallId) : ChatMessage := ⟨.tool, [.toolResult id [.text "ok"] false], none⟩

/-- Two batches, with accepted input between them. -/
def twoBatches : List ChatMessage :=
  [asks "A", answers "A", ⟨.user, [.text "go on"], none⟩, asks "B", answers "B"]

theorem twoBatches_recent : Recent twoBatches ⟨twoBatches, 0, ["A", "B"], false, false, 2⟩ := by
  refine ⟨⟨twoBatches, 3, ["B"], false, false, 1⟩, by decide, .single ?_⟩
  decide

theorem twoBatches_is_reselected :
    ∃ found, selected twoBatches ["A", "B"] = .ok (some found) ∧ found.start = 0 ∧
      found.callIds = ["A", "B"] :=
  (recent_exchange_is_reselected_and_paired _ _ twoBatches_recent).1

end Nomifun.Guarantees.RecentExchanges
