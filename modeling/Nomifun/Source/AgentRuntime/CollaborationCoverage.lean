import Nomifun.Source.AgentRuntime.CollaborationStatus

/-!
# What the recorded consumption means

The progress keeps counters and digests, never a result. This file relates them to the
snapshots that were read: a byte counted as covered was in the body of a page of the same
result (`Covered`), and a step recorded as consumed had a child that was delivered in full
(`Delivered`). Each reading function of `CollaborationStatus` keeps the relation.
-/
namespace Nomifun.Source.AgentRuntime
open Library Library.MachineInt Library.Json Library.Serde Source.AgentContracts Option

variable {history : List AgentCollaborationSnapshot} {id : String} {platform : Platform}
  {snapshot : AgentCollaborationSnapshot} {scope : RowScope}
  {consumed : AgentChildResultConsumption}

/-- An immutable result: its source, its content and its length. -/
structure ResultIdentity where
  sourceDigest : String
  sha256 : String
  totalBytes : Nat

def ResultPage.identity (page : ResultPage) : ResultIdentity :=
  ⟨page.sourceDigest, page.sha256, page.totalBytes⟩

def AgentChildResultCoverage.identity (coverage : AgentChildResultCoverage) : ResultIdentity :=
  ⟨coverage.sourceDigest, coverage.sha256, coverage.totalBytes⟩

/-- The snapshot has this row for the execution. -/
def HasRow (snapshot : AgentCollaborationSnapshot) (id : String) (row : Value) : Prop :=
  ∃ rows, (snapshot.result.member "executions").bind Value.asArray = some rows ∧ row ∈ rows ∧
    (row.get "execution_id").asStr = some id

section

variable (row : Value) (history : List AgentCollaborationSnapshot)

/-- The row returns this child for the step. -/
def HasChild (step : String) (child : Value) : Prop :=
  ∃ children, (row.get "children").asArray = some children ∧ child ∈ children ∧
    (child.get "step_id").asStr = some step

def CarriesPage (child : Value) (page : ResultPage) (body : String) : Prop :=
  ∃ v, child.member "result_page" = some v ∧ ResultPage.decode v = .ok page ∧
    (child.get "result").asStr = some body

/-- The terminal digest the row's header has for the step. -/
def terminalHeader (step : String) : Option String :=
  match (stringMap StepObservation.codec).decode (row.get "step_observations") with
  | .ok heads => heads[step]?.bind (·.terminalDigest)
  | .error _ => none

/-- Some page of this result, read for this step, has the byte in its body. -/
def ByteSeen (id step : String) (result : ResultIdentity) (position : Nat) : Prop :=
  ∃ snapshot ∈ history, ∃ row child page body, HasRow snapshot id row ∧ HasChild row step child ∧
    CarriesPage child page body ∧ page.identity = result ∧
    page.offset ≤ position ∧ position < page.offset + body.utf8ByteSize

def Covered (id step : String) (coverage : AgentChildResultCoverage) : Prop :=
  ∀ position < coverage.contiguousBytes, ByteSeen history id step coverage.identity position

/-- Some snapshot had this terminal digest in the header of the step and a child for it that
has no pages, or whose pages were complete with that snapshot. -/
def Delivered (id step digest : String) : Prop :=
  ∃ earlier snapshot later row child, history = earlier ++ snapshot :: later ∧
    HasRow snapshot id row ∧ HasChild row step child ∧ terminalHeader row step = some digest ∧
    (child.member "result_page" = none ∨
      ∃ page body, CarriesPage child page body ∧ ∀ position < page.totalBytes,
        ByteSeen (earlier ++ [snapshot]) id step page.identity position)

/-- Every entry of the consumption is backed by the snapshots. -/
structure Recorded (history : List AgentCollaborationSnapshot) (id : String)
    (consumed : AgentChildResultConsumption) : Prop where
  pages : ∀ step coverage, consumed.resultPages[step]? = some coverage →
    Covered history id step coverage
  sources : ∀ step digest, consumed.sourceDigests[step]? = some digest → step ≠ executionKey →
    Delivered history id step digest

def Backed (results : StringMap AgentChildResultConsumption) : Prop :=
  ∀ id consumed, results[id]? = some consumed → Recorded history id consumed

end

section

variable {step : String}

theorem ByteSeen.later {result : ResultIdentity} {position : Nat}
    (seen : ByteSeen history id step result position) (snapshot : AgentCollaborationSnapshot) :
    ByteSeen (history ++ [snapshot]) id step result position := by
  obtain ⟨source, member, rest⟩ := seen
  exact ⟨source, List.mem_append_left _ member, rest⟩

theorem Delivered.later {digest : String} (delivered : Delivered history id step digest)
    (snapshot : AgentCollaborationSnapshot) : Delivered (history ++ [snapshot]) id step digest := by
  obtain ⟨earlier, source, later, row, child, rfl, rest⟩ := delivered
  exact ⟨earlier, source, later ++ [snapshot], row, child, by simp, rest⟩

theorem Recorded.later {consumed : AgentChildResultConsumption}
    (recorded : Recorded history id consumed) (snapshot : AgentCollaborationSnapshot) :
    Recorded (history ++ [snapshot]) id consumed where
  pages step coverage found position below :=
    (recorded.pages step coverage found position below).later snapshot
  sources step digest found other := (recorded.sources step digest found other).later snapshot

theorem Backed.later {results : StringMap AgentChildResultConsumption}
    (backed : Backed history results) (snapshot : AgentCollaborationSnapshot) :
    Backed (history ++ [snapshot]) results :=
  fun id consumed found => (backed id consumed found).later snapshot

theorem backed_empty (history : List AgentCollaborationSnapshot) : Backed history ∅ := by
  intro id consumed found
  simp at found

theorem recorded_empty (history : List AgentCollaborationSnapshot) (id : String) :
    Recorded history id .empty where
  pages step coverage found := by simp [AgentChildResultConsumption.empty] at found
  sources step digest found := by simp [AgentChildResultConsumption.empty] at found

variable {results : StringMap AgentChildResultConsumption}

/-- `entry(id).or_default()`. -/
theorem Backed.entry (backed : Backed history results) (id : String) :
    Recorded history id (results[id]?.getD .empty) := by
  cases found : results[id]? with
  | none => exact recorded_empty history id
  | some consumed => exact backed id consumed found

theorem Backed.insert (backed : Backed history results) (recorded : Recorded history id consumed) :
    Backed history (results.insert id consumed) := by
  intro other read found
  rw [StringMap.get_insert] at found
  split at found
  · rename_i same
    cases found
    exact same ▸ recorded
  · exact backed other read found

/-- Only the two indexes matter. -/
theorem Recorded.sameIndexes (recorded : Recorded history id consumed)
    (pages : next.resultPages = consumed.resultPages)
    (sources : next.sourceDigests = consumed.sourceDigests) : Recorded history id next where
  pages step coverage found := recorded.pages step coverage (pages ▸ found)
  sources step digest found := recorded.sources step digest (sources ▸ found)

end

/-! ### One child -/

theorem sameResult_iff (page : ResultPage) (coverage : AgentChildResultCoverage) :
    page.sameResult coverage = true ↔ coverage.identity = page.identity := by
  simp [ResultPage.sameResult, ResultPage.identity, AgentChildResultCoverage.identity, and_assoc]

theorem restart_identity (page : ResultPage) (coverage : AgentChildResultCoverage) :
    (page.restart coverage).identity = page.identity := by
  unfold ResultPage.restart
  split
  · rename_i same
    exact (sameResult_iff page coverage).mp same
  · rfl

theorem cover_identity (page : ResultPage) (stop : Nat) (coverage : AgentChildResultCoverage) :
    (page.cover stop coverage).identity = page.identity := by
  rw [← restart_identity page coverage]
  unfold ResultPage.cover
  split <;> rfl

theorem cover_totalBytes (page : ResultPage) (stop : Nat) (coverage : AgentChildResultCoverage) :
    (page.cover stop coverage).totalBytes = page.totalBytes :=
  congrArg ResultIdentity.totalBytes (cover_identity page stop coverage)

section

variable {step : String} {page : ResultPage} {coverage : AgentChildResultCoverage}
  {delivered : Bool}

theorem covered_restart (covered : Covered history id step coverage) :
    Covered history id step (page.restart coverage) := by
  unfold ResultPage.restart
  split
  · exact covered
  · intro position below
    cases below

/-- The counter grows only over bytes of the page or over bytes counted before. -/
theorem covered_cover (covered : Covered history id step coverage)
    (read : ∀ position, page.offset ≤ position → position < stop →
      ByteSeen history id step page.identity position) :
    Covered history id step (page.cover stop coverage) := by
  intro position below
  by_cases inside : page.offset ≤ position ∧ position < stop
  · rw [cover_identity]
    exact read position inside.1 inside.2
  · have counted : position < (page.restart coverage).contiguousBytes := by
      unfold ResultPage.cover at below
      split at below
      · rcases lt_max_iff.mp below with before | within
        · exact before
        · omega
      · exact below
    rw [cover_identity, ← restart_identity page coverage]
    exact covered_restart covered position counted

theorem covered_empty (history : List AgentCollaborationSnapshot) (id step : String) :
    Covered history id step .empty := by
  intro position below
  cases below

/-- What a delivery check does: without pages nothing; otherwise the page is counted. -/
theorem resultDelivered_ok
    (ok : resultDelivered platform consumed step child = .ok (delivered, next)) :
    (child.member "result_page" = none ∧ next = consumed) ∨
      ∃ page body, CarriesPage child page body ∧
        let coverage := page.cover (page.offset + body.utf8ByteSize)
          (consumed.resultPages[step]?.getD .empty)
        delivered = decide (coverage.contiguousBytes = coverage.totalBytes) ∧
        next = { consumed with resultPages := consumed.resultPages.insert step coverage } := by
  unfold resultDelivered at ok
  cases carried : child.member "result_page" with
  | none =>
    simp only [carried, Except.ok.injEq, Prod.mk.injEq] at ok
    exact .inl ⟨rfl, ok.2.symm⟩
  | some v =>
    simp only [carried, bind_eq_ok, orInvalid_eq_ok, decodedOr_eq_ok] at ok
    obtain ⟨page, decoded, body, hasBody, _, _, stop, added, rest⟩ := ok
    obtain rfl := (checkedAdd_eq_some.mp added).2
    simp only [invalidContract, guard_eq_ok] at rest
    have result := Except.ok.inj rest.2
    rw [Prod.mk.injEq] at result
    exact .inr ⟨page, body, ⟨v, carried, decoded, hasBody⟩, result.1.symm, result.2.symm⟩

/-- The consumption of an execution in the middle of a row: it is backed by what was read
up to this snapshot, and the headers of the row confirm it. -/
structure RowRead (history : List AgentCollaborationSnapshot)
    (snapshot : AgentCollaborationSnapshot) (id : String) (row : Value)
    (consumed : AgentChildResultConsumption) : Prop
    extends Recorded (history ++ [snapshot]) id consumed where
  confirmed : ∀ step digest, consumed.sourceDigests[step]? = some digest →
    terminalHeader row step = some digest

variable {row : Value} {next : AgentChildResultConsumption} {child : Value} {children : List Value}
  {scan scan' : ChildScan} (hasRow : HasRow snapshot id row)
  (headers : ∀ step, terminalHeader row step = scope.heads[step]?.bind (·.terminalDigest))
  (recorded : RowRead history snapshot id row consumed)
include hasRow

theorem byteSeen_now (hasChild : HasChild row step child) (carries : CarriesPage child page body)
    (position : Nat) (from_offset : page.offset ≤ position)
    (below : position < page.offset + body.utf8ByteSize) :
    ByteSeen (history ++ [snapshot]) id step page.identity position :=
  ⟨snapshot, by simp, row, child, page, body, hasRow, hasChild, carries, rfl, from_offset, below⟩

include recorded in
theorem resultDelivered_records (hasChild : HasChild row step child)
    (ok : resultDelivered platform consumed step child = .ok (delivered, next)) :
    RowRead history snapshot id row next ∧
      (delivered = true → child.member "result_page" = none ∨
        ∃ page body, CarriesPage child page body ∧ ∀ position < page.totalBytes,
          ByteSeen (history ++ [snapshot]) id step page.identity position) := by
  rcases resultDelivered_ok ok with ⟨plain, rfl⟩ | ⟨page, body, carries, complete, rfl⟩
  · exact ⟨recorded, fun _ => .inl plain⟩
  · have before : Covered (history ++ [snapshot]) id step
        (consumed.resultPages[step]?.getD .empty) := by
      cases found : consumed.resultPages[step]? with
      | none => exact covered_empty _ id step
      | some coverage => exact recorded.pages step coverage found
    have after := covered_cover before (byteSeen_now hasRow hasChild carries)
    refine ⟨{ recorded with pages := ?_ }, ?_⟩
    · intro other coverage found
      rw [StringMap.get_insert] at found
      split at found
      · rename_i same
        cases found
        exact same ▸ after
      · exact recorded.pages other coverage found
    · intro isDelivered
      refine .inr ⟨page, body, carries, ?_⟩
      have whole := of_decide_eq_true (complete ▸ isDelivered)
      intro position below
      rw [← cover_identity page (page.offset + body.utf8ByteSize)]
      refine after position ?_
      rw [whole, cover_totalBytes]
      exact below

include headers recorded in
theorem observeTerminal_records (hasChild : HasChild row step child)
    (ok : observeTerminal platform scope consumed step child = .ok next) :
    RowRead history snapshot id row next := by
  simp only [observeTerminal, invalidContract, guard_eq_ok, bind_eq_ok] at ok
  obtain ⟨_, digest, _, confirmed, ⟨delivered, read⟩, checked, result⟩ := ok
  have header : terminalHeader row step = some digest := by
    rw [headers step]
    exact not_not.mp confirmed
  obtain ⟨kept, complete⟩ := resultDelivered_records hasRow recorded hasChild checked
  cases result
  have entry : ∀ other found, (if delivered then read.sourceDigests.insert step digest
      else read.sourceDigests.erase step)[other]? = some found →
      (other = step ∧ found = digest ∧ delivered = true) ∨
        read.sourceDigests[other]? = some found := by
    intro other found present
    cases delivered with
    | true =>
      rw [if_pos rfl, StringMap.get_insert] at present
      split at present
      · rename_i same
        exact .inl ⟨same.symm, (some.inj present).symm, rfl⟩
      · exact .inr present
    | false =>
      rw [if_neg Bool.false_ne_true, StringMap.get_erase] at present
      split at present
      · cases present
      · exact .inr present
  refine { kept with sources := ?_, confirmed := ?_ }
  · intro other found present notExecution
    rcases entry other found present with ⟨rfl, rfl, isDelivered⟩ | old
    · exact ⟨history, snapshot, [], row, child, rfl, hasRow, hasChild, header, complete isDelivered⟩
    · exact kept.sources other found old notExecution
  · intro other found present
    rcases entry other found present with ⟨rfl, rfl, _⟩ | old
    · exact header
    · exact kept.confirmed other found old

include headers in
theorem observeChild_records (returned : (row.get "children").asArray = some children)
    (member : child ∈ children)
    (recorded : RowRead history snapshot id row scan.consumed)
    (ok : observeChild platform scope scan child = .ok scan') :
    RowRead history snapshot id row scan'.consumed := by
  simp only [observeChild, invalidContract, guard_eq_ok, bind_eq_ok, orInvalid_eq_ok] at ok
  obtain ⟨step, named, _, _, _, _, _, ok⟩ := ok
  split at ok
  · rw [bind_eq_ok] at ok
    obtain ⟨read, checked, result⟩ := ok
    cases result
    exact observeTerminal_records hasRow headers recorded ⟨children, returned, member, named⟩
      checked
  · cases ok
    exact recorded

end

/-! ### One row -/

section

variable {sequence : Nat} {row : Value} {next : AgentChildResultConsumption}
  {reference : AgentCollaborationObservation} {scan scan' : StatusScan} {finished : Bool}
  {children children' : ChildScan}

theorem rowScope_ok (ok : rowScope platform id sequence row = .ok scope) :
    stepIds row "owned_step_ids" = .ok scope.owned ∧
      stepIds row "owned_terminal_step_ids" = .ok scope.terminal ∧
      ∀ step, terminalHeader row step = scope.heads[step]?.bind (·.terminalDigest) := by
  simp only [rowScope, stepHeads, invalidContract, guard_eq_ok, bind_eq_ok, decodedOr_eq_ok] at ok
  obtain ⟨owned, ownedIds, terminal, terminalIds, _, heads, decoded, _, _, _, result⟩ := ok
  cases result
  refine ⟨ownedIds, terminalIds, ?_⟩
  intro step
  simp [terminalHeader, decoded]

/-- An entry that survives was there before and agrees with its header. -/
theorem refreshed_records
    (headers : ∀ step, terminalHeader row step = scope.heads[step]?.bind (·.terminalDigest))
    (recorded : Recorded (history ++ [snapshot]) id consumed) :
    RowRead history snapshot id row (refreshed scope reference ready consumed) := by
  have survives : ∀ step digest,
      (refreshed scope reference ready consumed).sourceDigests[step]? = some digest →
        consumed.sourceDigests[step]? = some digest ∧ terminalHeader row step = some digest := by
    intro step digest found
    simp only [refreshed, StringMap.get_filter, filter_eq_some_iff] at found
    obtain ⟨old, agrees⟩ := found
    refine ⟨old, ?_⟩
    rw [headers step]
    cases present : scope.heads[step]? with
    | none => simp [present] at agrees
    | some head => simpa [present] using agrees
  refine { pages := ?_, sources := ?_, confirmed := ?_ }
  · intro step coverage found
    simp only [refreshed, StringMap.get_filter, filter_eq_some_iff] at found
    exact recorded.pages step coverage found.1
  · intro step digest found
    exact recorded.sources step digest (survives step digest found).1
  · intro step digest found
    exact (survives step digest found).2

/-- A consumption of the execution as a whole adds no entry of a step. -/
theorem observeEmpty_records (recorded : Recorded (history ++ [snapshot]) id consumed)
    (ok : observeEmpty platform named sequence row consumed = .ok (next, finished)) :
    Recorded (history ++ [snapshot]) id next := by
  simp only [observeEmpty] at ok
  split at ok
  · cases ok
    exact recorded
  · simp only [invalidContract, guard_eq_ok, bind_eq_ok] at ok
    obtain ⟨_, digest, _, result⟩ := ok
    cases result
    refine { recorded with sources := ?_ }
    intro step found present notExecution
    rw [StringMap.get_insert, if_neg (Ne.symm notExecution)] at present
    exact recorded.sources step found present notExecution

theorem observeChildren_records (hasRow : HasRow snapshot id row)
    (headers : ∀ step, terminalHeader row step = scope.heads[step]?.bind (·.terminalDigest))
    (recorded : RowRead history snapshot id row children.consumed)
    (ok : observeChildren platform scope row children = .ok (children', finished)) :
    RowRead history snapshot id row children'.consumed ∧
      (finished = true → scope.terminal = scope.owned ∧
        ∀ step ∈ scope.owned, step ∈ children'.consumed.sourceDigests) := by
  simp only [observeChildren, bind_eq_ok, orInvalid_eq_ok] at ok
  obtain ⟨items, returned, read, done, result⟩ := ok
  have kept : RowRead history snapshot id row read.consumed := by
    refine foldlM_invariant (fun scan => RowRead history snapshot id row scan.consumed) ?_
      recorded done
    intro before child after member sofar stepped
    exact observeChild_records hasRow headers returned member sofar stepped
  cases Except.ok.inj result
  refine ⟨⟨kept.toRecorded.sameIndexes rfl rfl, kept.confirmed⟩, ?_⟩
  intro all
  simp only [fullyConsumed, Bool.and_eq_true, decide_eq_true_eq] at all
  exact ⟨all.1.2, all.2⟩

/-- Why a row may take its execution off the pending set. -/
def Settles (history : List AgentCollaborationSnapshot) (id : String) (row : Value) : Prop :=
  row.get "deleted" = .bool true ∨ stepIds row "owned_step_ids" = .ok ∅ ∨
    ∃ owned, stepIds row "owned_step_ids" = .ok owned ∧
      stepIds row "owned_terminal_step_ids" = .ok owned ∧
      ∀ step ∈ owned, step ≠ executionKey →
        ∃ digest, terminalHeader row step = some digest ∧ Delivered history id step digest

theorem observeDeleted_records (backed : Backed (history ++ [snapshot]) scan.progress.results)
    (ok : observeDeleted platform scan id sequence reference row = .ok scan') :
    Backed (history ++ [snapshot]) scan'.progress.results ∧
      scan'.progress.pendingChildExecutions = scan.progress.pendingChildExecutions.erase id := by
  simp only [observeDeleted, invalidContract, guard_eq_ok, bind_eq_ok] at ok
  obtain ⟨_, digest, _, invalidation, _, result⟩ := ok
  cases result
  refine ⟨backed.insert { pages := ?_, sources := ?_ }, rfl⟩
  · intro step coverage found
    simp at found
  · intro step found present notExecution
    rw [StringMap.get_insert, if_neg (Ne.symm notExecution)] at present
    simp at present

theorem observeSteps_records (hasRow : HasRow snapshot id row)
    (sameRow : rowScope platform id sequence row = .ok scope)
    (recorded : RowRead history snapshot id row children.consumed)
    (ok : observeSteps platform scope row children = .ok (children', finished)) :
    Recorded (history ++ [snapshot]) id children'.consumed ∧
      (finished = true → Settles (history ++ [snapshot]) id row) := by
  obtain ⟨ownedIds, terminalIds, headers⟩ := rowScope_ok sameRow
  unfold observeSteps at ok
  split at ok
  · rename_i nothing
    rw [bind_eq_ok] at ok
    obtain ⟨⟨consumed, settled⟩, read, result⟩ := ok
    cases Except.ok.inj result
    exact ⟨observeEmpty_records recorded.toRecorded read, fun _ => .inr (.inl (nothing ▸ ownedIds))⟩
  · obtain ⟨kept, complete⟩ := observeChildren_records hasRow headers recorded ok
    refine ⟨kept.toRecorded, ?_⟩
    intro isFinished
    obtain ⟨ended, consumed⟩ := complete isFinished
    refine .inr (.inr ⟨scope.owned, ownedIds, ended ▸ terminalIds, ?_⟩)
    intro step owned notExecution
    obtain ⟨digest, found⟩ := isSome_iff_exists.mp
      (Std.ExtTreeMap.isSome_getElem?_iff_mem.mpr (consumed step owned))
    exact ⟨digest, kept.confirmed step digest found, kept.sources step digest found notExecution⟩

theorem observeOwned_records (hasRow : HasRow snapshot id row)
    (backed : Backed (history ++ [snapshot]) scan.progress.results)
    (ok : observeOwned platform scan id sequence reference row = .ok scan') :
    Backed (history ++ [snapshot]) scan'.progress.results ∧
      (scan'.progress.pendingChildExecutions = scan.progress.pendingChildExecutions ∨
        scan'.progress.pendingChildExecutions = scan.progress.pendingChildExecutions.erase id ∧
          Settles (history ++ [snapshot]) id row) := by
  simp only [observeOwned, bind_eq_ok] at ok
  obtain ⟨scope, sameRow, ⟨children, finished⟩, read, result⟩ := ok
  cases result
  obtain ⟨_, _, headers⟩ := rowScope_ok sameRow
  obtain ⟨recorded, settles⟩ := observeSteps_records hasRow sameRow
    (refreshed_records headers (backed.entry id)) read
  refine ⟨backed.insert recorded, ?_⟩
  cases finished with
  | true => exact .inr ⟨rfl, settles rfl⟩
  | false => exact .inl rfl

/-- One row changes what is known of its own execution only, and takes it off the pending
set only for a reason. -/
theorem observeRow_records
    (listed : (snapshot.result.member "executions").bind Value.asArray = some rows)
    (member : row ∈ rows) (backed : Backed (history ++ [snapshot]) scan.progress.results)
    (ok : observeRow platform scan row = .ok scan') :
    Backed (history ++ [snapshot]) scan'.progress.results ∧
      ∀ id ∈ scan.progress.pendingChildExecutions, id ∉ scan'.progress.pendingChildExecutions →
        HasRow snapshot id row ∧ Settles (history ++ [snapshot]) id row := by
  simp only [observeRow, invalidContract, guard_eq_ok, bind_eq_ok, orInvalid_eq_ok] at ok
  obtain ⟨id, named, reference, _, _, ok⟩ := ok
  have hasRow : HasRow snapshot id row := ⟨rows, listed, member, named⟩
  -- Only the row's own execution can leave; the row has just made it pending.
  have own : ∀ {pending : StringSet} {other : String},
      other ∈ scan.progress.pendingChildExecutions →
      pending = (insert id scan.progress.pendingChildExecutions).erase id → other ∉ pending →
      other = id := by
    intro pending other before erased after
    subst erased
    by_contra different
    exact after (Finset.mem_erase.mpr ⟨different, Finset.mem_insert_of_mem before⟩)
  split at ok
  · cases ok
    exact ⟨backed, fun other before after => absurd before after⟩
  · rw [bind_eq_ok] at ok
    obtain ⟨sequence, _, ok⟩ := ok
    split at ok
    · rename_i deleted
      obtain ⟨kept, erased⟩ := observeDeleted_records (by exact backed) ok
      refine ⟨kept, ?_⟩
      intro other before after
      obtain rfl := own before erased after
      exact ⟨hasRow, .inl deleted⟩
    · obtain ⟨kept, pending⟩ := observeOwned_records hasRow (by exact backed) ok
      refine ⟨kept, ?_⟩
      intro other before after
      rcases pending with same | ⟨erased, settles⟩
      · rw [same] at after
        exact absurd (Finset.mem_insert_of_mem before) after
      · obtain rfl := own before erased after
        exact ⟨hasRow, settles⟩

end

/-! ### Whole readings -/

namespace AgentCollaborationProgress

variable {p next : AgentCollaborationProgress} {result : AgentToolResult}

theorem observeStatus_records (backed : Backed history p.results)
    (ok : p.observeStatus platform snapshot = .ok (next, changed)) :
    Backed (history ++ [snapshot]) next.results ∧
      ∀ id ∈ p.pendingChildExecutions, id ∉ next.pendingChildExecutions →
        ∃ row, HasRow snapshot id row ∧ Settles (history ++ [snapshot]) id row := by
  simp only [observeStatus, observeRows, invalidContract, guard_eq_ok, bind_eq_ok,
    orInvalid_eq_ok] at ok
  obtain ⟨ready, _, references, _, rows, listed, scan, read, _, _, _, result⟩ := ok
  cases Except.ok.inj result
  let inv (scan : StatusScan) := Backed (history ++ [snapshot]) scan.progress.results
  have keeps : ∀ before row after, row ∈ rows → inv before →
      observeRow platform before row = .ok after → inv after :=
    fun _ _ _ member sofar stepped => (observeRow_records listed member sofar stepped).1
  refine ⟨foldlM_invariant inv keeps (backed.later snapshot) read, ?_⟩
  intro id before after
  obtain ⟨row, member, first, second, sofar, held, stepped, lost⟩ :=
    foldlM_loses inv (fun scan => id ∈ scan.progress.pendingChildExecutions) keeps
      (backed.later snapshot) before read after
  exact ⟨row, (observeRow_records listed member sofar stepped).2 id held lost⟩

theorem accept_records (ok : p.accept platform result = .ok next) :
    next.results = p.results ∧ p.pendingChildExecutions ⊆ next.pendingChildExecutions := by
  simp only [accept, invalidContract, guard_eq_ok, bind_eq_ok, orInvalid_eq_ok] at ok
  obtain ⟨receipt, _, _, _, _, result⟩ := ok
  cases result
  split
  · exact ⟨rfl, subset_rfl⟩
  · exact ⟨rfl, Finset.subset_insert _ _⟩

theorem acceptMessage_records (backed : Backed history p.results)
    (ok : p.acceptMessage platform result = .ok next) :
    Backed history next.results ∧ p.pendingChildExecutions ⊆ next.pendingChildExecutions := by
  simp only [acceptMessage, invalidContract, guard_eq_ok, bind_eq_ok, orInvalid_eq_ok] at ok
  obtain ⟨receipt, _, _, _, _, result⟩ := ok
  cases result
  split
  · exact ⟨backed, subset_rfl⟩
  · refine ⟨?_, Finset.subset_insert _ _⟩
    cases found : p.results[receipt.executionId]? with
    | none => simpa only [found] using backed
    | some read =>
      exact backed.insert ((backed _ read found).sameIndexes rfl rfl)

theorem acceptWait_records (ok : p.acceptWait platform call result = .ok next) :
    next.results = p.results ∧ p.pendingChildExecutions ⊆ next.pendingChildExecutions := by
  simp only [acceptWait, replayContract, guard_eq_ok, bind_eq_ok, orReplay_eq_ok] at ok
  obtain ⟨_, _, _, _, _, wait, _, _, _, _, _, _, _, _, result⟩ := ok
  cases result
  exact ⟨rfl, Finset.subset_union_left⟩

theorem wake_records (backed : Backed history p.results) (ok : p.wake entry = .ok next) :
    Backed history next.results ∧ next.pendingChildExecutions = p.pendingChildExecutions := by
  simp only [wake, replayContract, guard_eq_ok] at ok
  obtain rfl := Except.ok.inj ok.2
  exact ⟨backed.insert ((backed.entry entry.1).sameIndexes rfl rfl), rfl⟩

theorem recordWake_records (backed : Backed history p.results)
    (ok : p.recordWake platform cursor = .ok next) :
    Backed history next.results ∧ next.pendingChildExecutions = p.pendingChildExecutions := by
  simp only [recordWake, bind_eq_ok] at ok
  obtain ⟨references, _, woken, done, _, _, result⟩ := ok
  cases result
  refine foldlM_invariant (fun q => Backed history q.results ∧
    q.pendingChildExecutions = p.pendingChildExecutions) ?_ ⟨backed, rfl⟩ done
  intro before entry after _ sofar woke
  obtain ⟨kept, same⟩ := wake_records sofar.1 woke
  exact ⟨kept, same.trans sofar.2⟩

end AgentCollaborationProgress

end Nomifun.Source.AgentRuntime
