import Nomifun.Library.Runs
import Nomifun.Source.AgentRuntime.CollaborationCoverage

/-!
# Delegated results are read before they are let go

The parent's references to delegated work change by five operations. Over any run of them,
the byte counters never run ahead of the pages that were read, and an execution is taken
off the pending set only by a row of a snapshot that accounts for it.
-/
namespace Nomifun.Guarantees.DelegatedResults
open Library Library.Json Source.AgentContracts Source.AgentRuntime AgentCollaborationProgress
  Option

inductive CollaborationOp where
  | accept (result : AgentToolResult)
  | acceptMessage (result : AgentToolResult)
  | acceptWait (call : ChatToolCall) (result : AgentToolResult)
  | recordWake (cursor : String)
  | observeStatus (snapshot : AgentCollaborationSnapshot)

/-- The progress, with the snapshots read so far. -/
structure CollaborationRun where
  progress : AgentCollaborationProgress
  snapshots : List AgentCollaborationSnapshot

namespace CollaborationRun

variable {r next : CollaborationRun} {op : CollaborationOp} {platform : Platform}

def initial : CollaborationRun := ⟨.empty, []⟩

def step (platform : Platform) (r : CollaborationRun) : CollaborationOp → Option CollaborationRun
  | .accept result =>
    (r.progress.accept platform result).toOption.map fun p => { r with progress := p }
  | .acceptMessage result =>
    (r.progress.acceptMessage platform result).toOption.map fun p => { r with progress := p }
  | .acceptWait call result =>
    (r.progress.acceptWait platform call result).toOption.map fun p => { r with progress := p }
  | .recordWake cursor =>
    (r.progress.recordWake platform cursor).toOption.map fun p => { r with progress := p }
  | .observeStatus snapshot =>
    (r.progress.observeStatus platform snapshot).toOption.map fun read =>
      ⟨read.1, r.snapshots ++ [snapshot]⟩

/-- The progress claims nothing that was not read. -/
def Sound (r : CollaborationRun) : Prop := Backed r.snapshots r.progress.results

/-- What is pending stays so, unless a row of a snapshot settles it. -/
def Keeps (op : CollaborationOp) (r next : CollaborationRun) : Prop :=
  ∀ id ∈ r.progress.pendingChildExecutions, id ∉ next.progress.pendingChildExecutions →
    ∃ snapshot row, op = .observeStatus snapshot ∧ HasRow snapshot id row ∧
      Settles next.snapshots id row

theorem keeps_of_subset
    (grown : r.progress.pendingChildExecutions ⊆ next.progress.pendingChildExecutions) :
    Keeps op r next :=
  fun _ before after => absurd (grown before) after

theorem step_sound (sound : r.Sound) (stepped : r.step platform op = some next) :
    next.Sound ∧ Keeps op r next := by
  cases op with
  | accept result =>
    obtain ⟨p, ok, rfl⟩ := map_eq_some_iff.mp stepped
    obtain ⟨same, grown⟩ := accept_records (toOption_eq_some.mp ok)
    exact ⟨show Backed r.snapshots p.results from same ▸ sound, keeps_of_subset grown⟩
  | acceptMessage result =>
    obtain ⟨p, ok, rfl⟩ := map_eq_some_iff.mp stepped
    obtain ⟨backed, grown⟩ := acceptMessage_records sound (toOption_eq_some.mp ok)
    exact ⟨backed, keeps_of_subset grown⟩
  | acceptWait call result =>
    obtain ⟨p, ok, rfl⟩ := map_eq_some_iff.mp stepped
    obtain ⟨same, grown⟩ := acceptWait_records (toOption_eq_some.mp ok)
    exact ⟨show Backed r.snapshots p.results from same ▸ sound, keeps_of_subset grown⟩
  | recordWake cursor =>
    obtain ⟨p, ok, rfl⟩ := map_eq_some_iff.mp stepped
    obtain ⟨backed, same⟩ := recordWake_records sound (toOption_eq_some.mp ok)
    exact ⟨backed, keeps_of_subset same.superset⟩
  | observeStatus snapshot =>
    obtain ⟨⟨p, changed⟩, ok, rfl⟩ := map_eq_some_iff.mp stepped
    obtain ⟨backed, settled⟩ := observeStatus_records sound (toOption_eq_some.mp ok)
    refine ⟨backed, ?_⟩
    intro id before after
    obtain ⟨row, hasRow, settles⟩ := settled id before after
    exact ⟨snapshot, row, rfl, hasRow, settles⟩

end CollaborationRun

open CollaborationRun

/-- Any run from the empty progress, and any operation after it. Every byte below a
contiguous count was in the body of a page read for that step, of the same source, content
and length. An execution leaves the pending set only at a snapshot with a row that settles
it: the row reports its deletion, or it has no steps, or all its steps are terminal and
each of them (but for one named like the execution itself) was returned, under the terminal
digest of its header, without pages or with all of them read. -/
theorem delegated_results_are_read_first (platform : Platform) (ops : List CollaborationOp)
    (r : CollaborationRun) (ran : run (CollaborationRun.step platform) .initial ops = some r) :
    (∀ id consumed step coverage, r.progress.results[id]? = some consumed →
      consumed.resultPages[step]? = some coverage → ∀ position < coverage.contiguousBytes,
        ByteSeen r.snapshots id step coverage.identity position) ∧
    ∀ op next, r.step platform op = some next → Keeps op r next := by
  have start : CollaborationRun.initial.Sound := backed_empty []
  have sound : r.Sound :=
    run_invariant (fun _ _ _ before stepped => (step_sound before stepped).1) start ran
  refine ⟨?_, fun op next stepped => (step_sound sound stepped).2⟩
  intro id consumed step coverage found entry
  exact (sound id consumed found).pages step coverage entry

/-! ### Runs on one delegated execution

The environment of these runs hashes every text to one digest and parses two documents, the
delegation receipt and the cursor. -/

def document (v : Value) : String := String.ofList (compact (fun _ => []) v)

def zeroDigest : String := "0000000000000000000000000000000000000000000000000000000000000000"

def reference : AgentCollaborationObservation := ⟨zeroDigest, zeroDigest⟩

def references : StringMap AgentCollaborationObservation := (∅ : StringMap _).insert "e" reference

def cursor : Value := Cursor.codec.encode ⟨1, references⟩

def receipt : Value :=
  .object [("execution_id", .string "e"), ("status", .string "running"),
    ("message", .string "accepted")]

def host : Platform where
  sha256 _ := Vector.replicate 32 0
  floatText _ := []
  parseJson source :=
    if source = document receipt then some receipt
    else if source = document cursor then some cursor else none
  describe _ := ""

def delegation : AgentToolResult := .text "call" (document receipt) false

def deletedRow : Value :=
  .object [("deleted", .bool true), ("execution_id", .string "e"),
    ("execution_terminal_receipt", .object [("deleted", .bool true),
      ("event_type", .string "deleted"), ("execution_event_sequence", .nat 1),
      ("execution_id", .string "e"), ("status", .string "running")]),
    ("observation_cursor", reference.toValue), ("owned_step_ids", .array [.string "s"]),
    ("owned_terminal_step_ids", .array []), ("sequence", .nat 1), ("status", .string "running"),
    ("step_observations", .object [("s", .object [])])]

def pagedRow : Value :=
  .object [("children", .array [.object [("attempt_id", .string "a"), ("result", .string "ok"),
      ("result_page", .object [("next_offset", .null), ("offset", .nat 0),
        ("sha256", .string zeroDigest), ("source_digest", .string zeroDigest),
        ("total_bytes", .nat 2)]),
      ("step_id", .string "s"),
      ("terminal_receipt", .object [("execution_event_sequence", .nat 1),
        ("execution_id", .string "e"), ("status", .string "completed"),
        ("step_id", .string "s")])]]),
    ("execution_id", .string "e"), ("observation_cursor", reference.toValue),
    ("owned_step_ids", .array [.string "s"]), ("owned_terminal_step_ids", .array [.string "s"]),
    ("sequence", .nat 1),
    ("step_observations", .object [("s", .object [("page_source_digest", .string zeroDigest),
      ("terminal_digest", .string zeroDigest)])])]

/-- A snapshot of one row under the cursor. -/
def snapshotOf (row : Value) : AgentCollaborationSnapshot :=
  ⟨document cursor, .object [("executions", .array [row])]⟩

/-- A deletion takes the execution off the pending set whatever its steps are: here it owns
one step, which has not ended. -/
theorem deletion_drops_unfinished_step :
    ∃ (platform : Platform) (ops : List CollaborationOp) (snapshot : AgentCollaborationSnapshot)
      (row : Value) (r next : CollaborationRun),
      run (CollaborationRun.step platform) .initial ops = some r ∧
      r.step platform (.observeStatus snapshot) = some next ∧
      "e" ∈ r.progress.pendingChildExecutions ∧ "e" ∉ next.progress.pendingChildExecutions ∧
      HasRow snapshot "e" row ∧ stepIds row "owned_step_ids" = .ok {"s"} ∧
      stepIds row "owned_terminal_step_ids" = .ok ∅ := by
  have ran : ((run (CollaborationRun.step host) .initial [.accept delegation]).bind fun r =>
      (r.step host (.observeStatus (snapshotOf deletedRow))).map fun next =>
        (decide ("e" ∈ r.progress.pendingChildExecutions),
          decide ("e" ∈ next.progress.pendingChildExecutions))) = some (true, false) := by
    decide +kernel
  obtain ⟨r, accepted, read⟩ := bind_eq_some_iff.mp ran
  obtain ⟨next, stepped, members⟩ := map_eq_some_iff.mp read
  obtain ⟨pending, gone⟩ := Prod.mk.inj members
  refine ⟨host, [.accept delegation], snapshotOf deletedRow, deletedRow, r, next, accepted, stepped,
    of_decide_eq_true pending, of_decide_eq_false gone, ?_, rfl, rfl⟩
  exact ⟨[deletedRow], rfl, List.mem_singleton_self _, rfl⟩

theorem paged_result_is_read_first :
    ∃ (platform : Platform) (ops : List CollaborationOp) (r : CollaborationRun),
      run (CollaborationRun.step platform) .initial ops = some r ∧
      "e" ∉ r.progress.pendingChildExecutions ∧
      ByteSeen r.snapshots "e" "s" ⟨zeroDigest, zeroDigest, 2⟩ 1 := by
  have read : ((run (CollaborationRun.step host) .initial
      [.accept delegation, .observeStatus (snapshotOf pagedRow)]).map fun r =>
      (decide ("e" ∈ r.progress.pendingChildExecutions),
        r.progress.results["e"]?.bind (·.resultPages["s"]?))) =
      some (false, some ⟨zeroDigest, zeroDigest, 2, 2⟩) := by
    decide +kernel
  obtain ⟨r, ran, result⟩ := map_eq_some_iff.mp read
  obtain ⟨gone, page⟩ := Prod.mk.inj result
  obtain ⟨consumed, found, covered⟩ := bind_eq_some_iff.mp page
  refine ⟨host, _, r, ran, of_decide_eq_false gone, ?_⟩
  exact (delegated_results_are_read_first host _ _ ran).1 "e" consumed "s" _ found covered 1
    (by decide)

end Nomifun.Guarantees.DelegatedResults
