import CommunitySearch.Foundation.Transducer
import CommunitySearch.Index.Writer
import Mathlib.Data.List.DropRight

/-!
# The index writer is a map with a journal

What a writer and its index are for is said by a map from URLs to documents: an upsert sets a URL,
a deletion clears it, and a commit publishes the map and returns the upserts made since the last
one (`JournaledMap`). The writer instead appends delete-by-term and add commands to a log, which
Tantivy applies at a commit. A commit can fail: the index then is as it was, the operations stay
buffered, and the `?` leaves `commit` before the journal is taken.

The two answer every sequence of operations alike (`writer_simulates_map`). What the map holds after
a sequence is decided by the last operation on each URL (`lastDocument`), so that is what a
successful commit publishes (`commit_refines_map`).
-/

namespace CommunitySearch

/-- An operation on the writer. -/
inductive WriterOp where
  /-- `upsert`; one that Tantivy refuses has buffered the deletion only, as `deleteUrl` does. -/
  | upsert (d : Document)
  | deleteUrl (url : String)
  /-- `commit`, and whether Tantivy's commit fails. -/
  | commit (fails : Bool)
deriving DecidableEq

namespace WriterOp

/-- The URL an operation is about. -/
def url? : WriterOp → Option String
  | upsert d => some d.url
  | deleteUrl url => some url
  | commit _ => none

/-- The document an operation adds. -/
def document? : WriterOp → Option Document
  | upsert d => some d
  | deleteUrl _ | commit _ => none

def journalEntry? : WriterOp → Option JournalEntry
  | upsert d => some d.journalEntry
  | deleteUrl _ | commit _ => none

/-- The operation publishes what is buffered. -/
abbrev Publishes (op : WriterOp) : Prop := op = commit false

/-- The document last upserted under a URL, unless the last operation on the URL deletes it. -/
def lastDocument (ops : List WriterOp) (url : String) : Option Document :=
  (ops.findLast? fun op ↦ op.url? = some url).bind document?

/-- The operations since the last successful commit. -/
def sinceCommit (ops : List WriterOp) : List WriterOp :=
  ops.rtakeWhile fun op ↦ ¬ op.Publishes

/-- The journal of the upserts since the last successful commit, in order. -/
def journalOf (ops : List WriterOp) : List JournalEntry :=
  (sinceCommit ops).filterMap journalEntry?

end WriterOp

/-! ### The writer and its index -/

/-- The writer, and the committed documents of its index. -/
structure OpenIndex where
  writer : IndexWriter
  index : List Document

namespace OpenIndex

/-- A writer just opened on an empty index. -/
def opened : OpenIndex := ⟨.fresh, []⟩

/-- One operation, and the journal it returns if it is a commit that succeeds. -/
def step (s : OpenIndex) : WriterOp → OpenIndex × Option (List JournalEntry)
  | .upsert d => ({ s with writer := s.writer.upsert d }, none)
  | .deleteUrl url => ({ s with writer := s.writer.deleteUrl url }, none)
  | .commit true => (s, none)
  | .commit false =>
    let (docs, journal) := s.writer.commit s.index
    (⟨.fresh, docs⟩, some journal)

def machine : Transducer OpenIndex WriterOp (Option (List JournalEntry)) := ⟨step⟩

end OpenIndex

/-! ### The map -/

/-- A map from URLs to documents, the part of it that is published, and the upserts made since. -/
structure JournaledMap where
  current : String → Option Document
  published : String → Option Document
  journal : List JournalEntry

namespace JournaledMap

def empty : JournaledMap := ⟨fun _ ↦ none, fun _ ↦ none, []⟩

def step (m : JournaledMap) : WriterOp → JournaledMap × Option (List JournalEntry)
  | .upsert d =>
    ({ m with
        current := Function.update m.current d.url (some d)
        journal := m.journal ++ [d.journalEntry] }, none)
  | .deleteUrl url => ({ m with current := Function.update m.current url none }, none)
  | .commit true => (m, none)
  | .commit false => (⟨m.current, m.current, []⟩, some m.journal)

def machine : Transducer JournaledMap WriterOp (Option (List JournalEntry)) := ⟨step⟩

end JournaledMap

/-! ### The simulation -/

/-- The index holds the published map, the log takes it to the current one, and the journals
agree. -/
structure OpenIndex.Implements (s : OpenIndex) (m : JournaledMap) : Prop where
  published : TermCmd.Represents Document.url s.index m.published
  current : s.writer.commands.foldl (TermCmd.effect Document.url) m.published = m.current
  journal : s.writer.pending = m.journal

theorem OpenIndex.opened_implements : opened.Implements .empty :=
  ⟨TermCmd.represents_nil _, rfl, rfl⟩

theorem OpenIndex.Implements.step {s : OpenIndex} {m : JournaledMap} (h : s.Implements m)
    (op : WriterOp) : (s.step op).1.Implements (m.step op).1 := by
  match op with
  | .upsert d =>
    refine ⟨h.published, ?_, congrArg (· ++ [d.journalEntry]) h.journal⟩
    change (s.writer.commands ++ [TermCmd.upsert d]).foldl _ m.published = _
    rw [List.foldl_append, h.current]
    rfl
  | .deleteUrl url =>
    refine ⟨h.published, ?_, h.journal⟩
    change (s.writer.commands ++ [TermCmd.delete url]).foldl _ m.published = _
    rw [List.foldl_append, h.current]
    rfl
  | .commit true => exact h
  | .commit false =>
    refine ⟨?_, rfl, rfl⟩
    have hpublished := TermCmd.represents_publish h.published s.writer.commands
    rw [h.current] at hpublished
    exact hpublished

/-- **The writer simulates the map.** -/
theorem writer_simulates_map :
    OpenIndex.machine.Simulation JournaledMap.machine OpenIndex.Implements where
  next op h := h.step op
  answer op h := by
    match op with
    | .upsert d => rfl
    | .deleteUrl url => rfl
    | .commit true => rfl
    | .commit false => exact congrArg some h.journal

/-! ### What a sequence of operations amounts to -/

namespace WriterOp

theorem lastDocument_concat (ops : List WriterOp) (op : WriterOp) (url : String) :
    lastDocument (ops ++ [op]) url =
      if op.url? = some url then op.document? else lastDocument ops url := by
  rw [lastDocument, List.findLast?_concat]
  by_cases h : op.url? = some url
  · rw [if_pos h, if_pos (decide_eq_true h), Option.bind_some]
  · rw [if_neg h, if_neg (mt of_decide_eq_true h)]
    rfl

theorem lastDocument_commit (ops : List WriterOp) (fails : Bool) :
    lastDocument (ops ++ [commit fails]) = lastDocument ops :=
  funext fun _ ↦ lastDocument_concat ..

theorem lastDocument_upsert (ops : List WriterOp) (d : Document) :
    lastDocument (ops ++ [upsert d]) = Function.update (lastDocument ops) d.url (some d) := by
  funext url
  rw [lastDocument_concat, Function.update_apply]
  simp only [url?, document?, Option.some_inj, eq_comm]

theorem lastDocument_deleteUrl (ops : List WriterOp) (u : String) :
    lastDocument (ops ++ [deleteUrl u]) = Function.update (lastDocument ops) u none := by
  funext url
  rw [lastDocument_concat, Function.update_apply]
  simp only [url?, document?, Option.some_inj, eq_comm]

theorem journalOf_published (ops : List WriterOp) : journalOf (ops ++ [commit false]) = [] := by
  rw [journalOf, sinceCommit, List.rtakeWhile_concat_neg _ _ _ (by decide)]
  rfl

theorem journalOf_concat (ops : List WriterOp) {op : WriterOp} (h : ¬ op.Publishes) :
    journalOf (ops ++ [op]) = journalOf ops ++ op.journalEntry?.toList := by
  have hsince : sinceCommit (ops ++ [op]) = sinceCommit ops ++ [op] :=
    List.rtakeWhile_concat_pos _ _ _ (decide_eq_true h)
  rw [journalOf, hsince, List.filterMap_append, List.filterMap_cons]
  cases op.journalEntry? <;> rfl

end WriterOp

/-- The map after a sequence of operations: the last operation on each URL decides. -/
structure JournaledMap.After (m : JournaledMap) (ops : List WriterOp) : Prop where
  current : m.current = WriterOp.lastDocument ops
  journal : m.journal = WriterOp.journalOf ops

theorem JournaledMap.After.step {m : JournaledMap} {ops : List WriterOp} (h : m.After ops)
    (op : WriterOp) : (m.step op).1.After (ops ++ [op]) := by
  match op with
  | .upsert d =>
    refine ⟨?_, ?_⟩
    · rw [WriterOp.lastDocument_upsert, ← h.current]
      rfl
    · rw [WriterOp.journalOf_concat ops WriterOp.noConfusion, ← h.journal]
      rfl
  | .deleteUrl url =>
    refine ⟨?_, ?_⟩
    · rw [WriterOp.lastDocument_deleteUrl, ← h.current]
      rfl
    · rw [WriterOp.journalOf_concat ops WriterOp.noConfusion, ← h.journal]
      exact (List.append_nil _).symm
  | .commit true =>
    refine ⟨?_, ?_⟩
    · rw [WriterOp.lastDocument_commit, ← h.current]
      rfl
    · rw [WriterOp.journalOf_concat ops (by decide), ← h.journal]
      exact (List.append_nil _).symm
  | .commit false =>
    refine ⟨?_, ?_⟩
    · rw [WriterOp.lastDocument_commit, ← h.current]
      rfl
    · rw [WriterOp.journalOf_published]
      rfl

/-- The map after a run from the empty one. -/
theorem JournaledMap.after_final (ops : List WriterOp) :
    (machine.final .empty ops).After ops := by
  induction ops using List.reverseRecOn with
  | nil => exact ⟨rfl, rfl⟩
  | append_singleton ops op ih =>
    rw [Transducer.final_concat]
    exact ih.step op

/-- **The committed index and the journals.** Whatever the operations so far, a successful commit
leaves in the index, for each URL, the document last upserted under it and nothing for a URL
deleted last, and returns the journal of the upserts since the last successful commit, in order, a
deleted one among them too. Every other operation leaves the committed index as it is and returns
no journal. -/
theorem commit_refines_map (ops : List WriterOp) :
    let s := OpenIndex.machine.final .opened ops
    (TermCmd.Represents Document.url (s.step (.commit false)).1.index (WriterOp.lastDocument ops) ∧
      (s.step (.commit false)).2 = some (WriterOp.journalOf ops)) ∧
    (∀ op : WriterOp, ¬ op.Publishes → (s.step op).1.index = s.index ∧ (s.step op).2 = none) ∧
    OpenIndex.machine.answers .opened ops = JournaledMap.machine.answers .empty ops := by
  intro s
  obtain ⟨hs, hanswers⟩ := writer_simulates_map.run OpenIndex.opened_implements ops
  have hafter := JournaledMap.after_final ops
  have hcommit := hs.step (.commit false)
  refine ⟨⟨?_, ?_⟩, fun op hop ↦ ?_, hanswers⟩
  · rw [← hafter.current]
    exact hcommit.published
  · rw [← hafter.journal, ← hs.journal]
    rfl
  · match op with
    | .upsert d => exact ⟨rfl, rfl⟩
    | .deleteUrl url => exact ⟨rfl, rfl⟩
    | .commit true => exact ⟨rfl, rfl⟩
    | .commit false => exact absurd rfl hop

end CommunitySearch
