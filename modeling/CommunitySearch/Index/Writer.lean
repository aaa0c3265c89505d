import CommunitySearch.Foundation.TermStore
import CommunitySearch.Db.CrawledPages

/-!
# The index writer

The Tantivy index is a store with buffered delete-by-term, the term being the **URL alone**
(`Foundation.TermStore`). `IndexWriter` adds the journal: next to the commands buffered since the
last commit it keeps one entry for each upsert among them. That the two agree is a field of the
structure.
-/

namespace CommunitySearch

/-- A document handed to the writer. `collectionId` and `contentHash` go to the journal and are
not stored by Tantivy; the model keeps them on the document, to say which job it comes from. -/
structure Document where
  collection : String
  url : String
  title : String
  body : String
  indexedAt : Int
  collectionId : Uuid
  contentHash : String
  /-- Not in the source: the target whose crawl produced the document, `none` for an import. -/
  crawlTargetId : Option Uuid
deriving DecidableEq

/-- One page ready for indexing. -/
structure IndexJob where
  collectionName : String
  url : String
  title : String
  body : String
  indexedAt : Int
  collectionId : Uuid
  contentHash : String
  /-- Not in the source: the target whose crawl produced the job, `none` for an import. -/
  crawlTargetId : Option Uuid
deriving DecidableEq

def IndexJob.asDocument (job : IndexJob) : Document where
  collection := job.collectionName
  url := job.url
  title := job.title
  body := job.body
  indexedAt := job.indexedAt
  collectionId := job.collectionId
  contentHash := job.contentHash
  crawlTargetId := job.crawlTargetId

/-- One pending upsert tracked by the writer. -/
structure JournalEntry where
  collectionId : Uuid
  url : String
  contentHash : String
deriving DecidableEq

def Document.journalEntry (d : Document) : JournalEntry :=
  ⟨d.collectionId, d.url, d.contentHash⟩

def JournalEntry.entry (j : JournalEntry) : IndexedEntry :=
  ⟨j.collectionId, j.url, j.contentHash⟩

/-- A command buffered in Tantivy. -/
abbrev IndexCmd := TermCmd String Document

def IndexCmd.journalEntry? : IndexCmd → Option JournalEntry
  | .upsert d => some d.journalEntry
  | .delete _ => none

/-- The document a command adds. -/
def IndexCmd.document? : IndexCmd → Option Document
  | .upsert d => some d
  | .delete _ => none

/-- The single writer of the index. -/
structure IndexWriter where
  /-- The operations Tantivy has buffered since the last commit. -/
  commands : List IndexCmd
  /-- Pages upserted since the last successful commit. -/
  pending : List JournalEntry
  /-- The journal lists the upserts among the commands, in order. -/
  pending_eq : pending = commands.filterMap IndexCmd.journalEntry?

namespace IndexWriter

/-- `open`: nothing is buffered. -/
def fresh : IndexWriter := ⟨[], [], rfl⟩

/-- `upsert`: delete the term of the URL, add the document, record a journal entry. -/
def upsert (w : IndexWriter) (d : Document) : IndexWriter where
  commands := w.commands ++ [.upsert d]
  pending := w.pending ++ [d.journalEntry]
  pending_eq := by
    rw [w.pending_eq, List.filterMap_append]
    rfl

/-- `delete_url`: delete the term, whatever collection its documents belong to. -/
def deleteUrl (w : IndexWriter) (url : String) : IndexWriter where
  commands := w.commands ++ [.delete url]
  pending := w.pending
  pending_eq := by
    rw [w.pending_eq, List.filterMap_append]
    exact (List.append_nil _).symm

/-- `delete_url` for each URL of a batch. -/
def deleteUrls (w : IndexWriter) (urls : List String) : IndexWriter :=
  urls.foldl deleteUrl w

/-- A successful `commit` over the committed documents: what is committed after it, and the
journal it returns. -/
def commit (w : IndexWriter) (docs : List Document) : List Document × List JournalEntry :=
  (TermCmd.publish Document.url docs w.commands, w.pending)

@[simp] theorem commands_deleteUrls (w : IndexWriter) (urls : List String) :
    (w.deleteUrls urls).commands = w.commands ++ TermCmd.deletes urls := by
  induction urls generalizing w with
  | nil => exact (List.append_nil _).symm
  | cons u urls ih =>
    have hcons : w.deleteUrls (u :: urls) = (w.deleteUrl u).deleteUrls urls := rfl
    rw [hcons, ih]
    exact List.append_assoc ..

/-- The journal as the entries of a batch. -/
def entries (w : IndexWriter) : List IndexedEntry :=
  w.pending.map JournalEntry.entry

theorem mem_entries {w : IndexWriter} {e : IndexedEntry} :
    e ∈ w.entries ↔ ∃ d, TermCmd.upsert d ∈ w.commands ∧ d.journalEntry.entry = e := by
  rw [entries, w.pending_eq, List.mem_map]
  constructor
  · rintro ⟨j, hj, rfl⟩
    obtain ⟨cmd, hcmd, he⟩ := List.mem_filterMap.1 hj
    cases cmd with
    | upsert d => exact ⟨d, hcmd, congrArg _ (Option.some.inj he)⟩
    | delete k => cases he
  · rintro ⟨d, hd, rfl⟩
    exact ⟨d.journalEntry, List.mem_filterMap.2 ⟨_, hd, rfl⟩, rfl⟩

/-- A page has a journal entry exactly if a document of its collection was upserted under its
URL. -/
theorem lastEntry_eq_none_iff {w : IndexWriter} {c : Uuid} {u : String} :
    Database.lastEntry w.entries c u = none ↔
      ∀ d, TermCmd.upsert d ∈ w.commands → ¬ (d.collectionId = c ∧ d.url = u) := by
  rw [Database.lastEntry, Option.map_eq_none_iff, List.find?_eq_none]
  constructor
  · intro h d hd hkey
    have hmem : d.journalEntry.entry ∈ w.entries.reverse :=
      List.mem_reverse.2 (mem_entries.2 ⟨d, hd, rfl⟩)
    exact h _ hmem (decide_eq_true hkey)
  · intro h e he hkey
    obtain ⟨d, hd, rfl⟩ := mem_entries.1 (List.mem_reverse.1 he)
    exact h d hd (of_decide_eq_true hkey)

/-- **The journal and the commands.** When the last command on a URL is an upsert, the journal
ends, for that page of that collection, with the entry of this upsert. -/
theorem lastEntry_of_lastOn {w : IndexWriter} {u : String} {d : Document}
    (h : TermCmd.lastOn Document.url u w.commands = some (.upsert d)) :
    Database.lastEntry w.entries d.collectionId u = some d.contentHash := by
  rw [TermCmd.lastOn, List.findLast?] at h
  rw [Database.lastEntry, entries, w.pending_eq, ← List.map_reverse, ← List.filterMap_reverse]
  generalize w.commands.reverse = cmds at h ⊢
  induction cmds with
  | nil => cases h
  | cons cmd cmds ih =>
    rw [List.find?_cons] at h
    split at h
    case h_1 hcmd =>
      obtain rfl := Option.some.inj h
      have hu : d.url = u := of_decide_eq_true hcmd
      rw [List.filterMap_cons]
      simp [IndexCmd.journalEntry?, JournalEntry.entry, Document.journalEntry, hu]
    case h_2 hcmd =>
      rw [List.filterMap_cons]
      cases cmd with
      | delete k => exact ih h
      | upsert d' =>
        have hne : ¬ (d'.collectionId = d.collectionId ∧ d'.url = u) := fun hk ↦
          of_decide_eq_false hcmd hk.2
        have hskip : (decide ((d'.journalEntry.entry).collectionId = d.collectionId ∧
            (d'.journalEntry.entry).url = u)) = false := decide_eq_false hne
        simp only [IndexCmd.journalEntry?, List.map_cons, List.find?_cons, hskip]
        exact ih h

end IndexWriter

end CommunitySearch
