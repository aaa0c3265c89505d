import CommunitySearch.Engine

/-!
# The indexer task

One turn of the select loop of `indexer::run`: `receive` takes what the loop is offered and
buffers it in the writer, and when a flush is due, `flush` commits the index and applies the
journal. No crawl can run between the two, and what an admin request does in between it could as
well have done before the commit, so a turn is one step of the system. What the environment chooses
is whether the commit and the journal update succeed; a crash between the two is a turn whose
journal update fails, and then a crash.

The select is biased: a batch of deletions is taken only when no upsert is queued, and the timer
fires only when both queues are empty.
-/

namespace CommunitySearch

/-- What the select loop is offered. -/
inductive IndexerEvent where
  /-- `rx.recv()` returns a job. -/
  | upsert
  /-- `delete_rx.recv()` returns a batch. -/
  | delete
  /-- `MAX_AGE` has elapsed. -/
  | timer
  /-- All upsert senders are dropped. -/
  | closed
deriving DecidableEq

/-- How a flush ends. -/
inductive FlushOutcome where
  /-- The commit succeeds and the journal is applied. -/
  | done
  /-- The Tantivy commit fails. -/
  | commitFails
  /-- The commit succeeds and the SQLite transaction fails. -/
  | journalFails
deriving DecidableEq

namespace Engine

/-- Buffer what an event brings: the engine without the message, the indexer after buffering, and
whether it flushes. -/
def receive (e : Engine) : IndexerEvent → Option (Engine × Indexer × Bool)
  | .upsert =>
    match e.indexer, e.upsertQueue with
    | some ix, job :: queue =>
      let ix' := { ix with writer := ix.writer.upsert job.asDocument, pending := ix.pending + 1 }
      some ({ e with upsertQueue := queue }, ix', decide (ix'.pending ≥ BATCH_SIZE))
    | _, _ => none
  | .delete =>
    match e.indexer, e.upsertQueue, e.deleteQueue with
    | some ix, [], batch :: batches =>
      let ix' := { ix with writer := ix.writer.deleteUrls batch.urls }
      some ({ e with deleteQueue := batches }, ix', true)
    | _, _, _ => none
  | .timer =>
    match e.indexer, e.upsertQueue, e.deleteQueue with
    | some ix, [], [] => some (e, ix, decide (ix.pending > 0))
    | _, _, _ => none
  | .closed =>
    match e.indexer, e.upsertQueue with
    | some ix, [] => some (e, ix, true)
    | _, _ => none

/-- `flush` of the writer `w`: an error leaves the loop, and the task exits. -/
def flush (e : Engine) (w : IndexWriter) (outcome : FlushOutcome) : Engine :=
  match outcome with
  | .commitFails => e.exitIndexer
  | .done =>
    let (docs, journal) := w.commit e.index
    { e with
      index := docs
      inflight := e.inflight - journal.length
      db := e.db.markIndexedBatch (journal.map JournalEntry.entry)
      indexer := some .fresh }
  | .journalFails =>
    let (docs, journal) := w.commit e.index
    let e := { e with index := docs, inflight := e.inflight - journal.length }
    -- an empty journal is never written, so it cannot fail
    if journal.isEmpty then { e with indexer := some .fresh } else e.exitIndexer

/-- One turn of the select loop. -/
def indexerStep (e : Engine) (event : IndexerEvent) (outcome : FlushOutcome) : Option Engine :=
  (e.receive event).map fun (e', ix, flushes) ↦
    let e'' := if flushes then e'.flush ix.writer outcome else { e' with indexer := some ix }
    if event = .closed then e''.exitIndexer else e''

/-- The writer refuses a document: the job is lost and the task exits. -/
def upsertFails (e : Engine) : Option Engine :=
  match e.indexer, e.upsertQueue with
  | some _, _ :: _ => some e.exitIndexer
  | _, _ => none

variable {e e' : Engine}

theorem upsertFails_eq (h : e.upsertFails = some e') : e' = e.exitIndexer := by
  rw [upsertFails] at h
  split at h
  · exact (Option.some.inj h).symm
  · cases h

/-! ### What a turn can do -/

/-- The commands a received event adds to the buffer. -/
def received (e : Engine) : IndexerEvent → List IndexCmd
  | .upsert => (e.upsertQueue.take 1).map fun job ↦ .upsert job.asDocument
  | .delete => (e.deleteQueue.take 1).flatMap fun batch ↦ TermCmd.deletes batch.urls
  | .timer | .closed => []

/-- A turn takes the head of one queue, or of none; deletions only when no upsert is queued. -/
inductive Dequeued (e : Engine) : IndexerEvent → List IndexJob → List DeleteBatch → Prop
  | upsert {job : IndexJob} {queue : List IndexJob} (h : e.upsertQueue = job :: queue) :
      Dequeued e .upsert queue e.deleteQueue
  | delete {batch : DeleteBatch} {batches : List DeleteBatch} (h : e.upsertQueue = [])
      (h' : e.deleteQueue = batch :: batches) : Dequeued e .delete [] batches
  | none {event : IndexerEvent} (h : e.received event = []) :
      Dequeued e event e.upsertQueue e.deleteQueue

/-- **What receiving does**: it moves the head of one queue, as commands, to the buffer. -/
theorem receive_cases {event : IndexerEvent} {ix : Indexer} {flushes : Bool}
    (h : e.receive event = some (e', ix, flushes)) :
    e.indexer.isSome ∧ ix.writer.commands = e.buffered ++ e.received event ∧
      ∃ upserts deletes, e' = { e with upsertQueue := upserts, deleteQueue := deletes } ∧
        e.Dequeued event upserts deletes := by
  have hbuffered : ∀ {ix₀ : Indexer}, e.indexer = some ix₀ → e.buffered = ix₀.writer.commands :=
    fun hix ↦ by rw [buffered, hix]
  unfold receive at h
  cases event with
  | upsert =>
    simp only at h
    split at h
    case h_2 => cases h
    case h_1 ix₀ job queue hix hq =>
      obtain ⟨rfl, rfl, -⟩ : _ ∧ _ ∧ _ := by simpa using h
      refine ⟨by rw [hix]; rfl, ?_, queue, e.deleteQueue, rfl, .upsert hq⟩
      rw [hbuffered hix, received, hq]
      rfl
  | delete =>
    simp only at h
    split at h
    case h_2 => cases h
    case h_1 ix₀ batch batches hix hq hd =>
      obtain ⟨rfl, rfl, -⟩ : _ ∧ _ ∧ _ := by simpa using h
      refine ⟨by rw [hix]; rfl, ?_, [], batches, by rw [← hq], .delete hq hd⟩
      rw [hbuffered hix, received, hd]
      simp
  | timer =>
    simp only at h
    split at h
    case h_2 => cases h
    case h_1 ix₀ hix hq hd =>
      obtain ⟨rfl, rfl, -⟩ : _ ∧ _ ∧ _ := by simpa using h
      refine ⟨by rw [hix]; rfl, ?_, _, _, rfl, .none rfl⟩
      rw [hbuffered hix]
      exact (List.append_nil _).symm
  | closed =>
    simp only at h
    split at h
    case h_2 => cases h
    case h_1 ix₀ hix hq =>
      obtain ⟨rfl, rfl, -⟩ : _ ∧ _ ∧ _ := by simpa using h
      refine ⟨by rw [hix]; rfl, ?_, _, _, rfl, .none rfl⟩
      rw [hbuffered hix]
      exact (List.append_nil _).symm

/-- The writer a turn flushes, if it does. -/
def flushing (e : Engine) (event : IndexerEvent) : Option IndexWriter :=
  match e.receive event with
  | some (_, ix, true) => some ix.writer
  | _ => none

/-- What a turn does to the index, the database and what the indexer has received. -/
inductive Turn (e : Engine) (event : IndexerEvent) (outcome : FlushOutcome) (e' : Engine) : Prop
  /-- The buffer grows. -/
  | kept {upserts : List IndexJob} {deletes : List DeleteBatch} {ix : Indexer}
      (hflush : e.flushing event = none)
      (hcommands : ix.writer.commands = e.buffered ++ e.received event)
      (hqueues : e.Dequeued event upserts deletes)
      (h : e' = { e with upsertQueue := upserts, deleteQueue := deletes, indexer := some ix })
  /-- The buffer is committed and journaled. -/
  | committed {w : IndexWriter} {upserts : List IndexJob} {deletes : List DeleteBatch}
      (hflush : e.flushing event = some w)
      (hcommands : w.commands = e.buffered ++ e.received event)
      (hqueues : e.Dequeued event upserts deletes) (houtcome : outcome ≠ .commitFails)
      (hindex : e'.index = TermCmd.publish Document.url e.index w.commands)
      (hdb : e'.db = e.db.markIndexedBatch w.entries) (hbuffered : e'.buffered = [])
      (h : e'.indexer = none ∧ e'.upsertQueue = [] ∧ e'.deleteQueue = [] ∨
        e'.indexer.isSome ∧ e'.upsertQueue = upserts ∧ e'.deleteQueue = deletes)
      (hjournal : outcome = .done ∨ w.entries = [])
  /-- The buffer is committed, and the indexer exits before it is journaled. -/
  | unjournaled {w : IndexWriter} {upserts : List IndexJob} {deletes : List DeleteBatch}
      (hflush : e.flushing event = some w)
      (hcommands : w.commands = e.buffered ++ e.received event)
      (hqueues : e.Dequeued event upserts deletes) (houtcome : outcome = .journalFails)
      (hindex : e'.index = TermCmd.publish Document.url e.index w.commands)
      (hdb : e'.db = e.db) (h : e'.indexer = none ∧ e'.upsertQueue = [] ∧ e'.deleteQueue = [])
  /-- The buffer is lost, and the indexer exits. -/
  | lost (houtcome : outcome = .commitFails) (hindex : e'.index = e.index) (hdb : e'.db = e.db)
      (h : e'.indexer = none ∧ e'.upsertQueue = [] ∧ e'.deleteQueue = [])

/-- What a flush does before the loop is left. -/
theorem turn_flush {event : IndexerEvent} {outcome : FlushOutcome} {ix : Indexer}
    (hr : e.receive event = some (e', ix, true)) :
    e.Turn event outcome (e'.flush ix.writer outcome) := by
  obtain ⟨-, hcommands, upserts, deletes, rfl, hqueues⟩ := receive_cases hr
  have hflush : e.flushing event = some ix.writer := by rw [flushing, hr]
  cases outcome with
  | commitFails => exact .lost rfl rfl rfl ⟨rfl, rfl, rfl⟩
  | done =>
    exact .committed hflush hcommands hqueues (by rintro ⟨⟩) rfl rfl rfl
      (Or.inr ⟨rfl, rfl, rfl⟩) (Or.inl rfl)
  | journalFails =>
    by_cases hempty : ix.writer.pending.isEmpty = true
    · have hentries : ix.writer.entries = [] := by
        rw [IndexWriter.entries, List.isEmpty_iff.1 hempty]
        rfl
      have he : ({ e with upsertQueue := upserts, deleteQueue := deletes } : Engine).flush
          ix.writer .journalFails =
          { e with
            upsertQueue := upserts
            deleteQueue := deletes
            index := (ix.writer.commit e.index).1
            inflight := e.inflight - ix.writer.pending.length
            indexer := some .fresh } := by
        simp only [flush, IndexWriter.commit, hempty, if_true]
      rw [he]
      refine .committed hflush hcommands hqueues (by rintro ⟨⟩) rfl ?_ rfl (Or.inr ⟨rfl, rfl, rfl⟩)
        (Or.inr hentries)
      rw [hentries]
      rfl
    · have he : ({ e with upsertQueue := upserts, deleteQueue := deletes } : Engine).flush
          ix.writer .journalFails =
          ({ e with
            index := (ix.writer.commit e.index).1
            inflight := e.inflight - ix.writer.pending.length } : Engine).exitIndexer := by
        simp only [flush, IndexWriter.commit, hempty]
        rfl
      rw [he]
      exact .unjournaled hflush hcommands hqueues rfl rfl rfl ⟨rfl, rfl, rfl⟩

/-- Leaving the loop after the last flush. -/
theorem Turn.exit {event : IndexerEvent} {outcome : FlushOutcome}
    (h : e.Turn event outcome e') (hflush : e.flushing event ≠ none) :
    e.Turn event outcome e'.exitIndexer := by
  cases h with
  | kept hnone => exact absurd hnone hflush
  | committed hflush hcommands hqueues houtcome hindex hdb _ _ hjournal =>
    exact .committed hflush hcommands hqueues houtcome hindex hdb rfl (Or.inl ⟨rfl, rfl, rfl⟩)
      hjournal
  | unjournaled hflush hcommands hqueues houtcome hindex hdb _ =>
    exact .unjournaled hflush hcommands hqueues houtcome hindex hdb ⟨rfl, rfl, rfl⟩
  | lost houtcome hindex hdb _ => exact .lost houtcome hindex hdb ⟨rfl, rfl, rfl⟩

/-- **What a turn does.** -/
theorem turn_of_indexerStep {event : IndexerEvent} {outcome : FlushOutcome}
    (h : e.indexerStep event outcome = some e') : e.Turn event outcome e' := by
  obtain ⟨⟨e₁, ix, flushes⟩, hr, rfl⟩ := Option.map_eq_some_iff.1 h
  dsimp only
  cases flushes with
  | true =>
    have hturn : e.Turn event outcome (e₁.flush ix.writer outcome) := turn_flush hr
    rw [if_pos rfl]
    split
    · refine hturn.exit ?_
      rw [flushing, hr]
      exact Option.some_ne_none _
    · exact hturn
  | false =>
    obtain ⟨-, hcommands, upserts, deletes, rfl, hqueues⟩ := receive_cases hr
    have hclosed : event ≠ .closed := by
      rintro rfl
      simp only [receive] at hr
      split at hr
      · exact Bool.noConfusion (Prod.mk.inj (Prod.mk.inj (Option.some.inj hr)).2).2
      · cases hr
    rw [if_neg hclosed]
    refine .kept ?_ hcommands hqueues rfl
    rw [flushing, hr]

/-- **What a turn does to the database**: nothing, or it applies a journal. -/
theorem Turn.db {event : IndexerEvent} {outcome : FlushOutcome} (h : e.Turn event outcome e') :
    e'.db = e.db ∨ ∃ entries, e'.db = e.db.markIndexedBatch entries := by
  cases h with
  | kept _ _ _ he => exact Or.inl (by rw [he])
  | committed _ _ _ _ _ hdb => exact Or.inr ⟨_, hdb⟩
  | unjournaled _ _ _ _ _ hdb => exact Or.inl hdb
  | lost _ _ hdb => exact Or.inl hdb

/-! ### What is on its way -/

/-- Taking the head of a queue takes nothing out of what is on its way, but for a batch of
deletions, which comes after it. -/
theorem Dequeued.outgoing {event : IndexerEvent} {upserts : List IndexJob}
    {deletes : List DeleteBatch} (h : e.Dequeued event upserts deletes) :
    (e.buffered ++ e.received event ++ upserts.map (fun job ↦ .upsert job.asDocument) =
        e.outgoing ∧ deletes = e.deleteQueue) ∨
      ∃ batch, e.deleteQueue = batch :: deletes ∧
        e.buffered ++ e.received event ++ upserts.map (fun job ↦ .upsert job.asDocument) =
          e.outgoing ++ TermCmd.deletes batch.urls := by
  cases h with
  | upsert hq =>
    refine Or.inl ⟨?_, rfl⟩
    rw [Engine.outgoing, received, hq, List.append_assoc]
    rfl
  | @delete batch _ hq hd =>
    refine Or.inr ⟨batch, hd, ?_⟩
    rw [Engine.outgoing, received, hq, hd]
    simp
  | none hr =>
    refine Or.inl ⟨?_, rfl⟩
    rw [hr, List.append_nil]
    rfl

/-- **What a turn does to what the index will hold**, unless the indexer exits: nothing, or it
deletes the URLs of the batch it takes. -/
theorem Turn.eventual {event : IndexerEvent} {outcome : FlushOutcome} (h : e.Turn event outcome e')
    (halive : e'.indexer.isSome) :
    (e'.eventual = e.eventual ∧ e'.deleteQueue = e.deleteQueue) ∨
      ∃ batch, e.deleteQueue = batch :: e'.deleteQueue ∧
        e'.eventual = TermCmd.publish Document.url e.eventual (TermCmd.deletes batch.urls) := by
  have hdead : ¬ (e'.indexer = none ∧ e'.upsertQueue = [] ∧ e'.deleteQueue = []) := fun hexit ↦ by
    rw [hexit.1] at halive
    cases halive
  -- the commands of a flush and the upserts left over are what was on its way
  have hpublish : ∀ {upserts : List IndexJob}, e.Dequeued event upserts e'.deleteQueue →
      e'.eventual = TermCmd.publish Document.url e.index
        (e.buffered ++ e.received event ++ upserts.map fun job ↦ .upsert job.asDocument) →
      (e'.eventual = e.eventual ∧ e'.deleteQueue = e.deleteQueue) ∨
      ∃ batch, e.deleteQueue = batch :: e'.deleteQueue ∧
        e'.eventual = TermCmd.publish Document.url e.eventual (TermCmd.deletes batch.urls) := by
    intro upserts hqueues he
    rcases hqueues.outgoing with ⟨hout, hd⟩ | ⟨batch, hd, hout⟩
    · rw [hout] at he
      exact Or.inl ⟨he, hd⟩
    · rw [hout, TermCmd.publish_append] at he
      exact Or.inr ⟨batch, hd, he⟩
  cases h with
  | @kept upserts deletes ix _ hcommands hqueues he =>
    subst he
    refine hpublish hqueues ?_
    rw [← hcommands]
    rfl
  | @committed w upserts deletes _ hcommands hqueues _ hindex _ hbuffered hqueue _ =>
    obtain hexit | ⟨-, rfl, rfl⟩ := hqueue
    · exact absurd hexit hdead
    · refine hpublish hqueues ?_
      rw [Engine.eventual, Engine.outgoing, hbuffered, hindex, List.nil_append, hcommands,
        ← TermCmd.publish_append]
  | unjournaled _ _ _ _ _ _ hexit => exact absurd hexit hdead
  | lost _ _ _ hexit => exact absurd hexit hdead

/-- A turn adds no document. -/
theorem Turn.documents {event : IndexerEvent} {outcome : FlushOutcome}
    (h : e.Turn event outcome e') {d : Document} (hd : d ∈ e'.documents) : d ∈ e.documents := by
  -- what is received and what is left was on its way, but for deletions
  have hout : ∀ {upserts : List IndexJob} {deletes : List DeleteBatch},
      e.Dequeued event upserts deletes → TermCmd.upsert d ∈
        e.buffered ++ e.received event ++ upserts.map (fun job ↦ .upsert job.asDocument) →
      TermCmd.upsert d ∈ e.outgoing := by
    intro upserts deletes hqueues hmem
    rcases hqueues.outgoing with ⟨hout, -⟩ | ⟨batch, -, hout⟩
    · exact hout ▸ hmem
    · rw [hout, List.mem_append] at hmem
      refine hmem.resolve_right fun hdel ↦ ?_
      obtain ⟨_, -, he⟩ := List.mem_map.1 hdel
      cases he
  have hexited : e'.indexer = none ∧ e'.upsertQueue = [] ∧ e'.deleteQueue = [] →
      d ∈ e'.index := fun hexit ↦ by
    refine (mem_documents.1 hd).resolve_right ?_
    rw [Engine.outgoing, buffered, hexit.1, hexit.2.1]
    exact List.not_mem_nil
  have hcommitted : ∀ {w : IndexWriter} {upserts : List IndexJob} {deletes : List DeleteBatch},
      w.commands = e.buffered ++ e.received event → e.Dequeued event upserts deletes →
      e'.index = TermCmd.publish Document.url e.index w.commands → d ∈ e'.index →
      d ∈ e.index ∨ TermCmd.upsert d ∈ e.outgoing := by
    intro w upserts deletes hcommands hqueues hindex hmem
    rw [hindex, hcommands] at hmem
    exact (TermCmd.mem_docs_or_upsert_mem hmem).imp_right fun hup ↦
      hout hqueues (List.mem_append_left _ hup)
  rw [mem_documents]
  cases h with
  | @kept upserts deletes ix _ hcommands hqueues he =>
    subst he
    refine (mem_documents.1 hd).imp_right fun hmem ↦ hout hqueues ?_
    rw [← hcommands]
    exact hmem
  | @committed w upserts deletes _ hcommands hqueues _ hindex _ hbuffered hqueue _ =>
    rcases hqueue with hexit | ⟨-, rfl, -⟩
    · exact hcommitted hcommands hqueues hindex (hexited hexit)
    · rcases mem_documents.1 hd with hmem | hmem
      · exact hcommitted hcommands hqueues hindex hmem
      · rw [Engine.outgoing, hbuffered] at hmem
        exact Or.inr (hout hqueues (List.mem_append_right _ hmem))
  | unjournaled _ hcommands hqueues _ hindex _ hexit =>
    exact hcommitted hcommands hqueues hindex (hexited hexit)
  | lost _ hindex _ hexit => exact Or.inl (hindex ▸ hexited hexit)

end Engine

end CommunitySearch
