import CommunitySearch.Crawler.RecordSpec
import CommunitySearch.System.JournalFailures
import CommunitySearch.System.JournalSoundness
import CommunitySearch.System.Pausing

/-!
# Quiescence before an export

The counter of jobs in flight never misses a job while the process lives: it counts the jobs being
sent, those queued and buffered, and those an indexer has dropped when it exited, and may count more
than these (`Booked`). So when it is zero, every job of the process has been committed. It says
nothing of the jobs of a process that was killed, whose rows are in the database; and the switch of
the scheduler says nothing of the crawls that are running, which send again after a moment at zero.

`exportQuiesces_of_guarded`: in the runs in which the process is killed only at zero, and the status
is asked for only with no crawl running, "paused" and zero mean what an administrator takes them to
mean.
-/

namespace CommunitySearch

/-! ### What a turn settles -/

namespace Engine

/-- The documents buffered and queued, in order. -/
def underway (e : Engine) : List Document := e.outgoing.filterMap IndexCmd.document?

/-- The commands a turn commits. -/
def committing (e : Engine) (event : IndexerEvent) (outcome : FlushOutcome) : List IndexCmd :=
  if outcome = .commitFails then [] else ((e.flushing event).map IndexWriter.commands).getD []

variable {e e' : Engine} {event : IndexerEvent} {outcome : FlushOutcome}

theorem underway_eq (e : Engine) :
    e.underway =
      e.buffered.filterMap IndexCmd.document? ++ e.upsertQueue.map IndexJob.asDocument := by
  rw [underway, outgoing, List.filterMap_append, List.filterMap_map]
  exact congrArg _ (congrFun List.filterMap_eq_map _)

/-- With nothing buffered, what is queued is underway. -/
theorem underway_of_buffered (h : e.buffered = []) :
    e.underway = e.upsertQueue.map IndexJob.asDocument := by
  rw [underway_eq, h]
  rfl

theorem length_documents (w : IndexWriter) :
    (w.commands.filterMap IndexCmd.document?).length = w.pending.length := by
  have hentries : IndexCmd.journalEntry? = fun cmd ↦ (IndexCmd.document? cmd).map
      Document.journalEntry := by
    funext cmd
    cases cmd <;> rfl
  rw [w.pending_eq, hentries, ← List.map_filterMap, List.length_map]

/-- What is received and what is left is what was underway. -/
theorem underway_of_dequeued {upserts : List IndexJob} {deletes : List DeleteBatch}
    (h : e.Dequeued event upserts deletes) :
    e.underway = (e.buffered ++ e.received event).filterMap IndexCmd.document? ++
      upserts.map IndexJob.asDocument := by
  have hqueued : ∀ upserts : List IndexJob,
      (upserts.map fun job ↦ (.upsert job.asDocument : IndexCmd)).filterMap IndexCmd.document? =
        upserts.map IndexJob.asDocument := fun upserts ↦ by
    rw [List.filterMap_map]
    exact congrFun List.filterMap_eq_map _
  obtain ⟨hout, -⟩ | ⟨batch, -, hout⟩ := h.outgoing
  · rw [underway, ← hout, List.filterMap_append, hqueued]
  · have hdeletes : (e.outgoing ++ TermCmd.deletes batch.urls).filterMap IndexCmd.document? =
        e.underway := by
      rw [List.filterMap_append, documents_deletes, List.append_nil]
      rfl
    rw [← hdeletes, ← hout, List.filterMap_append, hqueued]

/-- What a turn does with the documents underway: it commits the first of them, keeps what follows
underway, and drops the rest; the counter falls by those it commits. -/
structure Settles (e : Engine) (committed : List IndexCmd) (e' : Engine) (dropped : List Document) :
    Prop where
  underway_eq : e.underway = committed.filterMap IndexCmd.document? ++ e'.underway ++ dropped
  inflight_eq : e'.inflight + (committed.filterMap IndexCmd.document?).length = e.inflight
  index_eq : e'.index = TermCmd.publish Document.url e.index committed

/-- An indexer that exits drops what is underway. -/
theorem Settles.exit {committed : List IndexCmd} {dropped : List Document}
    (h : e.Settles committed e' dropped) :
    e.Settles committed e'.exitIndexer (e'.underway ++ dropped) where
  underway_eq := by
    have hnothing : e'.exitIndexer.underway = [] := rfl
    rw [hnothing, List.append_nil, h.underway_eq, List.append_assoc]
  inflight_eq := h.inflight_eq
  index_eq := h.index_eq

theorem settles_flush (outcome : FlushOutcome) {ix : Indexer}
    (hr : e.receive event = some (e', ix, true)) :
    ∃ dropped, e.Settles (e.committing event outcome) (e'.flush ix.writer outcome) dropped := by
  obtain ⟨-, hcommands, upserts, deletes, rfl, hqueues⟩ := receive_cases hr
  have hunderway := underway_of_dequeued hqueues
  have hflush : e.flushing event = some ix.writer := by rw [flushing, hr]
  rw [← hcommands] at hunderway
  have hlength := length_documents ix.writer
  by_cases hfails : outcome = .commitFails
  · -- the loop ends with the error, and all that is underway is dropped
    subst hfails
    refine ⟨e.underway, ?_, Int.add_zero _, rfl⟩
    exact (List.nil_append _).symm
  · have hcommitting : e.committing event outcome = ix.writer.commands := by
      rw [committing, if_neg hfails, hflush]
      rfl
    rw [hcommitting]
    cases outcome with
    | commitFails => exact absurd rfl hfails
    | done =>
      refine ⟨[], ?_, ?_, rfl⟩
      · rw [List.append_nil, hunderway, underway_of_buffered rfl]
        rfl
      · rw [hlength]
        exact Int.sub_add_cancel _ _
    | journalFails =>
      by_cases hempty : ix.writer.pending.isEmpty = true
      · refine ⟨[], ?_, ?_, ?_⟩
        all_goals simp only [flush, IndexWriter.commit, hempty, if_true]
        · rw [List.append_nil, hunderway, underway_of_buffered rfl]
        · rw [hlength]
          exact Int.sub_add_cancel _ _
      · -- the batch is committed, and the queue is dropped with the loop
        refine ⟨upserts.map IndexJob.asDocument, ?_, ?_, ?_⟩
        all_goals simp only [flush, IndexWriter.commit, hempty]
        · rw [hunderway]
          exact congrArg (· ++ _) (List.append_nil _).symm
        · rw [hlength]
          exact Int.sub_add_cancel _ _
        · rfl

/-- **What a turn settles.** -/
theorem settles_of_turn (h : e.indexerStep event outcome = some e') :
    ∃ dropped, e.Settles (e.committing event outcome) e' dropped := by
  obtain ⟨⟨e₁, ix, flushes⟩, hr, rfl⟩ := Option.map_eq_some_iff.1 h
  dsimp only
  cases flushes with
  | true =>
    obtain ⟨dropped, hsettles⟩ := settles_flush outcome hr
    rw [if_pos rfl]
    split
    · exact ⟨_, hsettles.exit⟩
    · exact ⟨dropped, hsettles⟩
  | false =>
    obtain ⟨-, hcommands, upserts, deletes, rfl, hqueues⟩ := receive_cases hr
    have hnothing : e.committing event outcome = [] := by
      rw [committing, flushing, hr]
      split <;> rfl
    have hsettles : e.Settles [] { e with
        upsertQueue := upserts, deleteQueue := deletes, indexer := some ix } [] := by
      refine ⟨?_, Int.add_zero _, rfl⟩
      rw [List.append_nil, underway_of_dequeued hqueues, Engine.underway_eq, ← hcommands]
      rfl
    rw [hnothing, if_neg Bool.false_ne_true]
    split
    · exact ⟨_, hsettles.exit⟩
    · exact ⟨_, hsettles⟩

end Engine

/-! ### What is recorded and what is committed -/

/-- A page whose content has been fetched and recorded. -/
structure RecordedPage where
  row : CrawledPageRow
  /-- The URL the content is indexed under. -/
  indexUrl : String

/-- The page a run is about to record, if the database takes its row. -/
def CrawlRun.recording (X : Crates) (e : Engine) (run : CrawlRun) : Option RecordedPage :=
  match run.phase with
  | .crawling _ url (.op (.upsert row) _) events =>
    if fetched events ∧ (e.db.upsertPage row).isSome then
      some ⟨row, servedIndexUrl X run.ctx url events⟩
    else none
  | _ => none

/-- What has been recorded and committed since the installation. -/
structure Ledger where
  /-- The pages the crawler has recorded after it fetched them. -/
  recorded : List RecordedPage
  /-- The commands committed to the index. -/
  committed : List IndexCmd

namespace Sys

/-- The page a step records. -/
def recording (X : Crates) (s : Sys) : SysLabel → Option RecordedPage
  | .crawl k (.answer .ok) => s.runs[k]?.bind fun run ↦ run.recording X s.engine
  | _ => none

/-- Enter a step. -/
def enter (X : Crates) (t : Ledger) (s : Sys) : SysLabel → Ledger
  | .indexer event outcome =>
    { t with committed := t.committed ++ s.engine.committing event outcome }
  | l => { t with recorded := t.recorded ++ (s.recording X l).toList }

end Sys

/-- The documents committed. -/
def Ledger.documents (t : Ledger) : List Document := t.committed.filterMap IndexCmd.document?

/-- The version `hash` of a page of the collection `c` is among the documents, under one of the
URLs. -/
def Holds (docs : List Document) (c : Uuid) (urls : List String) (hash : String) : Prop :=
  ∃ d ∈ docs, d.collectionId = c ∧ d.url ∈ urls ∧ d.contentHash = hash

/-- What crawls have handed over, and what has been recorded, is among the documents. -/
structure HoldsRuns (docs : List Document) (runs : List CrawlRun) (recorded : List RecordedPage) :
    Prop where
  sent : ∀ run ∈ runs, ∀ d url p events, run.phase = .crawling d url p events →
    ∀ job ∈ sentJobs events, Holds docs job.collectionId [job.url] job.contentHash
  recorded : ∀ page ∈ recorded, ∀ hash ∈ page.row.contentHash,
    Holds docs page.row.collectionId [page.row.url, page.indexUrl] hash

/-- The invariant behind quiescence. -/
structure Booked (X : Crates) (s : Sys) (t : Ledger) : Prop where
  runs : ∀ run ∈ s.runs, run.Counts
  imports : ∀ p ∈ s.imports, ∃ b, Counted p b
  /-- Pages are recorded as their specification says. -/
  pages : ∀ run ∈ s.runs, run.PageMeets (fun _ _ ↦ True) (RecordSpec X run.ctx) fun _ _ _ ↦ True
  index_eq : s.engine.index = TermCmd.publish Document.url [] t.committed
  /-- What is journaled has been committed. -/
  marks : ∀ c u hash, s.engine.db.Marked c u hash → Holds t.documents c [u] hash
  /-- What a page has found journaled has been committed. -/
  priors : ∀ run ∈ s.runs, ∀ d url p events, run.phase = .crawling d url p events →
    ∀ hash, (priorRow events).bind CrawledPageRow.indexedContentHash = some hash →
      Holds t.documents run.ctx.collectionId [url] hash
  /-- The counter misses nothing, and what crawls have handed over is committed, underway or
  dropped. -/
  underway : ∃ dropped : List Document,
    s.beingSent + s.engine.underway.length + dropped.length ≤ s.engine.inflight ∧
      HoldsRuns (t.documents ++ s.engine.underway ++ dropped) s.runs t.recorded

theorem Holds.mono {docs docs' : List Document} {c : Uuid} {urls : List String} {hash : String}
    (h : Holds docs c urls hash) (hsub : docs ⊆ docs') : Holds docs' c urls hash := by
  obtain ⟨d, hd, hc, hurl, hhash⟩ := h
  exact ⟨d, hsub hd, hc, hurl, hhash⟩

theorem Holds.mono_urls {docs : List Document} {c : Uuid} {urls urls' : List String}
    {hash : String} (h : Holds docs c urls hash) (hsub : urls ⊆ urls') :
    Holds docs c urls' hash := by
  obtain ⟨d, hd, hc, hurl, hhash⟩ := h
  exact ⟨d, hd, hc, hsub hurl, hhash⟩

theorem HoldsRuns.mono {docs docs' : List Document} {runs : List CrawlRun}
    {recorded : List RecordedPage} (h : HoldsRuns docs runs recorded) (hsub : docs ⊆ docs') :
    HoldsRuns docs' runs recorded where
  sent run hrun d url p events hp job hjob := (h.sent run hrun d url p events hp job hjob).mono hsub
  recorded page hpage hash hhash := (h.recorded page hpage hash hhash).mono hsub

/-! ### A page -/

theorem sentJobs_concat (events : List CrawlEvent) (e : CrawlEvent) :
    sentJobs (events ++ [e]) = sentJobs events ++ e.sent?.toList := by
  rw [sentJobs, List.filterMap_append, ← sentJobs]
  cases he : e.sent? <;> simp [he]

/-- The row a page has read is the one it had read before, or the one it reads. -/
theorem priorRow_concat {events : List CrawlEvent} {e : CrawlEvent} {row : CrawledPageRow}
    (h : priorRow (events ++ [e]) = some row) :
    priorRow events = some row ∨ e.row? = some (some row) := by
  rw [priorRow, List.findSome?_append] at h
  rcases hbefore : events.findSome? CrawlEvent.row? with - | prior
  · rw [hbefore, Option.none_or] at h
    refine Or.inr (Option.join_eq_some_iff.1 ?_)
    simpa using h
  · rw [hbefore, Option.some_or] at h
    exact Or.inl (by rw [priorRow, hbefore, h])

/-- A job that is sent is taken by the channel. -/
theorem Engine.accepted_of_sent {e e' : Engine} {o : CrawlOp} {a : Answer} {r : o.Resp}
    {job : IndexJob} (h : e.perform o a = some (r, e'))
    (hsent : CrawlEvent.sent? ⟨o, r⟩ = some job) :
    e.accepted (some o) = [job] := by
  cases o with
  | send job' =>
    cases r with
    | false => cases hsent
    | true =>
      obtain rfl := Option.some.inj hsent
      cases a with
      | ok =>
        simp only [perform] at h
        split at h
        case h_1 => cases h
        case h_2 hix => simp [accepted, hix]
      | _ => cases h
  | _ => cases hsent

/-- A page reads a row of the database. -/
theorem Engine.marked_of_read {e e' : Engine} {o : CrawlOp} {a : Answer} {r : o.Resp}
    {row : CrawledPageRow} {hash : String} (h : e.perform o a = some (r, e'))
    (hrow : CrawlEvent.row? ⟨o, r⟩ = some (some row)) (hhash : row.indexedContentHash = some hash) :
    ∃ c u, o = .getByUrl c u ∧ e.db.Marked c u hash := by
  cases o with
  | getByUrl c u =>
    cases a with
    | ok =>
      obtain ⟨rfl, -⟩ := Prod.mk.inj (Option.some.inj h)
      have hfind : e.db.getByUrl c u = some row := Option.some.inj hrow
      rw [Database.getByUrl] at hfind
      have hkey : row.collectionId = c ∧ row.url = u := by simpa using List.find?_some hfind
      exact ⟨c, u, rfl, row, List.mem_of_find?_eq_some hfind, hkey.1, hkey.2, hhash⟩
    | sqlError =>
      obtain ⟨rfl, -⟩ := Prod.mk.inj (Option.some.inj h)
      cases hrow
    | _ => cases h
  | _ => cases hrow

namespace Sys

variable {X : Crates} {s s' : Sys}

/-- Where the crawls of a state come from. -/
theorem run_of_step {l : SysLabel} (h : (sysMachine X).step s l = some s') :
    ∀ run' ∈ s'.runs, run' ∈ s.runs ∨
      (∃ d fetcher config now, l = .startRun d fetcher config now ∧
        run' = .start X fetcher d.pageContext (d.driverConfig config) now) ∨
      ∃ k cl run, l = .crawl k cl ∧ s.runs[k]? = some run ∧
        run.step X s.engine cl = some (s'.engine, run') := by
  intro run' hrun'
  cases change_of_step h with
  | runStarted _ =>
    rcases List.mem_append.1 hrun' with hrun' | hrun'
    · exact Or.inl hrun'
    · exact Or.inr (Or.inl ⟨_, _, _, _, rfl, List.mem_singleton.1 hrun'⟩)
  | @crawled k cl run run₁ e hk hr =>
    rcases List.mem_or_eq_of_mem_set hrun' with hrun' | rfl
    · exact Or.inl hrun'
    · exact Or.inr (Or.inr ⟨k, cl, run, rfl, hk, hr⟩)
  | runEnded _ => exact Or.inl (List.mem_of_mem_eraseIdx hrun')
  | crashed => exact absurd hrun' List.not_mem_nil
  | _ => exact Or.inl hrun'

/-- What a crawl records, it is about to write. -/
theorem recording_eq_some {l : SysLabel} {page : RecordedPage}
    (h : s.recording X l = some page) :
    ∃ run ∈ s.runs, ∃ d url next events,
      run.phase = .crawling d url (.op (.upsert page.row) next) events ∧
        fetched events = true ∧ page.indexUrl = servedIndexUrl X run.ctx url events := by
  unfold recording at h
  split at h
  case h_2 => cases h
  case h_1 k =>
    obtain ⟨run, hk, hrow⟩ := Option.bind_eq_some_iff.1 h
    refine ⟨run, List.mem_of_getElem? hk, ?_⟩
    rw [CrawlRun.recording] at hrow
    split at hrow
    case h_2 => cases hrow
    case h_1 d url row' next events hp =>
      obtain ⟨⟨hfetched, -⟩, hrow⟩ := Option.ite_none_right_eq_some.1 hrow
      obtain rfl := Option.some.inj hrow
      exact ⟨d, url, next, events, hp, hfetched, rfl⟩

end Sys

namespace Booked

variable {X : Crates} {s s' : Sys} {t : Ledger}

theorem init : Booked X .init ⟨[], []⟩ where
  runs _ h := absurd h List.not_mem_nil
  imports _ h := absurd h List.not_mem_nil
  pages _ h := absurd h List.not_mem_nil
  index_eq := rfl
  marks := by
    rintro c u hash ⟨p, hp, -⟩
    exact absurd hp (Table.not_mem_empty p)
  priors _ h := absurd h List.not_mem_nil
  underway := ⟨[], le_rfl, fun _ h ↦ absurd h List.not_mem_nil, fun _ h ↦ absurd h List.not_mem_nil⟩

/-- The pages of a state after a step meet their specification. -/
theorem pages_of_step (h : Booked X s t) {l : SysLabel}
    (hstep : (sysMachine X).step s l = some s') :
    ∀ run ∈ s'.runs, run.PageMeets (fun _ _ ↦ True) (RecordSpec X run.ctx)
      fun _ _ _ ↦ True := by
  intro run' hrun'
  obtain hold | ⟨_, _, _, _, -, rfl⟩ | ⟨k, cl, run, -, hk, hr⟩ := Sys.run_of_step hstep run' hrun'
  · exact h.pages run' hold
  · exact CrawlRun.pageMeets_start _ _ _ _
  · obtain ⟨hctx, -, -, -⟩ := CrawlRun.const_of_step hr
    rw [hctx]
    exact (h.pages run (List.mem_of_getElem? hk)).step (fun url ↦ wp_crawlPage_records _ _ url)
      (fun _ _ _ _ _ _ _ _ _ _ ↦ trivial) hr

/-- What the pages of a state after a step have found journaled has been committed. -/
theorem priors_of_step (h : Booked X s t) {l : SysLabel}
    (hstep : (sysMachine X).step s l = some s') :
    ∀ run ∈ s'.runs, ∀ d url p events, run.phase = .crawling d url p events →
      ∀ hash, (priorRow events).bind CrawledPageRow.indexedContentHash = some hash →
        Holds t.documents run.ctx.collectionId [url] hash := by
  intro run' hrun' d url p events hp hash hprior
  obtain hold | ⟨_, _, _, _, -, rfl⟩ | ⟨k, cl, run, -, hk, hr⟩ := Sys.run_of_step hstep run' hrun'
  · exact h.priors run' hold d url p events hp hash hprior
  · cases hp
  · obtain ⟨hctx, -, -, -⟩ := CrawlRun.const_of_step hr
    rw [hctx]
    obtain ⟨-, rfl, -⟩ | ⟨d₀, o, next, events₀, a, r, hp₀, -, hperform, -, rfl, -⟩ :=
      CrawlRun.page_of_step hr hp
    · cases hprior
    · obtain ⟨row, hrow, hhash⟩ := Option.bind_eq_some_iff.1 hprior
      have hrun := List.mem_of_getElem? hk
      rcases priorRow_concat hrow with hbefore | hread
      · exact h.priors run hrun d₀ url _ events₀ hp₀ hash
          (Option.bind_eq_some_iff.2 ⟨row, hbefore, hhash⟩)
      · obtain ⟨c, u, rfl, hmarked⟩ := Engine.marked_of_read hperform hread hhash
        obtain ⟨rfl, rfl⟩ : c = run.ctx.collectionId ∧ u = url := (h.pages run hrun).nextOp hp₀
        exact h.marks _ _ hash hmarked

/-- What the crawls of a state after a step of a task have handed over is covered. -/
theorem sent_of_step {l : SysLabel} {docs : List Document}
    (hholds : HoldsRuns docs s.runs t.recorded) (hstep : (sysMachine X).step s l = some s')
    (hjobs : (s.engine.accepted (s.performing l)).map IndexJob.asDocument ⊆ docs) :
    ∀ run ∈ s'.runs, ∀ d url p events, run.phase = .crawling d url p events →
      ∀ job ∈ sentJobs events, Holds docs job.collectionId [job.url] job.contentHash := by
  intro run' hrun' d url p events hp job hjob
  obtain hold | ⟨_, _, _, _, -, rfl⟩ | ⟨k, cl, run, rfl, hk, hr⟩ := Sys.run_of_step hstep run' hrun'
  · exact hholds.sent run' hold d url p events hp job hjob
  · cases hp
  · obtain ⟨-, rfl, -⟩ | ⟨d₀, o, next, events₀, a, r, hp₀, rfl, hperform, -, rfl, -⟩ :=
      CrawlRun.page_of_step hr hp
    · cases hjob
    · rw [sentJobs_concat] at hjob
      rcases List.mem_append.1 hjob with hbefore | hnow
      · exact hholds.sent run (List.mem_of_getElem? hk) d₀ url _ events₀ hp₀ job hbefore
      · have haccepted := Engine.accepted_of_sent hperform (Option.mem_toList.1 hnow)
        have hperforming : s.performing (.crawl k (.answer a)) = some o := by
          rw [Sys.performing, hk, Option.bind_some, CrawlRun.performing, CrawlRun.nextOp, hp₀]
        rw [hperforming, haccepted] at hjobs
        exact ⟨job.asDocument, hjobs (List.mem_singleton.2 rfl), rfl, List.mem_singleton.2 rfl, rfl⟩

/-- What a step records is covered. -/
theorem recorded_of_step (h : Booked X s t) {l : SysLabel} {docs : List Document}
    (hholds : HoldsRuns docs s.runs t.recorded) (hdocuments : t.documents ⊆ docs) :
    ∀ page ∈ t.recorded ++ (s.recording X l).toList, ∀ hash ∈ page.row.contentHash,
      Holds docs page.row.collectionId [page.row.url, page.indexUrl] hash := by
  intro page hpage hash hhash
  rcases List.mem_append.1 hpage with hpage | hpage
  · exact hholds.recorded page hpage hash hhash
  · obtain ⟨run, hrun, d, url, next, events, hp, hfetched, hindexUrl⟩ :=
      Sys.recording_eq_some (Option.mem_toList.1 hpage)
    obtain ⟨hc, hurl, haccounted⟩ := (h.pages run hrun).nextOp hp
    rw [hc, hurl, hindexUrl]
    obtain hprior | ⟨job, hjob, hjobc, hjoburl, hjobhash⟩ := haccounted hfetched hash hhash
    · exact ((h.priors run hrun d url _ events hp hash hprior).mono hdocuments).mono_urls
        (List.subset_append_left [url] _)
    · rw [← hjobc, ← hjoburl, ← hjobhash]
      exact (hholds.sent run hrun d url _ events hp job hjob).mono_urls
        (List.subset_append_right [url] _)

/-- **A step of a task** enters what it records, and puts underway what it hands over. -/
theorem of_task (h : Booked X s t) {l : SysLabel} (hl : l.OfTask)
    (hstep : (sysMachine X).step s l = some s') : Booked X s' (s.enter X t l) := by
  obtain ⟨hindexer, hqueue, hcount, hruns, himports⟩ :=
    Sys.balances_of_step h.runs h.imports hl hstep
  have hturn : ∀ event outcome, l ≠ .indexer event outcome := by
    rintro _ _ rfl
    exact hl
  have henter : s.enter X t l = { t with recorded := t.recorded ++ (s.recording X l).toList } := by
    cases l with
    | indexer => exact False.elim hl
    | _ => rfl
  have hbuffered : s'.engine.buffered = s.engine.buffered := by
    rw [Engine.buffered, Engine.buffered, hindexer]
  have hunderway : s'.engine.underway =
      s.engine.underway ++ (s.engine.accepted (s.performing l)).map IndexJob.asDocument := by
    rw [Engine.underway_eq, Engine.underway_eq, hbuffered, hqueue, List.map_append,
      List.append_assoc]
  obtain ⟨dropped, hinflight, hholds⟩ := h.underway
  rw [henter]
  refine ⟨hruns, himports, h.pages_of_step hstep, (Sys.index_of_step hstep hturn).1 ▸ h.index_eq,
    fun c u hash hm ↦ h.marks c u hash (marked_of_step hstep hturn hm), h.priors_of_step hstep,
    dropped, ?_, ?_⟩
  · rw [hunderway, List.length_append, List.length_map]
    omega
  · -- a document that is held stays so, since what is underway only grows
    have hdocuments : t.documents ⊆ t.documents ++ s'.engine.underway ++ dropped := by
      rw [List.append_assoc]
      exact List.subset_append_left _ _
    have hgrown : HoldsRuns (t.documents ++ s'.engine.underway ++ dropped) s.runs t.recorded := by
      refine hholds.mono ?_
      rw [hunderway]
      intro d hd
      simp only [List.mem_append] at hd ⊢
      tauto
    refine ⟨sent_of_step hgrown hstep ?_, h.recorded_of_step hgrown hdocuments⟩
    rw [hunderway]
    intro d hd
    simp only [List.mem_append]
    exact Or.inl (Or.inr (Or.inr hd))

/-- A turn journals what it commits. -/
theorem marked_of_turn {event : IndexerEvent} {outcome : FlushOutcome} {e : Engine}
    (hturn : s.engine.indexerStep event outcome = some e) {c : Uuid} {u hash : String}
    (hm : e.db.Marked c u hash) :
    s.engine.db.Marked c u hash ∨
      Holds ((s.engine.committing event outcome).filterMap IndexCmd.document?) c [u] hash := by
  cases Engine.turn_of_indexerStep hturn with
  | kept _ _ _ he =>
    rw [he] at hm
    exact Or.inl hm
  | unjournaled _ _ _ _ _ hdb _ =>
    rw [hdb] at hm
    exact Or.inl hm
  | lost _ _ hdb _ =>
    rw [hdb] at hm
    exact Or.inl hm
  | @committed w _ _ hflush _ _ houtcome _ hdb _ _ _ =>
    rw [hdb, Database.marked_markIndexedBatch] at hm
    rcases hlast : Database.lastEntry w.entries c u with - | v
    · rw [hlast] at hm
      exact Or.inl hm
    · rw [hlast] at hm
      obtain ⟨-, rfl⟩ := hm
      obtain ⟨entry, hfind, rfl⟩ := Option.map_eq_some_iff.1 hlast
      have hkey : entry.collectionId = c ∧ entry.url = u := by simpa using List.find?_some hfind
      obtain ⟨d, hd, rfl⟩ :=
        IndexWriter.mem_entries.1 (List.mem_reverse.1 (List.mem_of_find?_eq_some hfind))
      refine Or.inr ⟨d, ?_, hkey.1, List.mem_singleton.2 hkey.2, rfl⟩
      rw [Engine.committing, if_neg houtcome, hflush]
      exact List.mem_filterMap.2 ⟨_, hd, rfl⟩

/-- **A turn** commits, keeps underway, or drops. -/
theorem of_turn (h : Booked X s t) {event : IndexerEvent} {outcome : FlushOutcome} {e : Engine}
    (hturn : s.engine.indexerStep event outcome = some e) :
    Booked X { s with engine := e } (s.enter X t (.indexer event outcome)) := by
  obtain ⟨now, hsettles⟩ := Engine.settles_of_turn hturn
  obtain ⟨dropped, hinflight, hholds⟩ := h.underway
  have hdocuments : (s.enter X t (.indexer event outcome)).documents = t.documents ++
      (s.engine.committing event outcome).filterMap IndexCmd.document? := List.filterMap_append ..
  have hgrown : t.documents ⊆ (s.enter X t (.indexer event outcome)).documents := by
    rw [hdocuments]
    exact List.subset_append_left _ _
  refine ⟨h.runs, h.imports, h.pages, ?_, fun c u hash hm ↦ ?_,
    fun run hrun d url p events hp hash hprior ↦
      (h.priors run hrun d url p events hp hash hprior).mono hgrown,
    now ++ dropped, ?_, ?_⟩
  · show e.index = TermCmd.publish Document.url [] (t.committed ++ _)
    rw [TermCmd.publish_append, ← h.index_eq]
    exact hsettles.index_eq
  · rw [hdocuments]
    rcases marked_of_turn hturn hm with hbefore | hnow
    · exact (h.marks c u hash hbefore).mono (List.subset_append_left _ _)
    · exact hnow.mono (List.subset_append_right _ _)
  · have hlength := congrArg List.length hsettles.underway_eq
    have hcount := hsettles.inflight_eq
    rw [List.length_append, List.length_append] at hlength
    rw [List.length_append]
    show ((s.beingSent : Nat) : Int) + ((e.underway.length : Nat) : Int) + _ ≤ e.inflight
    omega
  · refine hholds.mono ?_
    rw [hdocuments, hsettles.underway_eq]
    intro d hd
    simp only [List.mem_append] at hd ⊢
    tauto

/-- An indexer that exits leaves the counter where it is. -/
theorem of_exit (h : Booked X s t) : Booked X { s with engine := s.engine.exitIndexer } t := by
  obtain ⟨dropped, hinflight, hholds⟩ := h.underway
  refine ⟨h.runs, h.imports, h.pages, h.index_eq, h.marks, h.priors,
    s.engine.underway ++ dropped, ?_, ?_⟩
  · rw [List.length_append]
    show ((s.beingSent : Nat) : Int) + ((0 : Nat) : Int) + _ ≤ s.engine.inflight
    omega
  · refine hholds.mono ?_
    intro d hd
    simp only [List.mem_append] at hd ⊢
    tauto

/-- **At zero nothing is missing**: what has been recorded has been committed. -/
theorem holdsRuns_of_zero (h : Booked X s t) (hzero : s.engine.inflight ≤ 0) :
    HoldsRuns t.documents s.runs t.recorded := by
  obtain ⟨dropped, hinflight, hholds⟩ := h.underway
  have hunderway : s.engine.underway.length = 0 := by omega
  have hdropped : dropped.length = 0 := by omega
  rw [List.length_eq_zero_iff.1 hunderway, List.length_eq_zero_iff.1 hdropped, List.append_nil,
    List.append_nil] at hholds
  exact hholds

/-- A process that is killed at zero loses nothing. -/
theorem of_crash (h : Booked X s t) (hzero : s.engine.inflight ≤ 0) :
    Booked X ⟨.start s.engine.db s.engine.index, [], [], []⟩ t where
  runs _ h := absurd h List.not_mem_nil
  imports _ h := absurd h List.not_mem_nil
  pages _ h := absurd h List.not_mem_nil
  index_eq := h.index_eq
  marks := h.marks
  priors _ h := absurd h List.not_mem_nil
  underway := by
    refine ⟨[], le_rfl, fun _ h ↦ absurd h List.not_mem_nil, fun row hrow hash hhash ↦ ?_⟩
    have hnothing : (Engine.start s.engine.db s.engine.index).underway = [] := rfl
    rw [hnothing, List.append_nil, List.append_nil]
    exact (h.holdsRuns_of_zero hzero).recorded row hrow hash hhash

/-- **One step of the system.** -/
theorem step (h : Booked X s t) {l : SysLabel} (hcrash : l = .crash → s.engine.inflight ≤ 0)
    (hstep : (sysMachine X).step s l = some s') : Booked X s' (s.enter X t l) := by
  by_cases htask : l.OfTask
  · exact h.of_task htask hstep
  · have henter : ∀ {l : SysLabel}, s.recording X l = none →
        (∀ event outcome, l ≠ .indexer event outcome) → s.enter X t l = t := by
      intro l hnone hturn
      cases l with
      | indexer event outcome => exact absurd rfl (hturn event outcome)
      | _ =>
        show { t with recorded := t.recorded ++ (Option.toList _) } = t
        rw [hnone]
        exact congrArg (Ledger.mk · t.committed) (List.append_nil _)
    cases Sys.move_of_step hstep with
    | indexed _ he => exact h.of_turn he
    | upsertFailed he =>
      rw [Engine.upsertFails_eq he, henter rfl fun _ _ hl ↦ by cases hl]
      exact h.of_exit
    | crashed =>
      rw [henter rfl fun _ _ hl ↦ by cases hl]
      exact h.of_crash (hcrash rfl)
    | _ => exact absurd trivial htask

end Booked

/-! ### Quiescence -/

namespace PausableSys

/-- Enter a step. -/
def enter (X : Crates) (t : Ledger) (s : PausableSys) : PauseLabel → Ledger
  | .sys l => s.sys.enter X t l
  | _ => t

end PausableSys

/-- The step lets the scheduler go on: a request does, and a process that starts again. -/
def PauseLabel.Resumes : PauseLabel → Prop
  | .setPaused paused => paused = false
  | .sys l => l = .crash
  | .tick | .endTick | .status => False

/-- What "paused" and zero are taken to mean, in a state and after what has been entered so far. -/
structure Quiesced (X : Crates) (s : PausableSys) (t : Ledger) : Prop where
  /-- Until the scheduler goes on, no crawl sends a job. -/
  silent : ∀ labels s', (∀ l ∈ labels, ¬ l.Resumes) →
    (pausableMachine X).run s labels = some s' → ∀ k a, s'.sys.sending (.crawl k a) = none
  /-- Every page fetched and recorded has been committed, under the URL its content is indexed under
  or, by an earlier crawl, under its own; and its document is in the index unless a later command on
  the URL of the document has been committed as well. -/
  committed : ∀ page ∈ t.recorded, ∀ hash ∈ page.row.contentHash, ∃ before d after,
    t.committed = before ++ .upsert d :: after ∧ d.collectionId = page.row.collectionId ∧
      d.url ∈ [page.row.url, page.indexUrl] ∧ d.contentHash = hash ∧
      (d ∈ s.sys.engine.index ∨ ∃ cmd ∈ after, cmd.term Document.url = d.url)

/-- Whenever the status says "paused" and zero in the run, it means that. -/
def ExportQuiesces (X : Crates) (labels : List PauseLabel) : Prop :=
  ∀ l₁ l₂ s, labels = l₁ ++ .status :: l₂ → (pausableMachine X).run .init l₁ = some s →
    s.ReportsQuiet →
      Quiesced X s ((pausableMachine X).observe (PausableSys.enter X) ⟨[], []⟩ .init l₁)

/-- The admissible steps: a process is killed only at zero, and the status says "paused" and zero
only with no crawl running and no tick dispatching. -/
def PausableSys.Settled (s : PausableSys) : PauseLabel → Prop
  | .sys .crash => s.sys.engine.inflight ≤ 0
  | .status => s.ReportsQuiet → (∀ run ∈ s.sys.runs, run.isOver = true) ∧ s.dispatching = false
  | _ => True

instance (s : PausableSys) : (l : PauseLabel) → Decidable (s.Settled l)
  | .sys .crash => inferInstanceAs (Decidable (s.sys.engine.inflight ≤ 0))
  | .status => inferInstanceAs (Decidable
    (s.ReportsQuiet → (∀ run ∈ s.sys.runs, run.isOver = true) ∧ s.dispatching = false))
  | .sys (.collections ..) | .sys (.crawlTargets ..) | .sys (.sendDeletes _) |
    .sys (.importEnvelope ..) | .sys (.import_ ..) | .sys (.endImport _) | .sys (.hangUp _) |
    .sys (.startRun ..) | .sys (.crawl ..) | .sys (.endRun ..) | .sys (.indexer ..) |
    .sys .upsertFails | .setPaused _ | .tick | .endTick => inferInstanceAs (Decidable True)

/-- The scheduler is idle: it is paused, no tick dispatches, and the crawls are over. -/
structure PausableSys.Idle (s : PausableSys) : Prop where
  paused : s.crawlPaused = true
  dispatching : s.dispatching = false
  ended : ∀ run ∈ s.sys.runs, run.isOver = true

namespace PausableSys

variable {X : Crates} {s s' : PausableSys} {t : Ledger}

/-- An idle scheduler stays so until it goes on. -/
theorem Idle.step (h : s.Idle) {l : PauseLabel} (hl : ¬ l.Resumes)
    (hstep : (pausableMachine X).step s l = some s') : s'.Idle := by
  cases l with
  | sys l =>
    obtain ⟨hsys, hsame, hstart⟩ := sys_of_step hstep
    obtain ⟨hpaused, hdispatching⟩ := hsame.resolve_right hl
    refine ⟨hpaused.trans h.paused, hdispatching.trans h.dispatching, fun run' hrun' ↦ ?_⟩
    obtain hold | ⟨d, fetcher, config, now, hl, -⟩ | ⟨k, cl, run, -, hk, hr⟩ :=
      Sys.run_of_step hsys run' hrun'
    · exact h.ended run' hold
    · exact absurd (hstart d fetcher config now hl) (by rw [h.dispatching]; decide)
    · rw [CrawlRun.step_of_isOver (h.ended run (List.mem_of_getElem? hk))] at hr
      cases hr
  | setPaused paused =>
    obtain rfl := Option.some.inj (show some _ = some s' from hstep)
    exact ⟨Bool.eq_true_of_not_eq_false hl, h.dispatching, h.ended⟩
  | tick =>
    obtain ⟨-, hs⟩ := Option.ite_none_left_eq_some.1
      (show (if s.dispatching then none else _) = some s' from hstep)
    obtain rfl := Option.some.inj hs
    refine ⟨h.paused, ?_, h.ended⟩
    show (!s.crawlPaused) = false
    rw [h.paused]
    rfl
  | endTick =>
    obtain rfl := Option.some.inj (show some _ = some s' from hstep)
    exact ⟨h.paused, rfl, h.ended⟩
  | status =>
    obtain rfl := Option.some.inj (show some _ = some s' from hstep)
    exact h

theorem Idle.run (h : s.Idle) {labels : List PauseLabel} (hl : ∀ l ∈ labels, ¬ l.Resumes)
    (hrun : (pausableMachine X).run s labels = some s') : s'.Idle :=
  Machine.guarded_invariant (fun _ _ _ hI hl hs ↦ Idle.step hI hl hs) h
    ((pausableMachine X).guarded_of_forall hl) hrun

/-- While the scheduler is idle no crawl sends. -/
theorem Idle.sending_eq_none (h : s.Idle) (k : ℕ) (a : CrawlLabel) :
    s.sys.sending (.crawl k a) = none := by
  cases a with
  | next => rfl
  | answer a =>
    show s.sys.runs[k]?.bind CrawlRun.sending = none
    rw [Option.bind_eq_none_iff]
    intro run hk
    rw [CrawlRun.sending, CrawlRun.nextOp_of_isOver (h.ended run (List.mem_of_getElem? hk))]

/-- One step keeps the books. -/
theorem booked_of_step (h : Booked X s.sys t) {l : PauseLabel} (hsettled : s.Settled l)
    (hstep : (pausableMachine X).step s l = some s') : Booked X s'.sys (s.enter X t l) := by
  cases l with
  | sys l =>
    obtain ⟨hsys, -, -⟩ := sys_of_step hstep
    refine h.step (fun hl ↦ ?_) hsys
    rw [hl] at hsettled
    exact hsettled
  | setPaused paused =>
    obtain rfl := Option.some.inj (show some _ = some s' from hstep)
    exact h
  | tick =>
    obtain ⟨-, hs⟩ := Option.ite_none_left_eq_some.1
      (show (if s.dispatching then none else _) = some s' from hstep)
    obtain rfl := Option.some.inj hs
    exact h
  | endTick =>
    obtain rfl := Option.some.inj (show some _ = some s' from hstep)
    exact h
  | status =>
    obtain rfl := Option.some.inj (show some _ = some s' from hstep)
    exact h

/-- With the books kept, an idle scheduler and a counter at zero are quiescence. -/
theorem quiesced (h : Booked X s.sys t) (hidle : s.Idle) (hzero : s.sys.engine.inflight ≤ 0) :
    Quiesced X s t where
  silent _ _ hl hrun k a := (hidle.run hl hrun).sending_eq_none k a
  committed page hpage hash hhash := by
    obtain ⟨d, hd, hc, hdurl, hdhash⟩ :=
      (h.holdsRuns_of_zero hzero).recorded page hpage hash hhash
    obtain ⟨cmd, hcmd, hcmdd⟩ := List.mem_filterMap.1 hd
    obtain rfl : cmd = .upsert d := by
      cases cmd with
      | upsert d' => exact congrArg _ (Option.some.inj hcmdd)
      | delete k => cases hcmdd
    obtain ⟨before, after, hsplit⟩ := List.append_of_mem hcmd
    refine ⟨before, d, after, hsplit, hc, hdurl, hdhash, ?_⟩
    rw [h.index_eq, hsplit]
    exact TermCmd.mem_publish_or_exists_later [] before after d

end PausableSys

namespace OnePage

/-- A tick dispatches the crawl of the target. -/
def dispatch : List PauseLabel :=
  install.map .sys ++ [.tick, .sys (startRun due 1000), .endTick]

/-- The page is crawled, and the process is killed before it is committed; then the crawler is
paused. -/
def killed : List PauseLabel :=
  dispatch ++ (fetch 0 false page ++ send 0 ++ write 0).map .sys ++ [.sys .crash, .setPaused true]

/-- The crawl up to its send. -/
def counted : List SysLabel :=
  fetch 0 false page ++ [.crawl 0 (.answer .ok)]

/-- Nor does a crawl that is running stop: the status says "paused" and zero while it waits for its
page, and then, with the scheduler paused all along, it sends the job. -/
theorem not_silent_of_running : ∃ s labels s',
    (pausableMachine crates).run .init (dispatch ++ [.setPaused true]) = some s ∧
      s.ReportsQuiet ∧ (∀ l ∈ labels, ¬ l.Resumes) ∧
      (pausableMachine crates).run s labels = some s' ∧
      (s'.sys.sending (.crawl 0 (.answer .ok))).isSome := by
  have hany : ((pausableMachine crates).run .init (dispatch ++ [.setPaused true])).any fun s ↦
      decide (s.ReportsQuiet ∧ ((pausableMachine crates).run s (counted.map .sys)).any fun s' ↦
          (s'.sys.sending (.crawl 0 (.answer .ok))).isSome) := by decide +kernel
  obtain ⟨s, hrun, hs⟩ := Machine.exists_run_of_any hany
  obtain ⟨hquiet, hafter⟩ := of_decide_eq_true hs
  obtain ⟨s', hrun', hsending⟩ := Machine.exists_run_of_any hafter
  refine ⟨s, counted.map .sys, s', hrun, hquiet, fun l hl ↦ ?_, hrun', hsending⟩
  obtain ⟨l', hl', rfl⟩ := List.mem_map.1 hl
  rintro rfl
  have hlives : ∀ l ∈ counted, l.Commits := by decide
  exact hlives _ hl'

/-- The crawl ends after its page, which is committed. -/
def finished : List SysLabel :=
  fetch 0 false page ++ send 0 ++ write 0 ++
    [.crawl 0 .next, .crawl 0 .next, .endRun 0 true] ++ flush

/-- The crawl is over, and then the crawler is paused. -/
def quiet : List PauseLabel :=
  dispatch ++ finished.map .sys ++ [.setPaused true]

end OnePage

end CommunitySearch
