import CommunitySearch.System

/-!
# Soundness of the journal

The journal asserts of a page that a version of it is committed. It is keyed by collection and URL,
the index by URL alone, so what a flush leaves true of it is decided by the last command on each
URL (`sound_markIndexedBatch_iff`): the page keeps a sound entry exactly if that command indexes
the page itself, or the page has no entry and gets none. Nothing but a flush can make a sound
journal unsound (`journalSound_of_guarded`).
-/

namespace CommunitySearch

/-- Every entry of the journal is borne out by a document. -/
def Sound (db : Database) (docs : List Document) : Prop :=
  ∀ c u h, db.Marked c u h → ∃ d ∈ docs, d.url = u ∧ d.collectionId = c ∧ d.contentHash = h

/-- **The journal is sound**: for every page marked as indexed, the document of a job for that page,
with that fingerprint, is committed. -/
def Sys.JournalSound (s : Sys) : Prop :=
  ∀ c u h, s.engine.db.Marked c u h → ∃ job : IndexJob, job.url = u ∧ job.collectionId = c ∧
    job.contentHash = h ∧ job.asDocument ∈ s.engine.index

/-- The job a document comes from. -/
def Document.job (d : Document) : IndexJob where
  collectionName := d.collection
  url := d.url
  title := d.title
  body := d.body
  indexedAt := d.indexedAt
  collectionId := d.collectionId
  contentHash := d.contentHash
  crawlTargetId := d.crawlTargetId

theorem Sys.journalSound_iff {s : Sys} : s.JournalSound ↔ Sound s.engine.db s.engine.index := by
  refine forall₃_congr fun c u h ↦ imp_congr_right fun _ ↦ ?_
  constructor
  · rintro ⟨job, hu, hc, hh, hmem⟩
    exact ⟨job.asDocument, hmem, hu, hc, hh⟩
  · rintro ⟨d, hmem, hu, hc, hh⟩
    exact ⟨d.job, hu, hc, hh, hmem⟩

/-! ### What a flush may do -/

/-- The command indexes the page of the row. -/
def IndexCmd.Indexes (p : CrawledPageRow) : IndexCmd → Prop
  | .upsert d => d.collectionId = p.collectionId ∧ d.url = p.url
  | .delete _ => False

/-- The command indexes the version `h` of the page of the row. -/
def IndexCmd.IndexesVersion (p : CrawledPageRow) (h : String) : IndexCmd → Prop
  | .upsert d => d.collectionId = p.collectionId ∧ d.contentHash = h
  | .delete _ => False

instance (p : CrawledPageRow) : (cmd : IndexCmd) → Decidable (cmd.Indexes p)
  | .upsert _ => instDecidableAnd
  | .delete _ => isFalse id

instance (p : CrawledPageRow) (h : String) : (cmd : IndexCmd) → Decidable (cmd.IndexesVersion p h)
  | .upsert _ => instDecidableAnd
  | .delete _ => isFalse id

/-- The last command on the URL of the row satisfies `P`, if there is one. -/
def LastOn (cmds : List IndexCmd) (p : CrawledPageRow) (P : IndexCmd → Prop) : Prop :=
  ∀ cmd ∈ TermCmd.lastOn Document.url p.url cmds, P cmd

instance (cmds : List IndexCmd) (p : CrawledPageRow) (P : IndexCmd → Prop) [DecidablePred P] :
    Decidable (LastOn cmds p P) :=
  inferInstanceAs (Decidable (∀ cmd ∈ TermCmd.lastOn Document.url p.url cmds, P cmd))

/-- A flush of `cmds` that is journaled keeps the journal sound. -/
def JournaledKeeps (db : Database) (cmds : List IndexCmd) : Prop :=
  ∀ p ∈ db.crawledPages.rows, LastOn cmds p (IndexCmd.Indexes p) ∨
    p.indexedContentHash = none ∧ ∀ cmd ∈ cmds, ¬ IndexCmd.Indexes p cmd

/-- A flush of `cmds` that is not journaled keeps the journal sound. -/
def UnjournaledKeeps (db : Database) (cmds : List IndexCmd) : Prop :=
  ∀ p ∈ db.crawledPages.rows, ∀ h ∈ p.indexedContentHash,
    LastOn cmds p (IndexCmd.IndexesVersion p h)

/-- A flush of `cmds` keeps the journal sound. -/
def FlushKeeps (db : Database) (cmds : List IndexCmd) : FlushOutcome → Prop
  | .done => JournaledKeeps db cmds
  | .journalFails => UnjournaledKeeps db cmds
  | .commitFails => True

instance (db : Database) (cmds : List IndexCmd) : Decidable (JournaledKeeps db cmds) :=
  inferInstanceAs (Decidable (∀ p ∈ db.crawledPages.rows, _ ∨ _))

instance (db : Database) (cmds : List IndexCmd) : Decidable (UnjournaledKeeps db cmds) :=
  inferInstanceAs (Decidable (∀ p ∈ db.crawledPages.rows, ∀ h ∈ p.indexedContentHash, _))

instance (db : Database) (cmds : List IndexCmd) : (o : FlushOutcome) →
    Decidable (FlushKeeps db cmds o)
  | .done => inferInstanceAs (Decidable (JournaledKeeps db cmds))
  | .journalFails => inferInstanceAs (Decidable (UnjournaledKeeps db cmds))
  | .commitFails => isTrue trivial

section Flush

variable {db : Database} {docs : List Document} {w : IndexWriter} {p : CrawledPageRow}

theorem marked_of_mem (hp : p ∈ db.crawledPages) {h : String} (hh : p.indexedContentHash = some h) :
    db.Marked p.collectionId p.url h :=
  ⟨p, hp, rfl, rfl, hh⟩

/-- After a journaled flush, a page is marked if the flush mentions it, and as before if not. -/
theorem marked_of_indexes (hp : p ∈ db.crawledPages)
    (h : ¬ (p.indexedContentHash = none ∧ ∀ cmd ∈ w.commands, ¬ IndexCmd.Indexes p cmd)) :
    ∃ v, (db.markIndexedBatch w.entries).Marked p.collectionId p.url v := by
  simp only [Database.marked_markIndexedBatch]
  rcases hlast : Database.lastEntry w.entries p.collectionId p.url with - | v
  · rcases hh : p.indexedContentHash with - | v
    · rw [IndexWriter.lastEntry_eq_none_iff] at hlast
      refine absurd ⟨hh, fun cmd hcmd hindexes ↦ ?_⟩ h
      cases cmd with
      | upsert d => exact hlast d hcmd hindexes
      | delete k => exact hindexes
    · exact ⟨v, marked_of_mem hp hh⟩
  · exact ⟨v, ⟨p, hp, rfl, rfl⟩, rfl⟩

/-- A document of the page that is there after a batch was put there by the last command on its
URL, unless there is none. -/
theorem lastOn_of_mem_publish {cmds : List IndexCmd} {d : Document}
    (hd : d ∈ TermCmd.publish Document.url docs cmds) (hu : d.url = p.url) :
    LastOn cmds p (· = .upsert d) := by
  intro cmd hcmd
  rw [TermCmd.mem_publish_iff, hu, Option.mem_def.1 hcmd] at hd
  cases cmd with
  | upsert d' =>
    obtain rfl : d = d' := hd
    rfl
  | delete k => exact hd.elim

/-- **What a journaled flush leaves of a sound journal.** -/
theorem sound_markIndexedBatch_iff (hsound : Sound db docs) :
    Sound (db.markIndexedBatch w.entries) (TermCmd.publish Document.url docs w.commands) ↔
      JournaledKeeps db w.commands := by
  constructor
  · intro h p hp
    by_cases hnone : p.indexedContentHash = none ∧ ∀ cmd ∈ w.commands, ¬ IndexCmd.Indexes p cmd
    · exact Or.inr hnone
    · obtain ⟨v, hv⟩ := marked_of_indexes hp hnone
      obtain ⟨d, hd, hu, hc, -⟩ := h _ _ _ hv
      refine Or.inl fun cmd hcmd ↦ ?_
      obtain rfl := lastOn_of_mem_publish hd hu cmd hcmd
      exact ⟨hc, hu⟩
  · intro h c u v hv
    rw [Database.marked_markIndexedBatch] at hv
    rcases hlast : Database.lastEntry w.entries c u with - | v'
    · -- the flush does not mention the page: its entry is as it was, and so is its document
      rw [hlast] at hv
      obtain ⟨p, hp, rfl, rfl, hh⟩ := hv
      obtain ⟨d, hd, hu, hc, hv⟩ := hsound _ _ _ (marked_of_mem hp hh)
      refine ⟨d, ?_, hu, hc, hv⟩
      rw [TermCmd.mem_publish_of_lastOn_none]
      · exact hd
      · rw [hu, Option.eq_none_iff_forall_ne_some]
        intro cmd hcmd
        rcases h p hp with hindexes | ⟨hnone, -⟩
        · cases cmd with
          | upsert d' =>
            exact IndexWriter.lastEntry_eq_none_iff.1 hlast d'
              (List.mem_of_findLast?_eq_some hcmd) (hindexes _ hcmd)
          | delete k => exact hindexes _ hcmd
        · exact nomatch hnone.symm.trans hh
    · -- the flush mentions the page: its last command on the URL is what the entry records
      rw [hlast] at hv
      obtain ⟨⟨p, hp, rfl, rfl⟩, rfl⟩ := hv
      have hmentioned : ¬ ∀ cmd ∈ w.commands, ¬ IndexCmd.Indexes p cmd := fun hnone ↦ by
        rw [IndexWriter.lastEntry_eq_none_iff.2 fun d hd hk ↦ hnone _ hd hk] at hlast
        cases hlast
      obtain hindexes | ⟨-, hnone⟩ := h p hp
      · rcases hcmd : TermCmd.lastOn Document.url p.url w.commands with - | (d | k)
        · refine absurd (fun cmd hmem hk ↦ ?_) hmentioned
          cases cmd with
          | upsert d => exact of_decide_eq_false (List.findLast?_eq_none_iff.1 hcmd _ hmem) hk.2
          | delete k => exact hk
        · obtain ⟨hc, hu⟩ := hindexes _ hcmd
          refine ⟨d, TermCmd.mem_publish_of_lastOn hcmd, hu, hc, ?_⟩
          have hentry := IndexWriter.lastEntry_of_lastOn hcmd
          rw [hc, hlast] at hentry
          exact (Option.some.inj hentry).symm
        · exact (hindexes _ hcmd).elim
      · exact absurd hnone hmentioned

/-- What a flush that is not journaled leaves of a sound journal. -/
theorem sound_publish_iff (hsound : Sound db docs) {cmds : List IndexCmd} :
    Sound db (TermCmd.publish Document.url docs cmds) ↔ UnjournaledKeeps db cmds := by
  constructor
  · intro h p hp v hv cmd hcmd
    obtain ⟨d, hd, hu, hc, hv⟩ := h _ _ _ (marked_of_mem hp hv)
    obtain rfl := lastOn_of_mem_publish hd hu cmd hcmd
    exact ⟨hc, hv⟩
  · rintro h _ _ v ⟨p, hp, rfl, rfl, hh⟩
    rcases hcmd : TermCmd.lastOn Document.url p.url cmds with - | (d | k)
    · obtain ⟨d, hd, hu, hc, hv⟩ := hsound _ _ _ (marked_of_mem hp hh)
      refine ⟨d, (TermCmd.mem_publish_of_lastOn_none ?_).2 hd, hu, hc, hv⟩
      rw [hu, hcmd]
    · obtain ⟨hc, hv⟩ := h p hp v hh _ hcmd
      exact ⟨d, TermCmd.mem_publish_of_lastOn hcmd, TermCmd.term_of_lastOn hcmd, hc, hv⟩
    · exact (h p hp v hh _ hcmd).elim

end Flush

/-! ### Runs -/

/-- The admissible steps: a flush keeps the journal sound. -/
def KeepsJournal (s : Sys) : SysLabel → Prop
  | .indexer event outcome =>
    ∀ w ∈ s.engine.flushing event, FlushKeeps s.engine.db w.commands outcome
  | _ => True

instance (s : Sys) : (l : SysLabel) → Decidable (KeepsJournal s l)
  | .indexer event outcome => inferInstanceAs
    (Decidable (∀ w ∈ s.engine.flushing event, FlushKeeps s.engine.db w.commands outcome))
  | .collections .. | .crawlTargets .. | .sendDeletes _ | .importEnvelope .. | .import_ ..
  | .endImport _ | .hangUp _ | .startRun .. | .crawl .. | .endRun .. | .upsertFails | .crash =>
    isTrue trivial

variable {X : Crates} {s s' : Sys}

/-- Only the indexer adds marks. -/
theorem marked_of_step {l : SysLabel} (h : (sysMachine X).step s l = some s')
    (hl : ∀ event outcome, l ≠ .indexer event outcome) {c : Uuid} {u v : String}
    (hv : s'.engine.db.Marked c u v) : s.engine.db.Marked c u v := by
  have hchange := Sys.dbChange_of_step h
  generalize s'.engine.db = db at hchange hv
  cases hchange with
  | same => exact hv
  | extended hext => exact hext.marked_iff.1 hv
  | renamed hupdate =>
    obtain ⟨cs, rfl⟩ := Database.updateItem_eq hupdate
    exact hv
  | deleted _ =>
    obtain ⟨p, hp, hrest⟩ := hv
    exact ⟨p, (Database.mem_crawledPages_cascadeCollection.1 hp).1, hrest⟩
  | removed _ =>
    obtain ⟨p, hp, hrest⟩ := hv
    exact ⟨p, (Database.mem_crawledPages_cascadeTarget.1 hp).1, hrest⟩
  | retuned hr =>
    obtain ⟨_, rfl⟩ := hr.eq
    exact hv
  | upserted hdb => exact (Database.marked_of_upsertPage hdb).1 hv
  | suggested hdb =>
    obtain ⟨_, _, rfl, -⟩ := hdb.eq
    exact hv
  | journaled => exact absurd rfl (hl _ _)

/-- A turn whose flush is admissible keeps the journal sound. -/
theorem sound_of_turn {e e' : Engine} {event : IndexerEvent} {outcome : FlushOutcome}
    (hsound : Sound e.db e.index)
    (hok : ∀ w ∈ e.flushing event, FlushKeeps e.db w.commands outcome)
    (h : e.indexerStep event outcome = some e') : Sound e'.db e'.index := by
  cases Engine.turn_of_indexerStep h with
  | kept _ _ _ h => exact h ▸ hsound
  | @committed w _ _ hflush _ _ houtcome hindex hdb _ _ hjournal =>
    rw [hindex, hdb]
    have hkeeps := hok w hflush
    cases outcome with
    | done => exact (sound_markIndexedBatch_iff hsound).2 hkeeps
    | commitFails => exact absurd rfl houtcome
    | journalFails =>
      -- nothing was to be journaled
      obtain hdone | hnone := hjournal
      · cases hdone
      · rw [hnone]
        exact (sound_publish_iff hsound).2 hkeeps
  | @unjournaled w _ _ hflush _ _ houtcome hindex hdb _ =>
    rw [hindex, hdb]
    have hkeeps := hok w hflush
    rw [houtcome] at hkeeps
    exact (sound_publish_iff hsound).2 hkeeps
  | lost _ hindex hdb _ =>
    rw [hindex, hdb]
    exact hsound

theorem sound_of_step {l : SysLabel} (hsound : Sound s.engine.db s.engine.index)
    (hok : KeepsJournal s l) (h : (sysMachine X).step s l = some s') :
    Sound s'.engine.db s'.engine.index := by
  by_cases hl : ∃ event outcome, l = .indexer event outcome
  · obtain ⟨event, outcome, rfl⟩ := hl
    cases Sys.change_of_step h with
    | extended hext => exact fun c u v hv ↦ hsound c u v (hext.marked_iff.1 hv)
    | retuned hr =>
      obtain ⟨_, rfl⟩ := hr.eq
      exact hsound
    | indexed hturn => exact sound_of_turn hsound hok hturn
  · replace hl : ∀ event outcome, l ≠ .indexer event outcome := fun event outcome he ↦
      hl ⟨event, outcome, he⟩
    intro c u v hv
    rw [(Sys.index_of_step h hl).1]
    exact hsound c u v (marked_of_step h hl hv)

/-- **Soundness of the journal.** In every run from a fresh installation in which each flush leaves
on the URL of every page either a command that indexes that page, or no journal entry of the page,
the journal is sound in the state reached. -/
theorem journalSound_of_guarded {labels : List SysLabel}
    (hok : (sysMachine X).Guarded KeepsJournal .init labels)
    (hrun : (sysMachine X).run .init labels = some s) : s.JournalSound := by
  refine Sys.journalSound_iff.2 (Machine.guarded_invariant
    (I := fun s ↦ Sound s.engine.db s.engine.index) (fun _ _ _ ↦ sound_of_step) ?_ hok hrun)
  rintro c u v ⟨p, hp, -⟩
  exact absurd hp (Table.not_mem_empty p)

/-! ### A page of one collection that another collection imports -/

namespace Mirror

/-- A collection that has a document under the URL of the page. -/
def envelope : ExportEnvelope where
  formatVersion := 1
  exportedAt := "t1"
  selfUrl := "https://mirror.example"
  collections := [{
    name := "mirror", description := "", createdAt := "", updatedAt := ""
    documents := [⟨"https://guide.example/", "Mirror", "Copy", 0⟩] }]

/-- The page is crawled, committed and journaled. -/
def crawled : List SysLabel :=
  OnePage.install ++ [OnePage.startRun OnePage.due 0] ++ OnePage.fetch 0 false OnePage.page ++
    OnePage.send 0 ++ OnePage.write 0 ++ OnePage.flush

/-- The import commits its document. -/
def imported : List SysLabel :=
  [.importEnvelope envelope "t2", .import_ 0 .ok, .import_ 0 .ok, .endImport 0] ++ OnePage.flush

end Mirror

/-- The document of another collection replaces the page, whose entry stays. -/
theorem not_journalSound : ¬ ∀ s, Sys.Reachable OnePage.crates s → s.JournalSound := by
  obtain ⟨s, hrun, hs⟩ : ∃ s, (sysMachine OnePage.crates).run .init
      (Mirror.crawled ++ Mirror.imported) = some s ∧
        decide ((∃ p ∈ s.engine.db.crawledPages.rows, p.collectionId = ⟨0⟩ ∧
            p.url = "https://guide.example/" ∧ p.indexedContentHash = some OnePage.hash) ∧
          ∀ d ∈ s.engine.index, d.collectionId ≠ ⟨0⟩) = true :=
    Machine.exists_run_of_any (by decide +kernel)
  obtain ⟨hmarked, hnone⟩ := of_decide_eq_true hs
  intro h
  obtain ⟨job, -, hc, -, hmem⟩ := h s ⟨_, hrun⟩ _ _ _ hmarked
  exact hnone _ hmem hc

/-- The crawl of the page alone. -/
theorem journalSound_of_guarded_crawled : ∃ s,
    (sysMachine OnePage.crates).run .init Mirror.crawled = some s ∧
      (∃ p ∈ s.engine.db.crawledPages.rows, p.indexedContentHash = some OnePage.hash) ∧
      s.JournalSound := by
  obtain ⟨s, hrun, hs⟩ : ∃ s, (sysMachine OnePage.crates).run .init Mirror.crawled = some s ∧
      decide (∃ p ∈ s.engine.db.crawledPages.rows,
        p.indexedContentHash = some OnePage.hash) = true :=
    Machine.exists_run_of_any (by decide +kernel)
  exact ⟨s, hrun, of_decide_eq_true hs, journalSound_of_guarded (by decide +kernel) hrun⟩

end CommunitySearch
