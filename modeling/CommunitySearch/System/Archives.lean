import CommunitySearch.System.CollectionFrame
import CommunitySearch.System.Instance
import CommunitySearch.System.RecrawlStability

/-!
# Moving an instance

What an instance exports in any state it comes to, an empty instance takes, and once the import
has returned and the indexer has drained it exports the same (`restores_of_run`). The document jobs
are counted, queued and committed one by one on the way, and the journal marks pages between the
commits, so what is compared leaves out the marks.

The subscriptions of collections that do not exist are the exception. A subscription names its
collection by a text that nothing checks: it may be made before the collection, and it stays behind
when the collection is renamed or deleted. It is exported, and an import skips it
(`not_restores_renamed`).
-/

namespace CommunitySearch

/-! ### What is compared -/

/-- What the engine may export: nothing orders the documents, nor the subscriptions of a collection
to one node. -/
def Engine.Exports (e : Engine) (env : ExportEnvelope) : Prop :=
  ∃ docs peers exportedAt selfUrl, docs.Perm e.index ∧ peers.Perm e.db.joinedPeers ∧
    env = e.db.buildEnvelope docs peers exportedAt selfUrl

/-- The target, but for what was last indexed of its pages. -/
def ExportedCrawlTarget.unmarked (t : ExportedCrawlTarget) : ExportedCrawlTarget :=
  { t with crawledPages := t.crawledPages.map ExportedCrawledPage.restored }

def ExportedCollection.unmarked (c : ExportedCollection) : ExportedCollection :=
  { c with crawlTargets := c.crawlTargets.map ExportedCrawlTarget.unmarked }

namespace ExportEnvelope

def unmarked (env : ExportEnvelope) : ExportEnvelope :=
  { env with collections := env.collections.map ExportedCollection.unmarked }

/-- The same up to `exported_at`, `self_url`, `indexed_content_hash`, and the order of what no query
orders: the documents of a collection, and the subscriptions of a collection to one node. -/
structure Matches (a b : ExportEnvelope) : Prop where
  agrees : a.unmarked.Agrees b.unmarked
  keys : a.collectionPeers.map ExportedCollectionPeer.key =
    b.collectionPeers.map ExportedCollectionPeer.key

/-- Without the subscriptions of collections that are not in the envelope. -/
def importable (env : ExportEnvelope) : ExportEnvelope :=
  { env with
    collectionPeers := env.collectionPeers.filter fun cp ↦
      cp.localCollection ∈ env.collections.map ExportedCollection.name }

end ExportEnvelope

/-! ### Timestamps -/

/-- Nothing in the collection has an empty timestamp. -/
structure ExportedCollection.Dated (c : ExportedCollection) : Prop where
  created : c.createdAt ≠ ""
  updated : c.updatedAt ≠ ""
  targets : ∀ t ∈ c.crawlTargets, t.createdAt ≠ ""

theorem stamp_eq {t : String} (ht : t ≠ "") (ts : String) :
    (if t.isEmpty then ts else t) = t :=
  if_neg fun hempty ↦ ht (String.isEmpty_iff.1 hempty)

/-- What is restored of a collection with its timestamps is all but the marks. -/
theorem ExportedCollection.Dated.restored_eq {c : ExportedCollection} (h : c.Dated) (ts : String) :
    c.restored ts = c.unmarked := by
  have htargets : c.crawlTargets.map (ExportedCrawlTarget.restored ts) =
      c.crawlTargets.map ExportedCrawlTarget.unmarked :=
    List.map_congr_left fun t ht ↦ by
      rw [ExportedCrawlTarget.restored, stamp_eq (h.targets t ht)]
      rfl
  rw [restored, unmarked, stamp_eq h.created, stamp_eq h.updated, htargets]

theorem ExportEnvelope.restored_eq {env : ExportEnvelope} (h : ∀ c ∈ env.collections, c.Dated)
    (ts : String) : env.restored ts = env.importable.unmarked := by
  have hcollections : env.collections.map (ExportedCollection.restored ts) =
      env.collections.map ExportedCollection.unmarked :=
    List.map_congr_left fun c hc ↦ (h c hc).restored_eq ts
  rw [restored, hcollections]
  rfl

theorem Engine.Exports.dated {e : Engine} (h : e.db.Dated) {env : ExportEnvelope}
    (henv : e.Exports env) : ∀ c ∈ env.collections, c.Dated := by
  obtain ⟨docs, peers, exportedAt, selfUrl, -, -, rfl⟩ := henv
  intro c hc
  obtain ⟨row, hrow, rfl⟩ := List.mem_map.1 hc
  obtain ⟨hcreated, hupdated⟩ := h.collections row (List.mem_orderBy.1 hrow)
  refine ⟨hcreated, hupdated, fun t ht ↦ ?_⟩
  obtain ⟨target, htarget, rfl⟩ := List.mem_map.1 ht
  exact h.targets target (List.mem_of_mem_filter (List.mem_orderBy.1 htarget))

/-! ### Subscriptions -/

theorem Engine.Exports.pairwise_key {e : Engine} {env : ExportEnvelope} (henv : e.Exports env) :
    env.collectionPeers.Pairwise fun a b ↦ a.key ≤ b.key := by
  obtain ⟨docs, peers, exportedAt, selfUrl, -, -, rfl⟩ := henv
  exact List.pairwise_orderBy ExportedCollectionPeer.key peers

/-- Subscriptions that are ordered by their keys differ in order where the keys are equal. -/
theorem map_key_eq {a b : List ExportedCollectionPeer} (hperm : a.Perm b)
    (ha : a.Pairwise fun cp cp' ↦ cp.key ≤ cp'.key)
    (hb : b.Pairwise fun cp cp' ↦ cp.key ≤ cp'.key) :
    a.map ExportedCollectionPeer.key = b.map ExportedCollectionPeer.key :=
  (hperm.map _).eq_of_pairwise (fun _ _ _ _ ↦ le_antisymm) (List.pairwise_map.2 ha)
    (List.pairwise_map.2 hb)

/-! ### Marks -/

def CrawledPageRow.unmarked (p : CrawledPageRow) : CrawledPageRow :=
  { p with indexedContentHash := none }

namespace Database

/-- Nothing differs but the marks of pages. -/
def SameButMarks (db db' : Database) : Prop :=
  ∃ pages, db' = { db with crawledPages := pages } ∧
    pages.rows.map CrawledPageRow.unmarked = db.crawledPages.rows.map CrawledPageRow.unmarked

variable {db db' : Database}

theorem sameButMarks_refl (db : Database) : db.SameButMarks db := ⟨db.crawledPages, rfl, rfl⟩

theorem SameButMarks.trans {db'' : Database} (h : db.SameButMarks db')
    (h' : db'.SameButMarks db'') : db.SameButMarks db'' := by
  obtain ⟨pages, rfl, hpages⟩ := h
  obtain ⟨pages', rfl, hpages'⟩ := h'
  exact ⟨pages', rfl, hpages'.trans hpages⟩

theorem sameButMarks_markIndexed (db : Database) (e : IndexedEntry) :
    db.SameButMarks (db.markIndexed e) := by
  refine ⟨_, rfl, ?_⟩
  show (db.crawledPages.rows.map _).map CrawledPageRow.unmarked = _
  rw [List.map_map]
  refine List.map_congr_left fun p _ ↦ ?_
  rw [Function.comp_apply]
  split <;> rfl

theorem sameButMarks_markIndexedBatch (db : Database) (entries : List IndexedEntry) :
    db.SameButMarks (db.markIndexedBatch entries) := by
  induction entries generalizing db with
  | nil => exact sameButMarks_refl db
  | cons e entries ih => exact (sameButMarks_markIndexed db e).trans (ih (db.markIndexed e))

/-- What is exported of the pages of a target is read off the pages without their marks. -/
theorem map_restored_exportCrawledPages (db : Database) (target : Uuid) :
    (db.exportCrawledPages target).map ExportedCrawledPage.restored =
      (((db.crawledPages.rows.map CrawledPageRow.unmarked).filter fun p ↦
        p.crawlTargetId = target).orderBy CrawledPageRow.id).map CrawledPageRow.exported := by
  have hpages : (db.crawledPages.rows.map CrawledPageRow.unmarked).filter
      (fun p ↦ p.crawlTargetId = target) = (db.pagesOf target).map CrawledPageRow.unmarked := by
    rw [List.filter_map]
    rfl
  have hid : ∀ p : CrawledPageRow, p.unmarked.id = p.id := fun _ ↦ rfl
  have horder := List.map_orderBy hid (db.pagesOf target)
  rw [hpages, ← horder, List.map_map, exportCrawledPages, List.map_map]
  rfl

theorem SameButMarks.unmarked_exportCollection (h : db.SameButMarks db') (c : CollectionRow) :
    (db'.exportCollection c).unmarked = (db.exportCollection c).unmarked := by
  obtain ⟨pages, rfl, hpages⟩ := h
  have htarget : ∀ t : CrawlTargetRow,
      (exportCrawlTarget { db with crawledPages := pages } t).unmarked =
        (db.exportCrawlTarget t).unmarked := fun t ↦ by
    rw [exportCrawlTarget, exportCrawlTarget, ExportedCrawlTarget.unmarked,
      ExportedCrawlTarget.unmarked]
    dsimp only
    rw [map_restored_exportCrawledPages, map_restored_exportCrawledPages, hpages]
  have htargets : (exportCrawlTargets { db with crawledPages := pages } c.id).map
      ExportedCrawlTarget.unmarked =
        (db.exportCrawlTargets c.id).map ExportedCrawlTarget.unmarked := by
    rw [exportCrawlTargets, exportCrawlTargets, List.map_map, List.map_map]
    exact List.map_congr_left fun t _ ↦ htarget t
  rw [ExportedCollection.unmarked, ExportedCollection.unmarked]
  dsimp only [exportCollection]
  rw [htargets]
  rfl

/-- **An export shows marks of pages as marks only.** -/
theorem SameButMarks.unmarked_buildEnvelope (h : db.SameButMarks db') (docs : List Document)
    (peers : List ExportedCollectionPeer) (exportedAt selfUrl : String) :
    (db'.buildEnvelope docs peers exportedAt selfUrl).unmarked =
      (db.buildEnvelope docs peers exportedAt selfUrl).unmarked := by
  have hcollection : ∀ c : CollectionRow,
      ({ db'.exportCollection c with documents := documentsUnder docs c.name } :
        ExportedCollection).unmarked =
      ({ db.exportCollection c with documents := documentsUnder docs c.name } :
        ExportedCollection).unmarked := fun c ↦
    congrArg (fun e : ExportedCollection ↦ { e with documents := documentsUnder docs c.name })
      (h.unmarked_exportCollection c)
  have hcollections : (db'.buildEnvelope docs peers exportedAt selfUrl).unmarked.collections =
      (db.buildEnvelope docs peers exportedAt selfUrl).unmarked.collections := by
    have hrows : db'.collections = db.collections := by
      obtain ⟨_, rfl, -⟩ := h
      rfl
    rw [ExportEnvelope.unmarked, ExportEnvelope.unmarked, buildEnvelope, buildEnvelope, hrows]
    show (List.map _ _).map _ = (List.map _ _).map _
    rw [List.map_map, List.map_map]
    exact List.map_congr_left fun c _ ↦ hcollection c
  obtain ⟨pages, rfl, -⟩ := h
  exact congrArg (fun cs ↦
    { db.buildEnvelope docs peers exportedAt selfUrl with collections := cs }) hcollections

end Database

theorem ExportedCollection.Agrees.unmarked {a b : ExportedCollection} (h : a.Agrees b) :
    a.unmarked.Agrees b.unmarked :=
  ⟨h.documents, congrArg ExportedCollection.unmarked h.rest⟩

theorem ExportEnvelope.Agrees.unmarked {a b : ExportEnvelope} (h : a.Agrees b) :
    a.unmarked.Agrees b.unmarked where
  formatVersion := h.formatVersion
  collections := by
    rw [ExportEnvelope.unmarked, ExportEnvelope.unmarked]
    dsimp only
    rw [List.forall₂_map_left_iff, List.forall₂_map_right_iff]
    exact h.collections.imp fun _ _ hab ↦ hab.unmarked
  nodePeers := h.nodePeers
  collectionPeers := h.collectionPeers

/-- Marks are left out once. -/
theorem ExportEnvelope.unmarked_unmarked (env : ExportEnvelope) :
    env.unmarked.unmarked = env.unmarked := by
  have hcollection : ∀ c : ExportedCollection, c.unmarked.unmarked = c.unmarked := fun c ↦ by
    have htarget : ∀ t : ExportedCrawlTarget, t.unmarked.unmarked = t.unmarked := fun t ↦ by
      simp only [ExportedCrawlTarget.unmarked, List.map_map]
      rfl
    simp only [ExportedCollection.unmarked, List.map_map, Function.comp_def, htarget]
  simp only [ExportEnvelope.unmarked, List.map_map, Function.comp_def, hcollection]

/-! ### Draining -/

/-- The step is one of an import that sends, or of the indexer, and does not fail. The channel of
the indexer is open as long as the process lives. -/
def SysLabel.drains : SysLabel → Bool
  | .import_ .. | .endImport _ => true
  | .indexer event outcome => event ≠ .closed ∧ outcome = .done
  | _ => false

namespace Sys

variable (X : Crates)

/-- An import goes on, or the indexer does. -/
def DrainStep (s s' : Sys) : Prop :=
  ∃ l : SysLabel, l.drains = true ∧ (sysMachine X).step s l = some s'

/-- Imports and the indexer go on for a while. -/
abbrev Drains : Sys → Sys → Prop := Relation.ReflTransGen (DrainStep X)

/-- Every import has returned, and the indexer has drained. -/
structure AtRest (s : Sys) : Prop where
  imports : s.imports = []
  engine : s.engine.Drained

end Sys

/-- **An empty instance takes the envelope**, and its imports and its indexer can always go on until
they have settled; whatever it exports then satisfies `P`. -/
def Restores (X : Crates) (ts : String) (env : ExportEnvelope) (P : ExportEnvelope → Prop) : Prop :=
  (∃ r, acceptImport X .empty ts (.ok env) = .ok r) ∧
    ∃ s₀, (sysMachine X).step .init (.importEnvelope env ts) = some s₀ ∧
      ∀ s, s₀.Drains X s → (∃ s', s.Drains X s' ∧ s'.AtRest) ∧
        (s.AtRest → ∀ env', s.engine.Exports env' → P env')

/-! #### The task of an import -/

theorem getElem?_singleton_eq_some {α : Type*} {a b : α} {k : Nat} :
    [a][k]? = some b ↔ k = 0 ∧ a = b := by
  rw [List.getElem?_singleton, Option.ite_none_right_eq_some, Option.some.injEq]

/-- What an import has left to do when it has counted `job`: `sendImport` from there. -/
def sendingImport (report : ImportReport) (job : IndexJob) (jobs : List IndexJob) :
    Crawl (Except ApiError ImportReport) :=
  .op (.send job) fun sent ↦
    if sent then sendImport report jobs
    else .op (.inflightAdd (-1)) fun _ ↦
      .ret (.error ⟨500, "indexer channel closed mid-import: channel closed"⟩)

theorem sendImport_cons (report : ImportReport) (job : IndexJob) (jobs : List IndexJob) :
    sendImport report (job :: jobs) =
      .op (.inflightAdd 1) fun _ ↦ sendingImport report job jobs := rfl

/-- The imports of an instance that imports once, by the jobs that have not been sent. -/
inductive ImportTask (report : ImportReport) :
    List IndexJob → List (Crawl (Except ApiError ImportReport)) → Prop
  | sends (rest : List IndexJob) : ImportTask report rest [sendImport report rest]
  | counted (job : IndexJob) (rest : List IndexJob) :
      ImportTask report (job :: rest) [sendingImport report job rest]
  | returned : ImportTask report [] []

section ImportTask

variable {report : ImportReport} {rest : List IndexJob}
  {imports : List (Crawl (Except ApiError ImportReport))}

/-- **An operation of the task** counts a job, or sends it to the indexer, which is alive. -/
theorem ImportTask.perform (h : ImportTask report rest imports) {k : Nat} {o : CrawlOp}
    {next : o.Resp → Crawl (Except ApiError ImportReport)} (hk : imports[k]? = some (.op o next))
    {e e' : Engine} {a : Answer} {r : o.Resp} {ix : Indexer} (hix : e.indexer = some ix)
    (hr : e.perform o a = some (r, e')) :
    (ImportTask report rest (imports.set k (next r)) ∧ ∃ n, e' = { e with inflight := n }) ∨
      ∃ job rest', rest = job :: rest' ∧ ImportTask report rest' (imports.set k (next r)) ∧
        e' = { e with upsertQueue := e.upsertQueue ++ [job] } := by
  cases h with
  | sends =>
    obtain ⟨rfl, he⟩ := getElem?_singleton_eq_some.1 hk
    cases rest with
    | nil => cases he
    | cons job rest =>
      rw [sendImport_cons] at he
      cases he
      cases a with
      | ok =>
        obtain ⟨-, rfl⟩ := Prod.mk.inj (Option.some.inj hr)
        exact Or.inl ⟨.counted job rest, _, rfl⟩
      | _ => cases hr
  | counted job rest =>
    obtain ⟨rfl, he⟩ := getElem?_singleton_eq_some.1 hk
    cases he
    cases a with
    | ok =>
      simp only [Engine.perform, hix] at hr
      obtain ⟨-, hr⟩ := Option.ite_none_right_eq_some.1 hr
      obtain ⟨rfl, rfl⟩ := Prod.mk.inj (Option.some.inj hr)
      exact Or.inr ⟨job, rest, rfl, .sends rest, by rw [hix]⟩
    | _ => cases hr
  | returned => cases hk

/-- The task returns when every job has been sent. -/
theorem ImportTask.returns (h : ImportTask report rest imports) {k : Nat}
    {r : Except ApiError ImportReport} (hk : imports[k]? = some (.ret r)) :
    rest = [] ∧ imports.eraseIdx k = [] := by
  cases h with
  | sends =>
    obtain ⟨rfl, he⟩ := getElem?_singleton_eq_some.1 hk
    cases rest with
    | nil => exact ⟨rfl, rfl⟩
    | cons job rest => cases he
  | counted job rest =>
    obtain ⟨rfl, he⟩ := getElem?_singleton_eq_some.1 hk
    cases he
  | returned => cases hk

end ImportTask

/-! #### The indexer -/

namespace Engine

variable {e e' : Engine}

/-- The indexer is alive, and has buffered nothing if it counts nothing: its timer flushes all. -/
def Indexing (e : Engine) : Prop :=
  ∃ ix, e.indexer = some ix ∧ (ix.pending = 0 → ix.writer.commands = [])

theorem Indexing.isSome (h : e.Indexing) : e.indexer.isSome = true := by
  obtain ⟨ix, hix, -⟩ := h
  rw [hix]
  rfl

/-- A turn that does not fail. -/
theorem Indexing.turn (h : e.Indexing) {event : IndexerEvent} (hevent : event ≠ .closed)
    (hs : e.indexerStep event .done = some e') : e'.Indexing := by
  obtain ⟨⟨e₁, ix, flushes⟩, hr, rfl⟩ := Option.map_eq_some_iff.1 hs
  dsimp only
  rw [if_neg hevent]
  cases flushes with
  | true => exact ⟨.fresh, rfl, fun _ ↦ rfl⟩
  | false =>
    refine ⟨ix, rfl, ?_⟩
    obtain ⟨ix₀, hix₀, hclean⟩ := h
    cases event with
    | upsert =>
      simp only [receive, hix₀] at hr
      split at hr
      case h_1 =>
        obtain ⟨-, hr⟩ := Prod.mk.inj (Option.some.inj hr)
        obtain ⟨rfl, -⟩ := Prod.mk.inj hr
        exact fun hpending ↦ absurd hpending (Nat.succ_ne_zero _)
      case h_2 => cases hr
    | delete =>
      simp only [receive] at hr
      split at hr
      · exact Bool.noConfusion (Prod.mk.inj (Prod.mk.inj (Option.some.inj hr)).2).2
      · cases hr
    | timer =>
      simp only [receive, hix₀] at hr
      split at hr
      case h_1 hix _ _ =>
        obtain ⟨-, hr⟩ := Prod.mk.inj (Option.some.inj hr)
        obtain ⟨rfl, -⟩ := Prod.mk.inj hr
        exact Option.some.inj hix ▸ hclean
      case h_2 => cases hr
    | closed => exact absurd rfl hevent

/-- The indexer takes the next job. -/
theorem Indexing.exists_upsert (h : e.Indexing) {job : IndexJob} {queue : List IndexJob}
    (hqueue : e.upsertQueue = job :: queue) :
    ∃ e', e.indexerStep .upsert .done = some e' ∧ e'.upsertQueue = queue := by
  obtain ⟨ix, hix, -⟩ := h
  simp only [indexerStep, receive, hix, hqueue, Option.map_some]
  refine ⟨_, rfl, ?_⟩
  rw [if_neg (by decide)]
  split <;> rfl

/-- **The timer commits what is buffered.** -/
theorem Indexing.exists_timer (h : e.Indexing) (hqueue : e.upsertQueue = [])
    (hdeletes : e.deleteQueue = []) :
    ∃ e', e.indexerStep .timer .done = some e' ∧ e'.Drained := by
  obtain ⟨ix, hix, hclean⟩ := h
  simp only [indexerStep, receive, hix, hqueue, hdeletes, Option.map_some]
  refine ⟨_, rfl, ?_⟩
  rw [if_neg (by decide)]
  split
  case isTrue => exact ⟨rfl, hqueue, rfl⟩
  case isFalse hpending =>
    refine ⟨rfl, rfl, hclean ?_⟩
    simpa using hpending

/-- What is committed once the indexer has drained is what was on its way. -/
theorem Drained.eventual (h : e.Drained) : e.eventual = e.index := by
  rw [Engine.eventual, outgoing, h.buffered, h.upsertQueue]
  rfl

/-- A job that is taken is on its way. -/
theorem eventual_enqueue (e : Engine) (job : IndexJob) :
    ({ e with upsertQueue := e.upsertQueue ++ [job] } : Engine).eventual =
      TermCmd.publish Document.url e.eventual [.upsert job.asDocument] := by
  rw [Engine.eventual, Engine.eventual, ← TermCmd.publish_append, outgoing, outgoing,
    List.append_assoc]
  dsimp only
  rw [List.map_append]
  rfl

end Engine

theorem committedJobs_concat (jobs : List IndexJob) (job : IndexJob) :
    committedJobs (jobs ++ [job]) =
      TermCmd.publish Document.url (committedJobs jobs) [.upsert job.asDocument] := by
  rw [committedJobs, committedJobs, ← TermCmd.publish_append, List.map_append]
  rfl

/-! #### The instance that imports -/

/-- The instance has imported `jobs`, with the tables `db`, and sends them to its indexer. -/
structure Importing (db : Database) (report : ImportReport) (jobs : List IndexJob) (s : Sys) :
    Prop where
  marks : db.SameButMarks s.engine.db
  deletes : s.engine.deleteQueue = []
  indexing : s.engine.Indexing
  sends : ∃ sent rest, jobs = sent ++ rest ∧ s.engine.eventual = committedJobs sent ∧
    ImportTask report rest s.imports

namespace Importing

variable {X : Crates} {db : Database} {report : ImportReport} {jobs : List IndexJob} {s s' : Sys}

theorem start (db : Database) (report : ImportReport) (jobs : List IndexJob) :
    Importing db report jobs
      { Sys.init.withDb db with imports := [] ++ [sendImport report jobs] } where
  marks := Database.sameButMarks_refl db
  deletes := rfl
  indexing := ⟨.fresh, rfl, fun _ ↦ rfl⟩
  sends := ⟨[], jobs, rfl, rfl, .sends jobs⟩

/-- An empty instance that takes an envelope begins to send. -/
theorem step_init {ts : String} {env : ExportEnvelope}
    (h : acceptImport X .empty ts (.ok env) = .ok (db, report, jobs)) :
    (sysMachine X).step .init (.importEnvelope env ts) =
      some { Sys.init.withDb db with imports := [] ++ [sendImport report jobs] } := by
  have hinit : acceptImport X Sys.init.engine.db ts (.ok env) = _ := h
  show Sys.init.step X (.importEnvelope env ts) = _
  rw [Sys.step, hinit]
  rfl

/-- **One step.** -/
theorem step (h : Importing db report jobs s) (hs : s.DrainStep X s') :
    Importing db report jobs s' := by
  obtain ⟨l, hl, hs⟩ := hs
  obtain ⟨sent, rest, hjobs, heventual, htask⟩ := h.sends
  cases Sys.move_of_step hs with
  | importStepped hk hr =>
    obtain ⟨ix, hix, hclean⟩ := h.indexing
    obtain ⟨htask', n, rfl⟩ | ⟨job, rest', rfl, htask', rfl⟩ := htask.perform hk hix hr
    · exact ⟨h.marks, h.deletes, h.indexing, sent, rest, hjobs, heventual, htask'⟩
    · refine ⟨h.marks, h.deletes, ⟨ix, hix, hclean⟩, sent ++ [job], rest', ?_, ?_, htask'⟩
      · rw [hjobs, List.append_assoc]
        rfl
      · rw [committedJobs_concat, ← heventual]
        exact s.engine.eventual_enqueue job
  | importEnded hk =>
    obtain ⟨rfl, himports⟩ := htask.returns hk
    refine ⟨h.marks, h.deletes, h.indexing, sent, [], hjobs, heventual, ?_⟩
    rw [himports]
    exact .returned
  | @indexed event outcome e _ hturn =>
    obtain ⟨hevent, rfl⟩ : event ≠ .closed ∧ outcome = .done := of_decide_eq_true hl
    have hindexing := h.indexing.turn hevent hturn
    have hturn := Engine.turn_of_indexerStep hturn
    -- no deletion is queued, so what is on its way stays
    obtain ⟨heventual', hdeletes⟩ : e.eventual = s.engine.eventual ∧
        e.deleteQueue = s.engine.deleteQueue := by
      obtain hkept | ⟨batch, hbatch, -⟩ := hturn.eventual hindexing.isSome
      · exact hkept
      · rw [h.deletes] at hbatch
        cases hbatch
    refine ⟨?_, hdeletes.trans h.deletes, hindexing, sent, rest, hjobs,
      heventual'.trans heventual, htask⟩
    show db.SameButMarks e.db
    obtain hdb | ⟨entries, hdb⟩ := hturn.db
    · exact hdb ▸ h.marks
    · exact hdb ▸ h.marks.trans (Database.sameButMarks_markIndexedBatch _ entries)
  | _ => cases hl

theorem of_drains (h : Importing db report jobs s) (hs : s.Drains X s') :
    Importing db report jobs s' := by
  induction hs with
  | refl => exact h
  | tail _ hs ih => exact ih.step hs

/-- **What is committed** once the instance has settled. -/
theorem index_of_atRest (h : Importing db report jobs s) (hs : s.AtRest) :
    s.engine.index = committedJobs jobs := by
  obtain ⟨sent, rest, rfl, heventual, htask⟩ := h.sends
  rw [hs.imports] at htask
  cases htask with
  | returned => rw [List.append_nil, ← heventual, hs.engine.eventual]

/-! #### It settles -/

theorem drainStep_indexer {event : IndexerEvent} {e : Engine} (hevent : event ≠ .closed)
    (he : s.engine.indexerStep event .done = some e) : s.DrainStep X { s with engine := e } := by
  refine ⟨.indexer event .done, decide_eq_true ⟨hevent, rfl⟩, ?_⟩
  show (if _ then _ else _) = _
  rw [if_neg fun h ↦ hevent h.1, he]
  rfl

theorem drainStep_import {o : CrawlOp} {next : o.Resp → Crawl (Except ApiError ImportReport)}
    (himports : s.imports = [.op o next]) {a : Answer} {r : o.Resp} {e : Engine}
    (hr : s.engine.perform o a = some (r, e)) :
    s.DrainStep X { s with engine := e, imports := [next r] } := by
  refine ⟨.import_ 0 a, rfl, ?_⟩
  obtain ⟨engine, removals, imports, runs⟩ := s
  subst himports
  show Option.map _ (engine.perform o a) = _
  rw [hr]
  rfl

theorem drainStep_endImport {r : Except ApiError ImportReport} (himports : s.imports = [.ret r]) :
    s.DrainStep X { s with imports := [] } := by
  refine ⟨.endImport 0, rfl, ?_⟩
  obtain ⟨engine, removals, imports, runs⟩ := s
  subst himports
  rfl

/-- The indexer takes what is queued. -/
theorem drains_queue (X : Crates) (h : Importing db report jobs s) :
    ∃ s', s.Drains X s' ∧ s'.imports = s.imports ∧ s'.engine.upsertQueue = [] := by
  induction hqueue : s.engine.upsertQueue generalizing s with
  | nil => exact ⟨s, .refl, rfl, hqueue⟩
  | cons job queue ih =>
    obtain ⟨e, he, hrest⟩ := h.indexing.exists_upsert hqueue
    have hstep : s.DrainStep X { s with engine := e } := drainStep_indexer (by decide) he
    obtain ⟨s', hs', himports, hempty⟩ := ih (h.step hstep) hrest
    exact ⟨s', .head hstep hs', himports, hempty⟩

/-- A job that has been counted is sent when there is room. -/
theorem drains_counted (X : Crates) (h : Importing db report jobs s) {job : IndexJob}
    {rest : List IndexJob} (himports : s.imports = [sendingImport report job rest]) :
    ∃ s', s.Drains X s' ∧ s'.imports = [sendImport report rest] := by
  obtain ⟨s₁, hs₁, himports₁, hqueue⟩ := h.drains_queue X
  obtain ⟨ix, hix, -⟩ := (h.of_drains hs₁).indexing
  have hsend : s₁.engine.perform (.send job) .ok =
      some (true, { s₁.engine with upsertQueue := s₁.engine.upsertQueue ++ [job] }) := by
    simp only [Engine.perform, hix]
    rw [if_pos (by rw [hqueue]; decide)]
  exact ⟨_, hs₁.tail (drainStep_import (himports₁.trans himports) hsend), rfl⟩

/-- The import goes on to its end. -/
theorem drains_sends (X : Crates) {rest : List IndexJob} (h : Importing db report jobs s)
    (himports : s.imports = [sendImport report rest]) :
    ∃ s', s.Drains X s' ∧ s'.imports = [] := by
  induction rest generalizing s with
  | nil => exact ⟨_, .single (drainStep_endImport himports), rfl⟩
  | cons job rest ih =>
    have hcount : s.DrainStep X _ := drainStep_import (o := .inflightAdd 1) (a := .ok) himports rfl
    obtain ⟨s₁, hs₁, himports₁⟩ := drains_counted X (h.step hcount) rfl
    have hdrains := Relation.ReflTransGen.head hcount hs₁
    obtain ⟨s', hs', hdone⟩ := ih (h.of_drains hdrains) himports₁
    exact ⟨s', hdrains.trans hs', hdone⟩

/-- **It can always settle**: the import ends, the indexer takes what is queued, and its timer
fires. -/
theorem exists_atRest (X : Crates) (h : Importing db report jobs s) :
    ∃ s', s.Drains X s' ∧ s'.AtRest := by
  obtain ⟨s₁, hs₁, himports₁⟩ : ∃ s₁, s.Drains X s₁ ∧ s₁.imports = [] := by
    obtain ⟨sent, rest, -, -, htask⟩ := h.sends
    generalize himports : s.imports = imports at htask
    cases htask with
    | sends => exact h.drains_sends X himports
    | counted job rest =>
      obtain ⟨s₁, hs₁, himports₁⟩ := h.drains_counted X himports
      obtain ⟨s₂, hs₂, himports₂⟩ := (h.of_drains hs₁).drains_sends X himports₁
      exact ⟨s₂, hs₁.trans hs₂, himports₂⟩
    | returned => exact ⟨s, .refl, himports⟩
  obtain ⟨s₂, hs₂, himports₂, hqueue⟩ := (h.of_drains hs₁).drains_queue X
  have h₂ := (h.of_drains hs₁).of_drains hs₂
  obtain ⟨e, he, hdrained⟩ := h₂.indexing.exists_timer hqueue h₂.deletes
  refine ⟨_, (hs₁.trans hs₂).tail (drainStep_indexer (by decide) he), ?_, hdrained⟩
  exact himports₂.trans himports₁

end Importing

/-! ### The round trip -/

section Restores

variable {X : Crates} {valid : Url → Prop} {ts : String} {env : ExportEnvelope}

/-- What holds of the exports of the restored instance holds of one of them. -/
theorem Restores.exists_export {P Q : ExportEnvelope → Prop} (hP : Restores X ts env P)
    (hQ : Restores X ts env Q) : ∃ env', P env' ∧ Q env' := by
  obtain ⟨-, s₀, hstep, hP⟩ := hP
  obtain ⟨-, s₁, hstep₁, hQ⟩ := hQ
  obtain rfl := Option.some.inj (hstep.symm.trans hstep₁)
  obtain ⟨⟨s, hdrains, hrest⟩, -⟩ := hP s₀ .refl
  have hexports : s.engine.Exports
      (s.engine.db.buildEnvelope s.engine.index s.engine.db.joinedPeers ts "") :=
    ⟨_, _, _, _, .refl _, .refl _, rfl⟩
  exact ⟨_, (hP s hdrains).2 hrest _ hexports, (hQ s hdrains).2 hrest _ hexports⟩

/-- **What is exported** of a state is restored, but for the subscriptions that are skipped. -/
theorem restores_importable {s : Sys} (hs : s.Archivable X) (henv : s.engine.Exports env)
    (ts : String) : Restores X ts env fun env' ↦ env'.Matches env.importable := by
  have hdated := henv.dated hs.dated
  have hsorted : env.importable.collectionPeers.Pairwise fun cp cp' ↦ cp.key ≤ cp'.key :=
    henv.pairwise_key.filter _
  obtain ⟨docs, peers, exportedAt, selfUrl, hdocs, hpeers, he⟩ := henv
  -- the first export has no duplicates, so the import succeeds
  have hcanonical : env.Canonical := he ▸ Database.canonical_buildEnvelope
    hs.placing.pages.pagesWithin (hdocs.symm.pairwise hs.index fun hne ↦ hne.symm) hpeers
    exportedAt selfUrl
  obtain ⟨db, report, jobs, himport⟩ := hcanonical.exists_committedImport X ts
  have haccept : acceptImport X .empty ts (.ok env) = .ok (db, report, jobs) :=
    acceptImport_eq_ok.2 ⟨hcanonical.formatVersion, himport⟩
  refine ⟨⟨_, haccept⟩, _, Importing.step_init haccept, fun s' hdrains ↦ ?_⟩
  have hI := (Importing.start db report jobs).of_drains hdrains
  -- at rest, the index has the jobs, and the tables are those of the import but for the marks
  refine ⟨hI.exists_atRest X, fun hrest env' henv' ↦ ?_⟩
  have hsorted' := henv'.pairwise_key
  obtain ⟨docs', peers', exportedAt', selfUrl', hdocs', hpeers', rfl⟩ := henv'
  rw [hI.index_of_atRest hrest] at hdocs'
  have hjoined : s'.engine.db.joinedPeers = db.joinedPeers := by
    obtain ⟨_, hdb, -⟩ := hI.marks
    rw [hdb]
    rfl
  have hagrees := (hcanonical.agrees_of_import himport hdocs' (hjoined ▸ hpeers') exportedAt'
    selfUrl').unmarked
  rw [ExportEnvelope.restored_eq hdated, ExportEnvelope.unmarked_unmarked] at hagrees
  rw [← hI.marks.unmarked_buildEnvelope] at hagrees
  exact ⟨hagrees, map_key_eq hagrees.collectionPeers hsorted' hsorted⟩

/-- **A subscription of no collection** is not restored. -/
theorem not_restores {s : Sys} (hs : s.Archivable X) (henv : s.engine.Exports env)
    {cp : ExportedCollectionPeer} (hcp : cp ∈ env.collectionPeers)
    (hlocal : cp.localCollection ∉ env.collections.map ExportedCollection.name) (ts : String) :
    ¬ Restores X ts env fun env' ↦ env'.Matches env := by
  intro hall
  obtain ⟨env', himportable, hsame⟩ := (restores_importable hs henv ts).exists_export hall
  have hperm : env.importable.collectionPeers.Perm env.collectionPeers :=
    himportable.agrees.collectionPeers.symm.trans hsame.agrees.collectionPeers
  have hmem := hperm.mem_iff.2 hcp
  exact hlocal (of_decide_eq_true (List.mem_filter.1 hmem).2)

/-- **Export, import, export**: whatever an instance exports in a state it comes to, through its
admin requests, its crawls, its indexer, its searches and its health checks, an empty instance
takes; its import and its indexer can always go on until they have settled; and then its export is
the first one, but for the subscriptions of collections that do not exist. -/
theorem restores_of_run (hX : X.UrlLaws valid) (clock : Int) (labels : List InstanceLabel)
    (s : Instance) (hrun : (instanceMachine X).run (.init clock) labels = some s)
    (henv : s.sys.engine.Exports env) (ts : String) :
    Restores X ts env fun env' ↦ env'.Matches env.importable :=
  restores_importable (Instance.archivable_of_run hX hrun) henv ts

end Restores

namespace OnePage

/-- The site is crawled and indexed for its collection, which subscribes to a collection of another
node; so does a collection that there is not. -/
def subscribed : List InstanceLabel :=
  settled.map .sys ++
  [.peers (.addNode "https://peer.example" none), .peers (.subscribe "guide" 1 "handbook" 1),
    .peers (.subscribe "atlas" 1 "maps" 1)]

/-- A collection is renamed, and its subscription is not. -/
def renamed : List InstanceLabel :=
  [.sys (.other (.collections (.create "atlas" "") "t0")),
    .peers (.addNode "https://peer.example" none), .peers (.subscribe "atlas" 1 "maps" 1),
    .sys (.other (.collections (.update 1 "charts" "") "t1"))]

end OnePage

/-- The whole instance is restored, but for the second subscription. -/
theorem restores_subscribed : ∃ s env,
    (instanceMachine OnePage.crates).run (.init 0) OnePage.subscribed = some s ∧
      s.sys.engine.Exports env ∧
      (env.collections.map fun c ↦ (c.name, c.documents.length, c.rankingConfig.isSome,
        c.crawlTargets.map fun t ↦ t.crawledPages.length)) = [("guide", 1, true, [1])] ∧
      (env.collectionPeers.map ExportedCollectionPeer.localCollection) = ["atlas", "guide"] ∧
      (env.importable.collectionPeers.map ExportedCollectionPeer.localCollection) = ["guide"] ∧
      Restores OnePage.crates "t2" env fun env' ↦ env'.Matches env.importable := by
  obtain ⟨s, hrun, hs⟩ : ∃ s,
      (instanceMachine OnePage.crates).run (.init 0) OnePage.subscribed = some s ∧
        (let e := s.sys.engine
         let env := e.db.buildEnvelope e.index e.db.joinedPeers "t1" ""
         decide ((env.collections.map fun c ↦ (c.name, c.documents.length, c.rankingConfig.isSome,
            c.crawlTargets.map fun t ↦ t.crawledPages.length)) = [("guide", 1, true, [1])]) &&
          decide ((env.collectionPeers.map ExportedCollectionPeer.localCollection) =
            ["atlas", "guide"]) &&
          decide ((env.importable.collectionPeers.map ExportedCollectionPeer.localCollection) =
            ["guide"])) = true :=
    Machine.exists_run_of_any (by decide +kernel)
  obtain ⟨hs, hkept⟩ := Bool.and_eq_true_iff.1 hs
  obtain ⟨hcollections, hpeers⟩ := Bool.and_eq_true_iff.1 hs
  have hlaws : OnePage.crates.UrlLaws _ :=
    Crates.urlLaws_ofTables (by decide) fun _ hj ↦ absurd hj List.not_mem_nil
  have henv : s.sys.engine.Exports (s.sys.engine.db.buildEnvelope s.sys.engine.index
      s.sys.engine.db.joinedPeers "t1" "") := ⟨_, _, _, _, .refl _, .refl _, rfl⟩
  exact ⟨s, _, hrun, henv, of_decide_eq_true hcollections, of_decide_eq_true hpeers,
    of_decide_eq_true hkept, restores_of_run hlaws 0 _ s hrun henv "t2"⟩

/-- **The subscription of a collection that was renamed** is lost on the way. -/
theorem not_restores_renamed : ∃ s env,
    (instanceMachine OnePage.crates).run (.init 0) OnePage.renamed = some s ∧
      s.sys.engine.Exports env ∧
      ¬ Restores OnePage.crates "t2" env fun env' ↦ env'.Matches env := by
  obtain ⟨s, hrun, hs⟩ : ∃ s,
      (instanceMachine OnePage.crates).run (.init 0) OnePage.renamed = some s ∧
        (let e := s.sys.engine
         let env := e.db.buildEnvelope e.index e.db.joinedPeers "t1" ""
         env.collectionPeers.any fun cp ↦
          decide (cp.localCollection ∉ env.collections.map ExportedCollection.name)) = true :=
    Machine.exists_run_of_any (by decide +kernel)
  have hlaws : OnePage.crates.UrlLaws _ :=
    Crates.urlLaws_ofTables (by decide) fun _ hj ↦ absurd hj List.not_mem_nil
  have henv : s.sys.engine.Exports (s.sys.engine.db.buildEnvelope s.sys.engine.index
      s.sys.engine.db.joinedPeers "t1" "") := ⟨_, _, _, _, .refl _, .refl _, rfl⟩
  obtain ⟨cp, hcp, hlocal⟩ := List.any_eq_true.1 hs
  exact ⟨s, _, hrun, henv, not_restores (Instance.archivable_of_run hlaws hrun) henv hcp
    (of_decide_eq_true hlocal) "t2"⟩

end CommunitySearch
