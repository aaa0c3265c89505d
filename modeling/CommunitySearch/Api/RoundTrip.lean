import CommunitySearch.Api.ImportRetry
import CommunitySearch.Api.ImportSuccess
import CommunitySearch.Api.ImportedPeers
import CommunitySearch.System.PagePlacement

/-!
# Exporting what was imported

What one instance exports, an empty instance can import, and once its indexer has committed the
documents it exports the same again (`export_import_export`). What differs is listed by
`ExportEnvelope.restored` and left open by `ExportEnvelope.Agrees`: when and where the export was
made, the marks of the pages, empty timestamps, the subscriptions of collections that do not exist,
and the order of what no query orders.

The envelope is the value that is built and applied: its JSON text is left out. The text does not
keep every number. A `source_weight` of `1e39` is infinite as the `f32` that is exported, written as
`null`, and an import refuses that.

That the import succeeds needs an invariant of the tables. A page is unique in its collection but
exported with its target, so pages of two collections under one target could clash; the collection
of a page is that of its target, in every run (`Sys.pagesWithin_of_run`).
-/

namespace CommunitySearch

/-- What the index of an empty instance holds once its indexer has committed the jobs. -/
def committedJobs (jobs : List IndexJob) : List Document :=
  TermCmd.publish Document.url [] (jobs.map fun job ↦ .upsert job.asDocument)

/-- What becomes of an export by an import at `ts`. A subscription of a collection that is not
among those exported is skipped. -/
def ExportEnvelope.restored (ts : String) (env : ExportEnvelope) : ExportEnvelope :=
  { env with
    collections := env.collections.map (ExportedCollection.restored ts)
    collectionPeers := env.collectionPeers.filter fun cp ↦
      cp.localCollection ∈ env.collections.map ExportedCollection.name }

/-- Two exports of a collection that differ in the order of the documents. -/
structure ExportedCollection.Agrees (a b : ExportedCollection) : Prop where
  documents : a.documents.Perm b.documents
  rest : { a with documents := [] } = { b with documents := [] }

/-- Two exports that differ in when and where they were made, and in the order of what no query
orders. -/
structure ExportEnvelope.Agrees (a b : ExportEnvelope) : Prop where
  formatVersion : a.formatVersion = b.formatVersion
  collections : List.Forall₂ ExportedCollection.Agrees a.collections b.collections
  nodePeers : a.nodePeers = b.nodePeers
  collectionPeers : a.collectionPeers.Perm b.collectionPeers

/-- The same collection, node and remote collection. -/
def ExportedCollectionPeer.SameKey (a b : ExportedCollectionPeer) : Prop :=
  a.localCollection = b.localCollection ∧ a.nodePeerUrl = b.nodePeerUrl ∧
    a.remoteCollection = b.remoteCollection

namespace Database

variable {db : Database}

/-- The collection of a page is that of its target. -/
def PagesWithin (db : Database) : Prop :=
  ∀ p ∈ db.crawledPages, ∀ t ∈ db.crawlTargets, t.id = p.crawlTargetId →
    p.collectionId = t.collectionId

instance (db : Database) : Decidable db.PagesWithin :=
  inferInstanceAs (Decidable (∀ p ∈ db.crawledPages.rows, ∀ t ∈ db.crawlTargets.rows, _ → _))

/-- Pages lie with targets of their collections. -/
theorem PagesPlaced.pagesWithin {K : String → String → Prop} (h : db.PagesPlaced K) :
    db.PagesWithin := by
  intro p hp t ht hid
  obtain ⟨t', ht', hid', hcol, -⟩ := h p hp
  obtain rfl : t = t' :=
    eq_of_mem_crawlTargets ht ht' (Or.inr (Or.inl (hid.trans hid'.symm)))
  exact hcol.symm

/-! ### An export has no duplicates -/

theorem pairwise_pagesOf (hwithin : db.PagesWithin) {t : CrawlTargetRow}
    (ht : t ∈ db.crawlTargets) : (db.pagesOf t.id).Pairwise fun p q ↦ p.url ≠ q.url := by
  refine (db.crawledPages.unique.filter _).imp_of_mem fun {p q} hp hq hclash hurl ↦ ?_
  obtain ⟨hp, hpt⟩ := mem_pagesOf.1 hp
  obtain ⟨hq, hqt⟩ := mem_pagesOf.1 hq
  have hcol := (hwithin p hp t ht hpt.symm).trans (hwithin q hq t ht hqt.symm).symm
  exact hclash (Or.inr ⟨hcol, hurl⟩)

theorem pairwise_targetsOf (collection : Uuid) :
    (db.targetsOf collection).Pairwise fun s t ↦ s.urlPrefix ≠ t.urlPrefix := by
  refine (db.crawlTargets.unique.filter _).imp_of_mem fun {s t} hs ht hclash hpre ↦ ?_
  have hcol := (mem_targetsOf.1 hs).2.trans (mem_targetsOf.1 ht).2.symm
  exact hclash (Or.inr (Or.inr ⟨hcol, hpre⟩))

theorem pairwise_hostsOf (collection : Uuid) :
    (db.hostsOf collection).Pairwise fun o o' ↦ o.host ≠ o'.host := by
  refine (db.outlinkHostSuggestions.unique.filter _).imp_of_mem fun {o o'} ho ho' hclash hhost ↦ ?_
  have hcol := (mem_hostsOf.1 ho).2.trans (mem_hostsOf.1 ho').2.symm
  exact hclash (Or.inr (Or.inr ⟨hcol, hhost⟩))

/-- The targets of a collection share no page URL. -/
theorem pairwise_pages (hwithin : db.PagesWithin) (collection : Uuid) :
    (db.targetsOf collection).Pairwise fun s t ↦
      ∀ p ∈ db.pagesOf s.id, ∀ q ∈ db.pagesOf t.id, p.url ≠ q.url := by
  refine (db.crawlTargets.unique.filter _).imp_of_mem fun {s t} hs ht hclash p hp q hq hurl ↦ ?_
  obtain ⟨hs, hsc⟩ := mem_targetsOf.1 hs
  obtain ⟨ht, htc⟩ := mem_targetsOf.1 ht
  obtain ⟨hp, hps⟩ := mem_pagesOf.1 hp
  obtain ⟨hq, hqt⟩ := mem_pagesOf.1 hq
  have hcol : p.collectionId = q.collectionId := by
    rw [hwithin p hp s hs hps.symm, hwithin q hq t ht hqt.symm, hsc, htc]
  obtain rfl : p = q := Table.eq_of_clash
    (fun _ _ ↦ Or.imp Eq.symm (And.imp Eq.symm Eq.symm)) hp hq (Or.inr ⟨hcol, hurl⟩)
  exact hclash (Or.inr (Or.inl (hps.symm.trans hqt)))

theorem pairwise_exportCrawledPages (hwithin : db.PagesWithin) {t : CrawlTargetRow}
    (ht : t ∈ db.crawlTargets) :
    (db.exportCrawledPages t.id).Pairwise fun p q ↦ p.url ≠ q.url := by
  rw [exportCrawledPages, List.pairwise_map]
  exact (List.perm_orderBy CrawledPageRow.id _).symm.pairwise (pairwise_pagesOf hwithin ht)
    fun hne ↦ hne.symm

/-- **A collection is exported** without duplicates. -/
theorem unique_exportCollection (hwithin : db.PagesWithin) (c : CollectionRow) :
    (db.exportCollection c).Unique where
  targets := by
    show ((db.targetsOf c.id).orderBy _ |>.map _).Pairwise _
    rw [List.pairwise_map]
    exact (List.perm_orderBy CrawlTargetRow.urlPrefix _).symm.pairwise (pairwise_targetsOf c.id)
      fun hne ↦ hne.symm
  pages := by
    show (((db.targetsOf c.id).orderBy CrawlTargetRow.urlPrefix |>.map db.exportCrawlTarget).flatMap
      ExportedCrawlTarget.crawledPages).Pairwise _
    rw [List.flatMap_map, List.pairwise_flatMap]
    constructor
    · intro t ht
      exact pairwise_exportCrawledPages hwithin (mem_targetsOf.1 (List.mem_orderBy.1 ht)).1
    · refine ((List.perm_orderBy CrawlTargetRow.urlPrefix _).symm.pairwise
        (pairwise_pages hwithin c.id) fun h p hp q hq ↦ (h q hq p hp).symm).imp
          fun h e he e' he' ↦ ?_
      obtain ⟨p, hp, rfl⟩ := List.mem_map.1 he
      obtain ⟨q, hq, rfl⟩ := List.mem_map.1 he'
      exact h p (List.mem_orderBy.1 hp) q (List.mem_orderBy.1 hq)
  hosts := by
    show ((db.hostsOf c.id).orderBy OutlinkHostRow.host |>.map OutlinkHostRow.exported).Pairwise _
    rw [List.pairwise_map]
    exact (List.perm_orderBy OutlinkHostRow.host _).symm.pairwise (pairwise_hostsOf c.id)
      fun hne ↦ hne.symm

/-- An export lists what is under a collection. -/
theorem listed_exportCollection (c : CollectionRow) :
    (db.exportCollection c).listed = db.exportCollection c := by
  have htargets : (db.exportCrawlTargets c.id).orderBy ExportedCrawlTarget.urlPrefix =
      db.exportCrawlTargets c.id := by
    refine List.orderBy_eq_self ?_
    rw [exportCrawlTargets, List.pairwise_map]
    exact List.pairwise_orderBy CrawlTargetRow.urlPrefix _
  have hhosts : (db.exportOutlinks c.id).orderBy ExportedOutlinkHostSuggestion.host =
      db.exportOutlinks c.id := by
    refine List.orderBy_eq_self ?_
    rw [exportOutlinks, List.pairwise_map]
    exact List.pairwise_orderBy OutlinkHostRow.host _
  show { db.exportCollection c with
    crawlTargets := (db.exportCrawlTargets c.id).orderBy ExportedCrawlTarget.urlPrefix
    outlinkHostSuggestions :=
      (db.exportOutlinks c.id).orderBy ExportedOutlinkHostSuggestion.host } = _
  rw [htargets, hhosts]
  rfl

/-- Collections are exported in the strict order of their names. -/
theorem pairwise_lt_collections (db : Database) :
    (db.collections.rows.orderBy CollectionRow.name).Pairwise fun c c' ↦ c.name < c'.name :=
  List.pairwise_lt_orderBy (db.collections.unique.imp fun hclash hname ↦
    hclash (Or.inr (Or.inr hname)))

/-- Node peers are exported in the strict order of their URLs. -/
theorem pairwise_lt_exportNodePeers (db : Database) :
    db.exportNodePeers.Pairwise fun p q ↦ p.url < q.url := by
  rw [exportNodePeers, List.pairwise_map]
  exact List.pairwise_lt_orderBy (db.nodePeers.unique.imp fun hclash hurl ↦ hclash (Or.inr hurl))

/-- A node is joined by its id. -/
theorem filter_nodePeers {np : NodePeerRow} (hnp : np ∈ db.nodePeers) :
    db.nodePeers.rows.filter (fun np' ↦ np'.id = np.id) = [np] := by
  have hmem : ∀ np', np' ∈ db.nodePeers.rows.filter (fun np' ↦ np'.id = np.id) → np' = np := by
    intro np' hnp'
    obtain ⟨hnp', hid⟩ := List.mem_filter.1 hnp'
    exact eq_of_mem_nodePeers hnp' hnp (Or.inl (of_decide_eq_true hid))
  have hunique := db.nodePeers.unique.filter fun np' ↦ np'.id = np.id
  have hself : np ∈ db.nodePeers.rows.filter (fun np' ↦ np'.id = np.id) :=
    List.mem_filter.2 ⟨hnp, decide_eq_true rfl⟩
  match hl : db.nodePeers.rows.filter (fun np' ↦ np'.id = np.id) with
  | [] => exact absurd (hl ▸ hself) List.not_mem_nil
  | [a] =>
    rw [hl] at hmem ⊢
    rw [hmem a List.mem_cons_self]
  | a :: b :: l =>
    rw [hl] at hmem hunique
    have hab : a.id = b.id := by
      rw [hmem a List.mem_cons_self, hmem b (List.mem_cons_of_mem a List.mem_cons_self)]
    exact absurd (Or.inl hab) ((List.pairwise_cons.1 hunique).1 b List.mem_cons_self)

/-- No two subscriptions of a join have the same key. -/
theorem pairwise_joinedPeers (db : Database) :
    db.joinedPeers.Pairwise fun a b ↦ ¬ a.SameKey b := by
  rw [joinedPeers, List.pairwise_flatMap]
  constructor
  · intro cp _
    rw [List.pairwise_map]
    exact (db.nodePeers.unique.filter _).imp fun hclash ⟨_, hurl, _⟩ ↦ hclash (Or.inr hurl)
  · refine db.collectionPeers.unique.imp
      fun {cp cp'} hclash e he e' he' ⟨hlocal, hurl, hremote⟩ ↦ ?_
    obtain ⟨np, hnp, rfl⟩ := List.mem_map.1 he
    obtain ⟨np', hnp', rfl⟩ := List.mem_map.1 he'
    obtain ⟨hnp, hid⟩ := List.mem_filter.1 hnp
    obtain ⟨hnp', hid'⟩ := List.mem_filter.1 hnp'
    obtain rfl : np = np' := eq_of_mem_nodePeers hnp hnp' (Or.inr hurl)
    have hnode := (of_decide_eq_true hid).symm.trans (of_decide_eq_true hid')
    exact hclash (Or.inr ⟨hlocal, hnode, hremote⟩)

end Database

/-! ### Documents -/

/-- The documents of a collection are found among those of all collections by its name. -/
theorem filter_exportedDocuments {es : List ExportedCollection}
    (hnames : es.Pairwise fun e e' ↦ e.name ≠ e'.name) {e : ExportedCollection} (he : e ∈ es) :
    ((exportedDocuments es).filter fun d ↦ d.1 = e.name).map Prod.snd = e.documents := by
  induction es with
  | nil => exact absurd he List.not_mem_nil
  | cons e' es ih =>
    obtain ⟨hfirst, hrest⟩ := List.pairwise_cons.1 hnames
    rw [exportedDocuments, List.flatMap_cons, List.filter_append, List.map_append]
    rcases List.mem_cons.1 he with rfl | he
    · have hall : (e.documents.map (Prod.mk e.name)).filter (fun d ↦ d.1 = e.name) =
          e.documents.map (Prod.mk e.name) := by
        refine List.filter_eq_self.2 fun d hd ↦ ?_
        obtain ⟨_, -, rfl⟩ := List.mem_map.1 hd
        exact decide_eq_true rfl
      have hnone : (es.flatMap fun c ↦ c.documents.map (Prod.mk c.name)).filter
          (fun d ↦ d.1 = e.name) = [] := by
        refine List.filter_eq_nil_iff.2 fun d hd heq ↦ ?_
        obtain ⟨c, hc, hd⟩ := List.mem_flatMap.1 hd
        obtain ⟨_, -, rfl⟩ := List.mem_map.1 hd
        exact hfirst c hc (of_decide_eq_true heq).symm
      rw [hall, hnone, List.map_map, List.map_nil, List.append_nil]
      exact List.map_id _
    · have hnone : (e'.documents.map (Prod.mk e'.name)).filter (fun d ↦ d.1 = e.name) = [] := by
        refine List.filter_eq_nil_iff.2 fun d hd heq ↦ ?_
        obtain ⟨_, -, rfl⟩ := List.mem_map.1 hd
        exact hfirst e he (of_decide_eq_true heq)
      rw [hnone, List.map_nil, List.nil_append]
      exact ih hrest he

/-- What an index that holds the jobs exports under a name. -/
theorem documentsUnder_asDocument (jobs : List IndexJob) (name : String) :
    documentsUnder (jobs.map IndexJob.asDocument) name =
      ((jobs.map IndexJob.exported).filter fun d ↦ d.1 = name).map Prod.snd := by
  rw [documentsUnder, List.filter_map, List.filter_map, List.map_map, List.map_map]
  rfl

/-- The documents of an export have different URLs, as those of the index have. -/
theorem pairwise_exportedDocuments {docs : List Document}
    (hdocs : docs.Pairwise fun d d' ↦ d.url ≠ d'.url) {es : List ExportedCollection}
    (hnames : es.Pairwise fun e e' ↦ e.name ≠ e'.name)
    (hes : ∀ e ∈ es, e.documents = documentsUnder docs e.name) :
    (exportedDocuments es).Pairwise fun d d' ↦ d.2.url ≠ d'.2.url := by
  rw [exportedDocuments, List.pairwise_flatMap]
  constructor
  · intro e he
    rw [List.pairwise_map, hes e he, documentsUnder, List.pairwise_map]
    exact hdocs.filter _
  · refine hnames.imp_of_mem fun {e e'} he he' hne x hx y hy ↦ ?_
    rw [hes e he, documentsUnder, List.map_map] at hx
    rw [hes e' he', documentsUnder, List.map_map] at hy
    obtain ⟨d, hd, rfl⟩ := List.mem_map.1 hx
    obtain ⟨d', hd', rfl⟩ := List.mem_map.1 hy
    obtain ⟨hd, hname⟩ := List.mem_filter.1 hd
    obtain ⟨hd', hname'⟩ := List.mem_filter.1 hd'
    have hsymm : Std.Symm fun d d' : Document ↦ d.url ≠ d'.url := ⟨fun _ _ h ↦ h.symm⟩
    refine hdocs.forall hd hd' ?_
    rintro rfl
    exact hne ((of_decide_eq_true hname).symm.trans (of_decide_eq_true hname'))

/-- **The jobs of an import** are committed as they are, if their URLs differ. -/
theorem committedJobs_eq {jobs : List IndexJob}
    (h : (jobs.map IndexJob.exported).Pairwise fun d d' ↦ d.2.url ≠ d'.2.url) :
    committedJobs jobs = jobs.map IndexJob.asDocument := by
  have hkeys : ([] ++ jobs.map IndexJob.asDocument).Pairwise
      fun d d' : Document ↦ d.url ≠ d'.url := by
    rw [List.pairwise_map] at h
    rw [List.nil_append, List.pairwise_map]
    exact h
  have hpublish := TermCmd.publish_upserts hkeys
  rw [List.map_map] at hpublish
  exact hpublish

/-! ### What is imported into an empty instance -/

theorem newCollections_eq_self {known : List String} {es : List ExportedCollection}
    (hnew : ∀ e ∈ es, e.name ∉ known) (hnames : es.Pairwise fun e e' ↦ e.name ≠ e'.name) :
    newCollections known es = es := by
  induction es generalizing known with
  | nil => rfl
  | cons e es ih =>
    obtain ⟨hfirst, hrest⟩ := List.pairwise_cons.1 hnames
    rw [newCollections, if_neg (hnew e List.mem_cons_self)]
    refine congrArg _ (ih (fun e' he' hmem ↦ ?_) hrest)
    rcases List.mem_cons.1 hmem with heq | hold
    · exact hfirst e' he' heq.symm
    · exact hnew e' (List.mem_cons_of_mem e he') hold

theorem newNodePeers_eq_self {known : List String} {ps : List ExportedNodePeer}
    (hnew : ∀ p ∈ ps, p.url ∉ known) (hurls : ps.Pairwise fun p q ↦ p.url ≠ q.url) :
    newNodePeers known ps = ps := by
  induction ps generalizing known with
  | nil => rfl
  | cons p ps ih =>
    obtain ⟨hfirst, hrest⟩ := List.pairwise_cons.1 hurls
    rw [newNodePeers, if_neg (hnew p List.mem_cons_self)]
    refine congrArg _ (ih (fun q hq hmem ↦ ?_) hrest)
    rcases List.mem_cons.1 hmem with heq | hold
    · exact hfirst q hq heq.symm
    · exact hnew q (List.mem_cons_of_mem p hq) hold

theorem exported_importedPeers (id : Int) (ps : List ExportedNodePeer) :
    (importedPeers id ps).map NodePeerRow.exported = ps := by
  induction ps generalizing id with
  | nil => rfl
  | cons p ps ih => exact congrArg (p :: ·) (ih (id + 1))

namespace Database

variable {db db' : Database} {report report' : ImportReport}

/-- The peers of an envelope leave what is under the collections. -/
def SameContent (db db' : Database) : Prop :=
  ∃ nodes peers, db' = { db with nodePeers := nodes, collectionPeers := peers }

theorem SameContent.trans {db'' : Database} (h : db.SameContent db') (h' : db'.SameContent db'') :
    db.SameContent db'' := by
  obtain ⟨_, _, rfl⟩ := h
  obtain ⟨_, _, rfl⟩ := h'
  exact ⟨_, _, rfl⟩

/-- A node peer leaves everything but its table. -/
theorem applyNodePeer_eq {peers peers' : ImportReport × List String}
    {p : ExportedNodePeer}
    (h : Sql.exec false (applyNodePeer peers p) db = some (db', peers')) :
    ∃ nodes, db' = { db with nodePeers := nodes } := by
  rw [applyNodePeer] at h
  split at h
  · obtain ⟨rfl, -⟩ := Prod.mk.inj (Option.some.inj h)
    exact ⟨_, rfl⟩
  · obtain ⟨_, _, hinsert, h⟩ := Sql.exec_attempt_eq_some.1 h
    rw [Sql.exec_execute] at hinsert
    obtain ⟨_, -, he⟩ := Option.map_eq_some_iff.1 hinsert
    obtain ⟨rfl, -⟩ := Prod.mk.inj he
    obtain ⟨rfl, -⟩ := Prod.mk.inj (Option.some.inj h)
    exact ⟨_, rfl⟩

theorem applyNodePeers_eq {peers peers' : ImportReport × List String} {ps : List ExportedNodePeer}
    (h : Sql.exec false (Sql.loop applyNodePeer peers ps) db = some (db', peers')) :
    ∃ nodes, db' = { db with nodePeers := nodes } := by
  refine Sql.loop_invariant (I := fun (db' : Database) (_ : ImportReport × List String) ↦
    ∃ nodes, db' = { db with nodePeers := nodes }) (fun p db₁ _ db₂ _ hI hp ↦ ?_) ⟨_, rfl⟩ h
  obtain ⟨_, rfl⟩ := hI
  obtain ⟨_, rfl⟩ := applyNodePeer_eq hp
  exact ⟨_, rfl⟩

/-- Collections leave the peers. -/
theorem peers_of_applyCollections {X : Crates} {ts : String} {acc acc' : ImportProgress}
    {es : List ExportedCollection}
    (h : Sql.exec false (Sql.loop (applyCollection X ts) acc es) db = some (db', acc')) :
    db'.collectionPeers = db.collectionPeers := by
  refine Sql.loop_invariant (I := fun (db' : Database) (_ : ImportProgress) ↦
    db'.collectionPeers = db.collectionPeers) (fun e db₁ acc db₂ _ hI he ↦ ?_) rfl h
  rw [applyCollection] at he
  split at he
  · obtain ⟨rfl, -⟩ := Prod.mk.inj (Option.some.inj he)
    exact hI
  · exact (collections_of_importCollection he).2.2.trans hI

/-- **A subscription** is skipped if an end of it is missing or it is there already. -/
theorem applyCollectionPeer_cases {names urls : List String} {cp : ExportedCollectionPeer}
    (h : Sql.exec false (applyCollectionPeer names urls report cp) db = some (db', report')) :
    (db' = db ∧ ¬ (cp.localCollection ∈ names ∧ cp.nodePeerUrl ∈ urls)) ∨
      (cp.localCollection ∈ names ∧ cp.nodePeerUrl ∈ urls) ∧
        ∃ np ∈ db.nodePeers, np.url = cp.nodePeerUrl ∧
          ((∃ rows, db.collectionPeers.insert (db.importedCollectionPeer np.id cp) = some rows ∧
              db' = { db with collectionPeers := rows }) ∨
            (db' = db ∧ ∃ row ∈ db.collectionPeers, row.localCollection = cp.localCollection ∧
              row.nodePeerId = np.id ∧ row.remoteCollection = cp.remoteCollection)) := by
  rw [applyCollectionPeer] at h
  split at h
  case isTrue hends =>
    obtain ⟨rfl, -⟩ := Prod.mk.inj (Option.some.inj h)
    exact Or.inl ⟨rfl, fun hboth ↦ hends.elim (absurd hboth.1) (absurd hboth.2)⟩
  case isFalse hends =>
    rw [not_or, not_not, not_not] at hends
    obtain ⟨_, id, hquery, h⟩ := Sql.exec_attempt_eq_some.1 h
    rw [Sql.exec_queryRow] at hquery
    obtain ⟨_, hid, he⟩ := Option.map_eq_some_iff.1 hquery
    obtain ⟨rfl, rfl⟩ := Prod.mk.inj he
    obtain ⟨_, n, hinsert, h⟩ := Sql.exec_attempt_eq_some.1 h
    rw [Sql.exec_execute] at hinsert
    obtain ⟨rfl, -⟩ := Prod.mk.inj (Option.some.inj h)
    obtain ⟨np, hnp, hurl, rfl⟩ := nodePeerIdOf_eq_some hid
    refine Or.inr ⟨hends, np, hnp, hurl, ?_⟩
    rcases insertOrIgnoreCollectionPeer_cases hinsert with ⟨rows, hrows, rfl, -⟩ | ⟨rfl, -, hrow⟩
    · exact Or.inl ⟨rows, hrows, rfl⟩
    · exact Or.inr ⟨rfl, hrow⟩

/-- A subscription that is stored is joined to its node. -/
theorem joined_of_mem {row : CollectionPeerRow} (hrow : row ∈ db.collectionPeers)
    {np : NodePeerRow} (hnp : np ∈ db.nodePeers) (hid : row.nodePeerId = np.id) :
    row.exported np ∈ db.joinedPeers :=
  List.mem_flatMap.2 ⟨row, hrow, List.mem_map_of_mem
    (List.mem_filter.2 ⟨hnp, decide_eq_true hid.symm⟩)⟩

theorem sameContent_applyCollectionPeers {names urls : List String}
    {cps : List ExportedCollectionPeer}
    (h : Sql.exec false (Sql.loop (applyCollectionPeer names urls) report cps) db =
      some (db', report')) : db.SameContent db' := by
  refine Sql.loop_invariant (I := fun (db' : Database) (_ : ImportReport) ↦ db.SameContent db')
    (fun cp db₁ _ db₂ _ hI hcp ↦ ?_) ⟨_, _, rfl⟩ h
  rcases applyCollectionPeer_cases hcp with ⟨rfl, -⟩ | ⟨-, _, -, -, ⟨_, -, rfl⟩ | ⟨rfl, -⟩⟩
  · exact hI
  · exact hI.trans ⟨_, _, rfl⟩
  · exact hI

theorem joinedPeers_insert {np : NodePeerRow} (hnp : np ∈ db.nodePeers)
    {cp : ExportedCollectionPeer} (hurl : np.url = cp.nodePeerUrl)
    {rows : Table CollectionPeerRow.Clash}
    (h : db.collectionPeers.insert (db.importedCollectionPeer np.id cp) = some rows) :
    joinedPeers { db with collectionPeers := rows } = db.joinedPeers ++ [cp] := by
  show rows.rows.flatMap _ = _
  rw [Table.rows_of_insert h, List.flatMap_append, List.flatMap_singleton]
  refine congrArg (db.joinedPeers ++ ·) ?_
  show (db.nodePeers.rows.filter fun np' ↦ np'.id = np.id).map _ = _
  rw [filter_nodePeers hnp, List.map_singleton, CollectionPeerRow.exported, hurl]
  rfl

/-- **The subscriptions**, where there are none before. -/
theorem joinedPeers_of_applyCollectionPeers {names urls : List String}
    {cps : List ExportedCollectionPeer} (hempty : db.joinedPeers = [])
    (hkeys : cps.Pairwise fun a b ↦ ¬ a.SameKey b)
    (h : Sql.exec false (Sql.loop (applyCollectionPeer names urls) report cps) db =
      some (db', report')) :
    db'.joinedPeers = cps.filter fun cp ↦ cp.localCollection ∈ names ∧ cp.nodePeerUrl ∈ urls := by
  have hrun := Sql.loop_done_invariant (I := fun done (db' : Database) (_ : ImportReport) ↦
    (done.Pairwise fun a b ↦ ¬ ExportedCollectionPeer.SameKey a b) → db'.joinedPeers =
      done.filter fun cp ↦ cp.localCollection ∈ names ∧ cp.nodePeerUrl ∈ urls)
    (fun done cp db₁ _ db₂ _ hI hcp ↦ ?_) (fun _ ↦ hempty) h
  · exact hrun hkeys
  have hdone : (done ++ [cp]).Pairwise (fun a b ↦ ¬ ExportedCollectionPeer.SameKey a b) →
      db₁.joinedPeers = done.filter (fun cp ↦ cp.localCollection ∈ names ∧ cp.nodePeerUrl ∈ urls) ∧
        ∀ cp' ∈ done, ¬ cp'.SameKey cp := fun hkeys ↦ by
    obtain ⟨hkeys, -, hlast⟩ := List.pairwise_append.1 hkeys
    exact ⟨hI hkeys, fun cp' hcp' ↦ hlast cp' hcp' cp (List.mem_singleton_self cp)⟩
  rcases applyCollectionPeer_cases hcp with ⟨rfl, hskip⟩ |
    ⟨hends, np, hnp, hurl, ⟨rows, hrows, rfl⟩ | ⟨rfl, row, hrow, hlocal, hid, hremote⟩⟩
  · intro hkeys
    rw [(hdone hkeys).1, List.filter_append, List.filter_singleton,
      decide_eq_false hskip, cond_false, List.append_nil]
  · intro hkeys
    rw [joinedPeers_insert hnp hurl hrows, (hdone hkeys).1, List.filter_append,
      List.filter_singleton, decide_eq_true hends, cond_true]
  · intro hkeys
    obtain ⟨hjoined, hlast⟩ := hdone hkeys
    have hmem := joined_of_mem hrow hnp hid
    rw [hjoined] at hmem
    exact absurd ⟨hlocal, hurl, hremote⟩ (hlast _ (List.mem_filter.1 hmem).1)

end Database

/-! ### The round trip -/

/-- What an export looks like: listed by names, without duplicates, and every subscription with its
node. -/
structure ExportEnvelope.Canonical (env : ExportEnvelope) : Prop where
  formatVersion : env.formatVersion = FORMAT_VERSION
  names : env.collections.Pairwise fun e e' ↦ e.name < e'.name
  unique : ∀ e ∈ env.collections, e.Unique
  listed : ∀ e ∈ env.collections, e.listed = { e with documents := [] }
  documents : (exportedDocuments env.collections).Pairwise fun d d' ↦ d.2.url ≠ d'.2.url
  nodePeers : env.nodePeers.Pairwise fun p q ↦ p.url < q.url
  collectionPeers : env.collectionPeers.Pairwise fun a b ↦ ¬ a.SameKey b
  nodes : ∀ cp ∈ env.collectionPeers, ∃ p ∈ env.nodePeers, p.url = cp.nodePeerUrl

/-- **An export is canonical.** -/
theorem Database.canonical_buildEnvelope {db : Database} (hwithin : db.PagesWithin)
    {docs : List Document} (hdocs : docs.Pairwise fun d d' ↦ d.url ≠ d'.url)
    {peers : List ExportedCollectionPeer} (hpeers : peers.Perm db.joinedPeers)
    (exportedAt selfUrl : String) :
    (db.buildEnvelope docs peers exportedAt selfUrl).Canonical := by
  set env := db.buildEnvelope docs peers exportedAt selfUrl with henv
  have hcollections : ∀ e ∈ env.collections, ∃ c, e =
      { db.exportCollection c with documents := documentsUnder docs c.name } := fun e he ↦ by
    obtain ⟨c, -, rfl⟩ := List.mem_map.1 he
    exact ⟨c, rfl⟩
  have hnames : env.collections.Pairwise fun e e' ↦ e.name < e'.name := by
    show ((db.collections.rows.orderBy CollectionRow.name).map _).Pairwise _
    rw [List.pairwise_map]
    exact db.pairwise_lt_collections
  have hsorted : (exportCollectionPeers peers).Perm db.joinedPeers :=
    (List.perm_orderBy ExportedCollectionPeer.key peers).trans hpeers
  constructor
  · rfl
  · exact hnames
  · intro e he
    obtain ⟨c, rfl⟩ := hcollections e he
    have hunique := unique_exportCollection hwithin c
    exact ⟨hunique.targets, hunique.pages, hunique.hosts⟩
  · intro e he
    obtain ⟨c, rfl⟩ := hcollections e he
    exact listed_exportCollection c
  · refine pairwise_exportedDocuments hdocs (hnames.imp fun h ↦ h.ne) fun e he ↦ ?_
    obtain ⟨c, rfl⟩ := hcollections e he
    rfl
  · exact db.pairwise_lt_exportNodePeers
  · exact hsorted.symm.pairwise db.pairwise_joinedPeers
      fun hab hba ↦ hab ⟨hba.1.symm, hba.2.1.symm, hba.2.2.symm⟩
  · intro cp hcp
    obtain ⟨row, hrow, hcp⟩ := List.mem_flatMap.1 (hsorted.mem_iff.1 hcp)
    obtain ⟨np, hnp, rfl⟩ := List.mem_map.1 hcp
    have hmem : np ∈ db.nodePeers.rows.orderBy NodePeerRow.url :=
      List.mem_orderBy.2 (List.mem_filter.1 hnp).1
    exact ⟨np.exported, List.mem_map_of_mem (f := NodePeerRow.exported) hmem, rfl⟩

section Canonical

variable {X : Crates} {ts : String} {env : ExportEnvelope} {db : Database} {report : ImportReport}
  {jobs : List IndexJob}

theorem ExportEnvelope.Canonical.exists_committedImport (henv : env.Canonical) (X : Crates)
    (ts : String) : ∃ db report jobs, committedImport X ts env .empty = some (db, report, jobs) :=
  CommunitySearch.exists_committedImport X ts Database.supplied_empty
    (fun _ hr ↦ absurd hr (Table.not_mem_empty _)) (fun _ _ ↦ List.not_mem_nil)
    (henv.names.imp fun h ↦ h.ne) henv.unique

theorem ExportEnvelope.Canonical.newCollections_eq (henv : env.Canonical) :
    newCollections Database.empty.collectionNames env.collections = env.collections :=
  newCollections_eq_self (fun _ _ ↦ List.not_mem_nil) (henv.names.imp fun h ↦ h.ne)

/-- The collections of an import into an empty instance, without their documents. -/
theorem ExportEnvelope.Canonical.collections_of_import (henv : env.Canonical)
    (h : committedImport X ts env .empty = some (db, report, jobs)) :
    db.collections.rows.map db.exportCollection =
      env.collections.map fun e ↦ { e.restored ts with documents := [] } := by
  obtain ⟨db₁, acc, db₂, peers, hcollections, hnodes, hpeers, -⟩ := committedImport_eq_some.1 h
  have hgains := Database.gains_applyCollections Database.supplied_empty hcollections
  obtain ⟨rows, hrows, hexport⟩ := hgains.rows
  replace hrows : db₁.collections.rows = rows := hrows
  replace hexport := hexport fun _ hr ↦ absurd hr (Table.not_mem_empty _)
  rw [← hrows, henv.newCollections_eq] at hexport
  obtain ⟨_, rfl⟩ := Database.applyNodePeers_eq hnodes
  obtain ⟨_, _, rfl⟩ := Database.sameContent_applyCollectionPeers hpeers
  refine Eq.trans hexport (List.map_congr_left fun e he ↦ ?_)
  rw [henv.listed e he]
  rfl

theorem ExportEnvelope.Canonical.collectionNames_of_import (henv : env.Canonical)
    (h : committedImport X ts env .empty = some (db, report, jobs)) :
    db.collectionNames = env.collections.map ExportedCollection.name := by
  have hnames := congrArg (List.map ExportedCollection.name) (henv.collections_of_import h)
  rw [List.map_map, List.map_map] at hnames
  exact hnames

theorem ExportEnvelope.Canonical.nodePeers_of_import (henv : env.Canonical)
    (h : committedImport X ts env .empty = some (db, report, jobs)) :
    db.exportNodePeers = env.nodePeers := by
  have hrows := nodePeers_of_committedImport h
  have hnew : newNodePeers Database.empty.nodePeerUrls env.nodePeers = env.nodePeers :=
    newNodePeers_eq_self (fun _ _ ↦ List.not_mem_nil) (henv.nodePeers.imp fun h ↦ h.ne)
  rw [hnew] at hrows
  have hexport := congrArg (List.map NodePeerRow.exported) hrows
  replace hexport : db.nodePeers.rows.map NodePeerRow.exported = env.nodePeers :=
    hexport.trans (exported_importedPeers _ _)
  have hsorted : db.nodePeers.rows.Pairwise fun np np' ↦ np.url < np'.url := by
    have hpeers := henv.nodePeers
    rw [← hexport, List.pairwise_map] at hpeers
    exact hpeers
  rw [Database.exportNodePeers, List.orderBy_eq_self_of_lt hsorted, hexport]

theorem ExportEnvelope.Canonical.joinedPeers_of_import (henv : env.Canonical)
    (h : committedImport X ts env .empty = some (db, report, jobs)) :
    db.joinedPeers = (env.restored ts).collectionPeers := by
  obtain ⟨db₁, acc, db₂, peers, hcollections, hnodes, hpeers, -⟩ := committedImport_eq_some.1 h
  obtain ⟨hprogress, -⟩ := progress_of_loop hcollections
  obtain ⟨-, hsame, hknown, hthere⟩ := nodePeers_of_loop hnodes
  have hempty : db₂.joinedPeers = [] := by
    obtain ⟨_, rfl⟩ := Database.applyNodePeers_eq hnodes
    show db₁.collectionPeers.rows.flatMap _ = []
    rw [Database.peers_of_applyCollections hcollections]
    rfl
  have hnames : db₁.collectionNames = env.collections.map ExportedCollection.name := by
    have hdb := henv.collectionNames_of_import h
    obtain ⟨_, _, rfl⟩ := Database.sameContent_applyCollectionPeers hpeers
    replace hdb : db₂.collectionNames = _ := hdb
    rw [Database.collectionNames, hsame] at hdb
    exact hdb
  rw [Database.joinedPeers_of_applyCollectionPeers hempty henv.collectionPeers hpeers]
  refine List.filter_congr fun cp hcp ↦ decide_eq_decide.2 ?_
  have hurl : cp.nodePeerUrl ∈ peers.2 := by
    obtain ⟨p, hp, hpurl⟩ := henv.nodes cp hcp
    rw [hknown, ← hpurl]
    exact hthere p hp
  rw [and_iff_left hurl, hprogress.mem_known, hnames]

theorem ExportEnvelope.Canonical.documents_of_import (henv : env.Canonical)
    (h : committedImport X ts env .empty = some (db, report, jobs)) {docs : List Document}
    (hdocs : docs.Perm (committedJobs jobs)) {e : ExportedCollection} (he : e ∈ env.collections) :
    (documentsUnder docs e.name).Perm e.documents := by
  have hjobs := exported_jobs h
  rw [newDocuments, henv.newCollections_eq] at hjobs
  have hcommitted := committedJobs_eq (hjobs ▸ henv.documents)
  rw [hcommitted] at hdocs
  have hperm : (documentsUnder docs e.name).Perm
      (documentsUnder (jobs.map IndexJob.asDocument) e.name) := (hdocs.filter _).map _
  rw [documentsUnder_asDocument, hjobs,
    filter_exportedDocuments (henv.names.imp fun h ↦ h.ne) he] at hperm
  exact hperm

/-- **Exporting what was imported** into an empty instance. -/
theorem ExportEnvelope.Canonical.agrees_of_import (henv : env.Canonical)
    (h : committedImport X ts env .empty = some (db, report, jobs)) {docs : List Document}
    (hdocs : docs.Perm (committedJobs jobs)) {peers : List ExportedCollectionPeer}
    (hpeers : peers.Perm db.joinedPeers) (exportedAt selfUrl : String) :
    (db.buildEnvelope docs peers exportedAt selfUrl).Agrees (env.restored ts) where
  formatVersion := henv.formatVersion.symm
  collections := by
    have hsorted : db.collections.rows.Pairwise fun c c' ↦ c.name < c'.name := by
      have hlt := List.pairwise_map.2 henv.names
      rw [← henv.collectionNames_of_import h, Database.collectionNames, List.pairwise_map] at hlt
      exact hlt
    have hpairs : List.Forall₂ (fun e c ↦ { e.restored ts with documents := [] } =
        db.exportCollection c) env.collections db.collections.rows := by
      have heq := (henv.collections_of_import h).symm
      rw [← List.forall₂_eq_eq_eq, List.forall₂_map_left_iff, List.forall₂_map_right_iff] at heq
      exact heq
    have hdocuments := (List.forall₂_and_left _ _).2
      ⟨fun e he ↦ henv.documents_of_import h hdocs he, hpairs⟩
    show List.Forall₂ _ ((db.collections.rows.orderBy CollectionRow.name).map _)
      (env.collections.map _)
    rw [List.orderBy_eq_self_of_lt hsorted, List.forall₂_map_left_iff, List.forall₂_map_right_iff]
    refine List.Forall₂.flip (hdocuments.imp fun e c h ↦ ⟨?_, h.2.symm⟩)
    have hname : e.name = c.name := congrArg ExportedCollection.name h.2
    rw [← hname]
    exact h.1
  nodePeers := henv.nodePeers_of_import h
  collectionPeers := by
    rw [← henv.joinedPeers_of_import h]
    exact (List.perm_orderBy ExportedCollectionPeer.key peers).trans hpeers

end Canonical

/-- **Export, import, export**, of the envelope as a value. -/
theorem export_import_export (X : Crates) {db : Database} (hwithin : db.PagesWithin)
    {docs : List Document} (hdocs : docs.Pairwise fun d d' ↦ d.url ≠ d'.url)
    {peers : List ExportedCollectionPeer} (hpeers : peers.Perm db.joinedPeers)
    (exportedAt selfUrl ts : String) :
    ∃ db' report jobs,
      committedImport X ts (db.buildEnvelope docs peers exportedAt selfUrl) .empty =
        some (db', report, jobs) ∧
      ∀ docs' peers' exportedAt' selfUrl', docs'.Perm (committedJobs jobs) →
        peers'.Perm db'.joinedPeers →
        (db'.buildEnvelope docs' peers' exportedAt' selfUrl').Agrees
          ((db.buildEnvelope docs peers exportedAt selfUrl).restored ts) := by
  have henv := Database.canonical_buildEnvelope hwithin hdocs hpeers exportedAt selfUrl
  obtain ⟨db', report, jobs, h⟩ := henv.exists_committedImport X ts
  exact ⟨db', report, jobs, h, fun _ _ exportedAt' selfUrl' hdocs' hpeers' ↦
    henv.agrees_of_import h hdocs' hpeers' exportedAt' selfUrl'⟩

namespace Archive

/-- A collection with a crawled page and two subscriptions, one of which names no collection. -/
def database : Database where
  collections := ⟨[⟨1, ⟨0⟩, "guide", "", "t0", ""⟩], by decide⟩
  crawlTargets := ⟨[⟨1, ⟨1⟩, ⟨0⟩, "https://guide.example/", 3600, 3600, some 7, 1, "t0", none⟩],
    by decide⟩
  crawledPages := ⟨[⟨1, ⟨0⟩, ⟨1⟩, "https://guide.example/", some "\"v1\"", none, some "e21f",
    some 200, 7, some "e21f"⟩], by decide⟩
  rankingConfig := ⟨[⟨1, 30, .parses [("local", 2)], .malformed "", none⟩], by decide⟩
  outlinkHostSuggestions := .empty
  nodePeers := ⟨[⟨1, "https://peer.example", none, 1, 3, none, none, none⟩], by decide⟩
  collectionPeers := ⟨[⟨1, "guide", 1, "handbook", 1, 1⟩, ⟨2, "atlas", 1, "maps", 1, 1⟩],
    by decide⟩
  nextPageId := 2
  nextUuid := 2

def documents : List Document :=
  [⟨"guide", "https://guide.example/", "Guide", "Copy", 7, ⟨0⟩, "e21f", some ⟨1⟩⟩]

theorem export_import_export_guide :
    ∃ db' report jobs,
      committedImport OnePage.crates "t2"
        (database.buildEnvelope documents database.joinedPeers "t1" "") .empty =
        some (db', report, jobs) ∧
      ∀ docs' peers' exportedAt' selfUrl', docs'.Perm (committedJobs jobs) →
        peers'.Perm db'.joinedPeers →
        (db'.buildEnvelope docs' peers' exportedAt' selfUrl').Agrees
          ((database.buildEnvelope documents database.joinedPeers "t1" "").restored "t2") :=
  export_import_export OnePage.crates (by decide) (by decide) (.refl _) "t1" "" "t2"

end Archive

namespace Sys

variable {X : Crates} {valid : Url → Prop} {labels : List TargetLabel} {s : Sys}

theorem pagesWithin_of_run (hX : X.UrlLaws valid)
    (hrun : (targetMachine X).run .init labels = some s) : s.engine.db.PagesWithin :=
  (pagesPlaced_of_run hX hrun).pagesWithin

/-- The index changes by commits only. -/
theorem index_of_sysStep {s s' : Sys} {l : SysLabel} (h : (sysMachine X).step s l = some s') :
    ∃ cmds : List IndexCmd, s'.engine.index = TermCmd.publish Document.url s.engine.index cmds := by
  by_cases hl : ∃ event outcome, l = .indexer event outcome
  · obtain ⟨event, outcome, rfl⟩ := hl
    obtain ⟨-, hs⟩ := Option.ite_none_left_eq_some.1
      (show s.step X (.indexer event outcome) = some s' from h)
    obtain ⟨e, he, rfl⟩ := Option.map_eq_some_iff.1 hs
    cases Engine.turn_of_indexerStep he with
    | kept _ _ _ he => exact ⟨[], by rw [he]; rfl⟩
    | committed _ _ _ _ hindex => exact ⟨_, hindex⟩
    | unjournaled _ _ _ _ hindex => exact ⟨_, hindex⟩
    | lost _ hindex => exact ⟨[], hindex⟩
  · refine ⟨[], (index_of_step h fun event outcome heq ↦ hl ⟨event, outcome, heq⟩).1⟩

theorem index_of_targetStep {s s' : Sys} {l : TargetLabel}
    (h : (targetMachine X).step s l = some s') :
    ∃ cmds : List IndexCmd, s'.engine.index = TermCmd.publish Document.url s.engine.index cmds := by
  have hs : s.targetStep X l = some s' := h
  unfold targetStep at hs
  split at hs
  · exact index_of_sysStep (X := X) (l := .crawlTargets _ _ _) hs
  · split at hs
    all_goals
      obtain rfl := Option.some.inj hs
      exact ⟨[], rfl⟩
  · split at hs
    all_goals
      obtain rfl := Option.some.inj hs
      exact ⟨[], rfl⟩
  · split at hs
    all_goals
      obtain rfl := Option.some.inj hs
      exact ⟨[], rfl⟩
  · obtain ⟨-, hs⟩ := Option.ite_none_left_eq_some.1 hs
    exact index_of_sysStep (X := X) hs

/-- The index has one document for each URL. -/
theorem pairwise_index_of_run (hrun : (targetMachine X).run .init labels = some s) :
    s.engine.index.Pairwise fun d d' ↦ d.url ≠ d'.url := by
  refine Machine.invariant (M := targetMachine X)
    (I := fun s ↦ s.engine.index.Pairwise fun d d' ↦ d.url ≠ d'.url) (fun s l s' hI hs ↦ ?_)
    List.Pairwise.nil ⟨labels, hrun⟩
  obtain ⟨cmds, hcmds⟩ := index_of_targetStep hs
  rw [hcmds]
  exact TermCmd.pairwise_publish hI cmds

end Sys

end CommunitySearch
