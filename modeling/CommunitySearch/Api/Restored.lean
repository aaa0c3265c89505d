import CommunitySearch.Api.Export
import CommunitySearch.Api.ImportRankings

/-!
# What an import leaves to export

A collection that an import creates is exported as the envelope has it, but for three things: no
page is marked as indexed, an empty timestamp has become the time of the import, and its targets and
suggestions are listed by their names. Every other collection is exported as before. This is
`gains_applyCollections`.

Both rest on identifiers being fresh: what a collection exports is found through its identifier,
those of its targets, and its rowid, and an import puts its rows under new ones.
-/

namespace CommunitySearch

/-! ### What is restored -/

def ExportedCrawledPage.restored (p : ExportedCrawledPage) : ExportedCrawledPage :=
  { p with indexedContentHash := none }

def ExportedCrawlTarget.restored (ts : String) (t : ExportedCrawlTarget) : ExportedCrawlTarget :=
  { t with
    createdAt := if t.createdAt.isEmpty then ts else t.createdAt
    crawledPages := t.crawledPages.map ExportedCrawledPage.restored }

def ExportedCollection.restored (ts : String) (c : ExportedCollection) : ExportedCollection :=
  { c with
    createdAt := if c.createdAt.isEmpty then ts else c.createdAt
    updatedAt := if c.updatedAt.isEmpty then ts else c.updatedAt
    crawlTargets := c.crawlTargets.map (ExportedCrawlTarget.restored ts) }

/-- A collection as an export lists it, without its documents. -/
def ExportedCollection.listed (c : ExportedCollection) : ExportedCollection :=
  { c with
    crawlTargets := c.crawlTargets.orderBy ExportedCrawlTarget.urlPrefix
    documents := []
    outlinkHostSuggestions :=
      c.outlinkHostSuggestions.orderBy ExportedOutlinkHostSuggestion.host }

/-! ### Fresh identifiers -/

namespace Database

/-- Whatever is stored under an identifier, the identifier has been drawn. -/
structure Supplied (db : Database) : Prop where
  collection : ∀ c ∈ db.collections, c.id.serial < db.nextUuid
  target : ∀ t ∈ db.crawlTargets, t.id.serial < db.nextUuid ∧ t.collectionId.serial < db.nextUuid
  page : ∀ p ∈ db.crawledPages, p.id < db.nextPageId ∧ p.collectionId.serial < db.nextUuid ∧
    p.crawlTargetId.serial < db.nextUuid
  host : ∀ o ∈ db.outlinkHostSuggestions,
    o.id.serial < db.nextUuid ∧ o.collectionId.serial < db.nextUuid

theorem supplied_empty : empty.Supplied where
  collection _ h := absurd h (Table.not_mem_empty _)
  target _ h := absurd h (Table.not_mem_empty _)
  page _ h := absurd h (Table.not_mem_empty _)
  host _ h := absurd h (Table.not_mem_empty _)

variable {db db' db'' : Database} {collection : Uuid} {ts : String}

theorem Supplied.insertCollection (hdb : db.Supplied) {e : ExportedCollection}
    {cs : Table CollectionRow.Clash}
    (h : db.collections.insert (db.importedCollection ⟨db.nextUuid⟩ ts e) = some cs) :
    Supplied { db with collections := cs, nextUuid := db.nextUuid + 1 } where
  collection c hc := by
    rcases (Table.mem_of_insert h).1 hc with hc | rfl
    · exact Nat.lt_succ_of_lt (hdb.collection c hc)
    · exact Nat.lt_succ_self _
  target t ht := (hdb.target t ht).imp Nat.lt_succ_of_lt Nat.lt_succ_of_lt
  page p hp := (hdb.page p hp).imp_right (And.imp Nat.lt_succ_of_lt Nat.lt_succ_of_lt)
  host o ho := (hdb.host o ho).imp Nat.lt_succ_of_lt Nat.lt_succ_of_lt

theorem mem_pagesOf {target : Uuid} {p : CrawledPageRow} :
    p ∈ db.pagesOf target ↔ p ∈ db.crawledPages ∧ p.crawlTargetId = target := by
  rw [pagesOf, List.mem_filter, decide_eq_true_iff]
  exact Iff.rfl

theorem mem_targetsOf {t : CrawlTargetRow} :
    t ∈ db.targetsOf collection ↔ t ∈ db.crawlTargets ∧ t.collectionId = collection := by
  rw [targetsOf, List.mem_filter, decide_eq_true_iff]
  exact Iff.rfl

theorem mem_hostsOf {o : OutlinkHostRow} :
    o ∈ db.hostsOf collection ↔ o ∈ db.outlinkHostSuggestions ∧ o.collectionId = collection := by
  rw [hostsOf, List.mem_filter, decide_eq_true_iff]
  exact Iff.rfl

theorem exportCrawlTarget_congr {t : CrawlTargetRow} (h : db'.pagesOf t.id = db.pagesOf t.id) :
    db'.exportCrawlTarget t = db.exportCrawlTarget t := by
  rw [exportCrawlTarget, exportCrawlTarget, exportCrawledPages, exportCrawledPages, h]

theorem exportCollection_congr {c : CollectionRow}
    (htargets : db'.targetsOf c.id = db.targetsOf c.id)
    (hpages : ∀ t ∈ db.targetsOf c.id, db'.pagesOf t.id = db.pagesOf t.id)
    (hranking : db'.rankingRow c.rowid = db.rankingRow c.rowid)
    (hhosts : db'.hostsOf c.id = db.hostsOf c.id) :
    db'.exportCollection c = db.exportCollection c := by
  have hexport : db'.exportCrawlTargets c.id = db.exportCrawlTargets c.id := by
    rw [exportCrawlTargets, exportCrawlTargets, htargets]
    exact List.map_congr_left fun t ht ↦
      exportCrawlTarget_congr (hpages t (List.mem_orderBy.1 ht))
  rw [exportCollection, exportCollection, hexport, exportRankingConfig, exportRankingConfig,
    hranking, exportOutlinks, exportOutlinks, hhosts]

/-! ### Targets -/

/-- The rows stored for the pages `ps` of a target, under page ids from `n` on and below `m`. -/
structure PageRows (collection target : Uuid) (n m : Int) (ps : List ExportedCrawledPage)
    (rows : List CrawledPageRow) : Prop where
  exported : rows.map CrawledPageRow.exported = ps.map ExportedCrawledPage.restored
  keys : ∀ p ∈ rows, p.collectionId = collection ∧ p.crawlTargetId = target
  ids : ∀ p ∈ rows, n ≤ p.id ∧ p.id < m
  sorted : rows.Pairwise fun p q ↦ p.id < q.id
  le : n ≤ m

/-- **The pages of a target**, row by row. -/
theorem rows_of_importPages {target : Uuid} {report report' : ImportReport}
    {ps : List ExportedCrawledPage}
    (h : Sql.exec false (Sql.loop (importPage collection target) report ps) db =
      some (db', report')) :
    ∃ pages n rows, db' = { db with crawledPages := pages, nextPageId := n } ∧
      pages.rows = db.crawledPages.rows ++ rows ∧
      PageRows collection target db.nextPageId n ps rows := by
  refine Sql.loop_done_invariant (I := fun done db' _ ↦ ∃ pages n rows,
    db' = { db with crawledPages := pages, nextPageId := n } ∧
      pages.rows = db.crawledPages.rows ++ rows ∧
      PageRows collection target db.nextPageId n done rows)
    (fun done e db₁ _ db₂ _ hI he ↦ ?_) ?_ h
  · obtain ⟨pages, n, rows, rfl, hrows, hnew⟩ := hI
    rw [exec_importPage] at he
    obtain ⟨pages', hpages', he⟩ := Option.map_eq_some_iff.1 he
    obtain ⟨rfl, -⟩ := Prod.mk.inj he
    set row := importedPage { db with crawledPages := pages, nextPageId := n } collection target e
    refine ⟨pages', n + 1, rows ++ [row], rfl, ?_, ?_, fun p hp ↦ ?_, fun p hp ↦ ?_, ?_, ?_⟩
    · rw [Table.rows_of_insert hpages', hrows, List.append_assoc]
    · rw [List.map_append, List.map_append, hnew.exported]
      rfl
    · rcases List.mem_append.1 hp with hold | hp
      · exact hnew.keys p hold
      · obtain rfl := List.mem_singleton.1 hp
        exact ⟨rfl, rfl⟩
    · rcases List.mem_append.1 hp with hold | hp
      · exact ⟨(hnew.ids p hold).1, Int.lt_add_one_of_le (Int.le_of_lt (hnew.ids p hold).2)⟩
      · obtain rfl := List.mem_singleton.1 hp
        exact ⟨hnew.le, Int.lt_succ n⟩
    · refine List.pairwise_append.2 ⟨hnew.sorted, List.pairwise_singleton _ _, fun p hp q hq ↦ ?_⟩
      obtain rfl := List.mem_singleton.1 hq
      exact (hnew.ids p hp).2
    · exact Int.le_trans hnew.le (Int.le_of_lt (Int.lt_succ n))
  · exact ⟨db.crawledPages, db.nextPageId, [], rfl, (List.append_nil _).symm, rfl,
      fun _ hp ↦ absurd hp List.not_mem_nil, fun _ hp ↦ absurd hp List.not_mem_nil, .nil,
      Int.le_refl _⟩

/-- The targets `es` are added to a collection, under new identifiers, and their pages. -/
structure Nests (db : Database) (collection : Uuid) (ts : String) (es : List ExportedCrawlTarget)
    (db' : Database) : Prop where
  supplied : db'.Supplied
  supply : db.nextUuid ≤ db'.nextUuid
  collections : db'.collections = db.collections
  rankings : db'.rankingConfig = db.rankingConfig
  hosts : db'.outlinkHostSuggestions = db.outlinkHostSuggestions
  rows : ∃ rows, db'.crawlTargets.rows = db.crawlTargets.rows ++ rows ∧
    (∀ t ∈ rows, t.collectionId = collection ∧ db.nextUuid ≤ t.id.serial) ∧
    rows.map db'.exportCrawlTarget = es.map (ExportedCrawlTarget.restored ts)
  pages : ∀ target : Uuid, target.serial < db.nextUuid → db'.pagesOf target = db.pagesOf target
  keys : ∀ p ∈ db'.crawledPages, p ∈ db.crawledPages ∨
    p.collectionId = collection ∧ ∃ e ∈ es, ∃ q ∈ e.crawledPages, q.url = p.url

namespace Nests

theorem refl (h : db.Supplied) : db.Nests collection ts [] db where
  supplied := h
  supply := Nat.le_refl _
  collections := rfl
  rankings := rfl
  hosts := rfl
  rows := ⟨[], (List.append_nil _).symm, fun _ ht ↦ absurd ht List.not_mem_nil, rfl⟩
  pages _ _ := rfl
  keys _ hp := Or.inl hp

theorem trans {es es' : List ExportedCrawlTarget} (h : db.Nests collection ts es db')
    (h' : db'.Nests collection ts es' db'') : db.Nests collection ts (es ++ es') db'' where
  supplied := h'.supplied
  supply := Nat.le_trans h.supply h'.supply
  collections := h'.collections.trans h.collections
  rankings := h'.rankings.trans h.rankings
  hosts := h'.hosts.trans h.hosts
  rows := by
    obtain ⟨rows, hrows, hnew, hexport⟩ := h.rows
    obtain ⟨rows', hrows', hnew', hexport'⟩ := h'.rows
    refine ⟨rows ++ rows', by rw [hrows', hrows, List.append_assoc], fun t ht ↦ ?_, ?_⟩
    · rcases List.mem_append.1 ht with ht | ht
      · exact hnew t ht
      · exact ⟨(hnew' t ht).1, Nat.le_trans h.supply (hnew' t ht).2⟩
    · rw [List.map_append, List.map_append, hexport', ← hexport]
      refine congrArg (· ++ _) (List.map_congr_left fun t ht ↦ exportCrawlTarget_congr ?_)
      have hmem : t ∈ db'.crawlTargets := by
        rw [Table.mem_def, hrows]
        exact List.mem_append_right _ ht
      exact h'.pages t.id (h.supplied.target t hmem).1
  pages target ht :=
    (h'.pages target (Nat.lt_of_lt_of_le ht h.supply)).trans (h.pages target ht)
  keys p hp := by
    rcases h'.keys p hp with hp | ⟨hc, e, he, hurl⟩
    · rcases h.keys p hp with hp | ⟨hc, e, he, hurl⟩
      · exact Or.inl hp
      · exact Or.inr ⟨hc, e, List.mem_append_left _ he, hurl⟩
    · exact Or.inr ⟨hc, e, List.mem_append_right _ he, hurl⟩

end Nests

/-- **A target is added** with its pages. -/
theorem nests_importTarget {report report' : ImportReport} {e : ExportedCrawlTarget}
    (hdb : db.Supplied) (hc : collection.serial < db.nextUuid)
    (h : Sql.exec false (importTarget collection ts report e) db = some (db', report')) :
    db.Nests collection ts [e] db' := by
  rw [exec_importTarget] at h
  obtain ⟨targets, htargets, h⟩ := Option.bind_eq_some_iff.1 h
  obtain ⟨pages, n, rows, rfl, hpages, hnew⟩ := rows_of_importPages h
  replace hnew : PageRows collection ⟨db.nextUuid⟩ db.nextPageId n e.crawledPages rows := hnew
  set row := db.importedTarget collection ⟨db.nextUuid⟩ ts e
  have hold : ∀ target : Uuid, target.serial < db.nextUuid →
      rows.filter (fun p ↦ p.crawlTargetId = target) = [] := fun target hlt ↦ by
    rw [List.filter_eq_nil_iff]
    intro p hp heq
    rw [decide_eq_true_iff, (hnew.keys p hp).2] at heq
    exact absurd (congrArg Uuid.serial heq) (Nat.ne_of_gt hlt)
  constructor
  · refine ⟨fun c h ↦ Nat.lt_succ_of_lt (hdb.collection c h), fun t ht ↦ ?_, fun p hp ↦ ?_,
      fun o ho ↦ (hdb.host o ho).imp Nat.lt_succ_of_lt Nat.lt_succ_of_lt⟩
    · rcases (Table.mem_of_insert htargets).1 ht with ht | rfl
      · exact (hdb.target t ht).imp Nat.lt_succ_of_lt Nat.lt_succ_of_lt
      · exact ⟨Nat.lt_succ_self _, Nat.lt_succ_of_lt hc⟩
    · replace hp : p ∈ pages.rows := hp
      rw [hpages] at hp
      rcases List.mem_append.1 hp with hp | hp
      · obtain ⟨hid, hcol, htgt⟩ := hdb.page p hp
        exact ⟨Int.lt_of_lt_of_le hid hnew.le, Nat.lt_succ_of_lt hcol, Nat.lt_succ_of_lt htgt⟩
      · obtain ⟨hcol, htgt⟩ := hnew.keys p hp
        rw [hcol, htgt]
        exact ⟨(hnew.ids p hp).2, Nat.lt_succ_of_lt hc, Nat.lt_succ_self _⟩
  · exact Nat.le_succ _
  · rfl
  · rfl
  · rfl
  · refine ⟨[row], Table.rows_of_insert htargets, fun t ht ↦ ?_, ?_⟩
    · obtain rfl := List.mem_singleton.1 ht
      exact ⟨rfl, Nat.le_refl _⟩
    · have hempty : db.pagesOf ⟨db.nextUuid⟩ = [] := by
        rw [pagesOf, List.filter_eq_nil_iff]
        intro p hp heq
        rw [decide_eq_true_iff] at heq
        exact absurd (congrArg Uuid.serial heq) (Nat.ne_of_lt (hdb.page p hp).2.2)
      have hall : rows.filter (fun p ↦ p.crawlTargetId = ⟨db.nextUuid⟩) = rows :=
        List.filter_eq_self.2 fun p hp ↦ decide_eq_true (hnew.keys p hp).2
      have hown : (pages.rows.filter fun p ↦ p.crawlTargetId = ⟨db.nextUuid⟩) = rows := by
        rw [hpages, List.filter_append, hall]
        exact (congrArg (· ++ rows) hempty).trans (List.nil_append rows)
      have hexport : ((pages.rows.filter fun p ↦ p.crawlTargetId = ⟨db.nextUuid⟩).orderBy
          CrawledPageRow.id).map CrawledPageRow.exported =
            e.crawledPages.map ExportedCrawledPage.restored := by
        rw [hown, List.orderBy_eq_self_of_lt hnew.sorted, hnew.exported]
      exact congrArg (fun pages ↦ [{ row.exported with crawledPages := pages }]) hexport
  · intro target hlt
    show (pages.rows.filter fun p ↦ p.crawlTargetId = target) = _
    rw [hpages, List.filter_append, hold target hlt, List.append_nil]
    rfl
  · intro p hp
    replace hp : p ∈ pages.rows := hp
    rw [hpages] at hp
    rcases List.mem_append.1 hp with hp | hp
    · exact Or.inl hp
    · have hurl : p.url ∈ (rows.map CrawledPageRow.exported).map ExportedCrawledPage.url := by
        rw [List.map_map]
        exact List.mem_map_of_mem (f := ExportedCrawledPage.url ∘ CrawledPageRow.exported) hp
      rw [hnew.exported, List.map_map] at hurl
      obtain ⟨q, hq, hqurl⟩ := List.mem_map.1 hurl
      exact Or.inr ⟨(hnew.keys p hp).1, e, List.mem_singleton_self e, q, hq, hqurl⟩

theorem nests_importTargets {report report' : ImportReport} {es : List ExportedCrawlTarget}
    (hdb : db.Supplied) (hc : collection.serial < db.nextUuid)
    (h : Sql.exec false (Sql.loop (importTarget collection ts) report es) db =
      some (db', report')) : db.Nests collection ts es db' :=
  Sql.loop_done_invariant (I := fun done db' _ ↦ db.Nests collection ts done db')
    (fun _ _ _ _ _ _ hI he ↦
      hI.trans (nests_importTarget hI.supplied (Nat.lt_of_lt_of_le hc hI.supply) he))
    (.refl hdb) h

/-! ### Collections -/

/-- **The suggestions of a collection**, row by row. -/
theorem rows_of_importOutlinkHosts {report report' : ImportReport}
    {os : List ExportedOutlinkHostSuggestion}
    (h : Sql.exec false (Sql.loop (importOutlinkHost collection) report os) db =
      some (db', report')) :
    ∃ hosts n rows, db' = { db with outlinkHostSuggestions := hosts, nextUuid := n } ∧
      hosts.rows = db.outlinkHostSuggestions.rows ++ rows ∧
      rows.map OutlinkHostRow.exported = os ∧
      (∀ o ∈ rows, o.collectionId = collection ∧ o.id.serial < n) ∧ db.nextUuid ≤ n := by
  refine Sql.loop_done_invariant (I := fun done db' _ ↦ ∃ hosts n rows,
    db' = { db with outlinkHostSuggestions := hosts, nextUuid := n } ∧
      hosts.rows = db.outlinkHostSuggestions.rows ++ rows ∧
      rows.map OutlinkHostRow.exported = done ∧
      (∀ o ∈ rows, o.collectionId = collection ∧ o.id.serial < n) ∧ db.nextUuid ≤ n)
    (fun done e db₁ _ db₂ _ hI he ↦ ?_) ?_ h
  · obtain ⟨hosts, n, rows, rfl, hrows, hexport, hnew, hn⟩ := hI
    rw [exec_importOutlinkHost] at he
    obtain ⟨hosts', hhosts', he⟩ := Option.map_eq_some_iff.1 he
    obtain ⟨rfl, -⟩ := Prod.mk.inj he
    set row := importedOutlinkHost { db with outlinkHostSuggestions := hosts, nextUuid := n }
      collection ⟨n⟩ e
    refine ⟨hosts', n + 1, rows ++ [row], rfl, ?_, ?_, fun o ho ↦ ?_, Nat.le_succ_of_le hn⟩
    · rw [Table.rows_of_insert hhosts', hrows, List.append_assoc]
    · rw [List.map_append, hexport]
      rfl
    · rcases List.mem_append.1 ho with ho | ho
      · exact (hnew o ho).imp_right Nat.lt_succ_of_lt
      · obtain rfl := List.mem_singleton.1 ho
        exact ⟨rfl, Nat.lt_succ_self n⟩
  · exact ⟨db.outlinkHostSuggestions, db.nextUuid, [], rfl, (List.append_nil _).symm, rfl,
      fun _ ho ↦ absurd ho List.not_mem_nil, Nat.le_refl _⟩

/-- A collection is created with all that is nested under it, under a fresh identifier. -/
structure Creates (db : Database) (ts : String) (e : ExportedCollection) (db' : Database) :
    Prop where
  supplied : db'.Supplied
  collections : db'.collections.rows =
    db.collections.rows ++ [db.importedCollection ⟨db.nextUuid⟩ ts e]
  targets : ∃ rows, db'.crawlTargets.rows = db.crawlTargets.rows ++ rows ∧
    (∀ t ∈ rows, t.collectionId = ⟨db.nextUuid⟩) ∧
    rows.map db'.exportCrawlTarget = e.crawlTargets.map (ExportedCrawlTarget.restored ts)
  pages : ∀ target : Uuid, target.serial < db.nextUuid → db'.pagesOf target = db.pagesOf target
  rankings : db'.rankingConfig.rows =
    db.rankingConfig.rows ++ (e.rankingConfig.map (importedRanking db.nextCollection)).toList
  hosts : ∃ rows, db'.outlinkHostSuggestions.rows = db.outlinkHostSuggestions.rows ++ rows ∧
    (∀ o ∈ rows, o.collectionId = ⟨db.nextUuid⟩) ∧
    rows.map OutlinkHostRow.exported = e.outlinkHostSuggestions
  next : db'.nextCollection = db.nextCollection + 1

variable {X : Crates} {acc acc' : ImportProgress} {e : ExportedCollection}

/-- **A collection is created**, part by part. -/
theorem creates_importCollection (hdb : db.Supplied)
    (h : Sql.exec false (importCollection X ts acc e) db = some (db', acc')) :
    db.Creates ts e db' := by
  have hcs := (collections_of_importCollection h).1
  have hrankings := rankings_of_importCollection h
  have hnext := nextCollection_of_importCollection h
  obtain ⟨cs, db₁, report₁, db₂, report₂, hinsert, htargets, hranking, hhosts, -⟩ :=
    exec_importCollection_eq_some.1 h
  have hnests := nests_importTargets (hdb.insertCollection hinsert) (Nat.lt_succ_self _) htargets
  obtain ⟨rankings, rfl, -⟩ := rankings_of_importRankingConfig hranking
  obtain ⟨hosts, n, rows, rfl, hrows, hexport, hnew, hn⟩ := rows_of_importOutlinkHosts hhosts
  replace hn : db₁.nextUuid ≤ n := hn
  replace hrows : hosts.rows = db.outlinkHostSuggestions.rows ++ rows :=
    hrows.trans (congrArg (fun t ↦ t.rows ++ rows) hnests.hosts)
  obtain ⟨targetRows, htargetRows, htargetNew, htargetExport⟩ := hnests.rows
  constructor
  · refine ⟨fun c hc ↦ Nat.lt_of_lt_of_le (hnests.supplied.collection c hc) hn,
      fun t ht ↦ (hnests.supplied.target t ht).imp (Nat.lt_of_lt_of_le · hn)
        (Nat.lt_of_lt_of_le · hn),
      fun p hp ↦ (hnests.supplied.page p hp).imp_right (And.imp (Nat.lt_of_lt_of_le · hn)
        (Nat.lt_of_lt_of_le · hn)), fun o ho ↦ ?_⟩
    replace ho : o ∈ hosts.rows := ho
    rw [hrows] at ho
    rcases List.mem_append.1 ho with ho | ho
    · have hle := Nat.le_trans (Nat.le_trans (Nat.le_succ _) hnests.supply) hn
      exact (hdb.host o ho).imp (Nat.lt_of_lt_of_le · hle) (Nat.lt_of_lt_of_le · hle)
    · refine ⟨(hnew o ho).2, ?_⟩
      rw [(hnew o ho).1]
      exact Nat.lt_of_lt_of_le (Nat.lt_of_succ_le hnests.supply) hn
  · exact Table.rows_of_insert hcs
  · exact ⟨targetRows, htargetRows, fun t ht ↦ (htargetNew t ht).1, htargetExport⟩
  · exact fun target htarget ↦ hnests.pages target (Nat.lt_succ_of_lt htarget)
  · exact hrankings
  · exact ⟨rows, hrows, fun o ho ↦ (hnew o ho).1, hexport⟩
  · exact hnext

/-- No configuration is stored for a collection that is yet to come. -/
def RankingsBelow (db : Database) : Prop :=
  ∀ r ∈ db.rankingConfig, r.collectionId < db.nextCollection

namespace Creates

/-- The other collections have the targets they had. -/
theorem targetsOf (h : db.Creates ts e db') {c : Uuid} (hc : c.serial < db.nextUuid) :
    db'.targetsOf c = db.targetsOf c := by
  obtain ⟨rows, hrows, hnew, -⟩ := h.targets
  have hnone : rows.filter (fun t ↦ t.collectionId = c) = [] := by
    rw [List.filter_eq_nil_iff]
    intro t ht heq
    rw [decide_eq_true_iff, hnew t ht] at heq
    exact absurd (congrArg Uuid.serial heq) (Nat.ne_of_gt hc)
  rw [Database.targetsOf, hrows, List.filter_append, hnone, List.append_nil]
  rfl

/-- The other collections have the suggestions they had. -/
theorem hostsOf (h : db.Creates ts e db') {c : Uuid} (hc : c.serial < db.nextUuid) :
    db'.hostsOf c = db.hostsOf c := by
  obtain ⟨rows, hrows, hnew, -⟩ := h.hosts
  have hnone : rows.filter (fun o ↦ o.collectionId = c) = [] := by
    rw [List.filter_eq_nil_iff]
    intro o ho heq
    rw [decide_eq_true_iff, hnew o ho] at heq
    exact absurd (congrArg Uuid.serial heq) (Nat.ne_of_gt hc)
  rw [Database.hostsOf, hrows, List.filter_append, hnone, List.append_nil]
  rfl

theorem rankingRow (h : db.Creates ts e db') (key : Int) :
    db'.rankingRow key = (db.rankingRow key).or
      ((e.rankingConfig.map (importedRanking db.nextCollection)).filter
        fun r ↦ r.collectionId = key) := by
  rw [Database.rankingRow, h.rankings, List.find?_append]
  refine congrArg _ ?_
  cases e.rankingConfig with
  | none => rfl
  | some rc => exact List.find?_singleton

/-- **What was there** exports as before. -/
theorem kept (h : db.Creates ts e db') (hdb : db.Supplied) {c : CollectionRow}
    (hc : c ∈ db.collections) : db'.exportCollection c = db.exportCollection c := by
  have hid := hdb.collection c hc
  refine exportCollection_congr (h.targetsOf hid) (fun t ht ↦ ?_) ?_ (h.hostsOf hid)
  · exact h.pages t.id (hdb.target t (mem_targetsOf.1 ht).1).1
  · have hlt : c.rowid < db.nextCollection := lt_nextRowid (List.mem_map_of_mem hc)
    rw [h.rankingRow, Option.filter_eq_none_iff.2, Option.or_none]
    intro r hr hkey
    obtain ⟨rc, -, rfl⟩ := Option.map_eq_some_iff.1 hr
    exact absurd (of_decide_eq_true hkey) (Int.ne_of_gt hlt)

/-- **The new collection** exports as it is restored. -/
theorem exportCollection (h : db.Creates ts e db') (hdb : db.Supplied) (hbelow : db.RankingsBelow) :
    db'.exportCollection (db.importedCollection ⟨db.nextUuid⟩ ts e) = e.listed.restored ts := by
  have htargets : db'.exportCrawlTargets ⟨db.nextUuid⟩ =
      (e.crawlTargets.orderBy ExportedCrawlTarget.urlPrefix).map
        (ExportedCrawlTarget.restored ts) := by
    obtain ⟨rows, hrows, hnew, hexport⟩ := h.targets
    have hnone : db.targetsOf ⟨db.nextUuid⟩ = [] := by
      rw [Database.targetsOf, List.filter_eq_nil_iff]
      intro t ht heq
      rw [decide_eq_true_iff] at heq
      exact absurd (congrArg Uuid.serial heq) (Nat.ne_of_lt (hdb.target t ht).2)
    have hall : rows.filter (fun t ↦ t.collectionId = ⟨db.nextUuid⟩) = rows :=
      List.filter_eq_self.2 fun t ht ↦ decide_eq_true (hnew t ht)
    have hown : db'.targetsOf ⟨db.nextUuid⟩ = rows := by
      rw [Database.targetsOf, hrows, List.filter_append, hall]
      exact (congrArg (· ++ rows) hnone).trans (List.nil_append rows)
    have hsort : (rows.orderBy CrawlTargetRow.urlPrefix).map db'.exportCrawlTarget =
        (rows.map db'.exportCrawlTarget).orderBy ExportedCrawlTarget.urlPrefix :=
      List.map_orderBy (fun _ ↦ by rfl) rows
    have hsort' : (e.crawlTargets.orderBy ExportedCrawlTarget.urlPrefix).map
        (ExportedCrawlTarget.restored ts) = (e.crawlTargets.map
          (ExportedCrawlTarget.restored ts)).orderBy ExportedCrawlTarget.urlPrefix :=
      List.map_orderBy (fun _ ↦ by rfl) e.crawlTargets
    rw [exportCrawlTargets, hown, hsort, hexport, hsort']
  have hhosts : db'.exportOutlinks ⟨db.nextUuid⟩ =
      e.outlinkHostSuggestions.orderBy ExportedOutlinkHostSuggestion.host := by
    obtain ⟨rows, hrows, hnew, hexport⟩ := h.hosts
    have hnone : db.hostsOf ⟨db.nextUuid⟩ = [] := by
      rw [Database.hostsOf, List.filter_eq_nil_iff]
      intro o ho heq
      rw [decide_eq_true_iff] at heq
      exact absurd (congrArg Uuid.serial heq) (Nat.ne_of_lt (hdb.host o ho).2)
    have hall : rows.filter (fun o ↦ o.collectionId = ⟨db.nextUuid⟩) = rows :=
      List.filter_eq_self.2 fun o ho ↦ decide_eq_true (hnew o ho)
    have hown : db'.hostsOf ⟨db.nextUuid⟩ = rows := by
      rw [Database.hostsOf, hrows, List.filter_append, hall]
      exact (congrArg (· ++ rows) hnone).trans (List.nil_append rows)
    have hsort : (rows.orderBy OutlinkHostRow.host).map OutlinkHostRow.exported =
        (rows.map OutlinkHostRow.exported).orderBy ExportedOutlinkHostSuggestion.host :=
      List.map_orderBy (fun _ ↦ by rfl) rows
    rw [exportOutlinks, hown, hsort, hexport]
  have hranking : db'.exportRankingConfig db.nextCollection = e.rankingConfig := by
    have hnone : db.rankingRow db.nextCollection = none :=
      rankingRow_eq_none.2 fun r hr ↦ Int.ne_of_lt (hbelow r hr)
    rw [exportRankingConfig, h.rankingRow, hnone, Option.none_or]
    cases e.rankingConfig with
    | none => rfl
    | some rc =>
      have hkey : decide ((importedRanking db.nextCollection rc).collectionId =
          db.nextCollection) = true := decide_eq_true rfl
      rw [Option.map_some, Option.filter_some, if_pos hkey]
      rfl
  rw [Database.exportCollection]
  show ExportedCollection.mk _ _ _ _ (db'.exportCrawlTargets ⟨db.nextUuid⟩)
    (db'.exportRankingConfig db.nextCollection) [] (db'.exportOutlinks ⟨db.nextUuid⟩) = _
  rw [htargets, hhosts, hranking]
  rfl

theorem below (h : db.Creates ts e db') (hdb : db.RankingsBelow) : db'.RankingsBelow := by
  intro r hr
  rw [Table.mem_def, h.rankings] at hr
  rw [h.next]
  rcases List.mem_append.1 hr with hr | hr
  · exact Int.lt_add_one_of_le (Int.le_of_lt (hdb r hr))
  · obtain ⟨rc, -, rfl⟩ := Option.map_eq_some_iff.1 (Option.mem_toList.1 hr)
    exact Int.lt_succ _

end Creates

/-- The collections `es` are added, and export as they are restored unless a configuration was
waiting for one of them. What was there exports as before. -/
structure Gains (db : Database) (ts : String) (es : List ExportedCollection) (db' : Database) :
    Prop where
  supplied : db'.Supplied
  kept : ∀ c ∈ db.collections, db'.exportCollection c = db.exportCollection c
  below : db.RankingsBelow → db'.RankingsBelow
  rows : ∃ rows, db'.collections.rows = db.collections.rows ++ rows ∧
    (db.RankingsBelow → rows.map db'.exportCollection = es.map fun e ↦ e.listed.restored ts)

namespace Gains

theorem refl (h : db.Supplied) : db.Gains ts [] db where
  supplied := h
  kept _ _ := rfl
  below h := h
  rows := ⟨[], (List.append_nil _).symm, fun _ ↦ rfl⟩

theorem trans {es es' : List ExportedCollection} (h : db.Gains ts es db')
    (h' : db'.Gains ts es' db'') : db.Gains ts (es ++ es') db'' where
  supplied := h'.supplied
  kept c hc := by
    obtain ⟨rows, hrows, -⟩ := h.rows
    have hmem : c ∈ db'.collections := by
      rw [Table.mem_def, hrows]
      exact List.mem_append_left _ hc
    exact (h'.kept c hmem).trans (h.kept c hc)
  below hdb := h'.below (h.below hdb)
  rows := by
    obtain ⟨rows, hrows, hexport⟩ := h.rows
    obtain ⟨rows', hrows', hexport'⟩ := h'.rows
    refine ⟨rows ++ rows', by rw [hrows', hrows, List.append_assoc], fun hdb ↦ ?_⟩
    rw [List.map_append, List.map_append, hexport' (h.below hdb), ← hexport hdb]
    refine congrArg (· ++ _) (List.map_congr_left fun c hc ↦ h'.kept c ?_)
    rw [Table.mem_def, hrows]
    exact List.mem_append_right _ hc

end Gains

theorem Creates.gains (h : db.Creates ts e db') (hdb : db.Supplied) : db.Gains ts [e] db' where
  supplied := h.supplied
  kept _ hc := h.kept hdb hc
  below := h.below
  rows := ⟨_, h.collections, fun hbelow ↦ congrArg (fun c ↦ [c]) (h.exportCollection hdb hbelow)⟩

/-- **The loop over the collections** adds those that are new. -/
theorem gains_applyCollections {es : List ExportedCollection} (hdb : db.Supplied)
    (h : Sql.exec false (Sql.loop (applyCollection X ts) acc es) db = some (db', acc')) :
    db.Gains ts (newCollections acc.knownCollectionNames es) db' := by
  obtain ⟨done, hgains, hdone⟩ := newCollections_invariant (I := fun rest db₁ _ ↦
    ∃ done, db.Gains ts done db₁ ∧
      done ++ rest = newCollections acc.knownCollectionNames es)
    (by
      rintro c rest db₁ _ db₂ _ ⟨done, hgains, hdone⟩ hc
      refine ⟨done ++ [c], hgains.trans ?_, by rw [← hdone, List.append_assoc]; rfl⟩
      exact (creates_importCollection hgains.supplied hc).gains hgains.supplied)
    ⟨[], .refl hdb, rfl⟩ h
  rw [List.append_nil] at hdone
  exact hdone ▸ hgains

end Database

end CommunitySearch
