import CommunitySearch.Api.ExportImport

/-!
# What an import leaves

An import only adds to the database: every row is kept, no page it adds is marked as indexed, and
whatever it adds has its parents (`Database.Extends`); the same holds of creating a collection and
of adding a target. Its jobs are for collections it has created.
-/

namespace CommunitySearch

namespace Database

/-- The database `db'` has every row of `db`. -/
structure Keeps (db db' : Database) : Prop where
  collections : ∀ c ∈ db.collections, c ∈ db'.collections
  targets : ∀ t ∈ db.crawlTargets, t ∈ db'.crawlTargets
  pages : ∀ p ∈ db.crawledPages, p ∈ db'.crawledPages
  rankings : ∀ r ∈ db.rankingConfig, r ∈ db'.rankingConfig
  hosts : ∀ o ∈ db.outlinkHostSuggestions, o ∈ db'.outlinkHostSuggestions
  nodes : ∀ np ∈ db.nodePeers, np ∈ db'.nodePeers
  peers : ∀ cp ∈ db.collectionPeers, cp ∈ db'.collectionPeers

/-- The rows of `db'` that are not in `db` refer to rows of `db'`. A subscription also names a
collection, though no constraint of the schema says so. -/
structure Parented (db db' : Database) : Prop where
  target : ∀ t ∈ db'.crawlTargets, t ∈ db.crawlTargets ∨ db'.HasCollection t.collectionId
  page : ∀ p ∈ db'.crawledPages, p ∈ db.crawledPages ∨
    (db'.HasCollection p.collectionId ∧ db'.HasTarget p.crawlTargetId)
  host : ∀ o ∈ db'.outlinkHostSuggestions,
    o ∈ db.outlinkHostSuggestions ∨ db'.HasCollection o.collectionId
  peer : ∀ cp ∈ db'.collectionPeers, cp ∈ db.collectionPeers ∨
    (db'.HasNode cp.nodePeerId ∧ cp.localCollection ∈ db'.collectionNames)

/-- The database `db'` has what `db` has, and nothing new in it is marked or without parents. -/
structure Extends (db db' : Database) : Prop extends db.Keeps db', db.Parented db' where
  unmarked : ∀ p ∈ db'.crawledPages, p ∈ db.crawledPages ∨ p.indexedContentHash = none

variable {db db' db'' : Database}

theorem mem_collectionNames {name : String} :
    name ∈ db.collectionNames ↔ ∃ c ∈ db.collections, c.name = name :=
  List.mem_map

theorem mem_nodePeerUrls {url : String} :
    url ∈ db.nodePeerUrls ↔ ∃ np ∈ db.nodePeers, np.url = url :=
  List.mem_map

namespace Keeps

theorem refl (db : Database) : db.Keeps db :=
  ⟨fun _ h ↦ h, fun _ h ↦ h, fun _ h ↦ h, fun _ h ↦ h, fun _ h ↦ h, fun _ h ↦ h, fun _ h ↦ h⟩

theorem trans (h : db.Keeps db') (h' : db'.Keeps db'') : db.Keeps db'' where
  collections c hc := h'.collections c (h.collections c hc)
  targets t ht := h'.targets t (h.targets t ht)
  pages p hp := h'.pages p (h.pages p hp)
  rankings r hr := h'.rankings r (h.rankings r hr)
  hosts o ho := h'.hosts o (h.hosts o ho)
  nodes np hnp := h'.nodes np (h.nodes np hnp)
  peers cp hcp := h'.peers cp (h.peers cp hcp)

theorem hasCollection (h : db.Keeps db') {id : Uuid} (hc : db.HasCollection id) :
    db'.HasCollection id := by
  obtain ⟨c, hc, hid⟩ := hc
  exact ⟨c, h.collections c hc, hid⟩

theorem hasTarget (h : db.Keeps db') {id : Uuid} (ht : db.HasTarget id) : db'.HasTarget id := by
  obtain ⟨t, ht, hid⟩ := ht
  exact ⟨t, h.targets t ht, hid⟩

theorem hasNode (h : db.Keeps db') {id : Int} (hnp : db.HasNode id) : db'.HasNode id := by
  obtain ⟨np, hnp, hid⟩ := hnp
  exact ⟨np, h.nodes np hnp, hid⟩

theorem hasPage (h : db.Keeps db') {c : Uuid} {u : String} (hp : db.HasPage c u) :
    db'.HasPage c u := by
  obtain ⟨p, hp, hrest⟩ := hp
  exact ⟨p, h.pages p hp, hrest⟩

theorem collectionNames (h : db.Keeps db') {name : String} (hname : name ∈ db.collectionNames) :
    name ∈ db'.collectionNames := by
  obtain ⟨c, hc, hname⟩ := mem_collectionNames.1 hname
  exact mem_collectionNames.2 ⟨c, h.collections c hc, hname⟩

end Keeps

namespace Extends

theorem refl (db : Database) : db.Extends db where
  toKeeps := .refl db
  toParented := ⟨fun _ h ↦ Or.inl h, fun _ h ↦ Or.inl h, fun _ h ↦ Or.inl h, fun _ h ↦ Or.inl h⟩
  unmarked _ h := Or.inl h

theorem trans (h : db.Extends db') (h' : db'.Extends db'') : db.Extends db'' where
  toKeeps := h.toKeeps.trans h'.toKeeps
  target t ht := by
    rcases h'.target t ht with ht | hnew
    · exact (h.target t ht).imp_right h'.hasCollection
    · exact Or.inr hnew
  page p hp := by
    rcases h'.page p hp with hp | hnew
    · exact (h.page p hp).imp_right (And.imp h'.hasCollection h'.hasTarget)
    · exact Or.inr hnew
  host o ho := by
    rcases h'.host o ho with ho | hnew
    · exact (h.host o ho).imp_right h'.hasCollection
    · exact Or.inr hnew
  peer cp hcp := by
    rcases h'.peer cp hcp with hcp | hnew
    · exact (h.peer cp hcp).imp_right (And.imp h'.hasNode h'.collectionNames)
    · exact Or.inr hnew
  unmarked p hp := (h'.unmarked p hp).elim (h.unmarked p) Or.inr

theorem foreignKeys (h : db.Extends db') (hdb : db.ForeignKeys) : db'.ForeignKeys where
  target_collection t ht :=
    (h.target t ht).elim (fun hold ↦ h.hasCollection (hdb.target_collection t hold)) id
  page_collection p hp :=
    (h.page p hp).elim (fun hold ↦ h.hasCollection (hdb.page_collection p hold)) And.left
  page_target p hp :=
    (h.page p hp).elim (fun hold ↦ h.hasTarget (hdb.page_target p hold)) And.right
  host_collection o ho :=
    (h.host o ho).elim (fun hold ↦ h.hasCollection (hdb.host_collection o hold)) id
  peer_node cp hcp :=
    (h.peer cp hcp).elim (fun hold ↦ h.hasNode (hdb.peer_node cp hold)) And.left

theorem marked_iff (h : db.Extends db') {c : Uuid} {u v : String} :
    db'.Marked c u v ↔ db.Marked c u v := by
  constructor
  · rintro ⟨p, hp, hc, hu, hv⟩
    rcases h.unmarked p hp with hp | hnone
    · exact ⟨p, hp, hc, hu, hv⟩
    · exact nomatch hnone.symm.trans hv
  · rintro ⟨p, hp, hrest⟩
    exact ⟨p, h.pages p hp, hrest⟩

end Extends

/-! ### One row more -/

theorem extends_collection {row : CollectionRow} {cs : Table CollectionRow.Clash} {n : Nat}
    (h : db.collections.insert row = some cs) :
    db.Extends { db with collections := cs, nextUuid := n } where
  toKeeps := { Keeps.refl db with
    collections := fun _ hc ↦ (Table.mem_of_insert h).2 (Or.inl hc) }
  toParented := ⟨fun _ h ↦ Or.inl h, fun _ h ↦ Or.inl h, fun _ h ↦ Or.inl h, fun _ h ↦ Or.inl h⟩
  unmarked _ h := Or.inl h

theorem extends_target {row : CrawlTargetRow} {targets : Table CrawlTargetRow.Clash} {n : Nat}
    (h : db.crawlTargets.insert row = some targets) (hcol : db.HasCollection row.collectionId) :
    db.Extends { db with crawlTargets := targets, nextUuid := n } where
  toKeeps := { Keeps.refl db with
    targets := fun _ ht ↦ (Table.mem_of_insert h).2 (Or.inl ht) }
  target t ht := by
    rcases (Table.mem_of_insert h).1 ht with hold | rfl
    · exact Or.inl hold
    · exact Or.inr hcol
  page _ h := Or.inl h
  host _ h := Or.inl h
  peer _ h := Or.inl h
  unmarked _ h := Or.inl h

theorem extends_page {row : CrawledPageRow} {pages : Table CrawledPageRow.Clash} {n : Int}
    (h : db.crawledPages.insert row = some pages) (hcol : db.HasCollection row.collectionId)
    (htgt : db.HasTarget row.crawlTargetId) (hnone : row.indexedContentHash = none) :
    db.Extends { db with crawledPages := pages, nextPageId := n } where
  toKeeps := { Keeps.refl db with
    pages := fun _ hp ↦ (Table.mem_of_insert h).2 (Or.inl hp) }
  target _ h := Or.inl h
  page p hp := by
    rcases (Table.mem_of_insert h).1 hp with hold | rfl
    · exact Or.inl hold
    · exact Or.inr ⟨hcol, htgt⟩
  host _ h := Or.inl h
  peer _ h := Or.inl h
  unmarked p hp := by
    rcases (Table.mem_of_insert h).1 hp with hold | rfl
    · exact Or.inl hold
    · exact Or.inr hnone

theorem extends_rankingConfig {row : RankingConfigRow} {rows : Table RankingConfigRow.Clash}
    (h : db.rankingConfig.insert row = some rows) :
    db.Extends { db with rankingConfig := rows } where
  toKeeps := { Keeps.refl db with
    rankings := fun _ hr ↦ (Table.mem_of_insert h).2 (Or.inl hr) }
  toParented := ⟨fun _ h ↦ Or.inl h, fun _ h ↦ Or.inl h, fun _ h ↦ Or.inl h, fun _ h ↦ Or.inl h⟩
  unmarked _ h := Or.inl h

theorem extends_outlinkHost {row : OutlinkHostRow} {hosts : Table OutlinkHostRow.Clash} {n : Nat}
    (h : db.outlinkHostSuggestions.insert row = some hosts)
    (hcol : db.HasCollection row.collectionId) :
    db.Extends { db with outlinkHostSuggestions := hosts, nextUuid := n } where
  toKeeps := { Keeps.refl db with
    hosts := fun _ ho ↦ (Table.mem_of_insert h).2 (Or.inl ho) }
  target _ h := Or.inl h
  page _ h := Or.inl h
  host o ho := by
    rcases (Table.mem_of_insert h).1 ho with hold | rfl
    · exact Or.inl hold
    · exact Or.inr hcol
  peer _ h := Or.inl h
  unmarked _ h := Or.inl h

theorem extends_nodePeer {row : NodePeerRow} {peers : Table NodePeerRow.Clash}
    (h : db.nodePeers.insert row = some peers) : db.Extends { db with nodePeers := peers } where
  toKeeps := { Keeps.refl db with
    nodes := fun _ hnp ↦ (Table.mem_of_insert h).2 (Or.inl hnp) }
  toParented := ⟨fun _ h ↦ Or.inl h, fun _ h ↦ Or.inl h, fun _ h ↦ Or.inl h, fun _ h ↦ Or.inl h⟩
  unmarked _ h := Or.inl h

theorem extends_collectionPeer {row : CollectionPeerRow} {rows : Table CollectionPeerRow.Clash}
    (h : db.collectionPeers.insert row = some rows) (hnode : db.HasNode row.nodePeerId)
    (hname : row.localCollection ∈ db.collectionNames) :
    db.Extends { db with collectionPeers := rows } where
  toKeeps := { Keeps.refl db with
    peers := fun _ hcp ↦ (Table.mem_of_insert h).2 (Or.inl hcp) }
  target _ h := Or.inl h
  page _ h := Or.inl h
  host _ h := Or.inl h
  peer cp hcp := by
    rcases (Table.mem_of_insert h).1 hcp with hold | rfl
    · exact Or.inl hold
    · exact Or.inr ⟨hnode, hname⟩
  unmarked _ h := Or.inl h

theorem extends_createItem {name description ts : String} {r : CollectionRecord}
    (h : db.createItem name description ts = some (db', r)) : db.Extends db' := by
  obtain ⟨cs, hcs, he⟩ := Option.map_eq_some_iff.1 h
  obtain ⟨rfl, -⟩ := Prod.mk.inj he
  exact extends_collection hcs

theorem extends_addTarget {rowid : Int} {pre : String} {secs : Int} {ts : String}
    {r : CrawlTargetRecord} (h : db.addTarget rowid pre secs ts = some (db', r)) :
    db.Extends db' := by
  obtain ⟨c, hc, targets, hins, rfl⟩ := addTarget_eq h
  exact extends_target hins ⟨c, hc, rfl⟩

end Database

/-! ### What the pieces of an import do -/

section Exec

variable {db db' : Database} {report report' : ImportReport} {collection target : Uuid}
  {ts : String}

theorem exec_importPage (p : ExportedCrawledPage) :
    Sql.exec false (importPage collection target report p) db =
      (db.crawledPages.insert (db.importedPage collection target p)).map fun pages ↦
        ({ db with crawledPages := pages, nextPageId := db.nextPageId + 1 },
          { report with crawledPagesImported := report.crawledPagesImported + 1 }) := by
  rw [importPage, Sql.exec_attempt, Sql.exec_execute, Database.insertPage,
    if_neg fun h ↦ Bool.false_ne_true h.1, Option.bind_map]
  rw [Option.map_eq_bind]
  rfl

theorem exec_importTarget (t : ExportedCrawlTarget) :
    Sql.exec false (importTarget collection ts report t) db =
      (db.crawlTargets.insert (db.importedTarget collection ⟨db.nextUuid⟩ ts t)).bind fun targets ↦
        Sql.exec false (Sql.loop (importPage collection ⟨db.nextUuid⟩)
          { report with crawlTargetsImported := report.crawlTargetsImported + 1 } t.crawledPages)
          { db with crawlTargets := targets, nextUuid := db.nextUuid + 1 } := by
  rw [importTarget, Sql.exec_attempt, Sql.exec_draw, Option.bind_some, Sql.exec_attempt,
    Sql.exec_execute, Database.insertTarget, if_neg fun h ↦ Bool.false_ne_true h.1, Option.bind_map]
  rfl

theorem exec_importRankingConfig (rowid : Int) (rc : ExportedRankingConfig) :
    Sql.exec false (importRankingConfig rowid (some rc)) db =
      (db.rankingConfig.insert ⟨rowid, rc.freshnessHalfLifeDays, rc.sourceWeightsJson,
        rc.domainBoostsJson, rc.configJson⟩).map fun rows ↦
          ({ db with rankingConfig := rows }, ()) := by
  rw [importRankingConfig, Sql.exec_attempt, Sql.exec_execute, Database.insertRankingConfig,
    if_neg (by decide), Option.bind_map]
  rw [Option.map_eq_bind]
  rfl

theorem exec_importOutlinkHost (o : ExportedOutlinkHostSuggestion) :
    Sql.exec false (importOutlinkHost collection report o) db =
      (db.outlinkHostSuggestions.insert (db.importedOutlinkHost collection ⟨db.nextUuid⟩ o)).map
        fun hosts ↦ ({ db with outlinkHostSuggestions := hosts, nextUuid := db.nextUuid + 1 },
          { report with
            outlinkHostSuggestionsImported := report.outlinkHostSuggestionsImported + 1 }) := by
  rw [importOutlinkHost, Sql.exec_attempt, Sql.exec_draw, Option.bind_some, Sql.exec_attempt,
    Sql.exec_execute, Database.insertOutlinkHost, if_neg fun h ↦ Bool.false_ne_true h.1,
    Option.bind_map]
  rw [Option.map_eq_bind]
  rfl

/-- The rowid of a collection that was just inserted. -/
theorem rowidOf_of_insert {row : CollectionRow} {cs : Table CollectionRow.Clash} {n : Nat}
    (h : db.collections.insert row = some cs) :
    Database.rowidOf row.id { db with collections := cs, nextUuid := n } = some row.rowid := by
  have hnone : db.collections.rows.find? (fun c ↦ c.id = row.id) = none := by
    rw [List.find?_eq_none]
    intro c hc hid
    exact Table.not_clash_of_insert h hc (Or.inr (Or.inl (of_decide_eq_true hid)))
  have hone : [row].find? (fun c ↦ c.id = row.id) = some row :=
    List.find?_cons_of_pos (decide_eq_true rfl)
  rw [Database.rowidOf, Table.rows_of_insert h, List.find?_append, hnone, hone]
  rfl

variable {X : Crates} {acc acc' : ImportProgress} {c : ExportedCollection}

/-- **Importing a collection**, part by part. -/
theorem exec_importCollection_eq_some :
    Sql.exec false (importCollection X ts acc c) db = some (db', acc') ↔
      ∃ cs db₁ report₁ db₂ report₂,
        db.collections.insert (db.importedCollection ⟨db.nextUuid⟩ ts c) = some cs ∧
        Sql.exec false (Sql.loop (importTarget ⟨db.nextUuid⟩ ts)
          { acc.report with collectionsImported := acc.report.collectionsImported + 1 }
          c.crawlTargets) { db with collections := cs, nextUuid := db.nextUuid + 1 } =
            some (db₁, report₁) ∧
        Sql.exec false (importRankingConfig (db.importedCollection ⟨db.nextUuid⟩ ts c).rowid
          c.rankingConfig) db₁ = some (db₂, ()) ∧
        Sql.exec false (Sql.loop (importOutlinkHost ⟨db.nextUuid⟩) report₁
          c.outlinkHostSuggestions) db₂ = some (db', report₂) ∧
        acc' =
          { report :=
              { report₂ with documentsQueued := report₂.documentsQueued + c.documents.length }
            jobs := acc.jobs ++ c.documents.map (ExportedDocument.job X ⟨db.nextUuid⟩ c.name)
            knownCollectionNames := c.name :: acc.knownCollectionNames } := by
  rw [importCollection, Sql.exec_attempt, Sql.exec_draw, Option.bind_some,
    Sql.exec_attempt_eq_some]
  constructor
  · rintro ⟨_, _, hinsert, h⟩
    rw [Sql.exec_execute] at hinsert
    obtain ⟨cs, hcs, he⟩ := Option.map_eq_some_iff.1 hinsert
    obtain ⟨rfl, -⟩ := Prod.mk.inj he
    obtain ⟨_, rowid, hquery, h⟩ := Sql.exec_attempt_eq_some.1 h
    rw [Sql.exec_queryRow] at hquery
    obtain ⟨_, hrowid, he⟩ := Option.map_eq_some_iff.1 hquery
    obtain ⟨rfl, rfl⟩ := Prod.mk.inj he
    obtain rfl := Option.some.inj (hrowid.symm.trans (rowidOf_of_insert hcs))
    obtain ⟨db₁, report₁, htargets, h⟩ := Sql.exec_attempt_eq_some.1 h
    obtain ⟨db₂, _, hranking, h⟩ := Sql.exec_attempt_eq_some.1 h
    obtain ⟨db₃, report₂, hhosts, h⟩ := Sql.exec_attempt_eq_some.1 h
    obtain ⟨rfl, rfl⟩ := Prod.mk.inj (Option.some.inj h)
    exact ⟨cs, db₁, report₁, db₂, report₂, hcs, htargets, hranking, hhosts, rfl⟩
  · rintro ⟨cs, db₁, report₁, db₂, report₂, hcs, htargets, hranking, hhosts, rfl⟩
    refine ⟨{ db with collections := cs, nextUuid := db.nextUuid + 1 }, 1, ?_, ?_⟩
    · rw [Sql.exec_execute]
      exact Option.map_eq_some_iff.2 ⟨cs, hcs, rfl⟩
    · refine Sql.exec_attempt_eq_some.2 ⟨_, _, ?_, Sql.exec_attempt_eq_some.2
        ⟨db₁, report₁, htargets, Sql.exec_attempt_eq_some.2 ⟨db₂, (), hranking,
          Sql.exec_attempt_eq_some.2 ⟨db', report₂, hhosts, rfl⟩⟩⟩⟩
      rw [Sql.exec_queryRow]
      exact Option.map_eq_some_iff.2 ⟨_, rowidOf_of_insert hcs, rfl⟩

/-- The collections an import creates: the first of each name that is not known. -/
def newCollections : List String → List ExportedCollection → List ExportedCollection
  | _, [] => []
  | known, c :: cs =>
    if c.name ∈ known then newCollections known cs
    else c :: newCollections (c.name :: known) cs

/-- **The loop over the collections** is one over those that are new; `I` is about the collections
that are left. -/
theorem newCollections_invariant {I : List ExportedCollection → Database → List IndexJob → Prop}
    (hstep : ∀ c rest db acc db' acc', I (c :: rest) db acc.jobs →
      Sql.exec false (importCollection X ts acc c) db = some (db', acc') → I rest db' acc'.jobs)
    {cs : List ExportedCollection} (h₀ : I (newCollections acc.knownCollectionNames cs) db acc.jobs)
    (h : Sql.exec false (Sql.loop (applyCollection X ts) acc cs) db = some (db', acc')) :
    I [] db' acc'.jobs := by
  induction cs generalizing db acc with
  | nil =>
    obtain ⟨rfl, rfl⟩ := Prod.mk.inj (Option.some.inj h)
    exact h₀
  | cons c cs ih =>
    obtain ⟨db₁, acc₁, hc, hcs⟩ := Sql.exec_loop_cons.1 h
    rw [applyCollection] at hc
    rw [newCollections] at h₀
    split at hc
    case isTrue hknown =>
      rw [if_pos hknown] at h₀
      obtain ⟨rfl, rfl⟩ := Prod.mk.inj (Option.some.inj hc)
      refine ih ?_ hcs
      exact h₀
    case isFalse hnew =>
      rw [if_neg hnew] at h₀
      refine ih ?_ hcs
      obtain ⟨_, _, _, _, _, -, -, -, -, he⟩ := exec_importCollection_eq_some.1 hc
      have hrest := hstep c _ _ _ _ _ h₀ hc
      rw [he] at hrest ⊢
      exact hrest

end Exec

/-! ### What they leave -/

namespace Database

variable {db db' : Database} {report report' : ImportReport} {collection : Uuid} {ts : String}

theorem extends_importPage {target : Uuid} {p : ExportedCrawledPage}
    (hcol : db.HasCollection collection) (htgt : db.HasTarget target)
    (h : Sql.exec false (importPage collection target report p) db = some (db', report')) :
    db.Extends db' := by
  rw [exec_importPage] at h
  obtain ⟨pages, hpages, he⟩ := Option.map_eq_some_iff.1 h
  obtain ⟨rfl, -⟩ := Prod.mk.inj he
  exact extends_page hpages hcol htgt rfl

theorem extends_importTarget {t : ExportedCrawlTarget} (hcol : db.HasCollection collection)
    (h : Sql.exec false (importTarget collection ts report t) db = some (db', report')) :
    db.Extends db' := by
  rw [exec_importTarget] at h
  obtain ⟨targets, htargets, h⟩ := Option.bind_eq_some_iff.1 h
  have hext := extends_target (n := db.nextUuid + 1) htargets hcol
  refine Sql.loop_invariant (I := fun db' _ ↦ db.Extends db' ∧ db'.HasTarget ⟨db.nextUuid⟩)
    (fun p db₁ _ db₂ _ hI hp ↦ ?_) ⟨hext, ?_⟩ h |>.1
  · have hpage := extends_importPage (hI.1.hasCollection hcol) hI.2 hp
    exact ⟨hI.1.trans hpage, hpage.hasTarget hI.2⟩
  · exact ⟨_, (Table.mem_of_insert htargets).2 (Or.inr rfl), rfl⟩

theorem extends_importRankingConfig {rowid : Int} {rc : Option ExportedRankingConfig}
    (h : Sql.exec false (importRankingConfig rowid rc) db = some (db', ())) : db.Extends db' := by
  cases rc with
  | none =>
    obtain ⟨rfl, -⟩ := Prod.mk.inj (Option.some.inj h)
    exact .refl _
  | some rc =>
    rw [exec_importRankingConfig] at h
    obtain ⟨rows, hrows, he⟩ := Option.map_eq_some_iff.1 h
    obtain ⟨rfl, -⟩ := Prod.mk.inj he
    exact extends_rankingConfig hrows

theorem extends_importOutlinkHost {o : ExportedOutlinkHostSuggestion}
    (hcol : db.HasCollection collection)
    (h : Sql.exec false (importOutlinkHost collection report o) db = some (db', report')) :
    db.Extends db' := by
  rw [exec_importOutlinkHost] at h
  obtain ⟨hosts, hhosts, he⟩ := Option.map_eq_some_iff.1 h
  obtain ⟨rfl, -⟩ := Prod.mk.inj he
  exact extends_outlinkHost hhosts hcol

variable {X : Crates} {acc acc' : ImportProgress}

/-- **A collection is added**, with what is nested under it. -/
theorem extends_importCollection {c : ExportedCollection}
    (h : Sql.exec false (importCollection X ts acc c) db = some (db', acc')) :
    db.Extends db' ∧ ∃ row ∈ db'.collections, row.id = ⟨db.nextUuid⟩ ∧ row.name = c.name := by
  obtain ⟨cs, db₁, report₁, db₂, report₂, hcs, htargets, hranking, hhosts, -⟩ :=
    exec_importCollection_eq_some.1 h
  set row := db.importedCollection ⟨db.nextUuid⟩ ts c
  have hext₁ : db.Extends db₁ ∧ row ∈ db₁.collections := by
    refine Sql.loop_invariant (I := fun db' _ ↦ db.Extends db' ∧ row ∈ db'.collections)
      (fun t db₁ _ db₂ _ hI ht ↦ ?_) ⟨?_, ?_⟩ htargets
    · have htarget := extends_importTarget ⟨row, hI.2, rfl⟩ ht
      exact ⟨hI.1.trans htarget, htarget.collections row hI.2⟩
    · exact extends_collection hcs
    · exact (Table.mem_of_insert hcs).2 (Or.inr rfl)
  have hext₂ := extends_importRankingConfig hranking
  have hext₃ : db₂.Extends db' ∧ row ∈ db'.collections := by
    refine Sql.loop_invariant (I := fun db' _ ↦ db₂.Extends db' ∧ row ∈ db'.collections)
      (fun o db₁ _ db₂ _ hI ho ↦ ?_) ⟨.refl _, hext₂.collections row hext₁.2⟩ hhosts
    have hhost := extends_importOutlinkHost ⟨row, hI.2, rfl⟩ ho
    exact ⟨hI.1.trans hhost, hhost.collections row hI.2⟩
  exact ⟨(hext₁.1.trans hext₂).trans hext₃.1, row, hext₃.2, rfl, rfl⟩

/-- Only targets and pages are added by a target. -/
theorem importTarget_eq {t : ExportedCrawlTarget}
    (h : Sql.exec false (importTarget collection ts report t) db = some (db', report')) :
    ∃ targets pages n m, db' = { db with
      crawlTargets := targets, crawledPages := pages, nextPageId := n, nextUuid := m } := by
  rw [exec_importTarget] at h
  obtain ⟨targets, -, h⟩ := Option.bind_eq_some_iff.1 h
  refine Sql.loop_invariant (I := fun db' _ ↦ ∃ targets pages n m, db' = { db with
    crawlTargets := targets, crawledPages := pages, nextPageId := n, nextUuid := m })
    (fun p db₁ _ db₂ _ hI hp ↦ ?_) ⟨_, _, _, _, rfl⟩ h
  obtain ⟨_, _, _, _, rfl⟩ := hI
  rw [exec_importPage] at hp
  obtain ⟨_, -, he⟩ := Option.map_eq_some_iff.1 hp
  obtain ⟨rfl, -⟩ := Prod.mk.inj he
  exact ⟨_, _, _, _, rfl⟩

/-- The collections after one more is imported. -/
theorem collections_of_importCollection {c : ExportedCollection}
    (h : Sql.exec false (importCollection X ts acc c) db = some (db', acc')) :
    db.collections.insert (db.importedCollection ⟨db.nextUuid⟩ ts c) = some db'.collections ∧
      db'.nodePeers = db.nodePeers ∧ db'.collectionPeers = db.collectionPeers := by
  obtain ⟨cs, db₁, report₁, db₂, report₂, hcs, htargets, hranking, hhosts, -⟩ :=
    exec_importCollection_eq_some.1 h
  obtain ⟨_, _, _, _, rfl⟩ : ∃ targets pages n m, db₁ = { db with
      collections := cs, crawlTargets := targets, crawledPages := pages, nextPageId := n
      nextUuid := m } := by
    refine Sql.loop_invariant (I := fun db' _ ↦ ∃ targets pages n m, db' = { db with
      collections := cs, crawlTargets := targets, crawledPages := pages, nextPageId := n
      nextUuid := m }) (fun t db₁ _ db₂ _ hI ht ↦ ?_) ⟨_, _, _, _, rfl⟩ htargets
    obtain ⟨_, _, _, _, rfl⟩ := hI
    obtain ⟨_, _, _, _, rfl⟩ := importTarget_eq ht
    exact ⟨_, _, _, _, rfl⟩
  have hhosts' : db'.collections = db₂.collections ∧ db'.nodePeers = db₂.nodePeers ∧
      db'.collectionPeers = db₂.collectionPeers := by
    refine Sql.loop_invariant (I := fun db' _ ↦ db'.collections = db₂.collections ∧
      db'.nodePeers = db₂.nodePeers ∧ db'.collectionPeers = db₂.collectionPeers)
      (fun o db₁ _ db₂ _ hI ho ↦ ?_) ⟨rfl, rfl, rfl⟩ hhosts
    rw [exec_importOutlinkHost] at ho
    obtain ⟨_, -, he⟩ := Option.map_eq_some_iff.1 ho
    obtain ⟨rfl, -⟩ := Prod.mk.inj he
    exact hI
  rw [hhosts'.1, hhosts'.2.1, hhosts'.2.2]
  cases hrc : c.rankingConfig with
  | none =>
    rw [hrc] at hranking
    obtain ⟨rfl, -⟩ := Prod.mk.inj (Option.some.inj hranking)
    exact ⟨hcs, rfl, rfl⟩
  | some rc =>
    rw [hrc, exec_importRankingConfig] at hranking
    obtain ⟨_, -, he⟩ := Option.map_eq_some_iff.1 hranking
    obtain ⟨rfl, -⟩ := Prod.mk.inj he
    exact ⟨hcs, rfl, rfl⟩

/-- What the loop over the collections keeps true: the names it knows are those of the tables, and
the jobs are for collections of the tables. -/
structure Progress (base db : Database) (acc : ImportProgress) : Prop where
  ext : base.Extends db
  mem_known : ∀ name, name ∈ acc.knownCollectionNames ↔ name ∈ db.collectionNames
  jobs : ∀ job ∈ acc.jobs, job.crawlTargetId = none ∧
    ∃ c ∈ db.collections, c.id = job.collectionId ∧ c.name = job.collectionName

theorem Progress.applyCollection {base : Database} {c : ExportedCollection}
    (hI : Progress base db acc)
    (h : Sql.exec false (CommunitySearch.applyCollection X ts acc c) db = some (db', acc')) :
    Progress base db' acc' ∧ db.Extends db' ∧ c.name ∈ db'.collectionNames := by
  rw [CommunitySearch.applyCollection] at h
  split at h
  case isTrue hknown =>
    obtain ⟨rfl, rfl⟩ := Prod.mk.inj (Option.some.inj h)
    exact ⟨⟨hI.ext, hI.mem_known, hI.jobs⟩, .refl _, (hI.mem_known _).1 hknown⟩
  case isFalse =>
    obtain ⟨hext, row, hrow, hid, hname⟩ := extends_importCollection h
    obtain ⟨hcs, -⟩ := collections_of_importCollection h
    obtain ⟨_, _, _, _, _, -, -, -, -, rfl⟩ := exec_importCollection_eq_some.1 h
    have hnew : c.name ∈ db'.collectionNames := mem_collectionNames.2 ⟨row, hrow, hname⟩
    refine ⟨⟨hI.ext.trans hext, fun name ↦ ?_, fun job hjob ↦ ?_⟩, hext, hnew⟩
    · rw [List.mem_cons, hI.mem_known]
      constructor
      · rintro (rfl | hold)
        · exact hnew
        · exact hext.collectionNames hold
      · intro hname
        obtain ⟨c', hc', rfl⟩ := mem_collectionNames.1 hname
        rcases (Table.mem_of_insert hcs).1 hc' with hold | rfl
        · exact Or.inr (mem_collectionNames.2 ⟨c', hold, rfl⟩)
        · exact Or.inl rfl
    · rcases List.mem_append.1 hjob with hjob | hjob
      · obtain ⟨hnone, c', hc', hkey⟩ := hI.jobs job hjob
        exact ⟨hnone, c', hext.collections c' hc', hkey⟩
      · obtain ⟨d, -, rfl⟩ := List.mem_map.1 hjob
        exact ⟨rfl, row, hrow, hid, hname⟩

/-- **A node peer** is there afterwards, and the URLs known are those of the table. -/
theorem extends_applyNodePeer {peers peers' : ImportReport × List String} {p : ExportedNodePeer}
    (hknown : ∀ url, url ∈ peers.2 ↔ url ∈ db.nodePeerUrls)
    (h : Sql.exec false (applyNodePeer peers p) db = some (db', peers')) :
    db.Extends db' ∧ db'.collections = db.collections ∧
      (∀ url, url ∈ peers'.2 ↔ url ∈ db'.nodePeerUrls) ∧ p.url ∈ db'.nodePeerUrls := by
  rw [applyNodePeer] at h
  split at h
  case isTrue hold =>
    obtain ⟨rfl, rfl⟩ := Prod.mk.inj (Option.some.inj h)
    exact ⟨.refl _, rfl, hknown, (hknown _).1 hold⟩
  case isFalse =>
    obtain ⟨_, _, hinsert, h⟩ := Sql.exec_attempt_eq_some.1 h
    rw [Sql.exec_execute] at hinsert
    obtain ⟨rows, hrows, he⟩ := Option.map_eq_some_iff.1 hinsert
    obtain ⟨rfl, -⟩ := Prod.mk.inj he
    obtain ⟨rfl, rfl⟩ := Prod.mk.inj (Option.some.inj h)
    have hmem := fun np ↦ Table.mem_of_insert hrows (a := np)
    have hnew : p.url ∈ nodePeerUrls { db with nodePeers := rows } :=
      mem_nodePeerUrls.2 ⟨_, (hmem _).2 (Or.inr rfl), rfl⟩
    refine ⟨extends_nodePeer hrows, rfl, fun url ↦ ?_, hnew⟩
    rw [List.mem_cons, hknown]
    constructor
    · rintro (rfl | hold)
      · exact hnew
      · obtain ⟨np, hnp, rfl⟩ := mem_nodePeerUrls.1 hold
        exact mem_nodePeerUrls.2 ⟨np, (hmem np).2 (Or.inl hnp), rfl⟩
    · intro hurl
      obtain ⟨np, hnp, rfl⟩ := mem_nodePeerUrls.1 hurl
      rcases (hmem np).1 hnp with hold | rfl
      · exact Or.inr (mem_nodePeerUrls.2 ⟨np, hold, rfl⟩)
      · exact Or.inl rfl

/-- The subscription is stored. -/
def HasSubscription (db : Database) (cp : ExportedCollectionPeer) : Prop :=
  ∃ row ∈ db.collectionPeers, row.localCollection = cp.localCollection ∧
    row.remoteCollection = cp.remoteCollection ∧
    ∃ np ∈ db.nodePeers, np.url = cp.nodePeerUrl ∧ np.id = row.nodePeerId

theorem nodePeerIdOf_eq_some {url : String} {id : Int} (h : nodePeerIdOf url db = some id) :
    ∃ np ∈ db.nodePeers, np.url = url ∧ np.id = id := by
  obtain ⟨np, hnp, rfl⟩ := Option.map_eq_some_iff.1 h
  exact ⟨np, List.mem_of_find?_eq_some hnp, by simpa using List.find?_some hnp, rfl⟩

theorem exists_nodePeerIdOf {url : String} (h : url ∈ db.nodePeerUrls) :
    ∃ id, nodePeerIdOf url db = some id := by
  obtain ⟨np, hnp, rfl⟩ := mem_nodePeerUrls.1 h
  have hfound : (db.nodePeers.rows.find? fun np' ↦ np'.url = np.url).isSome :=
    List.find?_isSome.2 ⟨np, hnp, decide_eq_true rfl⟩
  obtain ⟨np', hnp'⟩ := Option.isSome_iff_exists.1 hfound
  exact ⟨np'.id, Option.map_eq_some_iff.2 ⟨np', hnp', rfl⟩⟩

/-- `INSERT OR IGNORE` leaves the row, or one with its key. -/
theorem insertOrIgnoreCollectionPeer_cases {id : Int} {cp : ExportedCollectionPeer} {n : Nat}
    (h : insertOrIgnoreCollectionPeer id cp false db = some (db', n)) :
    (∃ rows, db.collectionPeers.insert (db.importedCollectionPeer id cp) = some rows ∧
        db' = { db with collectionPeers := rows } ∧ n = 1) ∨
      (db' = db ∧ n = 0 ∧ ∃ row ∈ db.collectionPeers, row.localCollection = cp.localCollection ∧
        row.nodePeerId = id ∧ row.remoteCollection = cp.remoteCollection) := by
  rw [insertOrIgnoreCollectionPeer, if_neg fun h ↦ Bool.false_ne_true h.1] at h
  split at h
  case h_1 rows hrows =>
    obtain ⟨rfl, rfl⟩ := Prod.mk.inj (Option.some.inj h)
    exact Or.inl ⟨rows, hrows, rfl, rfl⟩
  case h_2 hnone =>
    obtain ⟨rfl, rfl⟩ := Prod.mk.inj (Option.some.inj h)
    obtain ⟨row, hrow, hclash⟩ := Table.exists_clash_of_insert hnone
    refine Or.inr ⟨rfl, rfl, row, hrow, hclash.resolve_left fun hid ↦ ?_⟩
    have hlt : row.id < nextRowid (db.collectionPeers.rows.map CollectionPeerRow.id) :=
      lt_nextRowid (List.mem_map_of_mem hrow)
    exact absurd hid (Int.ne_of_lt hlt)

/-- **A subscription** whose two ends exist is there afterwards. -/
theorem extends_applyCollectionPeer {names urls : List String} {cp : ExportedCollectionPeer}
    (hnames : ∀ name, name ∈ names ↔ name ∈ db.collectionNames)
    (h : Sql.exec false (applyCollectionPeer names urls report cp) db = some (db', report')) :
    db.Extends db' ∧ db'.collections = db.collections ∧ db'.nodePeers = db.nodePeers ∧
      (cp.localCollection ∈ names → cp.nodePeerUrl ∈ urls → db'.HasSubscription cp) := by
  rw [applyCollectionPeer] at h
  split at h
  case isTrue hskip =>
    obtain ⟨rfl, rfl⟩ := Prod.mk.inj (Option.some.inj h)
    exact ⟨.refl _, rfl, rfl, fun hname hurl ↦ (hskip.elim (absurd hname) (absurd hurl))⟩
  case isFalse hends =>
    obtain ⟨hname, -⟩ := not_or.1 hends
    rw [not_not] at hname
    obtain ⟨_, id, hquery, h⟩ := Sql.exec_attempt_eq_some.1 h
    rw [Sql.exec_queryRow] at hquery
    obtain ⟨_, hid, he⟩ := Option.map_eq_some_iff.1 hquery
    obtain ⟨rfl, rfl⟩ := Prod.mk.inj he
    obtain ⟨db₁, n, hinsert, h⟩ := Sql.exec_attempt_eq_some.1 h
    rw [Sql.exec_execute] at hinsert
    obtain ⟨rfl, -⟩ := Prod.mk.inj (Option.some.inj h)
    obtain ⟨np, hnp, hurl, hnpid⟩ := nodePeerIdOf_eq_some hid
    rcases insertOrIgnoreCollectionPeer_cases hinsert with ⟨rows, hrows, rfl, -⟩ |
      ⟨rfl, -, row, hrow, hlocal, hnode, hremote⟩
    · refine ⟨extends_collectionPeer hrows ⟨np, hnp, hnpid⟩ ((hnames _).1 hname), rfl, rfl,
        fun _ _ ↦ ⟨_, (Table.mem_of_insert hrows).2 (Or.inr rfl), rfl, rfl, np, hnp, hurl, hnpid⟩⟩
    · exact ⟨.refl _, rfl, rfl,
        fun _ _ ↦ ⟨row, hrow, hlocal, hremote, np, hnp, hurl, hnpid.trans hnode.symm⟩⟩

/-- Nothing of the envelope is left to import. -/
structure Absorbed (db : Database) (env : ExportEnvelope) : Prop where
  collections : ∀ c ∈ env.collections, c.name ∈ db.collectionNames
  nodePeers : ∀ p ∈ env.nodePeers, p.url ∈ db.nodePeerUrls
  collectionPeers : ∀ cp ∈ env.collectionPeers, cp.localCollection ∈ db.collectionNames →
    cp.nodePeerUrl ∈ db.nodePeerUrls → db.HasSubscription cp

/-- **What an import leaves**: the old rows, whatever the envelope has that was missing, and jobs
for collections it has created. -/
structure Imported (db db' : Database) (env : ExportEnvelope) (jobs : List IndexJob) : Prop where
  ext : db.Extends db'
  absorbed : db'.Absorbed env
  jobs : ∀ job ∈ jobs, job.crawlTargetId = none ∧
    ∃ c ∈ db'.collections, c.id = job.collectionId ∧ c.name = job.collectionName

end Database

theorem committedImport_eq_some {X : Crates} {ts : String} {env : ExportEnvelope}
    {db db' : Database} {report : ImportReport} {jobs : List IndexJob} :
    committedImport X ts env db = some (db', report, jobs) ↔
      ∃ db₁ acc db₂ peers,
        Sql.exec false (Sql.loop (applyCollection X ts) ⟨{}, [], db.collectionNames⟩
          env.collections) db = some (db₁, acc) ∧
        Sql.exec false (Sql.loop applyNodePeer (acc.report, db₁.nodePeerUrls) env.nodePeers) db₁ =
          some (db₂, peers) ∧
        Sql.exec false (Sql.loop (applyCollectionPeer acc.knownCollectionNames peers.2) peers.1
          env.collectionPeers) db₂ = some (db', report) ∧ jobs = acc.jobs := by
  rw [committedImport, envelopeRows, Sql.exec_attempt, Sql.exec_query, Option.bind_some,
    Sql.exec_attempt_eq_some]
  constructor
  · rintro ⟨db₁, acc, hcollections, h⟩
    rw [Sql.exec_attempt, Sql.exec_query, Option.bind_some, Sql.exec_attempt_eq_some] at h
    obtain ⟨db₂, peers, hnodes, h⟩ := h
    obtain ⟨db₃, report', hpeers, h⟩ := Sql.exec_attempt_eq_some.1 h
    obtain ⟨rfl, he⟩ := Prod.mk.inj (Option.some.inj h)
    obtain ⟨rfl, rfl⟩ := Prod.mk.inj he
    exact ⟨db₁, acc, db₂, peers, hcollections, hnodes, hpeers, rfl⟩
  · rintro ⟨db₁, acc, db₂, peers, hcollections, hnodes, hpeers, rfl⟩
    refine ⟨db₁, acc, hcollections, ?_⟩
    rw [Sql.exec_attempt, Sql.exec_query, Option.bind_some, Sql.exec_attempt_eq_some]
    exact ⟨db₂, peers, hnodes, Sql.exec_attempt_eq_some.2 ⟨db', report, hpeers, rfl⟩⟩

section Loops

variable {X : Crates} {ts : String} {db db' : Database}

/-- The loop over the collections of an envelope. -/
theorem progress_of_loop {cs : List ExportedCollection} {acc : ImportProgress}
    (h : Sql.exec false (Sql.loop (applyCollection X ts) ⟨{}, [], db.collectionNames⟩ cs) db =
      some (db', acc)) :
    Database.Progress db db' acc ∧ ∀ c ∈ cs, c.name ∈ db'.collectionNames := by
  refine Sql.loop_done_invariant (I := fun done db' acc ↦ Database.Progress db db' acc ∧
    ∀ c ∈ done, c.name ∈ db'.collectionNames) (fun done c db₁ _ db₂ _ hI hc ↦ ?_)
    ⟨⟨.refl _, fun _ ↦ Iff.rfl, fun _ hjob ↦ absurd hjob List.not_mem_nil⟩,
      fun _ hc ↦ absurd hc List.not_mem_nil⟩ h
  obtain ⟨hprogress, hext, hname⟩ := hI.1.applyCollection hc
  refine ⟨hprogress, fun c' hc' ↦ ?_⟩
  rcases List.mem_append.1 hc' with hold | hnew
  · exact hext.collectionNames (hI.2 c' hold)
  · exact List.mem_singleton.1 hnew ▸ hname

/-- The loop over its node peers. -/
theorem nodePeers_of_loop {ps : List ExportedNodePeer} {report : ImportReport}
    {peers : ImportReport × List String}
    (h : Sql.exec false (Sql.loop applyNodePeer (report, db.nodePeerUrls) ps) db =
      some (db', peers)) :
    db.Extends db' ∧ db'.collections = db.collections ∧
      (∀ url, url ∈ peers.2 ↔ url ∈ db'.nodePeerUrls) ∧ ∀ p ∈ ps, p.url ∈ db'.nodePeerUrls := by
  refine Sql.loop_done_invariant (I := fun done db' peers ↦ db.Extends db' ∧
    db'.collections = db.collections ∧ (∀ url, url ∈ peers.2 ↔ url ∈ db'.nodePeerUrls) ∧
    ∀ p ∈ done, p.url ∈ db'.nodePeerUrls) (fun done p db₁ _ db₂ _ hI hp ↦ ?_)
    ⟨.refl _, rfl, fun _ ↦ Iff.rfl, fun _ hp ↦ absurd hp List.not_mem_nil⟩ h
  obtain ⟨hext, hsame, hknown, hdone⟩ := hI
  obtain ⟨hext', hsame', hknown', hnew⟩ := Database.extends_applyNodePeer hknown hp
  refine ⟨hext.trans hext', hsame'.trans hsame, hknown', fun p' hp' ↦ ?_⟩
  rcases List.mem_append.1 hp' with hold | hnew'
  · obtain ⟨np, hnp, hurl⟩ := Database.mem_nodePeerUrls.1 (hdone p' hold)
    exact Database.mem_nodePeerUrls.2 ⟨np, hext'.nodes np hnp, hurl⟩
  · exact List.mem_singleton.1 hnew' ▸ hnew

/-- The loop over its subscriptions: what names a known collection and a known node is there
afterwards. -/
theorem subscriptions_of_loop {names urls : List String} {report report' : ImportReport}
    {cps : List ExportedCollectionPeer}
    (hnames : ∀ name, name ∈ names ↔ name ∈ db.collectionNames)
    (h : Sql.exec false (Sql.loop (applyCollectionPeer names urls) report cps) db =
      some (db', report')) :
    db.Extends db' ∧ db'.collections = db.collections ∧ db'.nodePeers = db.nodePeers ∧
      ∀ cp ∈ cps, cp.localCollection ∈ names → cp.nodePeerUrl ∈ urls → db'.HasSubscription cp := by
  refine Sql.loop_done_invariant (I := fun done db' _ ↦ db.Extends db' ∧
    db'.collections = db.collections ∧ db'.nodePeers = db.nodePeers ∧
    ∀ cp ∈ done, cp.localCollection ∈ names → cp.nodePeerUrl ∈ urls → db'.HasSubscription cp)
    (fun done cp db₁ _ db₂ _ hI hcp ↦ ?_)
    ⟨.refl _, rfl, rfl, fun _ hcp ↦ absurd hcp List.not_mem_nil⟩ h
  obtain ⟨hext, hsame, hnodes, hdone⟩ := hI
  have hnames₁ : ∀ name, name ∈ names ↔ name ∈ db₁.collectionNames := by
    intro name
    rw [Database.collectionNames, hsame]
    exact hnames name
  obtain ⟨hext', hsame', hnodes', hnew⟩ := Database.extends_applyCollectionPeer hnames₁ hcp
  refine ⟨hext.trans hext', hsame'.trans hsame, hnodes'.trans hnodes, fun cp' hcp' ↦ ?_⟩
  rcases List.mem_append.1 hcp' with hold | hnew'
  · intro hname hurl
    obtain ⟨row, hrow, hlocal, hremote, np, hnp, hkey⟩ := hdone cp' hold hname hurl
    exact ⟨row, hext'.peers row hrow, hlocal, hremote, np, hext'.nodes np hnp, hkey⟩
  · exact List.mem_singleton.1 hnew' ▸ hnew

end Loops

/-- **An import** leaves what the envelope has. -/
theorem imported_of_committedImport {X : Crates} {ts : String} {env : ExportEnvelope}
    {db db' : Database} {report : ImportReport} {jobs : List IndexJob}
    (h : committedImport X ts env db = some (db', report, jobs)) : db.Imported db' env jobs := by
  obtain ⟨db₁, acc, db₂, peers, hcollections, hnodes, hpeers, rfl⟩ := committedImport_eq_some.1 h
  obtain ⟨hprogress, hdone₁⟩ := progress_of_loop hcollections
  obtain ⟨hext₂, hsame₂, hknown₂, hdone₂⟩ := nodePeers_of_loop hnodes
  have hnames : ∀ name, name ∈ acc.knownCollectionNames ↔ name ∈ db₂.collectionNames := by
    intro name
    rw [Database.collectionNames, hsame₂]
    exact hprogress.mem_known name
  obtain ⟨hext₃, hsame₃, hnodes₃, hdone₃⟩ := subscriptions_of_loop hnames hpeers
  refine ⟨(hprogress.ext.trans hext₂).trans hext₃, ⟨fun c hc ↦ ?_, fun p hp ↦ ?_, ?_⟩, ?_⟩
  · exact hext₃.collectionNames (hext₂.collectionNames (hdone₁ c hc))
  · rw [Database.nodePeerUrls, hnodes₃]
    exact hdone₂ p hp
  · intro cp hcp hname hurl
    rw [Database.collectionNames, hsame₃] at hname
    rw [Database.nodePeerUrls, hnodes₃] at hurl
    exact hdone₃ cp hcp ((hnames _).2 hname) ((hknown₂ _).2 hurl)
  · intro job hjob
    obtain ⟨hnone, c, hc, hkey⟩ := hprogress.jobs job hjob
    exact ⟨hnone, c, hext₃.collections c (hext₂.collections c hc), hkey⟩

theorem committedImport_of_acceptImport {X : Crates} {ts : String} {env : ExportEnvelope}
    {db : Database} {r : Database × ImportReport × List IndexJob}
    (h : acceptImport X db ts (.ok env) = .ok r) : committedImport X ts env db = some r := by
  rw [acceptImport] at h
  split at h
  · split at h
    case h_1 hr => exact Except.ok.inj h ▸ hr
    case h_2 => cases h
  · cases h

end CommunitySearch
