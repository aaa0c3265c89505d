import CommunitySearch.Api.ImportRankings

/-!
# Imports and the targets

An import adds the targets of the collections it creates, each with its columns as the envelope has
them, and their pages, each with its status as the envelope has it (`inserts_of_committedImport`).
-/

namespace CommunitySearch

/-- The targets `ts` are added, in order, and their pages. -/
structure Database.Adds (db db' : Database) (ts : List ExportedCrawlTarget) : Prop where
  prefixes : db'.crawlTargets.rows.map CrawlTargetRow.urlPrefix =
    db.crawlTargets.rows.map CrawlTargetRow.urlPrefix ++ ts.map ExportedCrawlTarget.urlPrefix
  statuses : db'.crawledPages.rows.map CrawledPageRow.lastStatus =
    db.crawledPages.rows.map CrawledPageRow.lastStatus ++
      ts.flatMap fun t ↦ t.crawledPages.map ExportedCrawledPage.lastStatus

theorem Database.Adds.mem_statuses {db db' : Database} {ts : List ExportedCrawlTarget}
    (h : db.Adds db' ts) {status : Option Int} :
    (∃ p ∈ db'.crawledPages, p.lastStatus = status) ↔
      (∃ p ∈ db.crawledPages, p.lastStatus = status) ∨
        ∃ t ∈ ts, ∃ p ∈ t.crawledPages, p.lastStatus = status := by
  have hmem : status ∈ db'.crawledPages.rows.map CrawledPageRow.lastStatus ↔
      status ∈ db.crawledPages.rows.map CrawledPageRow.lastStatus ∨
        status ∈ ts.flatMap fun t ↦ t.crawledPages.map ExportedCrawledPage.lastStatus := by
    rw [h.statuses, List.mem_append]
  simp only [List.mem_map, List.mem_flatMap] at hmem
  exact hmem

/-- The columns of a target that an envelope carries. -/
structure TargetColumns where
  urlPrefix : String
  recrawlIntervalS : Int
  recrawlIntervalSecs : Int
  enabled : Int
  crawlDelaySecs : Option Int

def CrawlTargetRow.columns (t : CrawlTargetRow) : TargetColumns :=
  ⟨t.urlPrefix, t.recrawlIntervalS, t.recrawlIntervalSecs, t.enabled, t.crawlDelaySecs⟩

def ExportedCrawlTarget.columns (e : ExportedCrawlTarget) : TargetColumns :=
  ⟨e.urlPrefix, e.recrawlIntervalS, e.recrawlIntervalSecs, e.enabled, e.crawlDelaySecs⟩

/-- The targets `ts` are added as they are, in order, and their pages. -/
structure Database.Inserts (db db' : Database) (ts : List ExportedCrawlTarget) : Prop where
  columns : db'.crawlTargets.rows.map CrawlTargetRow.columns =
    db.crawlTargets.rows.map CrawlTargetRow.columns ++ ts.map ExportedCrawlTarget.columns
  statuses : db'.crawledPages.rows.map CrawledPageRow.lastStatus =
    db.crawledPages.rows.map CrawledPageRow.lastStatus ++
      ts.flatMap fun t ↦ t.crawledPages.map ExportedCrawledPage.lastStatus

namespace Database.Inserts

variable {db db' db'' : Database} {ts us : List ExportedCrawlTarget}

theorem of_eq (htargets : db'.crawlTargets = db.crawlTargets)
    (hpages : db'.crawledPages = db.crawledPages) : db.Inserts db' [] where
  columns := by rw [htargets, List.map_nil, List.append_nil]
  statuses := by rw [hpages, List.flatMap_nil, List.append_nil]

theorem trans (h : db.Inserts db' ts) (h' : db'.Inserts db'' us) : db.Inserts db'' (ts ++ us) where
  columns := by rw [h'.columns, h.columns, List.map_append, List.append_assoc]
  statuses := by rw [h'.statuses, h.statuses, List.flatMap_append, List.append_assoc]

/-- Nothing is added after the targets. -/
theorem trans_nil (h : db.Inserts db' ts) (h' : db'.Inserts db'' []) : db.Inserts db'' ts := by
  have htrans := h.trans h'
  rwa [List.append_nil] at htrans

theorem mem_columns (h : db.Inserts db' ts) {columns : TargetColumns} :
    (∃ t ∈ db'.crawlTargets, t.columns = columns) ↔
      (∃ t ∈ db.crawlTargets, t.columns = columns) ∨ ∃ e ∈ ts, e.columns = columns := by
  have hmem : columns ∈ db'.crawlTargets.rows.map CrawlTargetRow.columns ↔
      columns ∈ db.crawlTargets.rows.map CrawlTargetRow.columns ∨
        columns ∈ ts.map ExportedCrawlTarget.columns := by
    rw [h.columns, List.mem_append]
  simp only [List.mem_map] at hmem
  exact hmem

theorem adds (h : db.Inserts db' ts) : db.Adds db' ts where
  prefixes := by
    have hcolumns := congrArg (List.map TargetColumns.urlPrefix) h.columns
    rw [List.map_append, List.map_map, List.map_map, List.map_map] at hcolumns
    exact hcolumns
  statuses := h.statuses

end Database.Inserts

variable {X : Crates} {db db' : Database} {report report' : ImportReport} {collection : Uuid}
  {ts : String}

/-- **A target is added** with its pages. -/
theorem inserts_importTarget {t : ExportedCrawlTarget}
    (h : Sql.exec false (importTarget collection ts report t) db = some (db', report')) :
    db.Inserts db' [t] := by
  rw [exec_importTarget] at h
  obtain ⟨targets, htargets, h⟩ := Option.bind_eq_some_iff.1 h
  obtain ⟨hcrawlTargets, hpages⟩ := Sql.loop_done_invariant (I := fun done db₁ _ ↦
    db₁.crawlTargets = targets ∧ db₁.crawledPages.rows.map CrawledPageRow.lastStatus =
      db.crawledPages.rows.map CrawledPageRow.lastStatus ++
        done.map ExportedCrawledPage.lastStatus)
    (fun done p db₁ _ db₂ _ hI hp ↦ by
      rw [exec_importPage] at hp
      obtain ⟨pages, hpages, he⟩ := Option.map_eq_some_iff.1 hp
      obtain ⟨rfl, -⟩ := Prod.mk.inj he
      refine ⟨hI.1, ?_⟩
      rw [Table.rows_of_insert hpages, List.map_append, hI.2, List.map_append, List.append_assoc]
      rfl)
    ⟨rfl, (List.append_nil _).symm⟩ h
  constructor
  · rw [hcrawlTargets, Table.rows_of_insert htargets, List.map_append]
    rfl
  · rw [hpages, List.flatMap_singleton]

/-- **A collection is added** with its targets. -/
theorem inserts_importCollection {acc acc' : ImportProgress} {c : ExportedCollection}
    (h : Sql.exec false (importCollection X ts acc c) db = some (db', acc')) :
    db.Inserts db' c.crawlTargets := by
  obtain ⟨cs, db₁, report₁, db₂, report₂, -, htargets, hranking, hhosts, -⟩ :=
    exec_importCollection_eq_some.1 h
  have h₁ : db.Inserts db₁ c.crawlTargets := by
    refine Sql.loop_done_invariant (I := fun done db₁ _ ↦ db.Inserts db₁ done)
      (fun _ _ _ _ _ _ hI ht ↦ hI.trans (inserts_importTarget ht)) ?_ htargets
    exact .of_eq rfl rfl
  have h₂ : db₁.Inserts db₂ [] := by
    obtain ⟨_, rfl, -⟩ := rankings_of_importRankingConfig hranking
    exact .of_eq rfl rfl
  have h₃ : db₂.Inserts db' [] := by
    refine Sql.loop_invariant (I := fun db' _ ↦ db₂.Inserts db' []) (fun o db₃ _ db₄ _ hI ho ↦ ?_)
      (.of_eq rfl rfl) hhosts
    rw [exec_importOutlinkHost] at ho
    obtain ⟨_, -, he⟩ := Option.map_eq_some_iff.1 ho
    obtain ⟨rfl, -⟩ := Prod.mk.inj he
    exact hI.trans_nil (.of_eq rfl rfl)
  exact (h₁.trans_nil h₂).trans_nil h₃

theorem inserts_of_collections {acc acc' : ImportProgress} {cs : List ExportedCollection}
    (h : Sql.exec false (Sql.loop (applyCollection X ts) acc cs) db = some (db', acc')) :
    db.Inserts db' ((newCollections acc.knownCollectionNames cs).flatMap
      ExportedCollection.crawlTargets) := by
  set news := newCollections acc.knownCollectionNames cs with hnews
  obtain ⟨added, hadded, hrest⟩ := newCollections_invariant (I := fun rest db₁ _ ↦
    ∃ added, db.Inserts db₁ added ∧ added ++ rest.flatMap ExportedCollection.crawlTargets =
      news.flatMap ExportedCollection.crawlTargets)
    (by
      rintro c rest db₁ acc₁ db₂ acc₂ ⟨added, hadded, hrest⟩ hc
      refine ⟨_, hadded.trans (inserts_importCollection hc), ?_⟩
      rw [← hrest, List.append_assoc, List.flatMap_cons])
    ⟨[], .of_eq rfl rfl, List.nil_append _⟩ h
  rw [List.flatMap_nil, List.append_nil] at hrest
  exact hrest ▸ hadded

/-- A node peer touches neither targets nor pages. -/
theorem inserts_applyNodePeer {peers peers' : ImportReport × List String} {p : ExportedNodePeer}
    (h : Sql.exec false (applyNodePeer peers p) db = some (db', peers')) : db.Inserts db' [] := by
  rw [applyNodePeer] at h
  split at h
  · obtain ⟨rfl, -⟩ := Prod.mk.inj (Option.some.inj h)
    exact .of_eq rfl rfl
  · obtain ⟨_, _, hinsert, h⟩ := Sql.exec_attempt_eq_some.1 h
    rw [Sql.exec_execute] at hinsert
    obtain ⟨_, -, he⟩ := Option.map_eq_some_iff.1 hinsert
    obtain ⟨rfl, -⟩ := Prod.mk.inj he
    obtain ⟨rfl, -⟩ := Prod.mk.inj (Option.some.inj h)
    exact .of_eq rfl rfl

/-- Nor does a subscription. -/
theorem inserts_applyCollectionPeer {names urls : List String} {cp : ExportedCollectionPeer}
    (h : Sql.exec false (applyCollectionPeer names urls report cp) db = some (db', report')) :
    db.Inserts db' [] := by
  rw [applyCollectionPeer] at h
  split at h
  · obtain ⟨rfl, -⟩ := Prod.mk.inj (Option.some.inj h)
    exact .of_eq rfl rfl
  · obtain ⟨_, _, hquery, h⟩ := Sql.exec_attempt_eq_some.1 h
    rw [Sql.exec_queryRow] at hquery
    obtain ⟨_, -, he⟩ := Option.map_eq_some_iff.1 hquery
    obtain ⟨rfl, rfl⟩ := Prod.mk.inj he
    obtain ⟨_, _, hinsert, h⟩ := Sql.exec_attempt_eq_some.1 h
    rw [Sql.exec_execute] at hinsert
    obtain ⟨rfl, -⟩ := Prod.mk.inj (Option.some.inj h)
    rcases Database.insertOrIgnoreCollectionPeer_cases hinsert with ⟨_, -, rfl, -⟩ | ⟨rfl, -⟩
    · exact .of_eq rfl rfl
    · exact .of_eq rfl rfl

/-- **What an import does to the targets and their pages.** -/
theorem inserts_of_committedImport {env : ExportEnvelope} {jobs : List IndexJob}
    (h : committedImport X ts env db = some (db', report, jobs)) :
    db.Inserts db' ((newCollections db.collectionNames env.collections).flatMap
      ExportedCollection.crawlTargets) := by
  obtain ⟨db₁, acc, db₂, peers, hcollections, hnodes, hpeers, -⟩ := committedImport_eq_some.1 h
  have h₂ : db₁.Inserts db₂ [] :=
    Sql.loop_invariant (I := fun db₂ _ ↦ db₁.Inserts db₂ [])
      (fun _ _ _ _ _ hI hp ↦ hI.trans_nil (inserts_applyNodePeer hp)) (.of_eq rfl rfl) hnodes
  have h₃ : db₂.Inserts db' [] :=
    Sql.loop_invariant (I := fun db' _ ↦ db₂.Inserts db' [])
      (fun _ _ _ _ _ hI hcp ↦ hI.trans_nil (inserts_applyCollectionPeer hcp)) (.of_eq rfl rfl)
      hpeers
  exact ((inserts_of_collections hcollections).trans_nil h₂).trans_nil h₃

theorem adds_of_committedImport {env : ExportEnvelope} {jobs : List IndexJob}
    (h : committedImport X ts env db = some (db', report, jobs)) :
    db.Adds db' ((newCollections db.collectionNames env.collections).flatMap
      ExportedCollection.crawlTargets) :=
  (inserts_of_committedImport h).adds

end CommunitySearch
