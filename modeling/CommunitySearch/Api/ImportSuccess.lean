import CommunitySearch.Api.Restored

/-!
# When an import succeeds

A constraint error can only come from a collection: node peers and subscriptions that are there are
skipped. So an import succeeds where the names of the collections are new, no configuration waits
for a rowid to be given out, and no collection of the envelope has a duplicate within itself
(`exists_committedImport`).

The envelope keys its rows by names, the tables key them also by rowids, identifiers and page ids.
These are fresh, which the effect of the rounds before keeps (`Nests`, `Gains`).
-/

namespace CommunitySearch

/-! ### Envelopes without duplicates -/

/-- The targets, pages and suggestions of the collection violate no constraint of the tables. -/
structure ExportedCollection.Unique (c : ExportedCollection) : Prop where
  targets : c.crawlTargets.Pairwise fun s t ↦ s.urlPrefix ≠ t.urlPrefix
  pages : (c.crawlTargets.flatMap ExportedCrawlTarget.crawledPages).Pairwise
    fun p q ↦ p.url ≠ q.url
  hosts : c.outlinkHostSuggestions.Pairwise fun o o' ↦ o.host ≠ o'.host

namespace Database

variable {db db' : Database} {collection target : Uuid} {ts : String} {report : ImportReport}

/-! ### The import succeeds -/

theorem exists_importPages (db : Database) (collection target : Uuid) (report : ImportReport)
    {ps : List ExportedCrawledPage}
    (hid : ∀ p ∈ db.crawledPages, p.id < db.nextPageId)
    (hnew : ∀ p ∈ db.crawledPages, p.collectionId = collection → ∀ q ∈ ps, p.url ≠ q.url)
    (hps : ps.Pairwise fun p q ↦ p.url ≠ q.url) :
    ∃ db' report',
      Sql.exec false (Sql.loop (importPage collection target) report ps) db =
        some (db', report') := by
  induction ps generalizing db report with
  | nil => exact ⟨db, report, rfl⟩
  | cons e ps ih =>
    obtain ⟨hfirst, hrest⟩ := List.pairwise_cons.1 hps
    obtain ⟨pages, hpages⟩ : ∃ pages,
        db.crawledPages.insert (db.importedPage collection target e) = some pages := by
      refine Table.exists_insert fun p hp hclash ↦ ?_
      rcases hclash with heq | ⟨hcol, hurl⟩
      · exact absurd heq (Int.ne_of_lt (hid p hp))
      · exact hnew p hp hcol e List.mem_cons_self hurl
    have hmem := fun p ↦ Table.mem_of_insert hpages (a := p)
    obtain ⟨db', report', h⟩ := ih
      { db with crawledPages := pages, nextPageId := db.nextPageId + 1 }
      { report with crawledPagesImported := report.crawledPagesImported + 1 }
      (fun p hp ↦ by
        rcases (hmem p).1 hp with hold | rfl
        · exact Int.lt_add_one_of_le (Int.le_of_lt (hid p hold))
        · exact Int.lt_succ _)
      (fun p hp hcol q hq ↦ by
        rcases (hmem p).1 hp with hold | rfl
        · exact hnew p hold hcol q (List.mem_cons_of_mem e hq)
        · exact hfirst q hq)
      hrest
    refine ⟨db', report', Sql.exec_loop_cons.2 ⟨_, _, ?_, h⟩⟩
    rw [exec_importPage, hpages]
    rfl

theorem exists_importTarget (db : Database) (collection : Uuid) (ts : String)
    (report : ImportReport) {e : ExportedCrawlTarget} (hdb : db.Supplied)
    (hfree : ∀ t ∈ db.crawlTargets, t.collectionId = collection → t.urlPrefix ≠ e.urlPrefix)
    (hpages : ∀ p ∈ db.crawledPages, p.collectionId = collection →
      ∀ q ∈ e.crawledPages, p.url ≠ q.url)
    (he : e.crawledPages.Pairwise fun p q ↦ p.url ≠ q.url) :
    ∃ db' report', Sql.exec false (importTarget collection ts report e) db =
      some (db', report') := by
  obtain ⟨targets, htargets⟩ : ∃ targets, db.crawlTargets.insert
      (db.importedTarget collection ⟨db.nextUuid⟩ ts e) = some targets := by
    refine Table.exists_insert fun t ht hclash ↦ ?_
    rcases hclash with heq | heq | ⟨hcol, hpre⟩
    · exact absurd heq (Int.ne_of_lt (lt_nextRowid (List.mem_map_of_mem ht)))
    · exact absurd (congrArg Uuid.serial heq) (Nat.ne_of_lt (hdb.target t ht).1)
    · exact hfree t ht hcol hpre
  obtain ⟨db', report', h⟩ := exists_importPages
    { db with crawlTargets := targets, nextUuid := db.nextUuid + 1 } collection ⟨db.nextUuid⟩
    { report with crawlTargetsImported := report.crawlTargetsImported + 1 }
    (fun p hp ↦ (hdb.page p hp).1) hpages he
  exact ⟨db', report', by rw [exec_importTarget, htargets, Option.bind_some, h]⟩

/-- **The targets of a new collection** can be imported. -/
theorem exists_importTargets (collection : Uuid) (ts : String) (report : ImportReport)
    {es : List ExportedCrawlTarget} (hdb : db.Supplied) (hc : collection.serial < db.nextUuid)
    (htargets : ∀ t ∈ db.crawlTargets, t.collectionId ≠ collection)
    (hpages : ∀ p ∈ db.crawledPages, p.collectionId ≠ collection)
    (hprefixes : es.Pairwise fun s t ↦ s.urlPrefix ≠ t.urlPrefix)
    (hurls : (es.flatMap ExportedCrawlTarget.crawledPages).Pairwise fun p q ↦ p.url ≠ q.url) :
    ∃ db' report', Sql.exec false (Sql.loop (importTarget collection ts) report es) db =
      some (db', report') := by
  have hround : ∀ done e rest db₁ report₁, es = done ++ e :: rest →
      db.Nests collection ts done db₁ → ∃ db₂ report₂,
        Sql.exec false (importTarget collection ts report₁ e) db₁ = some (db₂, report₂) ∧
          db.Nests collection ts (done ++ [e]) db₂ := by
    intro done e rest db₁ report₁ hes hI
    rw [hes] at hprefixes hurls
    rw [List.flatMap_append, List.flatMap_cons] at hurls
    obtain ⟨-, hlater, hbefore⟩ := List.pairwise_append.1 hurls
    have hfree : ∀ t ∈ db₁.crawlTargets, t.collectionId = collection →
        t.urlPrefix ≠ e.urlPrefix := by
      intro t ht hcol
      obtain ⟨rows, hrows, -, hexport⟩ := hI.rows
      rw [Table.mem_def, hrows] at ht
      have ht := (List.mem_append.1 ht).resolve_left fun hold ↦ htargets t hold hcol
      have hpre := congrArg (List.map ExportedCrawlTarget.urlPrefix) hexport
      rw [List.map_map, List.map_map] at hpre
      have hmem : t.urlPrefix ∈ rows.map (ExportedCrawlTarget.urlPrefix ∘ db₁.exportCrawlTarget) :=
        List.mem_map_of_mem (f := ExportedCrawlTarget.urlPrefix ∘ db₁.exportCrawlTarget) ht
      rw [hpre] at hmem
      obtain ⟨d, hd, hdpre⟩ := List.mem_map.1 hmem
      have hne := (List.pairwise_append.1 hprefixes).2.2 d hd e List.mem_cons_self
      exact fun heq ↦ hne (hdpre.trans heq)
    have hnew : ∀ p ∈ db₁.crawledPages, p.collectionId = collection →
        ∀ q ∈ e.crawledPages, p.url ≠ q.url := by
      intro p hp hcol q hq
      rcases hI.keys p hp with hold | ⟨-, d, hd, q', hq', hurl⟩
      · exact absurd hcol (hpages p hold)
      · rw [← hurl]
        exact hbefore q' (List.mem_flatMap.2 ⟨d, hd, hq'⟩) q (List.mem_append_left _ hq)
    obtain ⟨db₂, report₂, h⟩ := exists_importTarget db₁ collection ts report₁ hI.supplied hfree
      hnew (List.pairwise_append.1 hlater).1
    exact ⟨db₂, report₂, h, hI.trans
      (nests_importTarget hI.supplied (Nat.lt_of_lt_of_le hc hI.supply) h)⟩
  obtain ⟨db', report', h, -⟩ := Sql.exists_exec_loop false
    (I := fun done db' _ ↦ db.Nests collection ts done db') hround (b := report) (.refl hdb)
  exact ⟨db', report', h⟩

theorem exists_importOutlinkHosts (db : Database) (collection : Uuid) (report : ImportReport)
    {os : List ExportedOutlinkHostSuggestion}
    (hid : ∀ o ∈ db.outlinkHostSuggestions, o.id.serial < db.nextUuid)
    (hnew : ∀ o ∈ db.outlinkHostSuggestions, o.collectionId = collection →
      ∀ e ∈ os, o.host ≠ e.host)
    (hos : os.Pairwise fun o o' ↦ o.host ≠ o'.host) :
    ∃ db' report', Sql.exec false (Sql.loop (importOutlinkHost collection) report os) db =
      some (db', report') := by
  induction os generalizing db report with
  | nil => exact ⟨db, report, rfl⟩
  | cons e os ih =>
    obtain ⟨hfirst, hrest⟩ := List.pairwise_cons.1 hos
    obtain ⟨hosts, hhosts⟩ : ∃ hosts, db.outlinkHostSuggestions.insert
        (db.importedOutlinkHost collection ⟨db.nextUuid⟩ e) = some hosts := by
      refine Table.exists_insert fun o ho hclash ↦ ?_
      rcases hclash with heq | heq | ⟨hcol, hhost⟩
      · exact absurd heq (Int.ne_of_lt (lt_nextRowid (List.mem_map_of_mem ho)))
      · exact absurd (congrArg Uuid.serial heq) (Nat.ne_of_lt (hid o ho))
      · exact hnew o ho hcol e List.mem_cons_self hhost
    have hmem := fun o ↦ Table.mem_of_insert hhosts (a := o)
    obtain ⟨db', report', h⟩ := ih
      { db with outlinkHostSuggestions := hosts, nextUuid := db.nextUuid + 1 }
      { report with
        outlinkHostSuggestionsImported := report.outlinkHostSuggestionsImported + 1 }
      (fun o ho ↦ by
        rcases (hmem o).1 ho with hold | rfl
        · exact Nat.lt_succ_of_lt (hid o hold)
        · exact Nat.lt_succ_self _)
      (fun o ho hcol e' he' ↦ by
        rcases (hmem o).1 ho with hold | rfl
        · exact hnew o hold hcol e' (List.mem_cons_of_mem e he')
        · exact hfirst e' he')
      hrest
    refine ⟨db', report', Sql.exec_loop_cons.2 ⟨_, _, ?_, h⟩⟩
    rw [exec_importOutlinkHost, hhosts]
    rfl

/-- **A collection of a new name** can be imported. -/
theorem exists_importCollection (X : Crates) (ts : String) (acc : ImportProgress)
    {e : ExportedCollection} (hdb : db.Supplied)
    (hbelow : db.RankingsBelow) (hname : e.name ∉ db.collectionNames) (he : e.Unique) :
    ∃ db' acc', Sql.exec false (importCollection X ts acc e) db = some (db', acc') := by
  obtain ⟨cs, hcs⟩ : ∃ cs, db.collections.insert
      (db.importedCollection ⟨db.nextUuid⟩ ts e) = some cs := by
    refine Table.exists_insert fun c hc hclash ↦ ?_
    rcases hclash with heq | heq | heq
    · exact absurd heq (Int.ne_of_lt (lt_nextRowid (List.mem_map_of_mem hc)))
    · exact absurd (congrArg Uuid.serial heq) (Nat.ne_of_lt (hdb.collection c hc))
    · exact hname (mem_collectionNames.2 ⟨c, hc, heq⟩)
  have hsupplied := hdb.insertCollection hcs
  obtain ⟨db₁, report₁, htargets⟩ := exists_importTargets ⟨db.nextUuid⟩ ts
    { acc.report with collectionsImported := acc.report.collectionsImported + 1 } hsupplied
    (Nat.lt_succ_self db.nextUuid)
    (fun t ht heq ↦ absurd (congrArg Uuid.serial heq) (Nat.ne_of_lt (hdb.target t ht).2))
    (fun p hp heq ↦ absurd (congrArg Uuid.serial heq) (Nat.ne_of_lt (hdb.page p hp).2.1))
    he.targets he.pages
  have hnests := nests_importTargets hsupplied (Nat.lt_succ_self _) htargets
  have hfree : ∀ r ∈ db₁.rankingConfig, r.collectionId ≠ db.nextCollection := fun r hr ↦
    Int.ne_of_lt (hbelow r (hnests.rankings ▸ hr))
  obtain ⟨rankings, hranking, -⟩ : ∃ rankings, Sql.exec false
      (importRankingConfig db.nextCollection e.rankingConfig) db₁ =
        some (db₁.withRankings rankings, ()) ∧ _ :=
    exec_importRankingConfig_of_free db₁ fun _ ↦ hfree
  have hserial : db.nextUuid < db₁.nextUuid := Nat.lt_of_succ_le hnests.supply
  obtain ⟨db', report₂, hhosts⟩ := exists_importOutlinkHosts (db₁.withRankings rankings)
    ⟨db.nextUuid⟩ report₁ (fun o ho ↦ (hnests.supplied.host o ho).1)
    (fun o ho hcol ↦ by
      replace ho : o ∈ db₁.outlinkHostSuggestions := ho
      rw [hnests.hosts] at ho
      exact absurd (congrArg Uuid.serial hcol) (Nat.ne_of_lt (hdb.host o ho).2))
    he.hosts
  exact ⟨db', _, exec_importCollection_eq_some.2
    ⟨cs, db₁, report₁, _, report₂, hcs, htargets, hranking, hhosts, rfl⟩⟩

/-- **Collections of new names** can be imported. -/
theorem exists_applyCollections (X : Crates) (ts : String) {es : List ExportedCollection}
    (hdb : db.Supplied) (hbelow : db.RankingsBelow) (hnew : ∀ e ∈ es, e.name ∉ db.collectionNames)
    (hnames : es.Pairwise fun e e' ↦ e.name ≠ e'.name) (hes : ∀ e ∈ es, e.Unique) :
    ∃ db' acc', Sql.exec false (Sql.loop (applyCollection X ts) ⟨{}, [], db.collectionNames⟩ es)
      db = some (db', acc') := by
  have hround : ∀ done e rest db₁ (acc : ImportProgress), es = done ++ e :: rest →
      db.Gains ts done db₁ ∧ (∀ name, name ∈ acc.knownCollectionNames ↔
        name ∈ db.collectionNames ∨ name ∈ done.map ExportedCollection.name) →
      ∃ db₂ acc', Sql.exec false (applyCollection X ts acc e) db₁ = some (db₂, acc') ∧
        db.Gains ts (done ++ [e]) db₂ ∧ ∀ name, name ∈ acc'.knownCollectionNames ↔
          name ∈ db.collectionNames ∨ name ∈ (done ++ [e]).map ExportedCollection.name := by
    rintro done e rest db₁ acc hsplit ⟨hI, hknown⟩
    have hmem : e ∈ es := hsplit ▸ List.mem_append_right _ List.mem_cons_self
    have hunknown : e.name ∉ acc.knownCollectionNames := by
      rw [hknown, not_or]
      refine ⟨hnew e hmem, fun hdone ↦ ?_⟩
      obtain ⟨d, hd, hname⟩ := List.mem_map.1 hdone
      rw [hsplit] at hnames
      exact (List.pairwise_append.1 hnames).2.2 d hd e List.mem_cons_self hname
    have hfree : e.name ∉ db₁.collectionNames := by
      obtain ⟨rows, hrows, hexport⟩ := hI.rows
      have hnamed := congrArg (List.map ExportedCollection.name) (hexport hbelow)
      rw [List.map_map, List.map_map] at hnamed
      replace hnamed : rows.map CollectionRow.name = done.map ExportedCollection.name := hnamed
      rw [collectionNames, hrows, List.map_append, hnamed, List.mem_append]
      exact fun hmem ↦ hunknown ((hknown _).2 hmem)
    obtain ⟨db₂, acc', h⟩ := exists_importCollection X ts acc hI.supplied
      (hI.below hbelow) hfree (hes e hmem)
    refine ⟨db₂, acc', ?_, hI.trans ((creates_importCollection hI.supplied h).gains hI.supplied),
      fun name ↦ ?_⟩
    · rw [applyCollection, if_neg hunknown, h]
    · obtain ⟨_, _, _, _, _, -, -, -, -, rfl⟩ := exec_importCollection_eq_some.1 h
      rw [List.mem_cons, hknown, List.map_append, List.mem_append, List.map_singleton,
        List.mem_singleton]
      tauto
  obtain ⟨db', acc', h, -⟩ := Sql.exists_exec_loop false
    (I := fun done db₁ (acc : ImportProgress) ↦ db.Gains ts done db₁ ∧
      ∀ name, name ∈ acc.knownCollectionNames ↔
        name ∈ db.collectionNames ∨ name ∈ done.map ExportedCollection.name) hround
    (b := ⟨{}, [], db.collectionNames⟩) ⟨.refl hdb, fun name ↦ by simp⟩
  exact ⟨db', acc', h⟩

/-- **Node peers** can always be imported. -/
theorem exists_applyNodePeers (db : Database) (peers : ImportReport × List String)
    (ps : List ExportedNodePeer) (hknown : ∀ url, url ∈ peers.2 ↔ url ∈ db.nodePeerUrls) :
    ∃ db' peers', Sql.exec false (Sql.loop applyNodePeer peers ps) db = some (db', peers') := by
  have hround : ∀ (done : List ExportedNodePeer) p rest db₁ (peers : ImportReport × List String),
      ps = done ++ p :: rest → (∀ url, url ∈ peers.2 ↔ url ∈ db₁.nodePeerUrls) →
      ∃ db₂ peers', Sql.exec false (applyNodePeer peers p) db₁ = some (db₂, peers') ∧
        ∀ url, url ∈ peers'.2 ↔ url ∈ db₂.nodePeerUrls := by
    intro done p rest db₁ peers _ hI
    suffices hstep : ∃ db₂ peers', Sql.exec false (applyNodePeer peers p) db₁ =
        some (db₂, peers') by
      obtain ⟨db₂, peers', h⟩ := hstep
      exact ⟨db₂, peers', h, (extends_applyNodePeer hI h).2.2.1⟩
    rw [applyNodePeer]
    split
    · exact ⟨_, _, rfl⟩
    case isFalse hnew =>
      rw [hI, mem_nodePeerUrls] at hnew
      obtain ⟨rows, hrows⟩ : ∃ rows, db₁.nodePeers.insert (db₁.importedNodePeer p) = some rows := by
        refine Table.exists_insert fun np hnp hclash ↦ ?_
        rcases hclash with heq | hurl
        · exact absurd heq (Int.ne_of_lt (lt_nextRowid (List.mem_map_of_mem hnp)))
        · exact hnew ⟨np, hnp, hurl⟩
      refine ⟨{ db₁ with nodePeers := rows }, _, Sql.exec_attempt_eq_some.2 ⟨_, 1, ?_, rfl⟩⟩
      rw [Sql.exec_execute, insertPeer, hrows]
      rfl
  obtain ⟨db', peers', h, -⟩ := Sql.exists_exec_loop false
    (I := fun _ (db₁ : Database) (peers : ImportReport × List String) ↦
      ∀ url, url ∈ peers.2 ↔ url ∈ db₁.nodePeerUrls) hround hknown
  exact ⟨db', peers', h⟩

/-- **Subscriptions** can always be imported. -/
theorem exists_applyCollectionPeers (db : Database) (names urls : List String)
    (report : ImportReport) (cps : List ExportedCollectionPeer)
    (hknown : ∀ url, url ∈ urls ↔ url ∈ db.nodePeerUrls) :
    ∃ db' report', Sql.exec false (Sql.loop (applyCollectionPeer names urls) report cps) db =
      some (db', report') := by
  have hround : ∀ (done : List ExportedCollectionPeer) cp rest (db₁ : Database)
      (report : ImportReport), cps = done ++ cp :: rest → db₁.nodePeers = db.nodePeers →
      ∃ db₂ report', Sql.exec false (applyCollectionPeer names urls report cp) db₁ =
        some (db₂, report') ∧ db₂.nodePeers = db.nodePeers := by
    intro done cp rest db₁ report _ hI
    rw [applyCollectionPeer]
    split
    · exact ⟨_, _, rfl, hI⟩
    case isFalse hends =>
      have hurl : cp.nodePeerUrl ∈ db₁.nodePeerUrls := by
        rw [nodePeerUrls, hI]
        exact (hknown _).1 (not_not.1 (not_or.1 hends).2)
      obtain ⟨id, hid⟩ := exists_nodePeerIdOf hurl
      obtain ⟨db₂, n, hinsert, hpeers⟩ : ∃ db₂ n, insertOrIgnoreCollectionPeer id cp false db₁ =
          some (db₂, n) ∧ db₂.nodePeers = db₁.nodePeers := by
        rw [insertOrIgnoreCollectionPeer, if_neg fun h ↦ Bool.false_ne_true h.1]
        split
        · exact ⟨_, _, rfl, rfl⟩
        · exact ⟨_, _, rfl, rfl⟩
      refine ⟨db₂, _, Sql.exec_attempt_eq_some.2 ⟨db₁, id, ?_, Sql.exec_attempt_eq_some.2
        ⟨db₂, n, ?_, rfl⟩⟩, hpeers.trans hI⟩
      · rw [Sql.exec_queryRow, hid]
        rfl
      · rw [Sql.exec_execute, hinsert]
  obtain ⟨db', report', h, -⟩ := Sql.exists_exec_loop false
    (I := fun _ (db₁ : Database) _ ↦ db₁.nodePeers = db.nodePeers) hround (b := report) rfl
  exact ⟨db', report', h⟩

end Database

/-- **An import** without duplicates succeeds. -/
theorem exists_committedImport (X : Crates) (ts : String) {env : ExportEnvelope} {db : Database}
    (hdb : db.Supplied) (hbelow : db.RankingsBelow)
    (hnew : ∀ e ∈ env.collections, e.name ∉ db.collectionNames)
    (hnames : env.collections.Pairwise fun e e' ↦ e.name ≠ e'.name)
    (hunique : ∀ e ∈ env.collections, e.Unique) :
    ∃ db' report jobs, committedImport X ts env db = some (db', report, jobs) := by
  obtain ⟨db₁, acc, hcollections⟩ :=
    Database.exists_applyCollections X ts hdb hbelow hnew hnames hunique
  obtain ⟨db₂, peers, hnodes⟩ := Database.exists_applyNodePeers db₁ (acc.report, db₁.nodePeerUrls)
    env.nodePeers fun _ ↦ Iff.rfl
  obtain ⟨-, -, hknown, -⟩ := nodePeers_of_loop hnodes
  obtain ⟨db', report, hpeers⟩ := Database.exists_applyCollectionPeers db₂
    acc.knownCollectionNames peers.2 peers.1 env.collectionPeers hknown
  exact ⟨db', report, acc.jobs, committedImport_eq_some.2
    ⟨db₁, acc, db₂, peers, hcollections, hnodes, hpeers, rfl⟩⟩

end CommunitySearch
