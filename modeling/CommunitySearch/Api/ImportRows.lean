import CommunitySearch.Api.RoundTrip

/-!
# The rows an import adds

An import adds rows and changes none. It draws the identifier of a collection before it writes what
is under it, so the rows it adds belong to collections that the database has not known before
(`addsUnder_of_committedImport`).
-/

namespace CommunitySearch

theorem mem_of_mem_newCollections {known : List String} {cs : List ExportedCollection}
    {c : ExportedCollection} (h : c ∈ newCollections known cs) : c ∈ cs := by
  induction cs generalizing known with
  | nil => exact h
  | cons c₀ cs ih =>
    rw [newCollections] at h
    split at h
    · exact List.mem_cons_of_mem _ (ih h)
    · rcases List.mem_cons.1 h with rfl | h
      · exact List.mem_cons_self
      · exact List.mem_cons_of_mem _ (ih h)

/-- More rows, and the next rowid is no smaller. -/
theorem nextRowid_le_append (rowids rowids' : List Int) :
    nextRowid rowids ≤ nextRowid (rowids ++ rowids') := by
  refine Int.add_le_add_right ?_ 1
  rw [List.foldr_append]
  induction rowids with
  | nil =>
    induction rowids' with
    | nil => exact Int.le_refl _
    | cons r rowids' ih => exact Int.le_trans ih (Int.le_max_right ..)
  | cons r rowids ih => exact max_le_max (Int.le_refl r) ih

namespace Database

/-- Rows are added under collections whose identifier is at least `n` and whose rowid is at least
`m`, the suggestions `hosts` among them. -/
structure AddsUnder (n : Nat) (m : Int) (db : Database)
    (hosts : List ExportedOutlinkHostSuggestion) (db' : Database) : Prop where
  supply : db.nextUuid ≤ db'.nextUuid
  next : db.nextCollection ≤ db'.nextCollection
  collections : ∃ rows, db'.collections.rows = db.collections.rows ++ rows ∧
    ∀ c ∈ rows, n ≤ c.id.serial
  targets : ∃ rows, db'.crawlTargets.rows = db.crawlTargets.rows ++ rows ∧
    ∀ t ∈ rows, n ≤ t.collectionId.serial
  pages : ∃ rows, db'.crawledPages.rows = db.crawledPages.rows ++ rows ∧
    ∀ p ∈ rows, n ≤ p.collectionId.serial
  rankings : ∃ rows, db'.rankingConfig.rows = db.rankingConfig.rows ++ rows ∧
    ∀ r ∈ rows, m ≤ r.collectionId
  hosts : ∃ rows, db'.outlinkHostSuggestions.rows = db.outlinkHostSuggestions.rows ++ rows ∧
    (∀ o ∈ rows, n ≤ o.collectionId.serial) ∧ rows.map OutlinkHostRow.exported = hosts

variable {n : Nat} {m : Int} {db db' db'' : Database}
  {hosts hosts' : List ExportedOutlinkHostSuggestion} {ts : String}

namespace AddsUnder

section Rows

variable {ρ : Type*} {P : ρ → Prop}

theorem rows_kept (rows : List ρ) : ∃ added, rows = rows ++ added ∧ ∀ a ∈ added, P a :=
  ⟨[], (List.append_nil _).symm, fun _ h ↦ absurd h List.not_mem_nil⟩

theorem rows_insert {clash : ρ → ρ → Prop} [DecidableRel clash] {t t' : Table clash} {r : ρ}
    (h : t.insert r = some t') (hr : P r) : ∃ added, t'.rows = t.rows ++ added ∧ ∀ a ∈ added, P a :=
  ⟨[r], Table.rows_of_insert h, fun _ ha ↦ List.mem_singleton.1 ha ▸ hr⟩

/-- Rows added twice are rows added. -/
theorem rows_trans {rows rows' rows'' : List ρ}
    (h : ∃ added, rows' = rows ++ added ∧ ∀ a ∈ added, P a)
    (h' : ∃ added, rows'' = rows' ++ added ∧ ∀ a ∈ added, P a) :
    ∃ added, rows'' = rows ++ added ∧ ∀ a ∈ added, P a := by
  obtain ⟨added, rfl, hP⟩ := h
  obtain ⟨added', rfl, hP'⟩ := h'
  refine ⟨added ++ added', List.append_assoc .., fun a ha ↦ ?_⟩
  exact (List.mem_append.1 ha).elim (hP a) (hP' a)

end Rows

theorem of_eq (hsupply : db.nextUuid ≤ db'.nextUuid)
    (hcollections : db'.collections = db.collections)
    (htargets : db'.crawlTargets = db.crawlTargets) (hpages : db'.crawledPages = db.crawledPages)
    (hrankings : db'.rankingConfig = db.rankingConfig)
    (hhosts : db'.outlinkHostSuggestions = db.outlinkHostSuggestions) :
    db.AddsUnder n m [] db' where
  supply := hsupply
  next := by rw [nextCollection, nextCollection, hcollections]
  rankings := hrankings ▸ rows_kept _
  collections := hcollections ▸ rows_kept _
  targets := htargets ▸ rows_kept _
  pages := hpages ▸ rows_kept _
  hosts := ⟨[], by rw [hhosts, List.append_nil], fun _ h ↦ absurd h List.not_mem_nil, rfl⟩

theorem insertCollection {row : CollectionRow} {cs : Table CollectionRow.Clash}
    (h : db.collections.insert row = some cs) (hrow : n ≤ row.id.serial) :
    db.AddsUnder n m [] { db with collections := cs, nextUuid := db.nextUuid + 1 } where
  supply := Nat.le_succ _
  next := by
    rw [nextCollection, nextCollection, Table.rows_of_insert h, List.map_append]
    exact nextRowid_le_append _ _
  rankings := rows_kept _
  collections := rows_insert h hrow
  targets := rows_kept _
  pages := rows_kept _
  hosts := ⟨[], (List.append_nil _).symm, fun _ h ↦ absurd h List.not_mem_nil, rfl⟩

theorem insertTarget {row : CrawlTargetRow} {targets : Table CrawlTargetRow.Clash}
    (h : db.crawlTargets.insert row = some targets) (hrow : n ≤ row.collectionId.serial) :
    db.AddsUnder n m [] { db with crawlTargets := targets, nextUuid := db.nextUuid + 1 } where
  supply := Nat.le_succ _
  next := Int.le_refl _
  rankings := rows_kept _
  collections := rows_kept _
  targets := rows_insert h hrow
  pages := rows_kept _
  hosts := ⟨[], (List.append_nil _).symm, fun _ h ↦ absurd h List.not_mem_nil, rfl⟩

theorem insertPage {row : CrawledPageRow} {pages : Table CrawledPageRow.Clash} {nextId : Int}
    (h : db.crawledPages.insert row = some pages) (hrow : n ≤ row.collectionId.serial) :
    db.AddsUnder n m [] { db with crawledPages := pages, nextPageId := nextId } where
  supply := Nat.le_refl _
  next := Int.le_refl _
  rankings := rows_kept _
  collections := rows_kept _
  targets := rows_kept _
  pages := rows_insert h hrow
  hosts := ⟨[], (List.append_nil _).symm, fun _ h ↦ absurd h List.not_mem_nil, rfl⟩

theorem trans (h : db.AddsUnder n m hosts db') (h' : db'.AddsUnder n m hosts' db'') :
    db.AddsUnder n m (hosts ++ hosts') db'' where
  supply := Nat.le_trans h.supply h'.supply
  next := Int.le_trans h.next h'.next
  rankings := rows_trans h.rankings h'.rankings
  collections := rows_trans h.collections h'.collections
  targets := rows_trans h.targets h'.targets
  pages := rows_trans h.pages h'.pages
  hosts := by
    obtain ⟨added, hrows, hP, rfl⟩ := h.hosts
    obtain ⟨added', hrows', hP', rfl⟩ := h'.hosts
    refine ⟨added ++ added', by rw [hrows', hrows, List.append_assoc], fun a ha ↦ ?_,
      List.map_append⟩
    exact (List.mem_append.1 ha).elim (hP a) (hP' a)

theorem trans_nil (h : db.AddsUnder n m hosts db') (h' : db'.AddsUnder n m [] db'') :
    db.AddsUnder n m hosts db'' := by
  have htrans := h.trans h'
  rwa [List.append_nil] at htrans

end AddsUnder

variable {report report' : ImportReport} {collection : Uuid}

/-- **A target is added** with its pages. -/
theorem addsUnder_importTarget (hn : n ≤ collection.serial) {e : ExportedCrawlTarget}
    (h : Sql.exec false (importTarget collection ts report e) db = some (db', report')) :
    db.AddsUnder n m [] db' := by
  rw [exec_importTarget] at h
  obtain ⟨targets, htargets, hpages⟩ := Option.bind_eq_some_iff.1 h
  refine Sql.loop_invariant (I := fun db' _ ↦ db.AddsUnder n m [] db')
    (fun q db₁ _ db₂ _ hI hq ↦ ?_) (.insertTarget htargets hn) hpages
  rw [exec_importPage] at hq
  obtain ⟨pages, hpages, he⟩ := Option.map_eq_some_iff.1 hq
  obtain ⟨rfl, -⟩ := Prod.mk.inj he
  exact hI.trans (.insertPage hpages hn)

variable {X : Crates}

/-- **A collection is added**, with what is under it. -/
theorem addsUnder_importCollection (hn : n ≤ db.nextUuid) (hm : m ≤ db.nextCollection)
    {acc acc' : ImportProgress} {c : ExportedCollection}
    (h : Sql.exec false (importCollection X ts acc c) db = some (db', acc')) :
    db.AddsUnder n m c.outlinkHostSuggestions db' := by
  obtain ⟨cs, db₁, report₁, db₂, report₂, hinsert, htargets, hranking, hhosts, -⟩ :=
    exec_importCollection_eq_some.1 h
  have h₁ : db.AddsUnder n m [] db₁ :=
    Sql.loop_invariant (I := fun db₁ _ ↦ db.AddsUnder n m [] db₁)
      (fun _ _ _ _ _ hI ht ↦ hI.trans (addsUnder_importTarget hn ht))
      (.insertCollection hinsert hn) htargets
  obtain ⟨_, rfl, hrankings⟩ := rankings_of_importRankingConfig hranking
  obtain ⟨hosts, supply, rows, rfl, hrows, hexport, hnew, hsupply⟩ :=
    rows_of_importOutlinkHosts hhosts
  refine h₁.trans ⟨hsupply, Int.le_refl _, AddsUnder.rows_kept _, AddsUnder.rows_kept _,
    AddsUnder.rows_kept _, ⟨_, hrankings, fun r hr ↦ ?_⟩, rows, hrows, fun o ho ↦ ?_, hexport⟩
  · obtain ⟨rc, -, rfl⟩ := Option.map_eq_some_iff.1 (Option.mem_toList.1 hr)
    exact hm
  · rw [(hnew o ho).1]
    exact hn

/-- **What an import adds** is under new collections. -/
theorem addsUnder_of_committedImport {env : ExportEnvelope} {report : ImportReport}
    {jobs : List IndexJob} (h : committedImport X ts env db = some (db', report, jobs)) :
    db.AddsUnder db.nextUuid db.nextCollection
      ((newCollections db.collectionNames env.collections).flatMap
        ExportedCollection.outlinkHostSuggestions) db' := by
  obtain ⟨db₁, acc, db₂, peers, hcollections, hnodes, hpeers, -⟩ := committedImport_eq_some.1 h
  obtain ⟨hosts, hadds, hrest⟩ := newCollections_invariant (I := fun rest db₁ _ ↦
    ∃ hosts, db.AddsUnder db.nextUuid db.nextCollection hosts db₁ ∧
      hosts ++ rest.flatMap ExportedCollection.outlinkHostSuggestions =
        (newCollections db.collectionNames env.collections).flatMap
          ExportedCollection.outlinkHostSuggestions)
    (by
      rintro c rest db₁ _ db₂ _ ⟨hosts, hadds, hrest⟩ hc
      refine ⟨_, hadds.trans (addsUnder_importCollection hadds.supply hadds.next hc), ?_⟩
      rw [← hrest, List.append_assoc, List.flatMap_cons])
    ⟨[], .of_eq (Nat.le_refl _) rfl rfl rfl rfl rfl, List.nil_append _⟩ hcollections
  rw [List.flatMap_nil, List.append_nil] at hrest
  obtain ⟨_, rfl⟩ := applyNodePeers_eq hnodes
  obtain ⟨_, _, rfl⟩ := sameContent_applyCollectionPeers hpeers
  exact hrest ▸ hadds.trans_nil (.of_eq (Nat.le_refl _) rfl rfl rfl rfl rfl)

end Database

end CommunitySearch
