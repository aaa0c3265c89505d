import CommunitySearch.Api.ImportEffect

/-!
# Imports are atomic, additive and idempotent

For every database, every envelope and every failure of a statement on the way: an import that
fails leaves the tables as they were, and one that succeeds keeps every row, gives every row it adds
its parents, and leaves nothing to import (`importContract`). Foreign keys are enforced again in
either case.

That failures are harmless is `Sql.wp_withForeignKeysOff`; the rest is about what the statements
do, `committedImport`. A second import skips whatever the first has left (`Database.Absorbed`).
-/

namespace CommunitySearch

/-- How many rows an import has inserted, and how many documents it has queued. -/
def ImportReport.inserted (report : ImportReport) : Nat :=
  report.collectionsImported + report.crawlTargetsImported + report.crawledPagesImported +
    report.documentsQueued + report.outlinkHostSuggestionsImported + report.nodePeersImported +
    report.collectionPeersImported

variable (X : Crates)

/-- **The contract of an import** into `db` that has ended with `r` and left the connection `c`. -/
structure ImportContract (ts : String) (env : ExportEnvelope) (db : Database)
    (r : Except Sql.Error (ImportReport × List IndexJob)) (c : Sql.Connection Database) : Prop where
  /-- No transaction is open, and foreign keys are enforced. -/
  idle : c = .idle c.tables
  /-- What is committed is what the statements do. -/
  committed : ∀ report jobs, r = .ok (report, jobs) →
    committedImport X ts env db = some (c.tables, report, jobs)
  /-- A failure changes nothing. -/
  failed : ∀ err, r = .error err →
    c.tables = db ∧ (err = .io ∨ committedImport X ts env db = none)
  /-- Every row is kept. -/
  keeps : db.Keeps c.tables
  /-- Every row that is added has its parents. -/
  parented : db.Parented c.tables
  /-- Applied again, the envelope inserts nothing, changes nothing and yields no job. -/
  again : ∀ result, r = .ok result → ∀ ts', (applyEnvelope X ts' env).wp Sql.Connection.Handles
    (fun _ _ ↦ True) (fun r' c' ↦ c' = c ∧ match r' with
      | .ok (report, jobs) => report.inserted = 0 ∧ jobs = []
      | .error err => err = .io) c

/-! ### Every error is passed on -/

theorem strict_importTarget (collection : Uuid) (ts : String) (report : ImportReport)
    (t : ExportedCrawlTarget) : Sql.Strict (importTarget collection ts report t) :=
  (Sql.strict_draw _).attempt fun _ ↦ (Sql.strict_execute _).attempt fun _ ↦
    Sql.strict_loop fun _ _ ↦ (Sql.strict_execute _).attempt fun _ ↦ Sql.strict_ok _

theorem strict_importRankingConfig (rowid : Int) (rc : Option ExportedRankingConfig) :
    Sql.Strict (importRankingConfig rowid rc) := by
  cases rc with
  | none => exact Sql.strict_ok _
  | some rc => exact (Sql.strict_execute _).attempt fun _ ↦ Sql.strict_ok _

theorem strict_importOutlinkHost (collection : Uuid) (report : ImportReport)
    (o : ExportedOutlinkHostSuggestion) : Sql.Strict (importOutlinkHost collection report o) :=
  (Sql.strict_draw _).attempt fun _ ↦ (Sql.strict_execute _).attempt fun _ ↦ Sql.strict_ok _

theorem strict_applyCollection (ts : String) (acc : ImportProgress) (c : ExportedCollection) :
    Sql.Strict (applyCollection X ts acc c) := by
  rw [applyCollection]
  split
  · exact Sql.strict_ok _
  · exact (Sql.strict_draw _).attempt fun _ ↦ (Sql.strict_execute _).attempt fun _ ↦
      (Sql.strict_queryRow _).attempt fun _ ↦
        (Sql.strict_loop (strict_importTarget _ ts)).attempt fun _ ↦
          (strict_importRankingConfig _ _).attempt fun _ ↦
            (Sql.strict_loop (strict_importOutlinkHost _)).attempt fun _ ↦ Sql.strict_ok _

theorem strict_applyNodePeer (acc : ImportReport × List String) (p : ExportedNodePeer) :
    Sql.Strict (applyNodePeer acc p) := by
  rw [applyNodePeer]
  split
  · exact Sql.strict_ok _
  · exact (Sql.strict_execute _).attempt fun _ ↦ Sql.strict_ok _

theorem strict_applyCollectionPeer (names urls : List String) (report : ImportReport)
    (cp : ExportedCollectionPeer) : Sql.Strict (applyCollectionPeer names urls report cp) := by
  rw [applyCollectionPeer]
  split
  · exact Sql.strict_ok _
  · exact (Sql.strict_queryRow _).attempt fun _ ↦ (Sql.strict_execute _).attempt fun _ ↦
      Sql.strict_ok _

theorem strict_envelopeRows (ts : String) (env : ExportEnvelope) :
    Sql.Strict (envelopeRows X ts env) :=
  (Sql.strict_query _).attempt fun _ ↦
    (Sql.strict_loop (strict_applyCollection X ts)).attempt fun _ ↦
      (Sql.strict_query _).attempt fun _ ↦ (Sql.strict_loop strict_applyNodePeer).attempt fun _ ↦
        (Sql.strict_loop (strict_applyCollectionPeer _ _)).attempt fun _ ↦ Sql.strict_ok _

/-! ### Importing again -/

section Again

variable {db : Database} {env : ExportEnvelope}

variable {X}

theorem exec_applyCollection_again {ts : String} {acc : ImportProgress} {c : ExportedCollection}
    (h : c.name ∈ acc.knownCollectionNames) :
    Sql.exec false (applyCollection X ts acc c) db = some (db, { acc with
      report :=
        { acc.report with collectionsSkipped := acc.report.collectionsSkipped + 1 } }) := by
  rw [applyCollection, if_pos h]
  rfl

theorem exec_applyNodePeer_again {peers : ImportReport × List String} {p : ExportedNodePeer}
    (h : p.url ∈ peers.2) : Sql.exec false (applyNodePeer peers p) db =
      some (db, { peers.1 with nodePeersSkipped := peers.1.nodePeersSkipped + 1 }, peers.2) := by
  rw [applyNodePeer, if_pos h]
  rfl

/-- A subscription that is stored is not inserted again. -/
theorem exec_applyCollectionPeer_again {report : ImportReport} {cp : ExportedCollectionPeer}
    (h : cp.localCollection ∈ db.collectionNames → cp.nodePeerUrl ∈ db.nodePeerUrls →
      db.HasSubscription cp) :
    Sql.exec false (applyCollectionPeer db.collectionNames db.nodePeerUrls report cp) db =
      some (db, { report with
        collectionPeersSkipped := report.collectionPeersSkipped + 1 }) := by
  rw [applyCollectionPeer]
  split
  case isTrue => rfl
  case isFalse hends =>
    obtain ⟨hname, hurl⟩ := not_or.1 hends
    rw [not_not] at hname hurl
    obtain ⟨row, hrow, hlocal, hremote, np, hnp, hnpurl, hnode⟩ := h hname hurl
    obtain ⟨id, hid⟩ := Database.exists_nodePeerIdOf hurl
    obtain ⟨np', hnp', hnpurl', hnode'⟩ := Database.nodePeerIdOf_eq_some hid
    have hsame : np' = np :=
      Database.eq_of_mem_nodePeers hnp' hnp (Or.inr (hnpurl'.trans hnpurl.symm))
    have hnone : db.collectionPeers.insert (db.importedCollectionPeer id cp) = none :=
      Table.insert_of_clash hrow
        (Or.inr ⟨hlocal, hnode.symm.trans ((congrArg _ hsame.symm).trans hnode'), hremote⟩)
    rw [Sql.exec_attempt, Sql.exec_queryRow, hid, Option.map_some, Option.bind_some,
      Sql.exec_attempt, Sql.exec_execute, Database.insertOrIgnoreCollectionPeer,
      if_neg fun h ↦ Bool.false_ne_true h.1, hnone]
    rfl

theorem exec_collections_again (h : db.Absorbed env) (ts : String) :
    ∃ acc : ImportProgress, Sql.exec false
      (Sql.loop (applyCollection X ts) ⟨{}, [], db.collectionNames⟩ env.collections) db =
        some (db, acc) ∧ acc.report.inserted = 0 ∧ acc.jobs = [] ∧
          acc.knownCollectionNames = db.collectionNames := by
  obtain ⟨_, acc, hloop, rfl, hacc⟩ := Sql.exists_exec_loop false
    (f := applyCollection X ts) (l := env.collections) (t := db)
    (b := ⟨{}, [], db.collectionNames⟩)
    (I := fun _ (db₁ : Database) (acc : ImportProgress) ↦ db₁ = db ∧ acc.report.inserted = 0 ∧
      acc.jobs = [] ∧ acc.knownCollectionNames = db.collectionNames)
    (by
      rintro done c rest db₁ acc hl ⟨rfl, hreport, hjobs, hknown⟩
      have hc : c ∈ env.collections := hl ▸ List.mem_append_right _ List.mem_cons_self
      exact ⟨_, _, exec_applyCollection_again (hknown ▸ h.collections c hc), rfl, hreport, hjobs,
        hknown⟩) ⟨rfl, rfl, rfl, rfl⟩
  exact ⟨acc, hloop, hacc⟩

theorem exec_nodePeers_again (h : db.Absorbed env) {report : ImportReport}
    (hreport : report.inserted = 0) :
    ∃ peers : ImportReport × List String, Sql.exec false
      (Sql.loop applyNodePeer (report, db.nodePeerUrls) env.nodePeers) db = some (db, peers) ∧
        peers.1.inserted = 0 ∧ peers.2 = db.nodePeerUrls := by
  obtain ⟨_, peers, hloop, rfl, hpeers⟩ := Sql.exists_exec_loop false
    (f := applyNodePeer) (l := env.nodePeers) (t := db) (b := (report, db.nodePeerUrls))
    (I := fun _ (db₁ : Database) (peers : ImportReport × List String) ↦
      db₁ = db ∧ peers.1.inserted = 0 ∧ peers.2 = db.nodePeerUrls)
    (by
      rintro done p rest db₁ peers hl ⟨rfl, hreport, hknown⟩
      have hp : p ∈ env.nodePeers := hl ▸ List.mem_append_right _ List.mem_cons_self
      exact ⟨_, _, exec_applyNodePeer_again (hknown ▸ h.nodePeers p hp), rfl, hreport, hknown⟩)
    ⟨rfl, hreport, rfl⟩
  exact ⟨peers, hloop, hpeers⟩

theorem exec_collectionPeers_again (h : db.Absorbed env) {report : ImportReport}
    (hreport : report.inserted = 0) :
    ∃ report' : ImportReport, Sql.exec false
      (Sql.loop (applyCollectionPeer db.collectionNames db.nodePeerUrls) report
        env.collectionPeers) db = some (db, report') ∧ report'.inserted = 0 := by
  obtain ⟨_, report', hloop, rfl, hreport'⟩ := Sql.exists_exec_loop false
    (f := applyCollectionPeer db.collectionNames db.nodePeerUrls) (l := env.collectionPeers)
    (t := db) (b := report) (I := fun _ (db₁ : Database) (report : ImportReport) ↦
      db₁ = db ∧ report.inserted = 0)
    (by
      rintro done cp rest db₁ report hl ⟨rfl, hreport⟩
      have hcp : cp ∈ env.collectionPeers := hl ▸ List.mem_append_right _ List.mem_cons_self
      exact ⟨_, _, exec_applyCollectionPeer_again (h.collectionPeers cp hcp), rfl, hreport⟩)
    ⟨rfl, hreport⟩
  exact ⟨report', hloop, hreport'⟩

/-- **An import of what is there** inserts nothing. -/
theorem committedImport_again (h : db.Absorbed env) (ts : String) :
    ∃ report, committedImport X ts env db = some (db, report, []) ∧ report.inserted = 0 := by
  obtain ⟨acc, hcollections, hacc, hjobs, hknown⟩ := exec_collections_again (X := X) h ts
  obtain ⟨peers, hnodes, hpeers, hurls⟩ := exec_nodePeers_again h hacc
  obtain ⟨report, hsubscriptions, hreport⟩ := exec_collectionPeers_again h hpeers
  refine ⟨report, committedImport_eq_some.2 ⟨db, acc, db, peers, hcollections, hnodes, ?_,
    hjobs.symm⟩, hreport⟩
  rw [hknown, hurls]
  exact hsubscriptions

end Again

/-- **Imports are atomic, additive and idempotent**, whatever the database and the envelope and
whichever statement fails. -/
theorem importContract (ts : String) (env : ExportEnvelope) (db : Database) :
    (applyEnvelope X ts env).wp Sql.Connection.Handles (fun _ _ ↦ True)
      (ImportContract X ts env db) (.idle db) := by
  refine Prog.wp_mono (fun r c h ↦ ?_)
    (Sql.wp_withForeignKeysOff (strict_envelopeRows X ts env) rfl)
  obtain ⟨hkeys, hsaved, hok, herror⟩ := h
  have hidle : c = .idle c.tables := by
    rw [Sql.Connection.idle, ← hsaved, ← hkeys]
  cases r with
  | error err =>
    have htables : c.tables = db := (herror err rfl).1
    refine ⟨hidle, fun _ _ h ↦ (nomatch h), herror, ?_, ?_, fun _ h ↦ (nomatch h)⟩
    · rw [htables]
      exact .refl db
    · rw [htables]
      exact (Database.Extends.refl db).toParented
  | ok result =>
    have himport : committedImport X ts env db = some (c.tables, result) := hok result rfl
    have himported := imported_of_committedImport himport
    refine ⟨hidle, fun report jobs h ↦ ?_, fun _ h ↦ (nomatch h), himported.ext.toKeeps,
      himported.ext.toParented, fun _ _ ts' ↦ ?_⟩
    · exact Except.ok.inj h ▸ himport
    · obtain ⟨report, hagain, hinserted⟩ := committedImport_again (X := X) himported.absorbed ts'
      refine Prog.wp_mono (fun r' c' h ↦ ?_)
        (Sql.wp_withForeignKeysOff (strict_envelopeRows X ts' env) hsaved)
      obtain ⟨hkeys', hsaved', hok', herror'⟩ := h
      have hsame : c'.tables = c.tables → c' = c := fun ht ↦ by
        rw [hidle, ← ht, Sql.Connection.idle, ← hsaved', ← hkeys']
      cases r' with
      | error err =>
        obtain ⟨htables, hcause⟩ := herror' err rfl
        exact ⟨hsame htables, hcause.resolve_right fun hnone ↦ nomatch hnone.symm.trans hagain⟩
      | ok result' =>
        obtain ⟨htables, hresult⟩ :=
          Prod.mk.inj (Option.some.inj ((hok' result' rfl).symm.trans hagain))
        subst hresult
        exact ⟨hsame htables, hinserted, rfl⟩

end CommunitySearch
