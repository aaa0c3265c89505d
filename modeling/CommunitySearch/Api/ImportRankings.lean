import CommunitySearch.Api.ImportEffect
import CommunitySearch.Db.RankingConfig

/-!
# Imports and the ranking table

An import numbers the collections it creates by consecutive rowids, and stores the configuration of
a collection under its rowid (`numbers_of_committedImport`). None of its other statements looks at
the ranking table (`Sql.Frames`), so whether it succeeds depends on that table only through the
rowids its collections get: `committedImport_withRankings`.
-/

namespace CommunitySearch

namespace Database

/-- The rowid of the next collection. -/
def nextCollection (db : Database) : Int :=
  nextRowid (db.collections.rows.map CollectionRow.rowid)

/-- Nothing is stored under the rowids of the next `n` collections. -/
def RowidsFree (db : Database) (n : Nat) : Prop :=
  ∀ i < n, db.rankingRow (db.nextCollection + i) = none

instance (db : Database) (n : Nat) : Decidable (db.RowidsFree n) :=
  inferInstanceAs (Decidable (∀ i < n, db.rankingRow (db.nextCollection + i) = none))

variable {db : Database}

theorem rankingRow_eq_none {key : Int} :
    db.rankingRow key = none ↔ ∀ r ∈ db.rankingConfig, r.collectionId ≠ key := by
  rw [rankingRow, List.find?_eq_none]
  simp only [decide_eq_true_eq]
  exact Iff.rfl

theorem rankingRow_ne_none {key : Int} :
    db.rankingRow key ≠ none ↔ ∃ r ∈ db.rankingConfig, r.collectionId = key := by
  rw [Ne, rankingRow_eq_none]
  push Not
  exact Iff.rfl

end Database

/-- The row stored for an exported configuration. -/
def importedRanking (rowid : Int) (rc : ExportedRankingConfig) : RankingConfigRow :=
  ⟨rowid, rc.freshnessHalfLifeDays, rc.sourceWeightsJson, rc.domainBoostsJson, rc.configJson⟩

/-- The rows stored for collections that get consecutive rowids. -/
def importedRankings (rowid : Int) : List ExportedCollection → List RankingConfigRow
  | [] => []
  | c :: cs => (c.rankingConfig.map (importedRanking rowid)).toList ++
      importedRankings (rowid + 1) cs

/-- The rowids and the names of collections that get consecutive rowids. -/
def numbered (rowid : Int) : List ExportedCollection → List (Int × String)
  | [] => []
  | c :: cs => (rowid, c.name) :: numbered (rowid + 1) cs

theorem mem_numbered {rowid key : Int} {name : String} {cs : List ExportedCollection} :
    (key, name) ∈ numbered rowid cs ↔
      ∃ i, ∃ h : i < cs.length, key = rowid + i ∧ name = cs[i].name := by
  induction cs generalizing rowid with
  | nil => simp [numbered]
  | cons c cs ih =>
    rw [numbered, List.mem_cons, Prod.mk.injEq, ih]
    constructor
    · rintro (⟨rfl, rfl⟩ | ⟨i, hi, rfl, rfl⟩)
      · exact ⟨0, Nat.zero_lt_succ _, (Int.add_zero _).symm, rfl⟩
      · refine ⟨i + 1, Nat.succ_lt_succ hi, ?_, rfl⟩
        omega
    · rintro ⟨i, hi, rfl, rfl⟩
      cases i with
      | zero => exact Or.inl ⟨Int.add_zero _, rfl⟩
      | succ i =>
        refine Or.inr ⟨i, Nat.lt_of_succ_lt_succ hi, ?_, rfl⟩
        omega

theorem mem_importedRankings {rowid : Int} {r : RankingConfigRow} {cs : List ExportedCollection} :
    r ∈ importedRankings rowid cs ↔ ∃ i, ∃ h : i < cs.length, ∃ rc,
      cs[i].rankingConfig = some rc ∧ r = importedRanking (rowid + i) rc := by
  induction cs generalizing rowid with
  | nil => simp [importedRankings]
  | cons c cs ih =>
    rw [importedRankings, List.mem_append, ih]
    constructor
    · rintro (h | ⟨i, hi, rc, hrc, rfl⟩)
      · obtain ⟨rc, hrc, rfl⟩ := Option.map_eq_some_iff.1 (Option.mem_toList.1 h)
        refine ⟨0, Nat.zero_lt_succ _, rc, hrc, ?_⟩
        rw [Int.natCast_zero, Int.add_zero]
      · refine ⟨i + 1, Nat.succ_lt_succ hi, rc, hrc, congrArg (importedRanking · rc) ?_⟩
        omega
    · rintro ⟨i, hi, rc, hrc, rfl⟩
      cases i with
      | zero =>
        refine Or.inl (Option.mem_toList.2 (Option.map_eq_some_iff.2 ⟨rc, hrc, ?_⟩))
        rw [Int.natCast_zero, Int.add_zero]
      | succ i =>
        refine Or.inr ⟨i, Nat.lt_of_succ_lt_succ hi, rc, hrc, congrArg (importedRanking · rc) ?_⟩
        omega

/-! ### What does not look at the table -/

section Frames

variable (rows : Table RankingConfigRow.Clash) {collection target : Uuid} {ts : String}
  {report : ImportReport}

theorem frames_importPage {p : ExportedCrawledPage} :
    Sql.Frames false (Database.withRankings rows) (importPage collection target report p) := by
  refine (Sql.frames_execute fun db ↦ ?_).attempt fun _ ↦ Sql.frames_ok _
  rw [Database.insertPage, if_neg fun h ↦ Bool.false_ne_true h.1, Database.insertPage,
    if_neg fun h ↦ Bool.false_ne_true h.1, Option.map_map]
  rfl

theorem frames_importTarget {t : ExportedCrawlTarget} :
    Sql.Frames false (Database.withRankings rows) (importTarget collection ts report t) := by
  refine (Sql.frames_draw fun _ ↦ rfl).attempt fun serial ↦
    (Sql.frames_execute fun db ↦ ?_).attempt fun _ ↦
      Sql.frames_loop fun _ _ ↦ frames_importPage rows
  rw [Database.insertTarget, if_neg fun h ↦ Bool.false_ne_true h.1, Database.insertTarget,
    if_neg fun h ↦ Bool.false_ne_true h.1, Option.map_map]
  rfl

theorem frames_importTargets {ts' : List ExportedCrawlTarget} : Sql.Frames false
    (Database.withRankings rows) (Sql.loop (importTarget collection ts) report ts') :=
  Sql.frames_loop fun _ _ ↦ frames_importTarget rows

theorem frames_importOutlinkHost {o : ExportedOutlinkHostSuggestion} :
    Sql.Frames false (Database.withRankings rows) (importOutlinkHost collection report o) := by
  refine (Sql.frames_draw fun _ ↦ rfl).attempt fun serial ↦
    (Sql.frames_execute fun db ↦ ?_).attempt fun _ ↦ Sql.frames_ok _
  rw [Database.insertOutlinkHost, if_neg fun h ↦ Bool.false_ne_true h.1, Database.insertOutlinkHost,
    if_neg fun h ↦ Bool.false_ne_true h.1, Option.map_map]
  rfl

theorem frames_importOutlinkHosts {os : List ExportedOutlinkHostSuggestion} : Sql.Frames false
    (Database.withRankings rows) (Sql.loop (importOutlinkHost collection) report os) :=
  Sql.frames_loop fun _ _ ↦ frames_importOutlinkHost rows

theorem frames_applyNodePeer {peers : ImportReport × List String} {p : ExportedNodePeer} :
    Sql.Frames false (Database.withRankings rows) (applyNodePeer peers p) := by
  rw [applyNodePeer]
  split
  · exact Sql.frames_ok _
  · refine (Sql.frames_execute fun db ↦ ?_).attempt fun _ ↦ Sql.frames_ok _
    rw [Database.insertPeer, Database.insertPeer, Option.map_map]
    rfl

theorem frames_applyNodePeers {peers : ImportReport × List String} {ps : List ExportedNodePeer} :
    Sql.Frames false (Database.withRankings rows) (Sql.loop applyNodePeer peers ps) :=
  Sql.frames_loop fun _ _ ↦ frames_applyNodePeer rows

theorem frames_applyCollectionPeer {names urls : List String} {cp : ExportedCollectionPeer} :
    Sql.Frames false (Database.withRankings rows) (applyCollectionPeer names urls report cp) := by
  rw [applyCollectionPeer]
  split
  · exact Sql.frames_ok _
  · refine Sql.Frames.attempt (Sql.frames_queryRow (g := Database.withRankings rows)
      fun _ ↦ rfl) fun id ↦ (Sql.frames_execute fun db ↦ ?_).attempt fun _ ↦ Sql.frames_ok _
    have hsame : (db.withRankings rows).collectionPeers.insert
        ((db.withRankings rows).importedCollectionPeer id cp) =
          db.collectionPeers.insert (db.importedCollectionPeer id cp) := rfl
    rw [Database.insertOrIgnoreCollectionPeer, if_neg fun h ↦ Bool.false_ne_true h.1, hsame,
      Database.insertOrIgnoreCollectionPeer, if_neg fun h ↦ Bool.false_ne_true h.1]
    cases db.collectionPeers.insert (db.importedCollectionPeer id cp) <;> rfl

theorem frames_applyCollectionPeers {names urls : List String}
    {cps : List ExportedCollectionPeer} : Sql.Frames false (Database.withRankings rows)
      (Sql.loop (applyCollectionPeer names urls) report cps) :=
  Sql.frames_loop fun _ _ ↦ frames_applyCollectionPeer rows

/-- A piece that does not look at the table leaves it alone. -/
theorem rankings_of_frames {α : Type} {p : ImportSql α} {db db' : Database} {a : α}
    (hp : ∀ rows, Sql.Frames false (Database.withRankings rows) p)
    (h : Sql.exec false p db = some (db', a)) : db'.rankingConfig = db.rankingConfig := by
  have hframe := Sql.exec_frame (hp db.rankingConfig) db
  have hsame : db.withRankings db.rankingConfig = db := rfl
  rw [hsame, h] at hframe
  have hdb' : db' = db'.withRankings db.rankingConfig := (Prod.mk.inj (Option.some.inj hframe)).1
  rw [hdb']
  rfl

end Frames

/-! ### Collections -/

section Collections

variable {X : Crates} {ts : String} {acc acc' : ImportProgress} {c : ExportedCollection}
  {db db' : Database}

theorem exec_importRankingConfig_of_free (db : Database) {rowid : Int}
    {rc : Option ExportedRankingConfig}
    (hfree : rc.isSome → ∀ r ∈ db.rankingConfig, r.collectionId ≠ rowid) :
    ∃ rows, Sql.exec false (importRankingConfig rowid rc) db = some (db.withRankings rows, ()) ∧
      rows.rows = db.rankingConfig.rows ++ (rc.map (importedRanking rowid)).toList := by
  cases rc with
  | none => exact ⟨db.rankingConfig, rfl, (List.append_nil _).symm⟩
  | some rc =>
    obtain ⟨rows, hrows⟩ := Table.exists_insert (r := importedRanking rowid rc) (hfree rfl)
    refine ⟨rows, ?_, Table.rows_of_insert hrows⟩
    rw [exec_importRankingConfig]
    exact Option.map_eq_some_iff.2 ⟨rows, hrows, rfl⟩

theorem rankings_of_importRankingConfig {rowid : Int} {rc : Option ExportedRankingConfig}
    (h : Sql.exec false (importRankingConfig rowid rc) db = some (db', ())) :
    ∃ rows, db' = db.withRankings rows ∧
      rows.rows = db.rankingConfig.rows ++ (rc.map (importedRanking rowid)).toList := by
  cases rc with
  | none =>
    obtain ⟨rfl, -⟩ := Prod.mk.inj (Option.some.inj h)
    exact ⟨db.rankingConfig, rfl, (List.append_nil _).symm⟩
  | some rc =>
    rw [exec_importRankingConfig] at h
    obtain ⟨rows, hrows, he⟩ := Option.map_eq_some_iff.1 h
    obtain ⟨rfl, -⟩ := Prod.mk.inj he
    exact ⟨rows, rfl, Table.rows_of_insert hrows⟩

theorem rankings_of_importCollection
    (h : Sql.exec false (importCollection X ts acc c) db = some (db', acc')) :
    db'.rankingConfig.rows = db.rankingConfig.rows ++
      (c.rankingConfig.map (importedRanking db.nextCollection)).toList := by
  obtain ⟨cs, db₁, report₁, db₂, report₂, -, htargets, hranking, hhosts, -⟩ :=
    exec_importCollection_eq_some.1 h
  have h₁ := rankings_of_frames (fun rows ↦ frames_importTargets rows) htargets
  have h₂ := rankings_of_frames (fun rows ↦ frames_importOutlinkHosts rows) hhosts
  obtain ⟨rows, rfl, hrows⟩ := rankings_of_importRankingConfig hranking
  rw [h₂]
  rw [h₁] at hrows
  exact hrows

/-- **A collection that can be imported** can be imported over any ranking table that has nothing
under its rowid. -/
theorem exec_importCollection_withRankings
    (h : Sql.exec false (importCollection X ts acc c) db = some (db', acc'))
    {rows : Table RankingConfigRow.Clash}
    (hfree : c.rankingConfig.isSome → ∀ r ∈ rows, r.collectionId ≠ db.nextCollection) :
    ∃ rows', Sql.exec false (importCollection X ts acc c) (db.withRankings rows) =
        some (db'.withRankings rows', acc') ∧
      rows'.rows = rows.rows ++
        (c.rankingConfig.map (importedRanking db.nextCollection)).toList := by
  obtain ⟨cs, db₁, report₁, db₂, report₂, hcs, htargets, hranking, hhosts, hacc⟩ :=
    exec_importCollection_eq_some.1 h
  obtain ⟨old, rfl, -⟩ := rankings_of_importRankingConfig hranking
  obtain ⟨rows', hranking', hrows'⟩ :=
    exec_importRankingConfig_of_free (db₁.withRankings rows) hfree
  refine ⟨rows', exec_importCollection_eq_some.2 ⟨cs, db₁.withRankings rows, report₁,
    db₁.withRankings rows', report₂, hcs, ?_, hranking', ?_, hacc⟩, hrows'⟩
  · exact (Sql.exec_frame (frames_importTargets rows) _).trans
      (congrArg _ htargets)
  · exact (Sql.exec_frame (frames_importOutlinkHosts rows') (db₁.withRankings old)).trans
      (congrArg _ hhosts)

theorem nextRowid_concat (rowids : List Int) :
    nextRowid (rowids ++ [nextRowid rowids]) = nextRowid rowids + 1 := by
  have hmax : ∀ (l : List Int) (n : Int), l.foldr max 0 ≤ n → 0 ≤ n →
      (l ++ [n]).foldr max 0 = n := by
    intro l n
    induction l with
    | nil =>
      intro _ hn
      show max n 0 = n
      omega
    | cons a l ih =>
      intro hle hn
      rw [List.foldr_cons] at hle
      rw [List.cons_append, List.foldr_cons, ih (by omega) hn]
      omega
  have hzero : ∀ l : List Int, 0 ≤ l.foldr max 0 := by
    intro l
    induction l with
    | nil => exact Int.le_refl 0
    | cons a l ih =>
      rw [List.foldr_cons]
      omega
  have h := hzero rowids
  rw [nextRowid, hmax _ _ (by rw [nextRowid]; omega) (by rw [nextRowid]; omega)]

theorem nextCollection_of_importCollection
    (h : Sql.exec false (importCollection X ts acc c) db = some (db', acc')) :
    db'.nextCollection = db.nextCollection + 1 := by
  obtain ⟨hcs, -⟩ := Database.collections_of_importCollection h
  rw [Database.nextCollection, Table.rows_of_insert hcs, List.map_append]
  exact nextRowid_concat _

/-- **The collections that can be imported** can be imported over any ranking table that has nothing
under their rowids. -/
theorem exec_collections_withRankings {cs : List ExportedCollection}
    (h : Sql.exec false (Sql.loop (applyCollection X ts) acc cs) db = some (db', acc'))
    (rows : Table RankingConfigRow.Clash)
    (hfree : ∀ i < (newCollections acc.knownCollectionNames cs).length, ∀ r ∈ rows,
      r.collectionId ≠ db.nextCollection + i) :
    ∃ rows', Sql.exec false (Sql.loop (applyCollection X ts) acc cs) (db.withRankings rows) =
      some (db'.withRankings rows', acc') := by
  induction cs generalizing db acc rows with
  | nil =>
    obtain ⟨rfl, rfl⟩ := Prod.mk.inj (Option.some.inj h)
    exact ⟨rows, rfl⟩
  | cons c cs ih =>
    obtain ⟨db₁, acc₁, hc, hcs⟩ := Sql.exec_loop_cons.1 h
    rw [newCollections] at hfree
    by_cases hknown : c.name ∈ acc.knownCollectionNames
    · rw [if_pos hknown] at hfree
      rw [applyCollection, if_pos hknown] at hc
      obtain ⟨rfl, rfl⟩ := Prod.mk.inj (Option.some.inj hc)
      obtain ⟨rows', hrows'⟩ := ih hcs rows hfree
      refine ⟨rows', Sql.exec_loop_cons.2 ⟨_, _, ?_, hrows'⟩⟩
      rw [applyCollection, if_pos hknown]
      rfl
    · rw [if_neg hknown, List.length_cons] at hfree
      rw [applyCollection, if_neg hknown] at hc
      have hfirst := hfree 0 (Nat.zero_lt_succ _)
      rw [Int.natCast_zero, Int.add_zero] at hfirst
      obtain ⟨rows₁, hc', hrows₁⟩ := exec_importCollection_withRankings hc fun _ ↦ hfirst
      have hnext := nextCollection_of_importCollection hc
      have hknown₁ : acc₁.knownCollectionNames = c.name :: acc.knownCollectionNames := by
        obtain ⟨_, _, _, _, _, -, -, -, -, rfl⟩ := exec_importCollection_eq_some.1 hc
        rfl
      obtain ⟨rows', hrows'⟩ := ih hcs rows₁ fun i hi r hr ↦ by
        rw [hknown₁] at hi
        rw [hnext]
        rw [Table.mem_def, hrows₁] at hr
        rcases List.mem_append.1 hr with hold | hnew
        · have hne := hfree (i + 1) (Nat.succ_lt_succ hi) r hold
          omega
        · obtain ⟨rc, -, rfl⟩ := Option.map_eq_some_iff.1 (Option.mem_toList.1 hnew)
          show db.nextCollection ≠ _
          omega
      refine ⟨rows', Sql.exec_loop_cons.2 ⟨_, _, ?_, hrows'⟩⟩
      rw [applyCollection, if_neg hknown]
      exact hc'

end Collections

/-! ### Envelopes -/

section Envelope

variable {X : Crates} {ts : String} {env : ExportEnvelope} {db db' : Database}
  {report : ImportReport} {jobs : List IndexJob}

/-- **An import that succeeds** succeeds over any ranking table that has nothing under the rowids of
the collections it creates. -/
theorem committedImport_withRankings
    (h : committedImport X ts env db = some (db', report, jobs))
    (rows : Table RankingConfigRow.Clash) (hfree : (db.withRankings rows).RowidsFree
      (newCollections db.collectionNames env.collections).length) :
    ∃ rows', committedImport X ts env (db.withRankings rows) =
      some (db'.withRankings rows', report, jobs) := by
  obtain ⟨db₁, acc, db₂, peers, hcollections, hnodes, hpeers, hjobs⟩ := committedImport_eq_some.1 h
  obtain ⟨rows', hcollections'⟩ := exec_collections_withRankings hcollections rows fun i hi ↦
    Database.rankingRow_eq_none.1 (hfree i hi)
  refine ⟨rows', committedImport_eq_some.2 ⟨db₁.withRankings rows', acc, db₂.withRankings rows',
    peers, hcollections', ?_, ?_, hjobs⟩⟩
  · exact (Sql.exec_frame (frames_applyNodePeers rows') _).trans (congrArg _ hnodes)
  · exact (Sql.exec_frame (frames_applyCollectionPeers rows') _).trans
      (congrArg _ hpeers)

/-- **What an import does to the collections and their configurations**: the collections `news` get
consecutive rowids and fresh identifiers, and their configurations are stored under the rowids. -/
structure Database.Numbers (db db' : Database) (news : List ExportedCollection) : Prop where
  collections : ∃ created : List CollectionRow,
    db'.collections.rows = db.collections.rows ++ created ∧
    created.map (fun c ↦ (c.rowid, c.name)) = numbered db.nextCollection news ∧
    ∀ c ∈ created, db.nextUuid ≤ c.id.serial ∧ c.id.serial < db'.nextUuid
  rankings : db'.rankingConfig.rows =
    db.rankingConfig.rows ++ importedRankings db.nextCollection news
  supply : db.nextUuid ≤ db'.nextUuid

/-- No identifier is given back. -/
def Database.Draws (db db' : Database) : Prop := db.nextUuid ≤ db'.nextUuid

theorem Database.Draws.refl (db : Database) : db.Draws db := Nat.le_refl _

theorem Database.Draws.trans (db db' db'' : Database) (h : db.Draws db') (h' : db'.Draws db'') :
    db.Draws db'' := Nat.le_trans h h'

theorem performs_importTarget {collection : Uuid} {t : ExportedCrawlTarget} :
    Prog.Performs (Sql.Op.Within false Database.Draws)
      (importTarget collection ts report t) := by
  refine ⟨fun _ ↦ Nat.le_succ _, fun serial ↦ ⟨fun db db' n h ↦ ?_, fun r ↦ ?_⟩⟩
  · rw [Database.insertTarget, if_neg fun h ↦ Bool.false_ne_true h.1] at h
    obtain ⟨_, -, he⟩ := Option.map_eq_some_iff.1 h
    exact (Prod.mk.inj he).1 ▸ Nat.le_refl _
  · cases r with
    | error err => trivial
    | ok n =>
      refine Sql.performs_loop fun report p ↦ ⟨fun db db' n h ↦ ?_, fun r ↦ ?_⟩
      · rw [Database.insertPage, if_neg fun h ↦ Bool.false_ne_true h.1] at h
        obtain ⟨_, -, he⟩ := Option.map_eq_some_iff.1 h
        exact (Prod.mk.inj he).1 ▸ Nat.le_refl _
      · cases r <;> trivial

theorem performs_importOutlinkHost {collection : Uuid} {o : ExportedOutlinkHostSuggestion} :
    Prog.Performs (Sql.Op.Within false Database.Draws)
      (importOutlinkHost collection report o) := by
  refine ⟨fun _ ↦ Nat.le_succ _, fun serial ↦ ⟨fun db db' n h ↦ ?_, fun r ↦ ?_⟩⟩
  · rw [Database.insertOutlinkHost, if_neg fun h ↦ Bool.false_ne_true h.1] at h
    obtain ⟨_, -, he⟩ := Option.map_eq_some_iff.1 h
    exact (Prod.mk.inj he).1 ▸ Nat.le_refl _
  · cases r <;> trivial

theorem nextUuid_of_importCollection {acc acc' : ImportProgress} {c : ExportedCollection}
    (h : Sql.exec false (importCollection X ts acc c) db = some (db', acc')) :
    db.nextUuid < db'.nextUuid := by
  obtain ⟨cs, db₁, report₁, db₂, report₂, -, htargets, hranking, hhosts, -⟩ :=
    exec_importCollection_eq_some.1 h
  have h₁ := Sql.rel_of_exec Database.Draws.refl Database.Draws.trans
    (Sql.performs_loop fun _ _ ↦ performs_importTarget) htargets
  have h₂ := Sql.rel_of_exec Database.Draws.refl Database.Draws.trans
    (Sql.performs_loop fun _ _ ↦ performs_importOutlinkHost) hhosts
  obtain ⟨_, rfl, -⟩ := rankings_of_importRankingConfig hranking
  exact Nat.lt_of_succ_le (Nat.le_trans h₁ h₂)

theorem numbers_of_collections {acc acc' : ImportProgress} {cs : List ExportedCollection}
    (h : Sql.exec false (Sql.loop (applyCollection X ts) acc cs) db = some (db', acc')) :
    db.Numbers db' (newCollections acc.knownCollectionNames cs) := by
  set news := newCollections acc.knownCollectionNames cs with hnews
  obtain ⟨created, hcollections, hnumbered, hids, hrankings, hsupply⟩ :=
    newCollections_invariant (I := fun rest db₁ _ ↦ ∃ created : List CollectionRow,
      db₁.collections.rows = db.collections.rows ++ created ∧
      created.map (fun c ↦ (c.rowid, c.name)) ++ numbered db₁.nextCollection rest =
        numbered db.nextCollection news ∧
      (∀ c ∈ created, db.nextUuid ≤ c.id.serial ∧ c.id.serial < db₁.nextUuid) ∧
      db₁.rankingConfig.rows ++ importedRankings db₁.nextCollection rest =
        db.rankingConfig.rows ++ importedRankings db.nextCollection news ∧
      db.nextUuid ≤ db₁.nextUuid)
    (by
      rintro c rest db₁ acc₁ db₂ acc₂ ⟨created, hcreated, hnumbered, hids, hrankings, hsupply⟩ hc
      obtain ⟨hcs, -⟩ := Database.collections_of_importCollection hc
      have hnext := nextCollection_of_importCollection hc
      have huuid := nextUuid_of_importCollection hc
      set row := db₁.importedCollection ⟨db₁.nextUuid⟩ ts c
      refine ⟨created ++ [row], ?_, ?_, ?_, ?_, by omega⟩
      · rw [Table.rows_of_insert hcs, hcreated, List.append_assoc]
      · rw [List.map_append, List.append_assoc, hnext]
        exact hnumbered
      · intro c' hc'
        rcases List.mem_append.1 hc' with hold | hnew
        · have := hids c' hold
          omega
        · obtain rfl := List.mem_singleton.1 hnew
          exact ⟨hsupply, huuid⟩
      · rw [rankings_of_importCollection hc, hnext, List.append_assoc]
        exact hrankings)
    ⟨[], (List.append_nil _).symm, rfl, fun _ hc ↦ absurd hc List.not_mem_nil, rfl,
      Nat.le_refl _⟩ h
  rw [numbered, List.append_nil] at hnumbered
  rw [importedRankings, List.append_nil] at hrankings
  exact ⟨⟨created, hcollections, hnumbered, hids⟩, hrankings, hsupply⟩

/-- The peers of an envelope touch neither the collections nor their configurations, and draw no
identifier. -/
def Database.SameCollections (db db' : Database) : Prop :=
  db'.collections = db.collections ∧ db'.rankingConfig = db.rankingConfig ∧
    db'.nextUuid = db.nextUuid

theorem Database.SameCollections.trans {db'' : Database} (h : db.SameCollections db')
    (h' : db'.SameCollections db'') : db.SameCollections db'' :=
  ⟨h'.1.trans h.1, h'.2.1.trans h.2.1, h'.2.2.trans h.2.2⟩

theorem performs_applyNodePeer {peers : ImportReport × List String} {p : ExportedNodePeer} :
    Prog.Performs (Sql.Op.Within false Database.SameCollections) (applyNodePeer peers p) := by
  rw [applyNodePeer]
  split
  · trivial
  · refine ⟨fun db db' n h ↦ ?_, fun r ↦ by cases r <;> trivial⟩
    obtain ⟨_, -, he⟩ := Option.map_eq_some_iff.1 h
    obtain ⟨rfl, -⟩ := Prod.mk.inj he
    exact ⟨rfl, rfl, rfl⟩

theorem performs_applyCollectionPeer {names urls : List String} {cp : ExportedCollectionPeer} :
    Prog.Performs (Sql.Op.Within false Database.SameCollections)
      (applyCollectionPeer names urls report cp) := by
  rw [applyCollectionPeer]
  split
  · trivial
  · refine Prog.Performs.attempt ⟨trivial, fun _ ↦ trivial⟩ fun id ↦
      ⟨fun db db' n h ↦ ?_, fun r ↦ by cases r <;> trivial⟩
    rcases Database.insertOrIgnoreCollectionPeer_cases h with ⟨_, -, rfl, -⟩ | ⟨rfl, -, -⟩
    · exact ⟨rfl, rfl, rfl⟩
    · exact ⟨rfl, rfl, rfl⟩

/-- **An import numbers** the collections it creates. -/
theorem numbers_of_committedImport
    (h : committedImport X ts env db = some (db', report, jobs)) :
    db.Numbers db' (newCollections db.collectionNames env.collections) := by
  obtain ⟨db₁, acc, db₂, peers, hcollections, hnodes, hpeers, -⟩ := committedImport_eq_some.1 h
  have hrefl : ∀ db : Database, db.SameCollections db := fun _ ↦ ⟨rfl, rfl, rfl⟩
  have htrans : ∀ db db' db'' : Database, db.SameCollections db' → db'.SameCollections db'' →
      db.SameCollections db'' := fun _ _ _ ↦ .trans
  have h₁ := numbers_of_collections hcollections
  have h₂ := Sql.rel_of_exec hrefl htrans
    (Sql.performs_loop fun _ _ ↦ performs_applyNodePeer) hnodes
  have h₃ := Sql.rel_of_exec hrefl htrans
    (Sql.performs_loop fun _ _ ↦ performs_applyCollectionPeer) hpeers
  obtain ⟨hcs, hrankings, huuid⟩ := h₂.trans h₃
  constructor
  · rw [hcs, huuid]
    exact h₁.collections
  · rw [hrankings]
    exact h₁.rankings
  · rw [huuid]
    exact h₁.supply

end Envelope

end CommunitySearch
