import CommunitySearch.Api.ImportRankings
import CommunitySearch.Api.ImportRetry
import CommunitySearch.Api.Ranking
import CommunitySearch.Foundation.Machine

/-!
# Fresh collections and stored configurations

A configuration is stored under the rowid of its collection and outlives it: deleting a collection
deletes no configuration, and SQLite gives the largest rowid again. So a new collection may find a
configuration nobody has saved for it, and an import may fail because it stores one under a rowid
that is taken.

`ConfigLog` is a database with the collections that have been configured, and remembers whether
an import was blocked. `own_iff_guarded` says which requests go wrong: those that create a
collection under a rowid a configuration is stored for.
-/

namespace CommunitySearch

/-- The requests that create, delete and configure collections. -/
inductive ConfigRequest where
  | collections (action : CollectionAction) (ts : String)
  | importEnvelope (env : ExportEnvelope) (ts : String)
  | putRanking (raw : JsonObject)

namespace Database

/-- The database without the configurations of collections that are gone. -/
def withoutStale (db : Database) : Database :=
  db.withRankings (db.rankingConfig.deleteWhere fun r ↦ !db.collectionExists r.collectionId)

/-- The collections of `db'` that an import into `db` has created with a configuration. -/
def importedWithConfig (db db' : Database) (env : ExportEnvelope) : List Uuid :=
  (db'.collections.rows.filter fun c ↦ c ∉ db.collections.rows ∧
    ∃ e ∈ newCollections db.collectionNames env.collections,
      e.name = c.name ∧ e.rankingConfig.isSome).map CollectionRow.id

/-- The collection a payload is for. -/
def configuredBy (db : Database) (raw : JsonObject) : Option Uuid :=
  ((RankingConfig.ofPayload raw).bind fun cfg ↦ db.collectionByRowid cfg.collectionId).map
    CollectionRow.id

end Database

/-- A database and what has been asked of it. -/
structure ConfigLog where
  db : Database
  /-- The collections a configuration was saved for, and those that were imported with one. -/
  configured : List Uuid
  /-- An import has failed that would succeed without the configurations of collections that are
  gone. -/
  blocked : Bool

namespace ConfigLog

/-- A fresh installation. -/
def initial : ConfigLog := ⟨.empty, [], false⟩

/-- A request that is refused changes nothing. -/
def handle (X : Crates) (s : ConfigLog) : ConfigRequest → ConfigLog
  | .collections action ts =>
    match handleCollections s.db ts action with
    | .ok (db', _) => { s with db := db' }
    | .error _ => s
  | .importEnvelope env ts =>
    match acceptImport X s.db ts (.ok env), acceptImport X s.db.withoutStale ts (.ok env) with
    | .ok (db', _), _ =>
      { s with db := db', configured := s.configured ++ s.db.importedWithConfig db' env }
    | .error _, .ok _ => { s with blocked := true }
    | .error _, .error _ => s
  | .putRanking raw =>
    match putRanking s.db raw with
    | .ok db' => { s with db := db', configured := s.configured ++ (s.db.configuredBy raw).toList }
    | .error _ => s

/-- **Configurations are the collections' own**: one is stored for a collection only if it was saved
for it or imported with it, and no import has failed because of a collection that is gone. -/
structure Own (s : ConfigLog) : Prop where
  row : ∀ c ∈ s.db.collections, s.db.rankingRow c.rowid ≠ none → c.id ∈ s.configured
  unblocked : s.blocked = false

/-- The request creates no collection under a rowid a configuration is stored for. -/
def Admissible (X : Crates) (s : ConfigLog) : ConfigRequest → Prop
  | .collections (.create name _) _ => name ∈ s.db.collectionNames ∨ s.db.RowidsFree 1
  | .collections (.update ..) _ | .collections (.delete _) _ => True
  | .importEnvelope env ts => RefusesImport X s.db.withoutStale ts env ∨
      s.db.RowidsFree (newCollections s.db.collectionNames env.collections).length
  | .putRanking _ => True

/-- What every run keeps besides: identifiers are drawn before they are used. -/
structure Supplied (s : ConfigLog) : Prop where
  own : s.Own
  collections : ∀ c ∈ s.db.collections, c.id.serial < s.db.nextUuid
  configured : ∀ id ∈ s.configured, id.serial < s.db.nextUuid

end ConfigLog

/-- The log as a machine. -/
def configMachine (X : Crates) : Machine ConfigLog ConfigRequest where
  step s request := some (s.handle X request)

/-! ### Databases -/

namespace Database

variable {db db' : Database} {ts : String} {env : ExportEnvelope}

theorem rowid_lt_nextCollection {c : CollectionRow} (hc : c ∈ db.collections) :
    c.rowid < db.nextCollection :=
  lt_nextRowid (List.mem_map_of_mem hc)

/-- Where a collection exists, nothing is stale. -/
theorem withoutStale_free {n : Nat} : db.withoutStale.RowidsFree n := by
  intro i _
  rw [rankingRow_eq_none]
  intro r hr hkey
  obtain ⟨-, hexists⟩ := Table.mem_deleteWhere.1 hr
  rw [Bool.not_eq_false', collectionExists, Option.isSome_iff_exists] at hexists
  obtain ⟨c, hc⟩ := hexists
  obtain ⟨hmem, hrowid⟩ := mem_of_collectionByRowid hc
  have hlt := rowid_lt_nextCollection hmem
  have hnext : db.withoutStale.nextCollection = db.nextCollection := rfl
  omega

/-- **Stale configurations** matter only under the rowids of new collections. -/
theorem committedImport_withoutStale {X : Crates}
    {r : Database × ImportReport × List IndexJob} (h : committedImport X ts env db = some r) :
    ∃ r', committedImport X ts env db.withoutStale = some r' := by
  obtain ⟨db', report, jobs⟩ := r
  obtain ⟨rows, hrows⟩ := committedImport_withRankings h
    db.withoutStale.rankingConfig withoutStale_free
  exact ⟨_, hrows⟩

theorem committedImport_of_withoutStale {X : Crates}
    {r : Database × ImportReport × List IndexJob}
    (h : committedImport X ts env db.withoutStale = some r)
    (hfree : db.RowidsFree (newCollections db.collectionNames env.collections).length) :
    ∃ r', committedImport X ts env db = some r' := by
  obtain ⟨db', report, jobs⟩ := r
  obtain ⟨rows, hrows⟩ := committedImport_withRankings h db.rankingConfig hfree
  exact ⟨_, hrows⟩

/-- A new collection among those an import has created. -/
theorem Numbers.exists_index {news : List ExportedCollection} (h : db.Numbers db' news)
    {c : CollectionRow} (hc : c ∈ db'.collections) (hnew : c ∉ db.collections) :
    ∃ i, ∃ hi : i < news.length, c.rowid = db.nextCollection + i ∧ c.name = news[i].name := by
  obtain ⟨created, hcs, hnumbered, -⟩ := h.collections
  rw [Table.mem_def, hcs] at hc
  have hmem : (c.rowid, c.name) ∈ numbered db.nextCollection news :=
    hnumbered ▸ List.mem_map_of_mem ((List.mem_append.1 hc).resolve_left hnew)
  exact mem_numbered.1 hmem

/-- The collection an import has created for the `i`-th entry. -/
theorem Numbers.exists_collection {news : List ExportedCollection} (h : db.Numbers db' news)
    {i : Nat} (hi : i < news.length) : ∃ c ∈ db'.collections,
      c.rowid = db.nextCollection + i ∧ c.name = news[i].name ∧ db.nextUuid ≤ c.id.serial := by
  obtain ⟨created, hcs, hnumbered, hids⟩ := h.collections
  have hmem : (db.nextCollection + i, news[i].name) ∈ numbered db.nextCollection news :=
    mem_numbered.2 ⟨i, hi, rfl, rfl⟩
  rw [← hnumbered] at hmem
  obtain ⟨c, hc, he⟩ := List.mem_map.1 hmem
  obtain ⟨hrowid, hname⟩ := Prod.mk.inj he
  refine ⟨c, ?_, hrowid, hname, (hids c hc).1⟩
  rw [Table.mem_def, hcs]
  exact List.mem_append_right _ hc

theorem Numbers.lt_nextUuid {news : List ExportedCollection} (h : db.Numbers db' news)
    (hdb : ∀ c ∈ db.collections, c.id.serial < db.nextUuid) {c : CollectionRow}
    (hc : c ∈ db'.collections) : c.id.serial < db'.nextUuid := by
  obtain ⟨created, hcs, -, hids⟩ := h.collections
  rw [Table.mem_def, hcs] at hc
  rcases List.mem_append.1 hc with hold | hnew
  · exact Nat.lt_of_lt_of_le (hdb c hold) h.supply
  · exact (hids c hnew).2

theorem mem_importedWithConfig {id : Uuid} : id ∈ db.importedWithConfig db' env ↔
    ∃ c ∈ db'.collections, c.id = id ∧ c ∉ db.collections ∧
      ∃ e ∈ newCollections db.collectionNames env.collections,
        e.name = c.name ∧ e.rankingConfig.isSome := by
  rw [importedWithConfig, List.mem_map]
  constructor
  · rintro ⟨c, hc, hid⟩
    obtain ⟨hmem, hprop⟩ := List.mem_filter.1 hc
    obtain ⟨hnew, he⟩ := of_decide_eq_true hprop
    exact ⟨c, hmem, hid, hnew, he⟩
  · rintro ⟨c, hmem, hid, hnew, he⟩
    exact ⟨c, List.mem_filter.2 ⟨hmem, decide_eq_true ⟨hnew, he⟩⟩, hid⟩

end Database

/-! ### Requests that keep configurations apart -/

namespace ConfigLog

variable {X : Crates} {s : ConfigLog}

theorem Supplied.initial : initial.Supplied where
  own := ⟨fun _ hc ↦ absurd hc (Table.not_mem_empty _), rfl⟩
  collections _ hc := absurd hc (Table.not_mem_empty _)
  configured _ hid := absurd hid List.not_mem_nil

theorem Supplied.create (h : s.Supplied) {name description ts : String} {db' : Database}
    {record : CollectionRecord} (hcreate : s.db.createItem name description ts = some (db', record))
    (hok : name ∈ s.db.collectionNames ∨ s.db.RowidsFree 1) : Supplied { s with db := db' } := by
  have hmem : ∀ c : CollectionRow, c ∈ db'.collections ↔
      c ∈ s.db.collections ∨ c = s.db.newCollection name description ts := fun c ↦
    Database.mem_collections_of_createItem hcreate
  have hfree : s.db.rankingRow s.db.nextCollection = none := by
    rcases hok with hname | hfree
    · obtain ⟨cs, hcs, -⟩ := Option.map_eq_some_iff.1 hcreate
      obtain ⟨c, hc, hname⟩ := Database.mem_collectionNames.1 hname
      exact absurd (Or.inr (Or.inr hname)) (Table.not_clash_of_insert hcs hc)
    · have hfirst := hfree 0 Nat.zero_lt_one
      rwa [Int.natCast_zero, Int.add_zero] at hfirst
  obtain ⟨cs, rfl⟩ := Database.createItem_eq hcreate
  refine ⟨⟨fun c hc hrow ↦ ?_, h.own.unblocked⟩, fun c hc ↦ ?_, fun id hid ↦ ?_⟩
  · rcases (hmem c).1 hc with hold | rfl
    · exact h.own.row c hold hrow
    · exact absurd hfree hrow
  · rcases (hmem c).1 hc with hold | rfl
    · exact Nat.lt_succ_of_lt (h.collections c hold)
    · exact Nat.lt_succ_self _
  · exact Nat.lt_succ_of_lt (h.configured id hid)

theorem Supplied.update (h : s.Supplied) {id : Int} {name description ts : String} {db' : Database}
    {record : Option CollectionRecord}
    (hupdate : s.db.updateItem id name description ts = some (db', record)) :
    Supplied { s with db := db' } := by
  have hmem : ∀ c' ∈ db'.collections, ∃ c ∈ s.db.collections,
      c'.id = c.id ∧ c'.rowid = c.rowid := by
    intro c' hc'
    obtain ⟨c, hc, rfl⟩ := (Database.mem_collections_of_updateItem hupdate).1 hc'
    refine ⟨c, hc, ?_⟩
    split <;> exact ⟨rfl, rfl⟩
  obtain ⟨cs, rfl⟩ := Database.updateItem_eq hupdate
  refine ⟨⟨fun c' hc' hrow ↦ ?_, h.own.unblocked⟩, fun c' hc' ↦ ?_, h.configured⟩
  · obtain ⟨c, hc, hid, hrowid⟩ := hmem c' hc'
    rw [hrowid] at hrow
    exact hid ▸ h.own.row c hc hrow
  · obtain ⟨c, hc, hid, -⟩ := hmem c' hc'
    exact hid ▸ h.collections c hc

theorem Supplied.delete (h : s.Supplied) (id : Uuid) :
    Supplied { s with db := s.db.cascadeCollection id } where
  own := ⟨fun c hc ↦ h.own.row c (Database.mem_collections_cascadeCollection.1 hc).1,
    h.own.unblocked⟩
  collections c hc := h.collections c (Database.mem_collections_cascadeCollection.1 hc).1
  configured := h.configured

theorem Supplied.put (h : s.Supplied) {raw : JsonObject} {db' : Database}
    (hput : putRanking s.db raw = .ok db') :
    Supplied { s with
      db := db'
      configured := s.configured ++ (s.db.configuredBy raw).toList } := by
  obtain ⟨cfg, c₀, row, hcfg, hc₀, -, -, -, hrows⟩ := putRanking_eq_ok hput
  obtain ⟨hmem₀, hrowid₀⟩ := Database.mem_of_collectionByRowid hc₀
  have hby : s.db.configuredBy raw = some c₀.id := by
    rw [Database.configuredBy, hcfg, Option.bind_some, hc₀, Option.map_some]
  obtain ⟨_, rows, -, rfl, -⟩ := Database.putRanking_eq hput
  refine ⟨⟨fun c hc hrow ↦ ?_, h.own.unblocked⟩, h.collections, fun id hid ↦ ?_⟩
  · rw [hrows] at hrow
    split at hrow
    case isTrue hkey =>
      obtain rfl := Database.eq_of_mem_collections hc hmem₀ (Or.inl (hkey.trans hrowid₀.symm))
      exact List.mem_append_right _ (Option.mem_toList.2 hby)
    case isFalse => exact List.mem_append_left _ (h.own.row c hc hrow)
  · rcases List.mem_append.1 hid with hold | hnew
    · exact h.configured id hold
    · obtain rfl := Option.some.inj (hby.symm.trans (Option.mem_toList.1 hnew))
      exact h.collections c₀ hmem₀

theorem Supplied.imported (h : s.Supplied) {env : ExportEnvelope} {ts : String} {db' : Database}
    {report : ImportReport} {jobs : List IndexJob}
    (himport : committedImport X ts env s.db = some (db', report, jobs))
    (hfree : s.db.RowidsFree (newCollections s.db.collectionNames env.collections).length) :
    Supplied { s with
      db := db'
      configured := s.configured ++ s.db.importedWithConfig db' env } := by
  have hnumbers := numbers_of_committedImport himport
  refine ⟨⟨fun c hc hrow ↦ ?_, h.own.unblocked⟩,
    fun c hc ↦ hnumbers.lt_nextUuid h.collections hc, fun id hid ↦ ?_⟩
  · obtain ⟨r, hr, hkey⟩ := Database.rankingRow_ne_none.1 hrow
    rw [Table.mem_def, hnumbers.rankings, List.mem_append, mem_importedRankings] at hr
    by_cases hold : c ∈ s.db.collections
    · refine List.mem_append_left _ (h.own.row c hold (Database.rankingRow_ne_none.2 ?_))
      rcases hr with hr | ⟨j, -, rc, -, rfl⟩
      · exact ⟨r, hr, hkey⟩
      · have hlt := Database.rowid_lt_nextCollection hold
        replace hkey : s.db.nextCollection + j = c.rowid := hkey
        omega
    · obtain ⟨i, hi, hrowid, hname⟩ := hnumbers.exists_index hc hold
      rcases hr with hr | ⟨j, hj, rc, hrc, rfl⟩
      · have hnone := Database.rankingRow_eq_none.1 (hfree i hi) r hr
        exact absurd (hkey.trans hrowid) hnone
      · replace hkey : s.db.nextCollection + j = c.rowid := hkey
        obtain rfl : i = j := by omega
        exact List.mem_append_right _ (Database.mem_importedWithConfig.2
          ⟨c, hc, rfl, hold, _, List.getElem_mem hi, hname.symm, Option.isSome_of_eq_some hrc⟩)
  · rcases List.mem_append.1 hid with hold | hnew
    · exact Nat.lt_of_lt_of_le (h.configured id hold) hnumbers.supply
    · obtain ⟨c, hc, rfl, -⟩ := Database.mem_importedWithConfig.1 hnew
      exact hnumbers.lt_nextUuid h.collections hc

/-- **An admissible request** keeps configurations apart. -/
theorem Supplied.handle (h : s.Supplied) {request : ConfigRequest}
    (hok : s.Admissible X request) : (s.handle X request).Supplied := by
  unfold ConfigLog.handle
  cases request with
  | collections action ts =>
    dsimp only
    split
    case h_2 => exact h
    case h_1 db' r hr =>
      obtain ⟨_, _, _, rfl, hcreate⟩ | ⟨_, _, _, _, rfl, hupdate⟩ | ⟨_, c, rfl, -, rfl⟩ :=
        handleCollections_cases hr
      · exact h.create hcreate hok
      · exact h.update hupdate
      · exact h.delete c.id
  | putRanking raw =>
    dsimp only
    split
    case h_1 hput => exact h.put hput
    case h_2 => exact h
  | importEnvelope env ts =>
    dsimp only
    split
    case h_1 db' r hr =>
      obtain ⟨hversion, himport⟩ := acceptImport_eq_ok.1 hr
      rcases hok with hrefuses | hfree
      · obtain ⟨r', hclean⟩ := Database.committedImport_withoutStale himport
        rcases hrefuses with hversion' | hnone
        · exact absurd hversion hversion'
        · exact nomatch hnone.symm.trans hclean
      · exact h.imported himport hfree
    case h_2 err r herr hclean =>
      obtain ⟨hversion, himport⟩ := acceptImport_eq_ok.1 hclean
      rcases hok with hrefuses | hfree
      · obtain ⟨err', herr'⟩ := exists_error_of_refuses hrefuses
        exact nomatch herr'.symm.trans hclean
      · obtain ⟨r', hr'⟩ := Database.committedImport_of_withoutStale himport hfree
        exact nomatch herr.symm.trans (acceptImport_eq_ok.2 ⟨hversion, hr'⟩)
    case h_3 => exact h

/-! ### Requests that do not -/

theorem Supplied.not_own_create (h : s.Supplied) {name description ts : String}
    (hbad : ¬ s.Admissible X (.collections (.create name description) ts)) :
    ¬ (s.handle X (.collections (.create name description) ts)).Own := by
  obtain ⟨hname, hfree⟩ := not_or.1 hbad
  have hrow : s.db.rankingRow s.db.nextCollection ≠ none := fun hnone ↦
    hfree fun i hi ↦ by
      obtain rfl : i = 0 := by omega
      rwa [Int.natCast_zero, Int.add_zero]
  obtain ⟨cs, hcs⟩ := Table.exists_insert (t := s.db.collections)
    (r := s.db.newCollection name description ts) fun c hc hclash ↦ by
      rcases hclash with hrowid | hid | hname'
      · have hlt := Database.rowid_lt_nextCollection hc
        exact absurd hrowid (Int.ne_of_lt hlt)
      · have hlt := h.collections c hc
        rw [hid] at hlt
        exact absurd hlt (Nat.lt_irrefl _)
      · exact hname (Database.mem_collectionNames.2 ⟨c, hc, hname'⟩)
  unfold ConfigLog.handle
  dsimp only [handleCollections, Database.createItem]
  rw [hcs, Option.map_some]
  intro hown
  have hid := hown.row _ ((Table.mem_of_insert hcs).2 (Or.inr rfl)) hrow
  exact absurd (h.configured _ hid) (Nat.lt_irrefl _)

/-- A collection that is imported under a rowid that is taken inherits the configuration. -/
theorem Supplied.not_own_imported (h : s.Supplied) {env : ExportEnvelope} {ts : String}
    {db' : Database} {report : ImportReport} {jobs : List IndexJob}
    (himport : committedImport X ts env s.db = some (db', report, jobs))
    (hfree : ¬ s.db.RowidsFree (newCollections s.db.collectionNames env.collections).length) :
    ¬ Own { s with
      db := db'
      configured := s.configured ++ s.db.importedWithConfig db' env } := by
  intro hown
  have hnumbers := numbers_of_committedImport himport
  obtain ⟨i, hi, hrow⟩ : ∃ i, ∃ _ : i <
      (newCollections s.db.collectionNames env.collections).length,
      s.db.rankingRow (s.db.nextCollection + i) ≠ none := by
    by_contra hnone
    exact hfree fun i hi ↦ not_not.1 fun hrow ↦ hnone ⟨i, hi, hrow⟩
  obtain ⟨r, hr, hkey⟩ := Database.rankingRow_ne_none.1 hrow
  obtain ⟨c, hc, hrowid, hname, hserial⟩ := hnumbers.exists_collection hi
  have hr' : r ∈ db'.rankingConfig := by
    rw [Table.mem_def, hnumbers.rankings]
    exact List.mem_append_left _ hr
  have hconfigured := hown.row c hc
    (Database.rankingRow_ne_none.2 ⟨r, hr', hkey.trans hrowid.symm⟩)
  rcases List.mem_append.1 hconfigured with hold | hnew
  · exact absurd (h.configured _ hold) (Nat.not_lt.2 hserial)
  · obtain ⟨c', hc', hid, -, e, he, hname', hsome⟩ := Database.mem_importedWithConfig.1 hnew
    obtain rfl := Database.eq_of_mem_collections hc' hc (Or.inr (Or.inl hid))
    obtain ⟨j, hj, rfl⟩ := List.mem_iff_getElem.1 he
    obtain ⟨c₁, hc₁, hrowid₁, hname₁, -⟩ := hnumbers.exists_collection hj
    obtain rfl := Database.eq_of_mem_collections hc₁ hc
      (Or.inr (Or.inr (hname₁.trans hname')))
    obtain rfl : i = j := by omega
    obtain ⟨rc, hrc⟩ := Option.isSome_iff_exists.1 hsome
    have hunique := db'.rankingConfig.unique
    rw [hnumbers.rankings] at hunique
    exact (List.pairwise_append.1 hunique).2.2 r hr _
      (mem_importedRankings.2 ⟨i, hi, rc, hrc, rfl⟩) hkey

theorem Supplied.not_own_handle (h : s.Supplied) {request : ConfigRequest}
    (hbad : ¬ s.Admissible X request) : ¬ (s.handle X request).Own := by
  cases request with
  | collections action ts =>
    cases action with
    | create name description => exact h.not_own_create hbad
    | update | delete => exact absurd trivial hbad
  | putRanking raw => exact absurd trivial hbad
  | importEnvelope env ts =>
    obtain ⟨hrefuses, hfree⟩ := not_or.1 hbad
    unfold ConfigLog.handle
    dsimp only
    split
    case h_1 hr => exact h.not_own_imported (acceptImport_eq_ok.1 hr).2 hfree
    case h_2 => exact fun hown ↦ nomatch hown.unblocked
    case h_3 herr =>
      obtain ⟨hversion, db', report, jobs, hr⟩ := exists_ok_of_not_refuses hrefuses
      exact nomatch herr.symm.trans (acceptImport_eq_ok.2 ⟨hversion, hr⟩)

theorem exists_run (s : ConfigLog) (requests : List ConfigRequest) :
    ∃ t, (configMachine X).run s requests = some t := by
  induction requests generalizing s with
  | nil => exact ⟨s, rfl⟩
  | cons request requests ih => exact ih (s.handle X request)

/-- **Configurations are the collections' own** all along a run exactly when each of its requests
creates no collection under a rowid a configuration is stored for. -/
theorem own_iff_guarded (requests : List ConfigRequest) :
    (∀ l₁ l₂ t, requests = l₁ ++ l₂ → (configMachine X).run initial l₁ = some t → t.Own) ↔
      (configMachine X).Guarded (Admissible X) initial requests := by
  obtain ⟨_, hrun⟩ := exists_run (X := X) initial requests
  refine Machine.forall_prefix_iff_guarded (B := fun _ _ ↦ True) (I := Supplied)
    (fun _ h ↦ h.own) (fun s request s' h _ hok hstep ↦ ?_) (fun s request s' h _ hbad hstep ↦ ?_)
    Supplied.initial (Machine.guarded_true _ _) hrun
  · exact Option.some.inj hstep ▸ h.handle hok
  · exact Option.some.inj hstep ▸ h.not_own_handle hbad

namespace Reused

def payload : JsonObject :=
  [("collection_id", .integer 1), ("freshness_half_life_days", .integer 30),
    ("source_weights", .weights [("local", 1)]), ("domain_boosts", .weights [])]

/-- The first collection is created, configured and deleted. -/
def gone : List ConfigRequest :=
  [.collections (.create "guide" "") "t0", .putRanking payload, .collections (.delete 1) "t1"]

/-- A collection with a configuration. -/
def envelope : ExportEnvelope where
  formatVersion := 1
  exportedAt := "t0"
  selfUrl := ""
  collections := [{
    name := "wiki"
    description := ""
    createdAt := "t0"
    updatedAt := "t0"
    rankingConfig := some ⟨90, .parses [("local", 1)], .parses [], none⟩ }]

/-- **A configuration outlives its collection**: the next collection inherits it, and an import of a
collection with a configuration of its own is blocked by it. -/
theorem not_own_reused :
    (∃ s, (configMachine OneDocument.crates).run initial
      (gone ++ [.collections (.create "wiki" "") "t2"]) = some s ∧ ¬ s.Own) ∧
    ∃ s, (configMachine OneDocument.crates).run initial
      (gone ++ [.importEnvelope envelope "t2"]) = some s ∧ ¬ s.Own := by
  refine ⟨⟨_, rfl, fun h ↦ ?_⟩, _, rfl, fun h ↦ ?_⟩
  · exact absurd (h.row ⟨1, ⟨1⟩, "wiki", "", "t2", "t2"⟩ (List.mem_singleton.2 rfl) (by decide))
      (by decide)
  · exact absurd h.unblocked (by decide)

end Reused

end ConfigLog

end CommunitySearch
