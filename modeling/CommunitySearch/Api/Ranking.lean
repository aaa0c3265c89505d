import CommunitySearch.Api.Admin
import CommunitySearch.Api.CollectSearch

/-!
# The ranking endpoint

A configuration is saved under the rowid of its collection, and a search that is restricted to a
collection is scored with what it finds under the key of that collection. The key is a TEXT and the
search wants a number (`lookupCollectionId`), so it never finds one: a saved configuration takes
effect only where it says what the default says.
-/

namespace CommunitySearch

/-- A payload that is not a configuration; the message is the parser's. -/
def ApiError.payload : ApiError := ⟨500, "invalid payload"⟩

/-- `put_ranking`. A payload that is not an object has no fields. -/
def putRanking (db : Database) (raw : JsonObject) : Except ApiError Database :=
  match (raw.get "collection_id").bind JsonValue.asI64 with
  | none => .error ⟨400, "collection_id must be an integer"⟩
  | some collectionId =>
    if db.collectionExists collectionId then
      match db.upsertRanking collectionId raw with
      | some db' => .ok db'
      | none => .error .payload
    else .error (.collectionNotFound collectionId)

/-- The collection a payload names. -/
def JsonObject.namedCollection (db : Database) (raw : JsonObject) : Option CollectionRow :=
  ((raw.get "collection_id").bind JsonValue.asI64).bind db.collectionByRowid

/-- `get_ranking`. -/
def getRanking (db : Database) (collectionId : Int) : Except ApiError JsonObject :=
  match db.getRanking collectionId with
  | some (.parses value) => .ok value
  | some (.malformed _) => .error .payload
  | none => .error ⟨404, "no ranking config for collection " ++ toString collectionId⟩

/-- The configuration a search is scored with. -/
def Database.scoringConfig (db : Database) (collection : Option String) : RankingConfig :=
  QueryEngine.rankingFor db (lookupCollectionId db collection)

/-- **Every local result** is scored with it. -/
theorem SearchNode.exists_score_of_mem {node : SearchNode} {req : SearchRequest} {r : SearchResult}
    (h : r ∈ (node.localOutcome req).results) :
    ∃ inputs, r.score = score inputs (node.db.scoringConfig req.collection) := by
  rw [localOutcome, QueryEngine.localSearch] at h
  cases hhits : node.engine.searchWithSnippets node.docs req.query req.collection
    (SEARCH_LIMIT * 4) with
  | error message =>
    rw [hhits] at h
    exact absurd h List.not_mem_nil
  | ok hits =>
    rw [hhits] at h
    have hr := (perm_sortByScore _).subset (List.mem_of_mem_take h)
    obtain ⟨hit, -, rfl⟩ := List.mem_map.1 hr
    exact ⟨_, rfl⟩

/-! ### Configurations that say the same -/

/-- The same half-life, weights and boosts; the maps are compared as maps. -/
structure RankingConfig.Same (a b : RankingConfig) : Prop where
  freshnessHalfLifeDays : a.freshnessHalfLifeDays = b.freshnessHalfLifeDays
  sourceWeights : ∀ source, (a.sourceWeights.find? fun w ↦ w.1 = source).map Prod.snd =
    (b.sourceWeights.find? fun w ↦ w.1 = source).map Prod.snd
  domainBoosts : ∀ domain, (a.domainBoosts.find? fun w ↦ w.1 = domain).map Prod.snd =
    (b.domainBoosts.find? fun w ↦ w.1 = domain).map Prod.snd

theorem RankingConfig.Same.refl (a : RankingConfig) : a.Same a := ⟨rfl, fun _ ↦ rfl, fun _ ↦ rfl⟩

theorem RankingConfig.Same.symm {a b : RankingConfig} (h : a.Same b) : b.Same a :=
  ⟨h.freshnessHalfLifeDays.symm, fun source ↦ (h.sourceWeights source).symm,
    fun domain ↦ (h.domainBoosts domain).symm⟩

/-- Such configurations score alike. -/
theorem RankingConfig.Same.score_eq {a b : RankingConfig} (h : a.Same b) (inputs : ScoreInputs) :
    score inputs a = score inputs b := by
  rw [score, score, weightOf, weightOf, weightOf, weightOf, h.freshnessHalfLifeDays,
    h.sourceWeights, h.domainBoosts]

/-! ### What saving does -/

theorem RankingConfig.collectionId_of_ofPayload {raw : JsonObject} {cfg : RankingConfig}
    (h : RankingConfig.ofPayload raw = some cfg) :
    (raw.get "collection_id").bind JsonValue.asI64 = some cfg.collectionId := by
  obtain ⟨value, hvalue, h⟩ := Option.bind_eq_some_iff.1 h
  obtain ⟨collectionId, hcollectionId, h⟩ := Option.bind_eq_some_iff.1 h
  obtain ⟨_, _, h⟩ := Option.bind_eq_some_iff.1 h
  obtain ⟨_, _, h⟩ := Option.bind_eq_some_iff.1 h
  obtain ⟨_, _, h⟩ := Option.bind_eq_some_iff.1 h
  obtain ⟨_, _, h⟩ := Option.bind_eq_some_iff.1 h
  obtain ⟨_, _, h⟩ := Option.bind_eq_some_iff.1 h
  obtain ⟨_, _, h⟩ := Option.bind_eq_some_iff.1 h
  obtain rfl := Option.some.inj h
  rw [hvalue, Option.bind_some, hcollectionId]

/-- **A configuration that is saved** is stored for the collection it names. -/
theorem putRanking_eq_ok {db db' : Database} {raw : JsonObject} (h : putRanking db raw = .ok db') :
    ∃ cfg c row, RankingConfig.ofPayload raw = some cfg ∧
      db.collectionByRowid cfg.collectionId = some c ∧ db'.collections = db.collections ∧
      row.config = cfg ∧ row.configJson = some (.parses raw) ∧
      ∀ id, db'.rankingRow id = if id = cfg.collectionId then some row else db.rankingRow id := by
  rw [putRanking] at h
  split at h
  case h_1 => cases h
  case h_2 collectionId hid =>
    split at h
    case isFalse => cases h
    case isTrue hexists =>
      obtain ⟨c, hc⟩ := Option.isSome_iff_exists.1 hexists
      split at h
      case h_2 => cases h
      case h_1 db₁ hupsert =>
        obtain rfl := Except.ok.inj h
        obtain ⟨hcollections, cfg, row, hcfg, hrow, hjson, hrows⟩ :=
          Database.upsertRanking_eq_some hupsert
        have hkey := RankingConfig.collectionId_of_ofPayload hcfg
        obtain rfl := Option.some.inj (hid.symm.trans hkey)
        exact ⟨cfg, c, row, hcfg, hc, hcollections, hrow, hjson, hrows⟩

/-- **What a request that is accepted does**: it replaces the row of the collection it names. -/
theorem Database.putRanking_eq {db db' : Database} {raw : JsonObject}
    (h : putRanking db raw = .ok db') :
    ∃ c rows, raw.namedCollection db = some c ∧ db' = db.withRankings rows ∧
      ∃ row : RankingConfigRow, row.collectionId = c.rowid ∧
        (db.rankingConfig.deleteWhere fun r ↦ r.collectionId = c.rowid).insert row = some rows := by
  rw [putRanking] at h
  split at h
  case h_1 => cases h
  case h_2 collectionId hid =>
    split at h
    case isFalse => cases h
    case isTrue hexists =>
      obtain ⟨c, hc⟩ := Option.isSome_iff_exists.1 hexists
      obtain ⟨-, rfl⟩ := mem_of_collectionByRowid hc
      split at h
      case h_2 => cases h
      case h_1 db₁ hupsert =>
        obtain rfl := Except.ok.inj h
        obtain ⟨_, row, rows, -, hrow, -, rfl, hrows⟩ := withRankings_of_upsertRanking hupsert
        refine ⟨c, rows, ?_, rfl, row, congrArg RankingConfig.collectionId hrow, hrows⟩
        rw [JsonObject.namedCollection, hid]
        exact hc

/-- **The endpoint gives back** what was saved. -/
theorem getRanking_of_putRanking {db db' : Database} {raw : JsonObject}
    (h : putRanking db raw = .ok db') :
    ∃ cfg, RankingConfig.ofPayload raw = some cfg ∧ getRanking db' cfg.collectionId = .ok raw := by
  obtain ⟨cfg, c, row, hcfg, -, -, -, hjson, hrows⟩ := putRanking_eq_ok h
  refine ⟨cfg, hcfg, ?_⟩
  rw [getRanking, Database.getRanking, hrows, if_pos rfl, Option.bind_some, hjson]

/-! ### Creations and savings -/

inductive RankingRequest where
  | create (name description ts : String)
  | put (raw : JsonObject)

/-- A database, and the configuration last saved for the collection of each name. -/
structure RankingHistory where
  db : Database
  saved : String → Option RankingConfig

namespace RankingHistory

/-- A fresh installation. -/
def initial : RankingHistory := ⟨.empty, fun _ ↦ none⟩

/-- What has been saved after a payload was accepted. -/
def note (s : RankingHistory) (raw : JsonObject) (name : String) : Option RankingConfig :=
  match RankingConfig.ofPayload raw with
  | some cfg =>
    if (s.db.collectionByRowid cfg.collectionId).map CollectionRow.name = some name then some cfg
    else s.saved name
  | none => s.saved name

/-- A request that is refused changes nothing. -/
def handle (s : RankingHistory) : RankingRequest → RankingHistory
  | .create name description ts =>
    match handleCollections s.db ts (.create name description) with
    | .ok (db', _) => { s with db := db' }
    | .error _ => s
  | .put raw =>
    match putRanking s.db raw with
    | .ok db' => ⟨db', s.note raw⟩
    | .error _ => s

/-- The history of a sequence of requests. -/
def after (requests : List RankingRequest) : RankingHistory :=
  requests.foldl handle initial

/-- **Saved ranking takes effect** for the collection of a name. -/
def TakesEffect (s : RankingHistory) (name : String) : Prop :=
  (s.db.scoringConfig (some name)).Same ((s.saved name).getD (.defaultFor 0))

/-- What is stored is what has been saved. -/
structure Stored (s : RankingHistory) : Prop where
  /-- The row of a collection holds what was last saved for it. -/
  row : ∀ c ∈ s.db.collections,
    (s.db.rankingRow c.rowid).map RankingConfigRow.config = s.saved c.name
  /-- Nothing is saved for a name without a collection. -/
  named : ∀ name cfg, s.saved name = some cfg → ∃ c ∈ s.db.collections, c.name = name
  /-- There is no row without a collection. -/
  keyed : ∀ id row, s.db.rankingRow id = some row → ∃ c ∈ s.db.collections, c.rowid = id

theorem Stored.initial : initial.Stored where
  row _ hc := absurd hc (Table.not_mem_empty _)
  named _ _ h := nomatch h
  keyed _ _ h := nomatch h

variable {s : RankingHistory}

/-- A new collection has a rowid no row is stored for. -/
theorem Stored.create (h : s.Stored) {name description ts : String} {record : CollectionRecord}
    {db' : Database} (hcreate : s.db.createItem name description ts = some (db', record)) :
    Stored { s with db := db' } := by
  have hmem : ∀ c : CollectionRow, c ∈ db'.collections ↔
      c ∈ s.db.collections ∨ c = s.db.newCollection name description ts := fun c ↦
    Database.mem_collections_of_createItem hcreate
  have hfresh : ∀ c ∈ s.db.collections, ¬ c.Clash (s.db.newCollection name description ts) := by
    obtain ⟨cs, hcs, -⟩ := Option.map_eq_some_iff.1 hcreate
    exact fun c hc ↦ Table.not_clash_of_insert hcs hc
  obtain ⟨cs, rfl⟩ := Database.createItem_eq hcreate
  constructor
  · intro c hc
    rcases (hmem c).1 hc with hold | rfl
    · exact h.row c hold
    · have hrow : s.db.rankingRow (s.db.newCollection name description ts).rowid = none := by
        rw [Option.eq_none_iff_forall_ne_some]
        intro row hrow
        obtain ⟨c, hc, hid⟩ := h.keyed _ row hrow
        exact hfresh c hc (Or.inl hid)
      have hsaved : s.saved (s.db.newCollection name description ts).name = none := by
        rw [Option.eq_none_iff_forall_ne_some]
        intro cfg hcfg
        obtain ⟨c, hc, hname⟩ := h.named _ cfg hcfg
        exact hfresh c hc (Or.inr (Or.inr hname))
      exact (congrArg _ hrow).trans hsaved.symm
  · intro name cfg hcfg
    obtain ⟨c, hc, hname⟩ := h.named name cfg hcfg
    exact ⟨c, (hmem c).2 (Or.inl hc), hname⟩
  · intro id row hrow
    obtain ⟨c, hc, hid⟩ := h.keyed id row hrow
    exact ⟨c, (hmem c).2 (Or.inl hc), hid⟩

/-- A configuration that is saved is the one stored. -/
theorem Stored.put (h : s.Stored) {raw : JsonObject} {db' : Database}
    (hput : putRanking s.db raw = .ok db') : Stored ⟨db', s.note raw⟩ := by
  obtain ⟨cfg, c₀, row, hcfg, hc₀, hcollections, hrow, -, hrows⟩ := putRanking_eq_ok hput
  obtain ⟨hmem₀, hrowid₀⟩ := Database.mem_of_collectionByRowid hc₀
  have hnote : ∀ name, s.note raw name = if c₀.name = name then some cfg else s.saved name := by
    intro name
    rw [note]
    rw [hcfg]
    dsimp only
    rw [hc₀, Option.map_some]
    exact if_congr Option.some_inj rfl rfl
  constructor
  · intro c hc
    have hc : c ∈ s.db.collections := hcollections ▸ hc
    show (db'.rankingRow c.rowid).map RankingConfigRow.config = s.note raw c.name
    rw [hrows, hnote]
    by_cases hid : c = c₀
    · rw [hid, if_pos hrowid₀, if_pos rfl, Option.map_some, hrow]
    · have hrowid : c.rowid ≠ cfg.collectionId := fun heq ↦
        hid (Database.eq_of_mem_collections hc hmem₀ (Or.inl (heq.trans hrowid₀.symm)))
      have hname : c₀.name ≠ c.name := fun heq ↦
        hid (Database.eq_of_mem_collections hc hmem₀ (Or.inr (Or.inr heq.symm)))
      rw [if_neg hrowid, if_neg hname]
      exact h.row c hc
  · intro name cfg' hcfg'
    show ∃ c ∈ db'.collections, c.name = name
    rw [hcollections]
    replace hcfg' : s.note raw name = some cfg' := hcfg'
    rw [hnote] at hcfg'
    split at hcfg'
    case isTrue hname => exact ⟨c₀, hmem₀, hname⟩
    case isFalse => exact h.named name cfg' hcfg'
  · intro id row' hrow'
    show ∃ c ∈ db'.collections, c.rowid = id
    rw [hcollections]
    replace hrow' : db'.rankingRow id = some row' := hrow'
    rw [hrows] at hrow'
    split at hrow'
    case isTrue hid => exact ⟨c₀, hmem₀, hrowid₀.trans hid.symm⟩
    case isFalse => exact h.keyed id row' hrow'

theorem Stored.handle (h : s.Stored) (request : RankingRequest) : (s.handle request).Stored := by
  unfold RankingHistory.handle
  cases request with
  | create name description ts =>
    dsimp only [handleCollections]
    cases hcreate : s.db.createItem name description ts with
    | none => exact h
    | some p => exact h.create hcreate
  | put raw =>
    dsimp only
    cases hput : putRanking s.db raw with
    | error e => exact h
    | ok db' => exact h.put hput

/-- **The endpoint keeps what is saved**, whatever is created and saved. -/
theorem stored_after (requests : List RankingRequest) : (after requests).Stored :=
  List.foldlRecOn requests _ Stored.initial fun _ h request _ ↦ h.handle request

/-- The search never finds the number of a collection. -/
theorem scoringConfig_eq (db : Database) (collection : Option String) :
    db.scoringConfig collection = .defaultFor 0 := by
  have hnone : lookupCollectionId db collection = none := by
    unfold lookupCollectionId SqlValue.asI64
    rw [Option.bind_eq_none_iff]
    exact fun name _ ↦ Option.bind_eq_none_iff.2 fun _ _ ↦ rfl
  rw [Database.scoringConfig, hnone]
  rfl

/-- **Saved ranking takes effect** exactly where no row is stored for the collection, or the row
says what the default says. -/
theorem takesEffect_iff (requests : List RankingRequest) (name : String) :
    (after requests).TakesEffect name ↔
      ∀ c ∈ (after requests).db.collections, c.name = name →
        ∀ row, (after requests).db.rankingRow c.rowid = some row →
          row.config.Same (.defaultFor 0) := by
  have h := stored_after requests
  rw [TakesEffect]
  rw [scoringConfig_eq]
  constructor
  · rintro hsame c hc rfl row hrow
    have hsaved : (after requests).saved c.name = some row.config := by
      rw [← h.row c hc, hrow, Option.map_some]
    rw [hsaved, Option.getD_some] at hsame
    exact hsame.symm
  · intro hrows
    cases hsaved : (after requests).saved name with
    | none => exact .refl _
    | some cfg =>
      obtain ⟨c, hc, hname⟩ := h.named name cfg hsaved
      have hstored := h.row c hc
      rw [hname, hsaved] at hstored
      obtain ⟨row, hrow, rfl⟩ := Option.map_eq_some_iff.1 hstored
      exact (hrows c hc hname row hrow).symm

/-- **A saved half-life has no effect.** -/
theorem not_takesEffect : ¬ ∀ requests name, (after requests).TakesEffect name := by
  intro h
  let requests : List RankingRequest := [.create "guide" "" "2026-01-01T00:00:00Z",
    .put [("collection_id", .integer 1), ("freshness_half_life_days", .integer 30),
      ("source_weights", .weights [("local", 1)]), ("domain_boosts", .weights [])]]
  have hsaved : (after requests).saved "guide" = some ⟨1, 30, [("local", 1)], []⟩ := by decide
  have heffect := (h requests "guide").freshnessHalfLifeDays
  rw [scoringConfig_eq, hsaved] at heffect
  exact absurd heffect (by decide)

end RankingHistory

end CommunitySearch
