import CommunitySearch.Db.Collections
import Mathlib.Algebra.Group.Int.Defs
import Mathlib.Algebra.Group.Nat.Defs

/-!
# Ranking configurations

How the results of a collection are scored. A configuration is stored in typed columns, which the
search reads, and as the payload it was saved from, which the admin API gives back. The row of a
collection is keyed by its rowid.
-/

namespace CommunitySearch

/-- A per-collection ranking configuration. -/
structure RankingConfig where
  collectionId : Int
  freshnessHalfLifeDays : Rat
  sourceWeights : List (String × Rat)
  domainBoosts : List (String × Rat)
deriving DecidableEq

namespace JsonValue

/-- `as_i64`. -/
def asI64 : JsonValue → Option Int
  | integer n => if -2 ^ 63 ≤ n ∧ n < 2 ^ 63 then some n else none
  | float _ | weights _ | other => none

/-- A value read as an `f64`. -/
def asF64 : JsonValue → Option Rat
  | integer n => some n
  | float q => some q
  | weights _ | other => none

/-- A value read as a map of weights. -/
def asWeights : JsonValue → Option (List (String × Rat))
  | weights entries => some entries
  | integer _ | float _ | other => none

end JsonValue

/-- The value of a field. -/
def JsonObject.get (o : JsonObject) (name : String) : Option JsonValue :=
  (List.find? (fun field ↦ field.1 = name) o).map Prod.snd

namespace RankingConfig

/-- `default_for`. -/
def defaultFor (collectionId : Int) : RankingConfig where
  collectionId := collectionId
  freshnessHalfLifeDays := 90
  sourceWeights := [("local", 1)]
  domainBoosts := []

/-- The derived `Deserialize`; all fields are required. -/
def ofPayload (payload : JsonObject) : Option RankingConfig := do
  let collectionId ← (← payload.get "collection_id").asI64
  let freshnessHalfLifeDays ← (← payload.get "freshness_half_life_days").asF64
  let sourceWeights ← (← payload.get "source_weights").asWeights
  let domainBoosts ← (← payload.get "domain_boosts").asWeights
  return { collectionId, freshnessHalfLifeDays, sourceWeights, domainBoosts }

end RankingConfig

/-- The configuration in the typed columns of a row. -/
def RankingConfigRow.config (row : RankingConfigRow) : RankingConfig where
  collectionId := row.collectionId
  freshnessHalfLifeDays := row.freshnessHalfLifeDays
  sourceWeights := row.sourceWeightsJson.unwrapOrDefault
  domainBoosts := row.domainBoostsJson.unwrapOrDefault

namespace Database

/-- The database with another ranking table. -/
def withRankings (rows : Table RankingConfigRow.Clash) (db : Database) : Database :=
  { db with rankingConfig := rows }

/-- The row of a collection. -/
def rankingRow (db : Database) (collectionId : Int) : Option RankingConfigRow :=
  db.rankingConfig.rows.find? fun row ↦ row.collectionId = collectionId

/-- `load`. -/
def loadRanking (db : Database) (collectionId : Int) : RankingConfig :=
  ((db.rankingRow collectionId).map RankingConfigRow.config).getD (.defaultFor collectionId)

/-- `upsert`; `none` is an error. -/
def upsertRanking (db : Database) (collectionId : Int) (payload : JsonObject) :
    Option Database :=
  (RankingConfig.ofPayload payload).map fun cfg ↦
    let row : RankingConfigRow :=
      { collectionId := collectionId
        freshnessHalfLifeDays := cfg.freshnessHalfLifeDays
        sourceWeightsJson := .parses cfg.sourceWeights
        domainBoostsJson := .parses cfg.domainBoosts
        configJson := some (.parses payload) }
    let others := db.rankingConfig.deleteWhere fun r ↦ r.collectionId = collectionId
    { db with rankingConfig := (others.insert row).getD others }

/-- `get`. -/
def getRanking (db : Database) (collectionId : Int) : Option (JsonColumn JsonObject) :=
  (db.rankingRow collectionId).bind RankingConfigRow.configJson

/-! ### What `upsert` leaves -/

variable {db db' : Database} {collectionId : Int} {payload : JsonObject}

/-- The row of the collection is replaced by one for the payload. -/
theorem withRankings_of_upsertRanking (h : db.upsertRanking collectionId payload = some db') :
    ∃ cfg row rows, RankingConfig.ofPayload payload = some cfg ∧
      row.config = { cfg with collectionId := collectionId } ∧
      row.configJson = some (.parses payload) ∧ db' = db.withRankings rows ∧
      (db.rankingConfig.deleteWhere fun r ↦ r.collectionId = collectionId).insert row =
        some rows := by
  obtain ⟨cfg, hcfg, hdb'⟩ := Option.map_eq_some_iff.1 h
  let row : RankingConfigRow := ⟨collectionId, cfg.freshnessHalfLifeDays, .parses cfg.sourceWeights,
    .parses cfg.domainBoosts, some (.parses payload)⟩
  obtain ⟨rows, hrows⟩ : ∃ rows, (db.rankingConfig.deleteWhere fun r ↦
      r.collectionId = collectionId).insert row = some rows :=
    Table.exists_insert fun r hr ↦ of_decide_eq_false (Table.mem_deleteWhere.1 hr).2
  dsimp only at hdb'
  rw [hrows, Option.getD_some] at hdb'
  exact ⟨cfg, row, rows, hcfg, rfl, rfl, hdb'.symm, hrows⟩

/-- **A saved configuration is stored** in the row of its collection, and no other row changes. -/
theorem upsertRanking_eq_some (h : db.upsertRanking collectionId payload = some db') :
    db'.collections = db.collections ∧ ∃ cfg row, RankingConfig.ofPayload payload = some cfg ∧
      row.config = { cfg with collectionId := collectionId } ∧
      row.configJson = some (.parses payload) ∧
      ∀ id, db'.rankingRow id = if id = collectionId then some row else db.rankingRow id := by
  obtain ⟨cfg, row, rows, hcfg, hrow, hjson, rfl, hrows⟩ := withRankings_of_upsertRanking h
  have hkey : row.collectionId = collectionId := congrArg RankingConfig.collectionId hrow
  exact ⟨rfl, cfg, row, hcfg, hrow, hjson, Table.find?_of_replace hkey hrows⟩

end Database

end CommunitySearch
