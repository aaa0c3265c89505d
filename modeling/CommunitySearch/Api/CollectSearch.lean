import CommunitySearch.Api.SearchStream
import CommunitySearch.Search.Service

/-!
# The collecting search

The counterpart of the streaming search for the endpoints that answer with one value: the local
results, those of the peers that answer within the budget, and all of them sorted by their score.
-/

namespace CommunitySearch

/-- Milliseconds spent on collecting the outcomes of the peers. -/
def FANOUT_COLLECT_TIMEOUT : Nat := 5000

/-- A value of a column of `collections`. -/
inductive SqlValue where
  | integer (n : Int)
  | text (id : Uuid)

/-- A column read as an `i64`; text does not convert. -/
def SqlValue.asI64 : SqlValue → Option Int
  | integer n => some n
  | text _ => none

/-- `lookup_collection_id`: the column `id` is the TEXT key of a collection. -/
def lookupCollectionId (db : Database) (collection : Option String) : Option Int :=
  collection.bind fun name ↦
    (db.collections.rows.find? fun c ↦ c.name = name).bind fun c ↦ (SqlValue.text c.id).asI64

/-- The engine a search runs on, and what its peers answer. -/
structure SearchNode where
  engine : QueryEngine
  db : Database
  /-- The committed documents. -/
  docs : List Document
  federation : FederationTables
  now : Int
  answer : ActiveCollectionPeer → SearchRequest → Except String (List SearchResult)

namespace SearchNode

variable (node : SearchNode)

/-- The local search of a request. -/
def localOutcome (req : SearchRequest) : LocalOutcome :=
  match node.engine.localSearch node.db node.docs req.query req.collection
    (lookupCollectionId node.db req.collection) SEARCH_LIMIT node.now with
  | .ok results => .found results
  | .error message => .error message

end SearchNode

/-- What has been collected, and the calls of `record_result`. -/
structure Collected where
  results : List SearchResult
  recorded : List HealthRecord

/-- The loop over the outcomes. Each comes with the milliseconds from the start of the fan-out; the
first that comes too late ends the loop. -/
def drainPeers (acc : Collected) : List (Nat × Completion) → Collected
  | [] => acc
  | (ms, c) :: rest =>
    if ms < FANOUT_COLLECT_TIMEOUT then
      drainPeers ⟨acc.results ++ c.outcome.results, acc.recorded ++ [c.outcome.health]⟩ rest
    else acc

/-- `collect_search`, with the outcomes of the peers as they arrive. -/
def collectSearch (node : SearchNode) (req : SearchRequest) (arrivals : List (Nat × Completion)) :
    Collected :=
  let acc := drainPeers ⟨(node.localOutcome req).results, []⟩ arrivals
  { acc with results := sortByScore acc.results }

/-- Within the budget all outcomes are collected. -/
theorem results_drainPeers {acc : Collected} {arrivals : List (Nat × Completion)}
    (h : ∀ a ∈ arrivals, a.1 < FANOUT_COLLECT_TIMEOUT) :
    (drainPeers acc arrivals).results =
      acc.results ++ (arrivals.map Prod.snd).flatMap fun c ↦ c.outcome.results := by
  induction arrivals generalizing acc with
  | nil => exact (List.append_nil _).symm
  | cons a arrivals ih =>
    obtain ⟨ha, harrivals⟩ := List.forall_mem_cons.1 h
    rw [drainPeers, if_pos ha, ih harrivals, List.append_assoc]
    rfl

end CommunitySearch
