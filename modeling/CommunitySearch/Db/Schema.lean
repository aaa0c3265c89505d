import CommunitySearch.Foundation.Table

/-!
# The schema

The tables of the SQLite database that crawling, indexing, ranking and the fan-out to peers use.
Uniqueness constraints are part of the type of a table (`Table`); the foreign keys between tables
are the predicate `Database.ForeignKeys`, which every operation of the modules below preserves.

Two kinds of identifier live side by side. A collection has a TEXT primary key, a fresh UUID, and
the INTEGER rowid SQLite gives every row; the admin API addresses collections by the rowid, the
crawler by the UUID.
-/

namespace CommunitySearch

/-- The result of a call of `Uuid::new_v4`. Calls never repeat a value, so it is numbered by the
calls. -/
structure Uuid where
  serial : Nat
deriving DecidableEq, Repr

/-- A row of `collections`. -/
structure CollectionRow where
  rowid : Int
  id : Uuid
  name : String
  description : String
  createdAt : String
  updatedAt : String
deriving DecidableEq

/-- A row of `crawl_targets`. -/
structure CrawlTargetRow where
  rowid : Int
  id : Uuid
  collectionId : Uuid
  urlPrefix : String
  recrawlIntervalS : Int
  recrawlIntervalSecs : Int
  lastCrawledAt : Option Int
  enabled : Int
  createdAt : String
  crawlDelaySecs : Option Int
deriving DecidableEq

/-- A row of `crawled_pages`. -/
structure CrawledPageRow where
  id : Int
  collectionId : Uuid
  crawlTargetId : Uuid
  url : String
  etag : Option String
  lastModified : Option String
  contentHash : Option String
  lastStatus : Option Int
  lastCrawledAt : Int
  /-- The content hash of the document most recently committed to the index for this URL; `none`
  means that no version is known to be committed. -/
  indexedContentHash : Option String
deriving DecidableEq

/-- A JSON value, as far as the ranking endpoint looks into it. Numbers are exact; an object all
of whose values are numbers is a map of weights. -/
inductive JsonValue where
  | integer (n : Int)
  | float (q : Rat)
  | weights (entries : List (String × Rat))
  | other
deriving DecidableEq

/-- A JSON object: its fields, no name twice. -/
abbrev JsonObject := List (String × JsonValue)

/-- What a TEXT column of JSON holds: a text that parses to a value of the type it is read at, or a
text that does not. Spellings of one value are not told apart. -/
inductive JsonColumn (α : Type) where
  | parses (value : α)
  | malformed (text : String)
deriving DecidableEq

/-- `serde_json::from_str(..).unwrap_or_default()`, for a list or a map. -/
def JsonColumn.unwrapOrDefault {α : Type} : JsonColumn (List α) → List α
  | parses value => value
  | malformed _ => []

/-- A row of `ranking_config`. -/
structure RankingConfigRow where
  /-- `INTEGER PRIMARY KEY`: the rowid of the collection. -/
  collectionId : Int
  freshnessHalfLifeDays : Rat
  sourceWeightsJson : JsonColumn (List (String × Rat))
  domainBoostsJson : JsonColumn (List (String × Rat))
  configJson : Option (JsonColumn JsonObject)
deriving DecidableEq

/-- A link an outlink suggestion was seen on. -/
structure OutlinkExample where
  sourceUrl : String
  targetUrl : String
  linkText : String
deriving DecidableEq

/-- A row of `outlink_host_suggestions`. -/
structure OutlinkHostRow where
  rowid : Int
  id : Uuid
  collectionId : Uuid
  host : String
  linkCount : Int
  examplesJson : JsonColumn (List OutlinkExample)
  firstSeenAt : Int
  lastSeenAt : Int
  /-- `pending`, `promoted` or `dismissed`. -/
  status : String
  promotedTargetId : Option Int
deriving DecidableEq

/-- A row of `node_peers`. -/
structure NodePeerRow where
  id : Int
  url : String
  name : Option String
  enabled : Int
  consecutiveFailures : Int
  lastResponseMs : Option Int
  lastCheckedAt : Option Int
  disabledAt : Option Int
deriving DecidableEq

/-- A row of `collection_peers`. -/
structure CollectionPeerRow where
  id : Int
  localCollection : String
  nodePeerId : Int
  remoteCollection : String
  sourceWeight : Float
  enabled : Int

/-- `PRIMARY KEY (collection_id)`. -/
def RankingConfigRow.Clash (a b : RankingConfigRow) : Prop :=
  a.collectionId = b.collectionId

/-- `PRIMARY KEY (id)`, `UNIQUE (name)`, and the rowid. -/
def CollectionRow.Clash (a b : CollectionRow) : Prop :=
  a.rowid = b.rowid ∨ a.id = b.id ∨ a.name = b.name

/-- `PRIMARY KEY (id)`, `UNIQUE (collection_id, url_prefix)`, and the rowid. -/
def CrawlTargetRow.Clash (a b : CrawlTargetRow) : Prop :=
  a.rowid = b.rowid ∨ a.id = b.id ∨ (a.collectionId = b.collectionId ∧ a.urlPrefix = b.urlPrefix)

/-- The key of a page: pages are unique within a collection. -/
def CrawledPageRow.SameKey (a b : CrawledPageRow) : Prop :=
  a.collectionId = b.collectionId ∧ a.url = b.url

/-- `PRIMARY KEY (id)` and `UNIQUE (collection_id, url)`. -/
def CrawledPageRow.Clash (a b : CrawledPageRow) : Prop :=
  a.id = b.id ∨ a.SameKey b

/-- `PRIMARY KEY (id)`, `UNIQUE (collection_id, host)`, and the rowid. -/
def OutlinkHostRow.Clash (a b : OutlinkHostRow) : Prop :=
  a.rowid = b.rowid ∨ a.id = b.id ∨ (a.collectionId = b.collectionId ∧ a.host = b.host)

/-- `PRIMARY KEY (id)` and `UNIQUE (url)`. -/
def NodePeerRow.Clash (a b : NodePeerRow) : Prop := a.id = b.id ∨ a.url = b.url

/-- `PRIMARY KEY (id)` and `UNIQUE (local_collection, node_peer_id, remote_collection)`. -/
def CollectionPeerRow.Clash (a b : CollectionPeerRow) : Prop :=
  a.id = b.id ∨ a.localCollection = b.localCollection ∧ a.nodePeerId = b.nodePeerId ∧
    a.remoteCollection = b.remoteCollection

instance : DecidableRel RankingConfigRow.Clash := fun a b ↦
  inferInstanceAs (Decidable (a.collectionId = b.collectionId))

instance : DecidableRel CollectionRow.Clash := fun _ _ ↦ instDecidableOr

instance : DecidableRel CrawlTargetRow.Clash := fun _ _ ↦ instDecidableOr

instance : DecidableRel CrawledPageRow.SameKey := fun _ _ ↦ instDecidableAnd

instance : DecidableRel CrawledPageRow.Clash := fun _ _ ↦ instDecidableOr

instance : DecidableRel OutlinkHostRow.Clash := fun _ _ ↦ instDecidableOr

instance : DecidableRel NodePeerRow.Clash := fun _ _ ↦ instDecidableOr

instance : DecidableRel CollectionPeerRow.Clash := fun _ _ ↦ instDecidableOr

/-- The rowid SQLite gives the next row: one more than the largest in the table. -/
def nextRowid (rowids : List Int) : Int :=
  rowids.foldr max 0 + 1

theorem lt_nextRowid {rowids : List Int} {rowid : Int} (h : rowid ∈ rowids) :
    rowid < nextRowid rowids := by
  refine Int.lt_add_one_of_le ?_
  induction rowids with
  | nil => exact absurd h List.not_mem_nil
  | cons r rowids ih =>
    rw [List.foldr_cons]
    rcases List.mem_cons.1 h with rfl | hmem
    · exact Int.le_max_left ..
    · exact Int.le_trans (ih hmem) (Int.le_max_right ..)

/-- The database. -/
structure Database where
  collections : Table CollectionRow.Clash
  crawlTargets : Table CrawlTargetRow.Clash
  crawledPages : Table CrawledPageRow.Clash
  rankingConfig : Table RankingConfigRow.Clash
  outlinkHostSuggestions : Table OutlinkHostRow.Clash
  nodePeers : Table NodePeerRow.Clash
  collectionPeers : Table CollectionPeerRow.Clash
  /-- The `AUTOINCREMENT` counter of `crawled_pages`. -/
  nextPageId : Int
  /-- How many UUIDs have been drawn. -/
  nextUuid : Nat

namespace Database

/-- A fresh installation. -/
def empty : Database where
  collections := .empty
  crawlTargets := .empty
  crawledPages := .empty
  rankingConfig := .empty
  outlinkHostSuggestions := .empty
  nodePeers := .empty
  collectionPeers := .empty
  nextPageId := 1
  nextUuid := 0

/-- `REFERENCES`: every child row has its parents. The foreign key of `ranking_config` compares an
INTEGER with a TEXT key and is never enforced, so it is not among them. -/
structure ForeignKeys (db : Database) : Prop where
  target_collection : ∀ t ∈ db.crawlTargets, ∃ c ∈ db.collections, c.id = t.collectionId
  page_collection : ∀ p ∈ db.crawledPages, ∃ c ∈ db.collections, c.id = p.collectionId
  page_target : ∀ p ∈ db.crawledPages, ∃ t ∈ db.crawlTargets, t.id = p.crawlTargetId
  host_collection : ∀ o ∈ db.outlinkHostSuggestions, ∃ c ∈ db.collections, c.id = o.collectionId
  peer_node : ∀ cp ∈ db.collectionPeers, ∃ np ∈ db.nodePeers, np.id = cp.nodePeerId

theorem foreignKeys_empty : empty.ForeignKeys where
  target_collection _ h := absurd h (Table.not_mem_empty _)
  page_collection _ h := absurd h (Table.not_mem_empty _)
  page_target _ h := absurd h (Table.not_mem_empty _)
  host_collection _ h := absurd h (Table.not_mem_empty _)
  peer_node _ h := absurd h (Table.not_mem_empty _)

/-- The collections with the given rowid: at most one. -/
def collectionByRowid (db : Database) (rowid : Int) : Option CollectionRow :=
  db.collections.rows.find? fun c ↦ c.rowid = rowid

/-- The target with the given rowid. -/
def targetByRowid (db : Database) (rowid : Int) : Option CrawlTargetRow :=
  db.crawlTargets.rows.find? fun t ↦ t.rowid = rowid

def HasCollection (db : Database) (id : Uuid) : Prop := ∃ c ∈ db.collections.rows, c.id = id

def HasTarget (db : Database) (id : Uuid) : Prop := ∃ t ∈ db.crawlTargets.rows, t.id = id

def HasNode (db : Database) (id : Int) : Prop := ∃ np ∈ db.nodePeers.rows, np.id = id

instance (db : Database) (id : Uuid) : Decidable (db.HasCollection id) :=
  inferInstanceAs (Decidable (∃ c ∈ db.collections.rows, c.id = id))

instance (db : Database) (id : Uuid) : Decidable (db.HasTarget id) :=
  inferInstanceAs (Decidable (∃ t ∈ db.crawlTargets.rows, t.id = id))

instance (db : Database) (id : Int) : Decidable (db.HasNode id) :=
  inferInstanceAs (Decidable (∃ np ∈ db.nodePeers.rows, np.id = id))

theorem mem_of_collectionByRowid {db : Database} {rowid : Int} {c : CollectionRow}
    (h : db.collectionByRowid rowid = some c) : c ∈ db.collections ∧ c.rowid = rowid :=
  ⟨List.mem_of_find?_eq_some h, by simpa using List.find?_some h⟩

/-- No two collections share a rowid, an identifier or a name. -/
theorem eq_of_mem_collections {db : Database} {c c' : CollectionRow} (hc : c ∈ db.collections)
    (hc' : c' ∈ db.collections) (h : c.Clash c') : c = c' :=
  Table.eq_of_clash (fun _ _ ↦ Or.imp Eq.symm (Or.imp Eq.symm Eq.symm)) hc hc' h

/-- No two targets share a rowid, an identifier, or their collection and prefix. -/
theorem eq_of_mem_crawlTargets {db : Database} {t t' : CrawlTargetRow} (ht : t ∈ db.crawlTargets)
    (ht' : t' ∈ db.crawlTargets) (h : t.Clash t') : t = t' :=
  Table.eq_of_clash (fun _ _ ↦ Or.imp Eq.symm (Or.imp Eq.symm (And.imp Eq.symm Eq.symm))) ht ht' h

/-- No two node peers share an id or a URL. -/
theorem eq_of_mem_nodePeers {db : Database} {np np' : NodePeerRow} (hnp : np ∈ db.nodePeers)
    (hnp' : np' ∈ db.nodePeers) (h : np.Clash np') : np = np' :=
  Table.eq_of_clash (fun _ _ ↦ Or.imp Eq.symm Eq.symm) hnp hnp' h

theorem collectionByRowid_eq_some {db : Database} {c : CollectionRow} (hc : c ∈ db.collections) :
    db.collectionByRowid c.rowid = some c := by
  have hfound : (db.collectionByRowid c.rowid).isSome :=
    List.find?_isSome.2 ⟨c, hc, decide_eq_true (Eq.refl c.rowid)⟩
  obtain ⟨c', hc'⟩ := Option.isSome_iff_exists.1 hfound
  obtain ⟨hmem, hrowid⟩ := mem_of_collectionByRowid hc'
  exact hc'.trans (congrArg some (eq_of_mem_collections hmem hc (Or.inl hrowid)))

/-! ### Deleting with `ON DELETE CASCADE` -/

/-- Delete a collection, its targets, the pages of either, and its outlink suggestions. A ranking
configuration stays: the INTEGER key of its row equals no TEXT key. -/
def cascadeCollection (db : Database) (id : Uuid) : Database :=
  let targets := (db.crawlTargets.rows.filter fun t ↦ t.collectionId = id).map CrawlTargetRow.id
  { db with
    collections := db.collections.deleteWhere fun c ↦ c.id = id
    crawlTargets := db.crawlTargets.deleteWhere fun t ↦ t.collectionId = id
    crawledPages := db.crawledPages.deleteWhere fun p ↦
      p.collectionId = id || targets.contains p.crawlTargetId
    outlinkHostSuggestions := db.outlinkHostSuggestions.deleteWhere fun o ↦ o.collectionId = id }

/-- Delete a target and its pages. -/
def cascadeTarget (db : Database) (id : Uuid) : Database :=
  { db with
    crawlTargets := db.crawlTargets.deleteWhere fun t ↦ t.id = id
    crawledPages := db.crawledPages.deleteWhere fun p ↦ p.crawlTargetId = id }

theorem mem_crawledPages_cascadeTarget {db : Database} {id : Uuid} {p : CrawledPageRow} :
    p ∈ (db.cascadeTarget id).crawledPages ↔ p ∈ db.crawledPages ∧ p.crawlTargetId ≠ id := by
  rw [cascadeTarget, Table.mem_deleteWhere, decide_eq_false_iff_not]

theorem mem_crawlTargets_cascadeTarget {db : Database} {id : Uuid} {t : CrawlTargetRow} :
    t ∈ (db.cascadeTarget id).crawlTargets ↔ t ∈ db.crawlTargets ∧ t.id ≠ id := by
  rw [cascadeTarget, Table.mem_deleteWhere, decide_eq_false_iff_not]

theorem mem_collections_cascadeCollection {db : Database} {id : Uuid} {c : CollectionRow} :
    c ∈ (db.cascadeCollection id).collections ↔ c ∈ db.collections ∧ c.id ≠ id := by
  rw [cascadeCollection, Table.mem_deleteWhere, decide_eq_false_iff_not]

theorem mem_crawlTargets_cascadeCollection {db : Database} {id : Uuid} {t : CrawlTargetRow} :
    t ∈ (db.cascadeCollection id).crawlTargets ↔ t ∈ db.crawlTargets ∧ t.collectionId ≠ id := by
  rw [cascadeCollection, Table.mem_deleteWhere, decide_eq_false_iff_not]

theorem mem_crawledPages_cascadeCollection {db : Database} {id : Uuid} {p : CrawledPageRow} :
    p ∈ (db.cascadeCollection id).crawledPages ↔ p ∈ db.crawledPages ∧ p.collectionId ≠ id ∧
      ∀ t ∈ db.crawlTargets, t.collectionId = id → t.id ≠ p.crawlTargetId := by
  rw [cascadeCollection, Table.mem_deleteWhere, Bool.or_eq_false_iff, decide_eq_false_iff_not,
    List.contains_eq_mem, decide_eq_false_iff_not]
  refine and_congr_right fun _ ↦ and_congr_right fun _ ↦ ?_
  simp only [List.mem_map, List.mem_filter, decide_eq_true_eq, not_exists, not_and, and_imp]
  exact Iff.rfl

theorem mem_outlinkHostSuggestions_cascadeCollection {db : Database} {id : Uuid}
    {o : OutlinkHostRow} : o ∈ (db.cascadeCollection id).outlinkHostSuggestions ↔
      o ∈ db.outlinkHostSuggestions ∧ o.collectionId ≠ id := by
  rw [cascadeCollection, Table.mem_deleteWhere, decide_eq_false_iff_not]

theorem ForeignKeys.cascadeTarget {db : Database} (h : db.ForeignKeys) (id : Uuid) :
    (db.cascadeTarget id).ForeignKeys where
  target_collection t ht := h.target_collection t (mem_crawlTargets_cascadeTarget.1 ht).1
  page_collection p hp := h.page_collection p (mem_crawledPages_cascadeTarget.1 hp).1
  page_target p hp := by
    obtain ⟨hmem, hne⟩ := mem_crawledPages_cascadeTarget.1 hp
    obtain ⟨t, ht, hid⟩ := h.page_target p hmem
    exact ⟨t, mem_crawlTargets_cascadeTarget.2 ⟨ht, hid ▸ hne⟩, hid⟩
  host_collection := h.host_collection
  peer_node := h.peer_node

theorem ForeignKeys.cascadeCollection {db : Database} (h : db.ForeignKeys) (id : Uuid) :
    (db.cascadeCollection id).ForeignKeys where
  target_collection t ht := by
    obtain ⟨hmem, hne⟩ := mem_crawlTargets_cascadeCollection.1 ht
    obtain ⟨c, hc, hid⟩ := h.target_collection t hmem
    exact ⟨c, mem_collections_cascadeCollection.2 ⟨hc, hid ▸ hne⟩, hid⟩
  page_collection p hp := by
    obtain ⟨hmem, hne, -⟩ := mem_crawledPages_cascadeCollection.1 hp
    obtain ⟨c, hc, hid⟩ := h.page_collection p hmem
    exact ⟨c, mem_collections_cascadeCollection.2 ⟨hc, hid ▸ hne⟩, hid⟩
  page_target p hp := by
    obtain ⟨hmem, -, htargets⟩ := mem_crawledPages_cascadeCollection.1 hp
    obtain ⟨t, ht, hid⟩ := h.page_target p hmem
    exact ⟨t, mem_crawlTargets_cascadeCollection.2 ⟨ht, fun hc ↦ htargets t ht hc hid⟩, hid⟩
  host_collection o ho := by
    obtain ⟨hmem, hne⟩ := mem_outlinkHostSuggestions_cascadeCollection.1 ho
    obtain ⟨c, hc, hid⟩ := h.host_collection o hmem
    exact ⟨c, mem_collections_cascadeCollection.2 ⟨hc, hid ▸ hne⟩, hid⟩
  peer_node := h.peer_node

end Database

end CommunitySearch
