import CommunitySearch.Db.Schema

/-!
# Crawl targets

The operations behind the admin crawl-targets endpoint and the scheduler's choice of the targets
that are due.
-/

namespace CommunitySearch

/-- The representation of a target returned when it is added. -/
structure CrawlTargetRecord where
  id : Int
  collectionId : Int
  urlPrefix : String
  recrawlIntervalSecs : Int
deriving DecidableEq

/-- A target due for crawling, with the name its collection has now. -/
structure DueTarget where
  id : Uuid
  collectionId : Uuid
  collectionName : String
  urlPrefix : String
  recrawlIntervalSecs : Int
  crawlDelaySecs : Option Int
deriving DecidableEq

/-- A row of the admin listing of targets. -/
structure CrawlTargetListItem where
  id : Int
  collectionId : Int
  collectionName : String
  urlPrefix : String
  recrawlIntervalSecs : Int
  enabled : Bool
  lastCrawledAt : Option Int
  createdAt : String
  /-- Some page of the target has `last_status = 429`. -/
  rateLimited : Bool
  /-- The pages of the target whose last status is an error other than 429. -/
  errorPagesCount : Nat
  /-- The pages of the target that have been fetched. -/
  indexedPagesCount : Nat
  crawlDelaySecs : Option Int
deriving DecidableEq

/-- `ORDER BY c.name, ct.created_at`. -/
def CrawlTargetListItem.le (a b : CrawlTargetListItem) : Bool :=
  a.collectionName < b.collectionName ||
    a.collectionName == b.collectionName && a.createdAt ≤ b.createdAt

namespace Database

/-- The row of the listing for a target of the collection. -/
def listItem (db : Database) (c : CollectionRow) (t : CrawlTargetRow) : CrawlTargetListItem :=
  let pages := db.crawledPages.rows.filter fun p ↦ p.crawlTargetId = t.id
  { id := t.rowid
    collectionId := c.rowid
    collectionName := c.name
    urlPrefix := t.urlPrefix
    recrawlIntervalSecs := t.recrawlIntervalSecs
    enabled := t.enabled ≠ 0
    lastCrawledAt := t.lastCrawledAt
    createdAt := t.createdAt
    rateLimited := pages.any fun p ↦ p.lastStatus = some 429
    errorPagesCount := pages.countP fun p ↦
      p.lastStatus.any fun status ↦ 400 ≤ status ∧ status ≠ 429
    indexedPagesCount := pages.countP fun p ↦ p.contentHash.isSome
    crawlDelaySecs := t.crawlDelaySecs }

/-- `list`: the targets, joined to their collections. -/
def listTargets (db : Database) : List CrawlTargetListItem :=
  (db.crawlTargets.rows.flatMap fun t ↦
    (db.collections.rows.filter fun c ↦ c.id = t.collectionId).map fun c ↦
      db.listItem c t).mergeSort CrawlTargetListItem.le

/-- The row `add` inserts; both interval columns get the same value. -/
def newTarget (db : Database) (collection : Uuid) (urlPrefix : String)
    (recrawlIntervalSecs : Int) (ts : String) : CrawlTargetRow where
  rowid := nextRowid (db.crawlTargets.rows.map CrawlTargetRow.rowid)
  id := ⟨db.nextUuid⟩
  collectionId := collection
  urlPrefix := urlPrefix
  recrawlIntervalS := recrawlIntervalSecs
  recrawlIntervalSecs := recrawlIntervalSecs
  lastCrawledAt := none
  enabled := 1
  createdAt := ts
  crawlDelaySecs := none

/-- `add`; `none` is an SQL error: the collection does not exist, or the prefix is taken. -/
def addTarget (db : Database) (collectionRowid : Int) (urlPrefix : String)
    (recrawlIntervalSecs : Int) (ts : String) : Option (Database × CrawlTargetRecord) :=
  (db.collectionByRowid collectionRowid).bind fun c ↦
    let row := db.newTarget c.id urlPrefix recrawlIntervalSecs ts
    (db.crawlTargets.insert row).map fun targets ↦
      ({ db with crawlTargets := targets, nextUuid := db.nextUuid + 1 },
        ⟨row.rowid, collectionRowid, urlPrefix, recrawlIntervalSecs⟩)

/-- `list_page_urls`: the URLs of the pages of a target. -/
def listPageUrls (db : Database) (rowid : Int) : List String :=
  match db.targetByRowid rowid with
  | some t => (db.crawledPages.rows.filter fun p ↦ p.crawlTargetId = t.id).map CrawledPageRow.url
  | none => []

/-- `remove`: whether a row was removed. The index is not touched here. -/
def removeTarget (db : Database) (rowid : Int) : Database × Bool :=
  match db.targetByRowid rowid with
  | some t => (db.cascadeTarget t.id, true)
  | none => (db, false)

/-- `list_due_targets`. -/
def listDueTargets (db : Database) (now : Int) : List DueTarget :=
  db.crawlTargets.rows.filterMap fun t ↦
    if t.enabled = 1 ∧ (t.lastCrawledAt.all fun last ↦ last + t.recrawlIntervalS ≤ now) then
      (db.collections.rows.find? fun c ↦ c.id = t.collectionId).map fun c ↦
        { id := t.id, collectionId := t.collectionId, collectionName := c.name
          urlPrefix := t.urlPrefix, recrawlIntervalSecs := t.recrawlIntervalS
          crawlDelaySecs := t.crawlDelaySecs }
    else none

/-- The statement that ends a crawl: `UPDATE crawl_targets SET last_crawled_at`. -/
def setLastCrawledAt (db : Database) (id : Uuid) (now : Int) : Database :=
  { db with
    crawlTargets := db.crawlTargets.modify
      (fun t ↦ if t.id = id then { t with lastCrawledAt := some now } else t)
      (fun a b h ↦ by split at h <;> split at h <;> exact h) }

/-- `set_interval`: whether the target exists. -/
def setInterval (db : Database) (rowid secs : Int) : Database × Bool :=
  ({ db with
      crawlTargets := db.crawlTargets.modify
        (fun t ↦ if t.rowid = rowid then
          { t with recrawlIntervalSecs := secs, recrawlIntervalS := secs } else t)
        (fun a b h ↦ by split at h <;> split at h <;> exact h) },
    (db.targetByRowid rowid).isSome)

/-- `set_crawl_delay`: whether the target exists. -/
def setCrawlDelay (db : Database) (rowid : Int) (secs : Option Int) : Database × Bool :=
  ({ db with
      crawlTargets := db.crawlTargets.modify
        (fun t ↦ if t.rowid = rowid then { t with crawlDelaySecs := secs } else t)
        (fun a b h ↦ by split at h <;> split at h <;> exact h) },
    (db.targetByRowid rowid).isSome)

/-- Only settings of targets differ. -/
structure Retunes (db db' : Database) : Prop where
  eq : ∃ targets, db' = { db with crawlTargets := targets }
  of_mem : ∀ t' ∈ db'.crawlTargets, ∃ t ∈ db.crawlTargets,
    t.id = t'.id ∧ t.collectionId = t'.collectionId
  exists_mem : ∀ t ∈ db.crawlTargets, ∃ t' ∈ db'.crawlTargets, t'.id = t.id

/-! ### What the operations leave -/

variable {db db' : Database}

theorem mem_listTargets {item : CrawlTargetListItem} :
    item ∈ db.listTargets ↔ ∃ t ∈ db.crawlTargets, ∃ c ∈ db.collections,
      c.id = t.collectionId ∧ db.listItem c t = item := by
  rw [listTargets, List.mem_mergeSort, List.mem_flatMap]
  simp only [List.mem_map, List.mem_filter, decide_eq_true_eq, and_assoc]
  exact Iff.rfl

/-- **The targets that are due**, each with the collection it is in. -/
theorem mem_listDueTargets {now : Int} {d : DueTarget} :
    d ∈ db.listDueTargets now ↔ ∃ t ∈ db.crawlTargets,
      (t.enabled = 1 ∧ (t.lastCrawledAt.all fun last ↦ last + t.recrawlIntervalS ≤ now) = true) ∧
      ∃ c, db.collections.rows.find? (fun c ↦ c.id = t.collectionId) = some c ∧
        d = ⟨t.id, t.collectionId, c.name, t.urlPrefix, t.recrawlIntervalS, t.crawlDelaySecs⟩ := by
  rw [listDueTargets, List.mem_filterMap]
  refine exists_congr fun t ↦ and_congr_right fun _ ↦ ?_
  split
  case isTrue hdue =>
    rw [Option.map_eq_some_iff, and_iff_right hdue]
    exact exists_congr fun c ↦ and_congr_right fun _ ↦ eq_comm
  case isFalse hdue => exact iff_of_false (Option.some_ne_none d).symm fun h ↦ hdue h.1

/-- **The flag of the listing**: a page of the target has the status 429. -/
theorem rateLimited_listItem {c : CollectionRow} {t : CrawlTargetRow} :
    (db.listItem c t).rateLimited = true ↔
      ∃ p ∈ db.crawledPages, p.crawlTargetId = t.id ∧ p.lastStatus = some 429 := by
  rw [listItem, List.any_eq_true]
  simp only [List.mem_filter, decide_eq_true_eq, and_assoc]
  exact Iff.rfl

theorem addTarget_eq {rowid : Int} {pre : String} {secs : Int} {ts : String}
    {r : CrawlTargetRecord} (h : db.addTarget rowid pre secs ts = some (db', r)) :
    ∃ c ∈ db.collections, ∃ targets, db.crawlTargets.insert (db.newTarget c.id pre secs ts) =
      some targets ∧ db' = { db with crawlTargets := targets, nextUuid := db.nextUuid + 1 } := by
  obtain ⟨c, hc, hrest⟩ := Option.bind_eq_some_iff.1 h
  obtain ⟨targets, ht, he⟩ := Option.map_eq_some_iff.1 hrest
  exact ⟨c, (mem_of_collectionByRowid hc).1, targets, ht, (Prod.mk.inj he).1.symm⟩

theorem mem_listPageUrls {rowid : Int} {u : String} :
    u ∈ db.listPageUrls rowid ↔ ∃ t, db.targetByRowid rowid = some t ∧
      ∃ p ∈ db.crawledPages, p.crawlTargetId = t.id ∧ p.url = u := by
  rw [listPageUrls]
  rcases db.targetByRowid rowid with - | t
  · simp
  · simp only [List.mem_map, List.mem_filter, decide_eq_true_eq, Option.some.injEq,
      exists_eq_left', and_assoc]
    exact Iff.rfl

theorem retunes_modify {f : CrawlTargetRow → CrawlTargetRow}
    {hf : ∀ a b, (f a).Clash (f b) → a.Clash b}
    (hkey : ∀ t, (f t).id = t.id ∧ (f t).collectionId = t.collectionId) :
    db.Retunes { db with crawlTargets := db.crawlTargets.modify f hf } where
  eq := ⟨_, rfl⟩
  of_mem t' ht' := by
    obtain ⟨t, ht, rfl⟩ := List.mem_map.1 ht'
    exact ⟨t, ht, (hkey t).1.symm, (hkey t).2.symm⟩
  exists_mem t ht := ⟨f t, List.mem_map_of_mem ht, (hkey t).1⟩

theorem retunes_setLastCrawledAt (id : Uuid) (now : Int) :
    db.Retunes (db.setLastCrawledAt id now) :=
  retunes_modify fun t ↦ by split <;> exact ⟨rfl, rfl⟩

theorem retunes_setInterval (rowid secs : Int) : db.Retunes (db.setInterval rowid secs).1 :=
  retunes_modify fun t ↦ by split <;> exact ⟨rfl, rfl⟩

theorem retunes_setCrawlDelay (rowid : Int) (secs : Option Int) :
    db.Retunes (db.setCrawlDelay rowid secs).1 :=
  retunes_modify fun t ↦ by split <;> exact ⟨rfl, rfl⟩

theorem Retunes.hasTarget_iff (h : db.Retunes db') {id : Uuid} :
    db'.HasTarget id ↔ db.HasTarget id := by
  constructor
  · rintro ⟨t', ht', rfl⟩
    obtain ⟨t, ht, hid, -⟩ := h.of_mem t' ht'
    exact ⟨t, ht, hid⟩
  · rintro ⟨t, ht, rfl⟩
    exact h.exists_mem t ht

theorem ForeignKeys.addTarget (hdb : db.ForeignKeys) {rowid : Int} {pre : String} {secs : Int}
    {ts : String} {r : CrawlTargetRecord} (h : db.addTarget rowid pre secs ts = some (db', r)) :
    db'.ForeignKeys := by
  obtain ⟨c, hc, targets, hins, rfl⟩ := addTarget_eq h
  constructor
  · intro t ht
    rcases (Table.mem_of_insert hins).1 ht with hold | rfl
    · exact hdb.target_collection t hold
    · exact ⟨c, hc, rfl⟩
  · exact hdb.page_collection
  · intro p hp
    obtain ⟨t, ht, hid⟩ := hdb.page_target p hp
    exact ⟨t, (Table.mem_of_insert hins).2 (Or.inl ht), hid⟩
  · exact hdb.host_collection
  · exact hdb.peer_node

theorem ForeignKeys.removeTarget (hdb : db.ForeignKeys) (rowid : Int) :
    (db.removeTarget rowid).1.ForeignKeys := by
  rw [Database.removeTarget]
  split
  · exact hdb.cascadeTarget _
  · exact hdb

theorem ForeignKeys.retunes (hdb : db.ForeignKeys) (h : db.Retunes db') : db'.ForeignKeys := by
  have hof := h.of_mem
  have hexists := h.exists_mem
  obtain ⟨targets, rfl⟩ := h.eq
  constructor
  · intro t' ht'
    obtain ⟨t, ht, -, hcol⟩ := hof t' ht'
    exact hcol ▸ hdb.target_collection t ht
  · exact hdb.page_collection
  · intro p hp
    obtain ⟨t, ht, hid⟩ := hdb.page_target p hp
    obtain ⟨t', ht', hid'⟩ := hexists t ht
    exact ⟨t', ht', hid'.trans hid⟩
  · exact hdb.host_collection
  · exact hdb.peer_node

end Database

end CommunitySearch
