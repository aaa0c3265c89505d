import CommunitySearch.Db.Collections
import CommunitySearch.Db.CrawlTargets
import CommunitySearch.Engine

/-!
# The admin handlers of collections and crawl targets

A handler is one locked section of the database: it returns the new database and its reply, or an
error, and then nothing has changed. Removing a target also returns the batch of URLs the handler
goes on to send to the indexer, once the lock is released.
-/

namespace CommunitySearch

/-- An error response. -/
structure ApiError where
  status : Nat
  message : String
deriving DecidableEq

/-- A constraint error; the message is SQLite's. -/
def ApiError.sql : ApiError := ⟨500, "SQLite error"⟩

def ApiError.collectionNotFound (id : Int) : ApiError :=
  ⟨404, "collection " ++ toString id ++ " not found"⟩

def ApiError.crawlTargetNotFound (id : Int) : ApiError :=
  ⟨404, "crawl target " ++ toString id ++ " not found"⟩

/-- The requests of the collections endpoint. -/
inductive CollectionAction where
  | create (name description : String)
  | update (id : Int) (name description : String)
  | delete (id : Int)
deriving DecidableEq

/-- The requests of the crawl-targets endpoint. -/
inductive CrawlTargetAction where
  | add (collectionId : Int) (urlPrefix : String) (recrawlIntervalSecs : Int)
  | remove (id : Int)
  | setInterval (id recrawlIntervalSecs : Int)
  | setCrawlDelay (id : Int) (crawlDelaySecs : Option Int)
deriving DecidableEq

/-- `handle_collections`. -/
def handleCollections (db : Database) (ts : String) :
    CollectionAction → Except ApiError (Database × Option CollectionRecord)
  | .create name description =>
    match db.createItem name description ts with
    | some (db', record) => .ok (db', some record)
    | none => .error .sql
  | .update id name description =>
    match db.updateItem id name description ts with
    | some (db', some record) => .ok (db', some record)
    | some (_, none) => .error (.collectionNotFound id)
    | none => .error .sql
  | .delete id =>
    match db.deleteItem id with
    | (db', true) => .ok (db', none)
    | (_, false) => .error (.collectionNotFound id)

/-- What is left to do after a request to the crawl-targets endpoint. -/
structure CrawlTargetReply where
  record : Option CrawlTargetRecord
  deletions : Option DeleteBatch

/-- The batch sent for a target that is removed, unless it has no pages. -/
def removalBatch (db : Database) (rowid : Int) : Option DeleteBatch :=
  (db.targetByRowid rowid).bind fun t ↦
    if (db.listPageUrls rowid).isEmpty then none
    else some ⟨db.listPageUrls rowid, t.id, t.collectionId⟩

/-- `handle_crawl_targets`; `detected` is what `detect_canonical_prefix` found for the prefix of a
target to add. -/
def handleCrawlTargets (db : Database) (ts : String) (detected : Option String) :
    CrawlTargetAction → Except ApiError (Database × CrawlTargetReply)
  | .add collectionId urlPrefix recrawlIntervalSecs =>
    if db.collectionExists collectionId then
      match db.addTarget collectionId (detected.getD urlPrefix) recrawlIntervalSecs ts with
      | some (db', record) => .ok (db', ⟨some record, none⟩)
      | none => .error .sql
    else .error (.collectionNotFound collectionId)
  | .remove id =>
    match db.removeTarget id with
    | (db', true) => .ok (db', ⟨none, removalBatch db id⟩)
    | (_, false) => .error (.crawlTargetNotFound id)
  | .setInterval id recrawlIntervalSecs =>
    match db.setInterval id recrawlIntervalSecs with
    | (db', true) => .ok (db', ⟨none, none⟩)
    | (_, false) => .error (.crawlTargetNotFound id)
  | .setCrawlDelay id crawlDelaySecs =>
    match db.setCrawlDelay id crawlDelaySecs with
    | (db', true) => .ok (db', ⟨none, none⟩)
    | (_, false) => .error (.crawlTargetNotFound id)

variable {db db' : Database}

/-- **What a request to the collections endpoint does** when it succeeds. -/
theorem handleCollections_cases {ts : String} {action : CollectionAction}
    {r : Option CollectionRecord} (h : handleCollections db ts action = .ok (db', r)) :
    (∃ name description record, action = .create name description ∧
        db.createItem name description ts = some (db', record)) ∨
      (∃ id name description record, action = .update id name description ∧
        db.updateItem id name description ts = some (db', some record)) ∨
      ∃ id c, action = .delete id ∧ db.collectionByRowid id = some c ∧
        db' = db.cascadeCollection c.id := by
  unfold handleCollections at h
  cases action with
  | create name description =>
    dsimp only at h
    split at h
    case h_1 db₁ record hc =>
      obtain ⟨rfl, -⟩ := Prod.mk.inj (Except.ok.inj h)
      exact Or.inl ⟨name, description, record, rfl, hc⟩
    case h_2 => cases h
  | update id name description =>
    dsimp only at h
    split at h
    case h_1 db₁ record hu =>
      obtain ⟨rfl, -⟩ := Prod.mk.inj (Except.ok.inj h)
      exact Or.inr (Or.inl ⟨id, name, description, record, rfl, hu⟩)
    case h_2 => cases h
    case h_3 => cases h
  | delete id =>
    dsimp only [Database.deleteItem] at h
    rcases hc : db.collectionByRowid id with - | c
    · rw [hc] at h
      cases h
    · rw [hc] at h
      obtain ⟨rfl, -⟩ := Prod.mk.inj (Except.ok.inj h)
      exact Or.inr (Or.inr ⟨id, c, rfl, hc, rfl⟩)

/-- What a request to the crawl-targets endpoint does when it succeeds, by the request. -/
inductive CrawlTargetChange (db : Database) (ts : String) (detected : Option String) :
    CrawlTargetAction → Database → CrawlTargetReply → Prop
  | added {id secs : Int} {pre : String} {record : CrawlTargetRecord} {db' : Database}
      (h : db.addTarget id (detected.getD pre) secs ts = some (db', record)) :
    CrawlTargetChange db ts detected (.add id pre secs) db' ⟨some record, none⟩
  | removed {id : Int} {t : CrawlTargetRow} (h : db.targetByRowid id = some t) :
    CrawlTargetChange db ts detected (.remove id) (db.cascadeTarget t.id)
      ⟨none, removalBatch db id⟩
  | interval {id secs : Int} :
    CrawlTargetChange db ts detected (.setInterval id secs) (db.setInterval id secs).1 ⟨none, none⟩
  | delay {id : Int} {secs : Option Int} :
    CrawlTargetChange db ts detected (.setCrawlDelay id secs) (db.setCrawlDelay id secs).1
      ⟨none, none⟩

theorem crawlTargetChange_of_ok {ts : String} {detected : Option String}
    {action : CrawlTargetAction} {r : CrawlTargetReply}
    (h : handleCrawlTargets db ts detected action = .ok (db', r)) :
    CrawlTargetChange db ts detected action db' r := by
  unfold handleCrawlTargets at h
  cases action with
  | add id pre secs =>
    dsimp only at h
    split at h
    · split at h
      case h_1 db₁ record ha =>
        obtain ⟨rfl, rfl⟩ := Prod.mk.inj (Except.ok.inj h)
        exact .added ha
      case h_2 => cases h
    · cases h
  | remove id =>
    dsimp only [Database.removeTarget] at h
    rcases ht : db.targetByRowid id with - | t
    · rw [ht] at h
      cases h
    · rw [ht] at h
      obtain ⟨rfl, rfl⟩ := Prod.mk.inj (Except.ok.inj h)
      exact .removed ht
  | setInterval id secs =>
    dsimp only at h
    split at h
    case h_1 db₁ hset =>
      obtain ⟨rfl, rfl⟩ := Prod.mk.inj (Except.ok.inj h)
      obtain ⟨rfl, -⟩ := Prod.mk.inj hset
      exact .interval
    case h_2 => cases h
  | setCrawlDelay id secs =>
    dsimp only at h
    split at h
    case h_1 db₁ hset =>
      obtain ⟨rfl, rfl⟩ := Prod.mk.inj (Except.ok.inj h)
      obtain ⟨rfl, -⟩ := Prod.mk.inj hset
      exact .delay
    case h_2 => cases h

/-- **What a request to the crawl-targets endpoint does** when it succeeds. -/
theorem handleCrawlTargets_cases {ts : String} {detected : Option String}
    {action : CrawlTargetAction} {r : CrawlTargetReply}
    (h : handleCrawlTargets db ts detected action = .ok (db', r)) :
    (r.deletions = none ∧ ∃ id pre secs record, db.addTarget id pre secs ts =
        some (db', record)) ∨
      (∃ id t, action = .remove id ∧ db.targetByRowid id = some t ∧
        r.deletions = removalBatch db id ∧ db' = db.cascadeTarget t.id) ∨
      (r.deletions = none ∧ db.Retunes db') := by
  cases crawlTargetChange_of_ok h with
  | @added id secs pre record db' ha => exact Or.inl ⟨rfl, id, _, secs, record, ha⟩
  | @removed id t ht => exact Or.inr (Or.inl ⟨id, t, rfl, ht, rfl, rfl⟩)
  | @interval id secs => exact Or.inr (Or.inr ⟨rfl, Database.retunes_setInterval id secs⟩)
  | @delay id secs => exact Or.inr (Or.inr ⟨rfl, Database.retunes_setCrawlDelay id secs⟩)

/-- The batch of a removal lists the pages of the target. -/
theorem mem_removalBatch {rowid : Int} {t : CrawlTargetRow} (ht : db.targetByRowid rowid = some t)
    {p : CrawledPageRow} (hp : p ∈ db.crawledPages) (hpt : p.crawlTargetId = t.id) :
    ∃ batch, removalBatch db rowid = some batch ∧ p.url ∈ batch.urls := by
  have hmem : p.url ∈ db.listPageUrls rowid := Database.mem_listPageUrls.2 ⟨t, ht, p, hp, hpt, rfl⟩
  refine ⟨⟨db.listPageUrls rowid, t.id, t.collectionId⟩, ?_, hmem⟩
  rw [removalBatch, ht, Option.bind_some, if_neg]
  rw [List.isEmpty_iff]
  exact List.ne_nil_of_mem hmem

end CommunitySearch
