import CommunitySearch.Api.Admin
import CommunitySearch.Crawler.Effects
import CommunitySearch.Foundation.Sql

/-!
# Importing an envelope

`applyEnvelope` is the transaction of an import, a program over the connection (`Foundation.Sql`):
with foreign keys switched off, it skips the collections whose names are taken and creates the
others with fresh identifiers, then the peers, then the subscriptions whose two ends exist, and
returns the documents to hand to the indexer. An error anywhere rolls everything back. What it
commits when nothing but a constraint can fail is `committedImport`, and the system of the modules
below takes its steps with that.

Once the lock is released, `sendImport` sends the documents, so an import is a task like a crawl.
-/

namespace CommunitySearch

/-! ### The wire format -/

/-- A page of an exported target. -/
structure ExportedCrawledPage where
  url : String
  etag : Option String
  lastModified : Option String
  contentHash : Option String
  lastStatus : Option Int
  lastCrawledAt : Int
  indexedContentHash : Option String
deriving DecidableEq

/-- A target of an exported collection. -/
structure ExportedCrawlTarget where
  urlPrefix : String
  recrawlIntervalS : Int
  recrawlIntervalSecs : Int
  enabled : Int
  crawlDelaySecs : Option Int
  createdAt : String
  crawledPages : List ExportedCrawledPage := []
deriving DecidableEq

/-- The ranking configuration of an exported collection. -/
structure ExportedRankingConfig where
  freshnessHalfLifeDays : Rat
  sourceWeightsJson : JsonColumn (List (String × Rat))
  domainBoostsJson : JsonColumn (List (String × Rat))
  configJson : Option (JsonColumn JsonObject)
deriving DecidableEq

/-- An exported document. -/
structure ExportedDocument where
  url : String
  title : String
  body : String
  indexedAt : Int
deriving DecidableEq

/-- An exported outlink suggestion. -/
structure ExportedOutlinkHostSuggestion where
  host : String
  linkCount : Int
  examplesJson : JsonColumn (List OutlinkExample)
  firstSeenAt : Int
  lastSeenAt : Int
  status : String
deriving DecidableEq

/-- An exported collection. -/
structure ExportedCollection where
  name : String
  description : String
  createdAt : String
  updatedAt : String
  crawlTargets : List ExportedCrawlTarget := []
  rankingConfig : Option ExportedRankingConfig := none
  documents : List ExportedDocument := []
  outlinkHostSuggestions : List ExportedOutlinkHostSuggestion := []
deriving DecidableEq

/-- An exported node peer. -/
structure ExportedNodePeer where
  url : String
  name : Option String
  enabled : Int
deriving DecidableEq

/-- An exported subscription. -/
structure ExportedCollectionPeer where
  localCollection : String
  nodePeerUrl : String
  remoteCollection : String
  sourceWeight : Float
  enabled : Int

structure ExportEnvelope where
  formatVersion : Nat
  exportedAt : String
  selfUrl : String
  collections : List ExportedCollection
  nodePeers : List ExportedNodePeer := []
  collectionPeers : List ExportedCollectionPeer := []

/-- The response to an import: what got applied, and what was skipped. -/
structure ImportReport where
  collectionsImported : Nat := 0
  collectionsSkipped : Nat := 0
  crawlTargetsImported : Nat := 0
  crawledPagesImported : Nat := 0
  documentsQueued : Nat := 0
  outlinkHostSuggestionsImported : Nat := 0
  nodePeersImported : Nat := 0
  nodePeersSkipped : Nat := 0
  collectionPeersImported : Nat := 0
  collectionPeersSkipped : Nat := 0
deriving DecidableEq

def FORMAT_VERSION : Nat := 1

/-! ### Rows and statements

A statement that is executed while foreign keys are enforced fails when a parent is missing. -/

namespace Database

/-- `Uuid::new_v4`. -/
def drawUuid (db : Database) : Database × Nat :=
  ({ db with nextUuid := db.nextUuid + 1 }, db.nextUuid)

/-- The row inserted for an exported collection. -/
def importedCollection (db : Database) (id : Uuid) (ts : String) (c : ExportedCollection) :
    CollectionRow where
  rowid := nextRowid (db.collections.rows.map CollectionRow.rowid)
  id := id
  name := c.name
  description := c.description
  createdAt := if c.createdAt.isEmpty then ts else c.createdAt
  updatedAt := if c.updatedAt.isEmpty then ts else c.updatedAt

/-- The row inserted for an exported target. -/
def importedTarget (db : Database) (collection id : Uuid) (ts : String) (t : ExportedCrawlTarget) :
    CrawlTargetRow where
  rowid := nextRowid (db.crawlTargets.rows.map CrawlTargetRow.rowid)
  id := id
  collectionId := collection
  urlPrefix := t.urlPrefix
  recrawlIntervalS := t.recrawlIntervalS
  recrawlIntervalSecs := t.recrawlIntervalSecs
  lastCrawledAt := none
  enabled := t.enabled
  createdAt := if t.createdAt.isEmpty then ts else t.createdAt
  crawlDelaySecs := t.crawlDelaySecs

/-- The row inserted for an exported page; it is not marked as indexed. -/
def importedPage (db : Database) (collection target : Uuid) (p : ExportedCrawledPage) :
    CrawledPageRow where
  id := db.nextPageId
  collectionId := collection
  crawlTargetId := target
  url := p.url
  etag := p.etag
  lastModified := p.lastModified
  contentHash := p.contentHash
  lastStatus := p.lastStatus
  lastCrawledAt := p.lastCrawledAt
  indexedContentHash := none

/-- The row inserted for an exported suggestion. -/
def importedOutlinkHost (db : Database) (collection id : Uuid)
    (o : ExportedOutlinkHostSuggestion) : OutlinkHostRow where
  rowid := nextRowid (db.outlinkHostSuggestions.rows.map OutlinkHostRow.rowid)
  id := id
  collectionId := collection
  host := o.host
  linkCount := o.linkCount
  examplesJson := o.examplesJson
  firstSeenAt := o.firstSeenAt
  lastSeenAt := o.lastSeenAt
  status := o.status
  promotedTargetId := none

/-- The row inserted for an exported node peer. -/
def importedNodePeer (db : Database) (p : ExportedNodePeer) : NodePeerRow where
  id := nextRowid (db.nodePeers.rows.map NodePeerRow.id)
  url := p.url
  name := p.name
  enabled := p.enabled
  consecutiveFailures := 0
  lastResponseMs := none
  lastCheckedAt := none
  disabledAt := none

/-- The row inserted for an exported subscription. -/
def importedCollectionPeer (db : Database) (nodePeerId : Int) (cp : ExportedCollectionPeer) :
    CollectionPeerRow where
  id := nextRowid (db.collectionPeers.rows.map CollectionPeerRow.id)
  localCollection := cp.localCollection
  nodePeerId := nodePeerId
  remoteCollection := cp.remoteCollection
  sourceWeight := cp.sourceWeight
  enabled := cp.enabled

def insertCollection (id : Uuid) (ts : String) (c : ExportedCollection) :
    Sql.Statement Database := fun _ db ↦
  (db.collections.insert (db.importedCollection id ts c)).map fun cs ↦
    ({ db with collections := cs }, 1)

def insertTarget (collection id : Uuid) (ts : String) (t : ExportedCrawlTarget) :
    Sql.Statement Database := fun enforced db ↦
  if enforced ∧ ¬ db.HasCollection collection then none
  else (db.crawlTargets.insert (db.importedTarget collection id ts t)).map fun targets ↦
    ({ db with crawlTargets := targets }, 1)

def insertPage (collection target : Uuid) (p : ExportedCrawledPage) :
    Sql.Statement Database := fun enforced db ↦
  if enforced ∧ ¬ (db.HasCollection collection ∧ db.HasTarget target) then none
  else (db.crawledPages.insert (db.importedPage collection target p)).map fun pages ↦
    ({ db with crawledPages := pages, nextPageId := db.nextPageId + 1 }, 1)

/-- An INTEGER key refers to no row of a table with a TEXT key. -/
def insertRankingConfig (rowid : Int) (rc : ExportedRankingConfig) :
    Sql.Statement Database := fun enforced db ↦
  if enforced then none
  else (db.rankingConfig.insert ⟨rowid, rc.freshnessHalfLifeDays, rc.sourceWeightsJson,
      rc.domainBoostsJson, rc.configJson⟩).map fun rows ↦ ({ db with rankingConfig := rows }, 1)

def insertOutlinkHost (collection id : Uuid) (o : ExportedOutlinkHostSuggestion) :
    Sql.Statement Database := fun enforced db ↦
  if enforced ∧ ¬ db.HasCollection collection then none
  else (db.outlinkHostSuggestions.insert (db.importedOutlinkHost collection id o)).map fun hosts ↦
    ({ db with outlinkHostSuggestions := hosts }, 1)

def insertPeer (p : ExportedNodePeer) : Sql.Statement Database := fun _ db ↦
  (db.nodePeers.insert (db.importedNodePeer p)).map fun peers ↦
    ({ db with nodePeers := peers }, 1)

/-- `INSERT OR IGNORE`. -/
def insertOrIgnoreCollectionPeer (nodePeerId : Int) (cp : ExportedCollectionPeer) :
    Sql.Statement Database := fun enforced db ↦
  if enforced ∧ ¬ db.HasNode nodePeerId then none
  else match db.collectionPeers.insert (db.importedCollectionPeer nodePeerId cp) with
    | some rows => some ({ db with collectionPeers := rows }, 1)
    | none => some (db, 0)

/-- `SELECT rowid FROM collections WHERE id = ?1`. -/
def rowidOf (id : Uuid) (db : Database) : Option Int :=
  (db.collections.rows.find? fun c ↦ c.id = id).map CollectionRow.rowid

/-- `SELECT id FROM node_peers WHERE url = ?1`. -/
def nodePeerIdOf (url : String) (db : Database) : Option Int :=
  (db.nodePeers.rows.find? fun np ↦ np.url = url).map NodePeerRow.id

/-- `existing_collection_names`. -/
def collectionNames (db : Database) : List String := db.collections.rows.map CollectionRow.name

/-- `existing_node_peer_urls`. -/
def nodePeerUrls (db : Database) : List String := db.nodePeers.rows.map NodePeerRow.url

end Database

/-! ### The transaction -/

/-- A piece of an import. -/
abbrev ImportSql (α : Type) := Prog (Sql.Sig Database) (Except Sql.Error α)

def importPage (collection target : Uuid) (report : ImportReport) (p : ExportedCrawledPage) :
    ImportSql ImportReport :=
  (Sql.execute (Database.insertPage collection target p)).attempt fun _ ↦
    .ret (.ok { report with crawledPagesImported := report.crawledPagesImported + 1 })

/-- A target and its pages. -/
def importTarget (collection : Uuid) (ts : String) (report : ImportReport)
    (t : ExportedCrawlTarget) : ImportSql ImportReport :=
  (Sql.draw Database.drawUuid).attempt fun serial ↦
    (Sql.execute (Database.insertTarget collection ⟨serial⟩ ts t)).attempt fun _ ↦
      Sql.loop (importPage collection ⟨serial⟩)
        { report with crawlTargetsImported := report.crawlTargetsImported + 1 } t.crawledPages

def importRankingConfig (rowid : Int) : Option ExportedRankingConfig → ImportSql Unit
  | some rc =>
    (Sql.execute (Database.insertRankingConfig rowid rc)).attempt fun _ ↦ .ret (.ok ())
  | none => .ret (.ok ())

def importOutlinkHost (collection : Uuid) (report : ImportReport)
    (o : ExportedOutlinkHostSuggestion) : ImportSql ImportReport :=
  (Sql.draw Database.drawUuid).attempt fun serial ↦
    (Sql.execute (Database.insertOutlinkHost collection ⟨serial⟩ o)).attempt fun _ ↦
      .ret (.ok { report with
        outlinkHostSuggestionsImported := report.outlinkHostSuggestionsImported + 1 })

variable (X : Crates)

/-- `doc_content_hash`: the digest of the body alone. -/
def ExportedDocument.hash (d : ExportedDocument) : String :=
  X.sha256 d.body

/-- The job for an exported document. -/
def ExportedDocument.job (collection : Uuid) (name : String) (d : ExportedDocument) : IndexJob where
  collectionName := name
  url := d.url
  title := d.title
  body := d.body
  indexedAt := d.indexedAt
  collectionId := collection
  contentHash := d.hash X
  crawlTargetId := none

/-- What the loop over the collections keeps. -/
structure ImportProgress where
  report : ImportReport
  jobs : List IndexJob
  knownCollectionNames : List String

/-- A collection with all that is nested under it. -/
def importCollection (ts : String) (acc : ImportProgress) (c : ExportedCollection) :
    ImportSql ImportProgress :=
  (Sql.draw Database.drawUuid).attempt fun serial ↦
    (Sql.execute (Database.insertCollection ⟨serial⟩ ts c)).attempt fun _ ↦
      (Sql.queryRow (Database.rowidOf ⟨serial⟩)).attempt fun rowid ↦
        (Sql.loop (importTarget ⟨serial⟩ ts)
          { acc.report with collectionsImported := acc.report.collectionsImported + 1 }
          c.crawlTargets).attempt fun report ↦
          (importRankingConfig rowid c.rankingConfig).attempt fun _ ↦
            (Sql.loop (importOutlinkHost ⟨serial⟩) report c.outlinkHostSuggestions).attempt
              fun report ↦ .ret (.ok
                { report :=
                    { report with documentsQueued := report.documentsQueued + c.documents.length }
                  jobs := acc.jobs ++ c.documents.map (ExportedDocument.job X ⟨serial⟩ c.name)
                  knownCollectionNames := c.name :: acc.knownCollectionNames })

/-- One round of the loop over the collections. -/
def applyCollection (ts : String) (acc : ImportProgress) (c : ExportedCollection) :
    ImportSql ImportProgress :=
  if c.name ∈ acc.knownCollectionNames then
    .ret (.ok { acc with
      report := { acc.report with collectionsSkipped := acc.report.collectionsSkipped + 1 } })
  else importCollection X ts acc c

/-- One round of the loop over the node peers; the accumulator has the URLs that are known. -/
def applyNodePeer (acc : ImportReport × List String) (p : ExportedNodePeer) :
    ImportSql (ImportReport × List String) :=
  if p.url ∈ acc.2 then
    .ret (.ok ({ acc.1 with nodePeersSkipped := acc.1.nodePeersSkipped + 1 }, acc.2))
  else (Sql.execute (Database.insertPeer p)).attempt fun _ ↦
    .ret (.ok ({ acc.1 with nodePeersImported := acc.1.nodePeersImported + 1 }, p.url :: acc.2))

/-- One round of the loop over the subscriptions. -/
def applyCollectionPeer (knownCollectionNames knownPeerUrls : List String) (report : ImportReport)
    (cp : ExportedCollectionPeer) : ImportSql ImportReport :=
  if cp.localCollection ∉ knownCollectionNames ∨ cp.nodePeerUrl ∉ knownPeerUrls then
    .ret (.ok { report with collectionPeersSkipped := report.collectionPeersSkipped + 1 })
  else (Sql.queryRow (Database.nodePeerIdOf cp.nodePeerUrl)).attempt fun nodePeerId ↦
    (Sql.execute (Database.insertOrIgnoreCollectionPeer nodePeerId cp)).attempt fun affected ↦
      .ret (.ok (if affected = 1 then
        { report with collectionPeersImported := report.collectionPeersImported + 1 }
      else { report with collectionPeersSkipped := report.collectionPeersSkipped + 1 }))

/-- What `apply_envelope_inner` does inside its transaction. -/
def envelopeRows (ts : String) (env : ExportEnvelope) :
    ImportSql (ImportReport × List IndexJob) :=
  (Sql.query Database.collectionNames).attempt fun names ↦
    (Sql.loop (applyCollection X ts) ⟨{}, [], names⟩ env.collections).attempt fun acc ↦
      (Sql.query Database.nodePeerUrls).attempt fun urls ↦
        (Sql.loop applyNodePeer (acc.report, urls) env.nodePeers).attempt fun peers ↦
          (Sql.loop (applyCollectionPeer acc.knownCollectionNames peers.2) peers.1
            env.collectionPeers).attempt fun report ↦ .ret (.ok (report, acc.jobs))

/-- `apply_envelope_inner`. -/
def applyEnvelopeInner (ts : String) (env : ExportEnvelope) :
    ImportSql (ImportReport × List IndexJob) :=
  Sql.transaction (envelopeRows X ts env)

/-- `apply_envelope`. -/
def applyEnvelope (ts : String) (env : ExportEnvelope) : ImportSql (ImportReport × List IndexJob) :=
  Sql.withForeignKeysOff (applyEnvelopeInner X ts env)

/-- What an import commits, when nothing but a constraint can fail. -/
def committedImport (ts : String) (env : ExportEnvelope) (db : Database) :
    Option (Database × ImportReport × List IndexJob) :=
  Sql.exec false (envelopeRows X ts env) db

/-! ### The handler -/

/-- `handle_import` up to the release of the lock: the new database, the report and the jobs to
send. The body decodes to an envelope, or to the text of an error. -/
def acceptImport (db : Database) (ts : String) :
    Except String ExportEnvelope → Except ApiError (Database × ImportReport × List IndexJob)
  | .error message => .error ⟨400, message⟩
  | .ok env =>
    if env.formatVersion = FORMAT_VERSION then
      match committedImport X ts env db with
      | some r => .ok r
      | none => .error .sql
    else .error ⟨400, "unsupported format_version " ++ toString env.formatVersion ++
      ": this build understands " ++ toString FORMAT_VERSION⟩

/-- The rest of `handle_import`: hand the documents to the indexer, each counted before it is
sent. -/
def sendImport (report : ImportReport) : List IndexJob → Crawl (Except ApiError ImportReport)
  | [] => .ret (.ok report)
  | job :: jobs =>
    .op (.inflightAdd 1) fun _ ↦
      .op (.send job) fun sent ↦
        if sent then sendImport report jobs
        else .op (.inflightAdd (-1)) fun _ ↦
          .ret (.error ⟨500, "indexer channel closed mid-import: channel closed"⟩)

end CommunitySearch
