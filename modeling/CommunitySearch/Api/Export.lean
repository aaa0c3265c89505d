import CommunitySearch.Api.ExportImport
import CommunitySearch.Db.RankingConfig
import CommunitySearch.Foundation.OrderBy
import Mathlib.Data.String.Basic

/-!
# Exporting an envelope

`buildEnvelope` reads the tables and the committed documents into the format that `applyEnvelope`
takes. Collections, targets, suggestions and node peers are listed by their names, which the tables
keep apart; the pages of a target are listed by their ids, oldest first; documents are grouped by
the collection name they were indexed under. Nothing orders the documents of a collection, nor the
subscriptions of a collection to one node, so the lists the index and the join return are arguments
of `buildEnvelope`.

A text is ordered by its characters, as SQLite orders it by its bytes in UTF-8.
-/

namespace CommunitySearch

def CrawledPageRow.exported (p : CrawledPageRow) : ExportedCrawledPage where
  url := p.url
  etag := p.etag
  lastModified := p.lastModified
  contentHash := p.contentHash
  lastStatus := p.lastStatus
  lastCrawledAt := p.lastCrawledAt
  indexedContentHash := p.indexedContentHash

/-- A target without its pages. -/
def CrawlTargetRow.exported (t : CrawlTargetRow) : ExportedCrawlTarget where
  urlPrefix := t.urlPrefix
  recrawlIntervalS := t.recrawlIntervalS
  recrawlIntervalSecs := t.recrawlIntervalSecs
  enabled := t.enabled
  crawlDelaySecs := t.crawlDelaySecs
  createdAt := t.createdAt

def RankingConfigRow.exported (r : RankingConfigRow) : ExportedRankingConfig where
  freshnessHalfLifeDays := r.freshnessHalfLifeDays
  sourceWeightsJson := r.sourceWeightsJson
  domainBoostsJson := r.domainBoostsJson
  configJson := r.configJson

def OutlinkHostRow.exported (o : OutlinkHostRow) : ExportedOutlinkHostSuggestion where
  host := o.host
  linkCount := o.linkCount
  examplesJson := o.examplesJson
  firstSeenAt := o.firstSeenAt
  lastSeenAt := o.lastSeenAt
  status := o.status

def NodePeerRow.exported (np : NodePeerRow) : ExportedNodePeer where
  url := np.url
  name := np.name
  enabled := np.enabled

/-- A subscription joined to its node. -/
def CollectionPeerRow.exported (cp : CollectionPeerRow) (np : NodePeerRow) :
    ExportedCollectionPeer where
  localCollection := cp.localCollection
  nodePeerUrl := np.url
  remoteCollection := cp.remoteCollection
  sourceWeight := cp.sourceWeight
  enabled := cp.enabled

/-- `ORDER BY cp.local_collection, np.url`. -/
def ExportedCollectionPeer.key (cp : ExportedCollectionPeer) : String ×ₗ String :=
  toLex (cp.localCollection, cp.nodePeerUrl)

def Document.exported (d : Document) : ExportedDocument where
  url := d.url
  title := d.title
  body := d.body
  indexedAt := d.indexedAt

namespace Database

variable (db : Database)

/-- The pages of a target. -/
def pagesOf (target : Uuid) : List CrawledPageRow :=
  db.crawledPages.rows.filter fun p ↦ p.crawlTargetId = target

/-- The targets of a collection. -/
def targetsOf (collection : Uuid) : List CrawlTargetRow :=
  db.crawlTargets.rows.filter fun t ↦ t.collectionId = collection

/-- The suggestions for a collection. -/
def hostsOf (collection : Uuid) : List OutlinkHostRow :=
  db.outlinkHostSuggestions.rows.filter fun o ↦ o.collectionId = collection

/-- `export_crawled_pages`. -/
def exportCrawledPages (target : Uuid) : List ExportedCrawledPage :=
  ((db.pagesOf target).orderBy CrawledPageRow.id).map CrawledPageRow.exported

def exportCrawlTarget (t : CrawlTargetRow) : ExportedCrawlTarget :=
  { t.exported with crawledPages := db.exportCrawledPages t.id }

/-- `export_crawl_targets`. -/
def exportCrawlTargets (collection : Uuid) : List ExportedCrawlTarget :=
  ((db.targetsOf collection).orderBy CrawlTargetRow.urlPrefix).map db.exportCrawlTarget

/-- `export_ranking_config`. -/
def exportRankingConfig (rowid : Int) : Option ExportedRankingConfig :=
  (db.rankingRow rowid).map RankingConfigRow.exported

/-- `export_outlinks`. -/
def exportOutlinks (collection : Uuid) : List ExportedOutlinkHostSuggestion :=
  ((db.hostsOf collection).orderBy OutlinkHostRow.host).map OutlinkHostRow.exported

/-- `export_node_peers`. -/
def exportNodePeers : List ExportedNodePeer :=
  (db.nodePeers.rows.orderBy NodePeerRow.url).map NodePeerRow.exported

/-- The subscriptions, each joined to its node: `collection_peers JOIN node_peers`. -/
def joinedPeers : List ExportedCollectionPeer :=
  db.collectionPeers.rows.flatMap fun cp ↦
    (db.nodePeers.rows.filter fun np ↦ np.id = cp.nodePeerId).map cp.exported

/-- A collection with all that is nested under it but its documents. -/
def exportCollection (c : CollectionRow) : ExportedCollection where
  name := c.name
  description := c.description
  createdAt := c.createdAt
  updatedAt := c.updatedAt
  crawlTargets := db.exportCrawlTargets c.id
  rankingConfig := db.exportRankingConfig c.rowid
  outlinkHostSuggestions := db.exportOutlinks c.id

end Database

/-- `export_collection_peers`; the join returns the subscriptions `peers`. -/
def exportCollectionPeers (peers : List ExportedCollectionPeer) : List ExportedCollectionPeer :=
  peers.orderBy ExportedCollectionPeer.key

/-- The documents that were indexed under a name. -/
def documentsUnder (docs : List Document) (name : String) : List ExportedDocument :=
  (docs.filter fun d ↦ d.collection = name).map Document.exported

/-- `build_envelope`; `export_all_docs` returns the documents `docs`, and the join of the
subscriptions with their nodes returns `peers`. -/
def Database.buildEnvelope (db : Database) (docs : List Document)
    (peers : List ExportedCollectionPeer) (exportedAt selfUrl : String) : ExportEnvelope where
  formatVersion := FORMAT_VERSION
  exportedAt := exportedAt
  selfUrl := selfUrl
  collections := (db.collections.rows.orderBy CollectionRow.name).map fun c ↦
    { db.exportCollection c with documents := documentsUnder docs c.name }
  nodePeers := db.exportNodePeers
  collectionPeers := exportCollectionPeers peers

end CommunitySearch
