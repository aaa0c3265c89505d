import CommunitySearch.Crawler.Fetcher
import CommunitySearch.Crawler.Parser
import CommunitySearch.Crawler.Robots
import CommunitySearch.Crawler.UrlClass

/-!
# Crawling one page

`crawlPage` checks robots, reads the row of the page, fetches it with the stored validators and
acts on the outcome. A fresh page has up to three URLs — the one requested, the final one after
redirects, the one it declares canonical — and `indexUrl` chooses among them.

What a finished or suspended page did is read off its events: `priorRow` is the row it found,
`servedPage` the response it ended on and the URL of that hop, `sentJobs` what it handed to the
indexer.
-/

namespace CommunitySearch

open Prog (ret)

/-- Context of a crawl within a collection. -/
structure PageContext where
  collectionId : Uuid
  crawlTargetId : Uuid
  urlPrefix : String
  collectionName : String
deriving DecidableEq

/-- Outcome of a single page. -/
structure PageResult where
  inPrefixLinks : List String
  indexed : Bool
  notModified : Bool
deriving DecidableEq

/-- An SQL failure; the message is SQLite's. -/
def sqlError : CrawlError := .other "SQLite error"

variable (X : Crates)

/-- The redirect target, when it is another URL of the prefix. -/
def redirectUrl (ctx : PageContext) (url finalUrl : String) : Option String :=
  ((normalizeUrl X finalUrl).filter fun c ↦ some c ≠ normalizeUrl X url).filter fun c ↦
    isInPrefix X c ctx.urlPrefix

/-- The declared canonical URL, when it is yet another URL of the prefix. -/
def canonicalUrl (ctx : PageContext) (url body finalUrl : String) : Option String :=
  ((((extractCanonical X body finalUrl).bind (normalizeUrl X)).filter fun c ↦
    some c ≠ normalizeUrl X url).filter fun c ↦
      redirectUrl X ctx url finalUrl ≠ some c).filter fun c ↦ isInPrefix X c ctx.urlPrefix

/-- The URL the content is indexed under. -/
def indexUrl (ctx : PageContext) (url body finalUrl : String) : String :=
  ((redirectUrl X ctx url finalUrl).orElse fun _ ↦ canonicalUrl X ctx url body finalUrl).getD url

/-- The content fingerprint of a body: the digest of title, NUL and text. -/
def contentHash (body : String) : String :=
  X.sha256 ((parseText X body).title ++ "\x00" ++ (parseText X body).text)

/-- The links of a body that lie in the prefix, normalised, in document order. -/
def inPrefixLinks (ctx : PageContext) (links : List ExtractedLink) : List String :=
  (links.filterMap fun link ↦ normalizeUrl X link.url).filter fun u ↦ isInPrefix X u ctx.urlPrefix

/-- The URLs of the prefix a page leads to: where it was redirected, what it declares canonical,
and its links. -/
def pageLinks (ctx : PageContext) (url body finalUrl : String) : List String :=
  (redirectUrl X ctx url finalUrl).toList ++ (canonicalUrl X ctx url body finalUrl).toList ++
    inPrefixLinks X ctx (extractLinks X body finalUrl)

/-- The URLs of the prefix the outcome of a fetch leads to. -/
def outcomeLinks (ctx : PageContext) (url : String) : FetchOutcome → List String
  | .fresh _ body _ _ finalUrl => pageLinks X ctx url body finalUrl
  | _ => []

/-- The row written when no fresh body was fetched: the prior validators and hashes are carried
over. -/
def carriedRow (ctx : PageContext) (url : String) (prior : Option CrawledPageRow) (status : Nat)
    (now : Int) : CrawledPageRow where
  id := 0
  collectionId := ctx.collectionId
  crawlTargetId := ctx.crawlTargetId
  url := url
  etag := prior.bind CrawledPageRow.etag
  lastModified := prior.bind CrawledPageRow.lastModified
  contentHash := prior.bind CrawledPageRow.contentHash
  lastStatus := some status
  lastCrawledAt := now
  indexedContentHash := prior.bind CrawledPageRow.indexedContentHash

/-- The row written for a fresh body. -/
def freshRow (ctx : PageContext) (url : String) (prior : Option CrawledPageRow) (status : Nat)
    (etag lastModified : Option String) (hash : String) (now : Int) : CrawledPageRow where
  id := 0
  collectionId := ctx.collectionId
  crawlTargetId := ctx.crawlTargetId
  url := url
  etag := etag
  lastModified := lastModified
  contentHash := some hash
  lastStatus := some status
  lastCrawledAt := now
  indexedContentHash := prior.bind CrawledPageRow.indexedContentHash

/-- The job for a fresh body. -/
def freshJob (ctx : PageContext) (url body finalUrl : String) (now : Int) : IndexJob where
  collectionName := ctx.collectionName
  url := indexUrl X ctx url body finalUrl
  title := (parseText X body).title
  body := (parseText X body).text
  indexedAt := now
  collectionId := ctx.collectionId
  contentHash := contentHash X body
  crawlTargetId := some ctx.crawlTargetId

/-- The committed version of the page is the one just fetched. -/
def alreadyIndexed (prior : Option CrawledPageRow) (body : String) : Bool :=
  prior.bind CrawledPageRow.indexedContentHash == some (contentHash X body)

/-- `crawled_pages::upsert` under the lock. -/
def upsertRow (row : CrawledPageRow) : Crawl (CrawlResult Unit) :=
  .op (.upsert row) fun stored ↦ ret (if stored then .ok () else .error sqlError)

/-- Hand a job to the indexer, counting it before the send and uncounting it when the channel is
closed. -/
def sendJob (job : IndexJob) : Crawl (CrawlResult Unit) :=
  .op (.inflightAdd 1) fun _ ↦
    .op (.send job) fun sent ↦
      if sent then ret (.ok ())
      else .op (.inflightAdd (-1)) fun _ ↦
        ret (.error (.other "indexer channel closed: channel closed"))

/-- Classify the links of a page: those in the prefix are returned, the hosts of the others are
recorded. -/
def recordLinks (ctx : PageContext) (url : String) (now : Int) :
    List ExtractedLink → Crawl (CrawlResult (List String))
  | [] => ret (.ok [])
  | link :: links =>
    match normalizeUrl X link.url with
    | none => recordLinks ctx url now links
    | some normalized =>
      if isInPrefix X normalized ctx.urlPrefix then
        (recordLinks ctx url now links).attempt fun rest ↦ ret (.ok (normalized :: rest))
      else if isBlacklistedOutlinkHost X normalized then recordLinks ctx url now links
      else match hostOf X normalized with
        | none => recordLinks ctx url now links
        | some host =>
          .op (.recordHit ctx.collectionId host ⟨url, normalized, link.text⟩ now) fun stored ↦
            if stored then recordLinks ctx url now links else ret (.error sqlError)

/-- The last part of step 7: write the row, then classify the links. -/
def recordFresh (ctx : PageContext) (url : String) (now : Int) (prior : Option CrawledPageRow)
    (status : Nat) (body : String) (etag lastModified : Option String) (finalUrl : String) :
    Crawl (CrawlResult PageResult) :=
  (upsertRow (freshRow ctx url prior status etag lastModified
    (contentHash X body) now)).attempt fun _ ↦
      (recordLinks X ctx url now (extractLinks X body finalUrl)).attempt fun links ↦
        ret (.ok
          { inPrefixLinks := (redirectUrl X ctx url finalUrl).toList ++
              (canonicalUrl X ctx url body finalUrl).toList ++ links
            indexed := !alreadyIndexed X prior body
            notModified := false })

/-- Step 7: a fresh 2xx HTML response. -/
def indexFresh (ctx : PageContext) (url : String) (now : Int) (prior : Option CrawledPageRow)
    (status : Nat) (body : String) (etag lastModified : Option String) (finalUrl : String) :
    Crawl (CrawlResult PageResult) :=
  (if alreadyIndexed X prior body then ret (.ok ())
    else sendJob (freshJob X ctx url body finalUrl now)).attempt fun _ ↦
      recordFresh X ctx url now prior status body etag lastModified finalUrl

/-- Steps 4 to 7: what the outcome of the fetch leads to. -/
def handleOutcome (ctx : PageContext) (url : String) (now : Int) (prior : Option CrawledPageRow) :
    FetchOutcome → Crawl (CrawlResult PageResult)
  | .rateLimited retryAfter => ret (.error (.rateLimited retryAfter))
  | .notModified =>
    (upsertRow (carriedRow ctx url prior 304 now)).attempt fun _ ↦
      ret (.ok { inPrefixLinks := [], indexed := false, notModified := true })
  | .otherStatus status =>
    (upsertRow (carriedRow ctx url prior status now)).attempt fun _ ↦
      ret (.ok { inPrefixLinks := [], indexed := false, notModified := false })
  | .fresh status body etag lastModified finalUrl =>
    indexFresh X ctx url now prior status body etag lastModified finalUrl

/-- `crawl_page`. -/
def crawlPage (fetcher : Fetcher) (ctx : PageContext) (now : Int) (url : String) :
    Crawl (CrawlResult PageResult) :=
  (isAllowed X url).attempt fun allowed ↦
    if !allowed then ret (.error (.robotsDisallowed url))
    else .op (.getByUrl ctx.collectionId url) fun
      | none => ret (.error sqlError)
      | some prior =>
        (fetch X fetcher url ⟨prior.bind CrawledPageRow.etag,
          prior.bind CrawledPageRow.lastModified⟩).attempt
            (handleOutcome X ctx url now prior)

/-! ### Reading the events of a page -/

/-- The row a `get_by_url` returned. -/
def CrawlEvent.row? : CrawlEvent → Option (Option CrawledPageRow)
  | ⟨.getByUrl .., row⟩ => row
  | _ => none

/-- The URL and the response of a hop of a page request that was not redirected. -/
def CrawlEvent.served? : CrawlEvent → Option (Url × HttpResponse)
  | ⟨.request .page target _ _, .response r⟩ => some (target, r)
  | _ => none

/-- A redirect of a page request. -/
def CrawlEvent.isRedirect : CrawlEvent → Bool
  | ⟨.request .page .., .redirect ..⟩ => true
  | _ => false

/-- The job a send delivered. -/
def CrawlEvent.sent? : CrawlEvent → Option IndexJob
  | ⟨.send job, true⟩ => some job
  | _ => none

/-- A send the channel refused. -/
def CrawlEvent.isRefusal : CrawlEvent → Bool
  | ⟨.send _, false⟩ => true
  | _ => false

/-- The row the page found before fetching. -/
def priorRow (events : List CrawlEvent) : Option CrawledPageRow :=
  (events.findSome? CrawlEvent.row?).join

/-- The response the page ended on, and the URL of the hop that gave it. -/
def servedPage (events : List CrawlEvent) : Option (Url × HttpResponse) :=
  events.findSome? CrawlEvent.served?

/-- The jobs handed to the indexer. -/
def sentJobs (events : List CrawlEvent) : List IndexJob :=
  events.filterMap CrawlEvent.sent?

/-- The indexer had exited when a job was sent. -/
def refused (events : List CrawlEvent) : Bool :=
  events.any CrawlEvent.isRefusal

end CommunitySearch
