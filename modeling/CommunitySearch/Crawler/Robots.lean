import CommunitySearch.Crawler.Effects

/-!
# The robots checker

The rules of an origin are loaded once and cached. Checking a URL, reading the crawl delay and
listing the sitemaps all begin with `ensureCached`.
-/

namespace CommunitySearch

open Prog (ret)

variable (X : Crates)

/-- `ensure_cached`: load the rules of the origin of `url` unless they are loaded, and return the
origin. -/
def ensureCached (url : String) : Crawl (CrawlResult String) :=
  match X.parse url with
  | none => ret (.error .urlParse)
  | some parsed =>
    match parsed.origin with
    | none => ret (.error (.other "URL has no host"))
    | some origin =>
      .op (.cacheGet origin) fun
        | some _ => ret (.ok origin)
        | none =>
          .op (.robotsTxt (origin ++ "/robots.txt")) fun robot ↦
            .op (.cacheInsert origin robot) fun _ ↦ ret (.ok origin)

/-- Read the cache entry of the origin of `url`, once it is loaded. -/
def readEntry {α : Type} (url : String) (f : Option (Option Robot) → α) : Crawl (CrawlResult α) :=
  (ensureCached X url).attempt fun origin ↦
    .op (.cacheGet origin) fun entry ↦ ret (.ok (f entry))

/-- The verdict of a cache entry on a URL: an origin without rules allows everything. -/
def verdict (entry : Option (Option Robot)) (url : String) : Bool :=
  match entry with
  | some (some robot) => X.allowed robot url
  | _ => true

/-- `is_allowed`. -/
def isAllowed (url : String) : Crawl (CrawlResult Bool) :=
  readEntry X url fun entry ↦ verdict X entry url

/-- `secs.round() as u64`: the conversion saturates. -/
def roundSecs (secs : Rat) : Nat :=
  min (secs + 1 / 2).floor.toNat (UInt64.size - 1)

/-- `crawl_delay_for`. -/
def crawlDelayFor (url : String) : Crawl (CrawlResult (Option Duration)) :=
  readEntry X url fun
    | some (some robot) => robot.delay.map fun secs ↦ .fromSecs (roundSecs secs)
    | _ => none

/-- `sitemaps_for`. -/
def sitemapsFor (url : String) : Crawl (CrawlResult (List String)) :=
  readEntry X url fun
    | some (some robot) => robot.sitemaps
    | _ => []

end CommunitySearch
