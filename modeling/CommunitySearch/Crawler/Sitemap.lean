import CommunitySearch.Crawler.Fetcher
import CommunitySearch.Crawler.Robots
import CommunitySearch.Crawler.UrlClass

/-!
# Sitemap discovery

`discoverUrls` visits the sitemaps declared for a target, follows indexes one level deep, and
returns the in-prefix URLs that robots rules allow. It never fails: whatever goes wrong leaves the
list shorter.
-/

namespace CommunitySearch

open Prog (ret)

/-- Cap on the size of a sitemap document, in bytes. -/
def MAX_SITEMAP_BYTES : Nat := 10 * 1024 * 1024

/-- Cap on the number of sitemap documents for one target. -/
def MAX_SITEMAPS_PER_TARGET : Nat := 20

/-- A parsed sitemap: page URLs, or the URLs of further sitemaps. -/
inductive ParsedSitemap where
  | urls (urls : List String)
  | index (children : List String)
deriving DecidableEq

/-- Strip the namespace prefix of a qualified name. -/
def localName (qname : String) : String :=
  match qname.toList.dropWhile (· ≠ ':') with
  | [] => qname
  | _ :: rest => .ofList rest

/-- The state of `parse_sitemap`. -/
structure SitemapReader where
  isIndex : Bool
  rootSeen : Bool
  inLoc : Bool
  locs : List String

def SitemapReader.read (s : SitemapReader) : XmlEvent → SitemapReader
  | .startTag name =>
    let loc := localName name
    { s with
      isIndex := if s.rootSeen then s.isIndex else s.isIndex || loc == "sitemapindex"
      rootSeen := true
      inLoc := s.inLoc || loc == "loc" }
  | .text (some text) =>
    let trimmed := Text.trim text
    if s.inLoc && !trimmed.isEmpty then { s with locs := s.locs ++ [trimmed] } else s
  | .text none => s
  | .endTag name => if localName name == "loc" then { s with inLoc := false } else s
  | .other => s

variable (X : Crates)

/-- `parse_sitemap`; `none` is an XML error. -/
def parseSitemap (body : String) : Option ParsedSitemap :=
  (X.readXml body).map fun events ↦
    let s := events.foldl SitemapReader.read ⟨false, false, false, []⟩
    if s.isIndex then .index s.locs else .urls s.locs

/-- `default_sitemap_url`. -/
def defaultSitemapUrl (seedUrl : String) : Option String :=
  ((X.parse seedUrl).bind Url.origin).map (· ++ "/sitemap.xml")

/-- `collect_sitemap_candidates`. -/
def collectSitemapCandidates (seedUrl : String) : Crawl (List String) :=
  (sitemapsFor X seedUrl).bind fun declared ↦
    let out := declared.toOption.getD []
    match defaultSitemapUrl X seedUrl with
    | some default => ret (if default ∈ out then out else out ++ [default])
    | none => ret out

/-- Insert into a hash set. -/
def insertUrl (found : List String) (url : String) : List String :=
  if url ∈ found then found else found ++ [url]

/-- The URLs of a leaf sitemap; the flag says that the cap was reached. -/
def addUrls (pre : String) (maxUrls : Nat) :
    List String → List String → Crawl (List String × Bool)
  | [], found => ret (found, false)
  | u :: us, found =>
    match normalizeUrl X u with
    | none => addUrls pre maxUrls us found
    | some norm =>
      if !isInPrefix X norm pre then addUrls pre maxUrls us found
      else (isAllowed X norm).bind fun allowed ↦
        if !allowed.toOption.getD true then addUrls pre maxUrls us found
        else
          let found := insertUrl found norm
          if found.length ≥ maxUrls then ret (found, true) else addUrls pre maxUrls us found

/-- The children of an index that are queued for the next round. -/
def queueChildren (visited : List String) (children nextRound : List String) : List String :=
  children.foldl (fun next child ↦
    if child ∉ visited ∧ next.length + visited.length < MAX_SITEMAPS_PER_TARGET then
      next ++ [child]
    else next) nextRound

/-- What a round of `discover_urls` has gathered. -/
structure SitemapRound where
  found : List String
  visited : List String
  nextRound : List String
  /-- The cap on URLs was reached. -/
  full : Bool

/-- Visit the sitemaps of one round. -/
def visitSitemaps (fetcher : Fetcher) (pre : String) (maxUrls : Nat) :
    List String → SitemapRound → Crawl SitemapRound
  | [], s => ret s
  | url :: urls, s =>
    if url ∈ s.visited then visitSitemaps fetcher pre maxUrls urls s
    else
      let s := { s with visited := s.visited ++ [url] }
      (isAllowed X url).bind fun allowed ↦
        if !allowed.toOption.getD true then visitSitemaps fetcher pre maxUrls urls s
        else (fetchTextRaw X fetcher url MAX_SITEMAP_BYTES).bind fun
          | .ok (some body) =>
            match parseSitemap X body with
            | none => visitSitemaps fetcher pre maxUrls urls s
            | some (.urls us) =>
              (addUrls X pre maxUrls us s.found).bind fun (found, full) ↦
                let s := { s with found := found, full := full }
                if full then ret s else visitSitemaps fetcher pre maxUrls urls s
            | some (.index children) =>
              visitSitemaps fetcher pre maxUrls urls
                { s with nextRound := queueChildren s.visited children s.nextRound }
          | _ => visitSitemaps fetcher pre maxUrls urls s

/-- The rounds of `discover_urls`, with `depth` further rounds allowed. -/
def sitemapRounds (fetcher : Fetcher) (pre : String) (maxUrls : Nat) :
    (depth : Nat) → List String → SitemapRound → Crawl (List String)
  | depth, toVisit, s =>
    (visitSitemaps X fetcher pre maxUrls toVisit { s with nextRound := [] }).bind fun s ↦
      if s.full || s.nextRound.isEmpty then ret s.found
      else match depth with
        | 0 => ret s.found
        | depth + 1 => sitemapRounds fetcher pre maxUrls depth s.nextRound s

/-- `discover_urls`. The URLs come out of a hash set, in an order nothing determines. -/
def discoverUrls (fetcher : Fetcher) (seedUrl pre : String) (maxUrls : Nat) :
    Crawl (List String) :=
  if maxUrls = 0 then ret []
  else (collectSitemapCandidates X seedUrl).bind fun candidates ↦
    if candidates.isEmpty then ret []
    else
      (sitemapRounds X fetcher pre maxUrls 1 (candidates.take MAX_SITEMAPS_PER_TARGET)
        ⟨[], [], [], false⟩).bind fun found ↦
          .op (.intoIter found) ret

end CommunitySearch
