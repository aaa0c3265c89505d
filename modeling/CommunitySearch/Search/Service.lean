import CommunitySearch.Index.Reader
import CommunitySearch.Search.Ranking
import CommunitySearch.Search.Result

/-!
# The search service

A search of the local index: four times as many candidates as results are taken from the index,
scored with the configuration of the collection, and the best of them returned.
-/

namespace CommunitySearch

/-- The rest of a list after the first occurrence of `p`. -/
def afterFirst (p : List Char) : List Char → Option (List Char)
  | [] => if p.isEmpty then some [] else none
  | c :: l => if p.isPrefixOf (c :: l) then some ((c :: l).drop p.length) else afterFirst p l

namespace QueryEngine

variable (engine : QueryEngine)

/-- `extract_domain`: the host of a URL, in lower case. -/
def extractDomain (url : String) : String :=
  let afterScheme := (afterFirst "://".toList url.toList).getD url.toList
  let hostAndPort := afterScheme.takeWhile fun c ↦ c ≠ '/'
  let host := (hostAndPort.reverse.takeWhile fun c ↦ c ≠ '@').reverse
  engine.toLowercase (.ofList host)

/-- The result of a hit. -/
def resultOfHit (cfg : RankingConfig) (now : Int) (h : RawHitWithSnippet) : SearchResult where
  title := h.title
  url := h.url
  snippetHtml := h.snippetHtml
  source := "local"
  timestamp := .ofInt h.timestamp
  score := CommunitySearch.score
    { baseRelevance := h.bm25
      source := "local"
      domain := engine.extractDomain h.url
      docTimestampSecs := h.timestamp
      nowSecs := now } cfg

/-- The configuration a search is scored with. -/
def rankingFor (db : Database) : Option Int → RankingConfig
  | some id => db.loadRanking id
  | none => .defaultFor 0

/-- `local_search`. -/
def localSearch (db : Database) (docs : List Document) (query : String)
    (collection : Option String) (collectionIdForRanking : Option Int) (limit : Nat)
    (now : Int) : Except String (List SearchResult) :=
  (engine.searchWithSnippets docs query collection (limit * 4)).map fun hits ↦
    let cfg := rankingFor db collectionIdForRanking
    (sortByScore (hits.map (engine.resultOfHit cfg now))).take limit

end QueryEngine

end CommunitySearch
