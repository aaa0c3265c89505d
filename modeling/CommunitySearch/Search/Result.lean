import CommunitySearch.Foundation.Json
import CommunitySearch.Foundation.Text
import Mathlib.Data.List.Sort

/-!
# Requests and results of a search

The two types that travel between engines. Their field names are part of the protocol: a result is
written as an object, and read from one, whatever other fields that has, or from the array of its
values.
-/

namespace CommunitySearch

/-- Body of a `POST /api/search` request. -/
structure SearchRequest where
  query : String
  collection : Option String
  /-- Fan-out depth: an engine receiving `depth > 0` may fan out to its own collection peers with
  `depth - 1`, stopping at `0`. -/
  depth : UInt32
deriving DecidableEq

/-- A single search result. -/
structure SearchResult where
  title : String
  url : String
  snippetHtml : String
  source : String
  timestamp : Int64
  score : Float32

namespace SearchResult

variable (text : JsonText)

/-- The fields of a result. -/
def toFields (r : SearchResult) : List (String × Json) :=
  [("title", .string r.title), ("url", .string r.url), ("snippet_html", .string r.snippetHtml),
    ("source", .string r.source), ("timestamp", .integer r.timestamp.toInt),
    ("score", text.float r.score)]

/-- A result of the given values. -/
def ofValues (title url snippetHtml source timestamp score : Json) : Option SearchResult := do
  let title ← title.asString
  let url ← url.asString
  let snippetHtml ← snippetHtml.asString
  let source ← source.asString
  let timestamp ← timestamp.asInt64
  let score ← text.asFloat score
  return { title, url, snippetHtml, source, timestamp, score }

/-- A result of the given fields; all are required. -/
def ofFields (fields : List (String × Json)) : Option SearchResult := do
  let title ← Json.field fields "title"
  let url ← Json.field fields "url"
  let snippetHtml ← Json.field fields "snippet_html"
  let source ← Json.field fields "source"
  let timestamp ← Json.field fields "timestamp"
  let score ← Json.field fields "score"
  ofValues text title url snippetHtml source timestamp score

/-- The derived `Deserialize`. -/
def ofJson : Json → Option SearchResult
  | .object fields => ofFields text fields
  | .array [title, url, snippetHtml, source, timestamp, score] =>
    ofValues text title url snippetHtml source timestamp score
  | .null | .bool _ | .integer _ | .decimal _ | .string _ | .array _ => none

/-- **What is written of a result**, next to a tag, is read as the result but for its score. -/
theorem ofJson_tagged (r : SearchResult) (tag : Json) :
    ofJson text (.object (("type", tag) :: r.toFields text)) =
      (text.asFloat (text.float r.score)).map fun score ↦ { r with score := score } := by
  have hvalues : ofJson text (.object (("type", tag) :: r.toFields text)) =
      ofValues text (.string r.title) (.string r.url) (.string r.snippetHtml) (.string r.source)
        (.integer r.timestamp.toInt) (text.float r.score) := by
    simp [ofJson, ofFields, toFields, Json.field]
  rw [hvalues, ofValues, Json.asInt64_toInt]
  cases text.asFloat (text.float r.score) with
  | none => rfl
  | some score => rfl

end SearchResult

/-- `sort_by` with the scores compared in descending order; a stable sort. Scores that do not
compare count as equal. -/
def sortByScore (results : List SearchResult) : List SearchResult :=
  results.insertionSort fun a b ↦ ¬ a.score < b.score

theorem perm_sortByScore (results : List SearchResult) : (sortByScore results).Perm results :=
  List.perm_insertionSort _ _

end CommunitySearch
