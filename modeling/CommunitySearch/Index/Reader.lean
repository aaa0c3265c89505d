import CommunitySearch.Foundation.Text
import CommunitySearch.Index.Writer
import Mathlib.Data.List.Sort

/-!
# The index reader

A search of the committed documents. Parsing a query, deciding which documents match it, scoring
them and cutting a fragment out of a body are the index library's, so they enter as a parameter
(`QueryEngine`); what the reader makes of them is modelled: `site:` clauses are rewritten, the
collection is a required term, the best hits are taken, and a snippet is the fragment with its
matches marked or, when there is none, the beginning of the body.
-/

namespace CommunitySearch

/-- What the index library computes. -/
structure QueryEngine where
  Query : Type
  /-- `QueryParser::parse_query` over the title and the body. -/
  parseQuery : String → Except String Query
  isMatch : Query → Document → Bool
  /-- The BM25 score of a document of the index; a required collection contributes to it. -/
  score : List Document → Query → Option String → Document → Float32
  /-- The fragment of a body, in pieces, each with whether it is highlighted; none when it is
  empty. -/
  fragment : List Document → Query → String → Option (List (String × Bool))
  /-- The escaping `Snippet::to_html` applies to text. -/
  encodeMinimal : String → String
  /-- `str::to_lowercase`, by the tables of Unicode. -/
  toLowercase : String → String

/-- The length of a snippet, in characters. -/
def SNIPPET_CHARS : Nat := 220

/-- May a `site:` clause follow this character? -/
def atBoundary : Option Char → Bool
  | none => true
  | some p => Text.isWhitespace p || p = '(' || p = '-' || p = '+'

/-- `rewrite_site_filter` on the characters that are left; `last` is the last one written. -/
def rewriteSiteFilterList (inQuote : Bool) (last : Option Char) : List Char → List Char
  | [] => []
  | '"' :: l => '"' :: rewriteSiteFilterList (!inQuote) (some '"') l
  | 's' :: 'i' :: 't' :: 'e' :: ':' :: l =>
    if !inQuote && atBoundary last then
      ['+', 'h', 'o', 's', 't', ':'] ++ rewriteSiteFilterList inQuote (some ':') l
    else 's' :: rewriteSiteFilterList inQuote (some 's') ('i' :: 't' :: 'e' :: ':' :: l)
  | c :: l => c :: rewriteSiteFilterList inQuote (some c) l

/-- `rewrite_site_filter`: `site:` clauses outside quotes become required terms of the `host`
field. -/
def rewriteSiteFilter (q : String) : String :=
  .ofList (rewriteSiteFilterList false none q.toList)

example : rewriteSiteFilter "rust site:example.com" = "rust +host:example.com" := by decide

example : rewriteSiteFilter "\"site:foo\" offsite:foo" = "\"site:foo\" offsite:foo" := by decide

/-- One result, with a snippet. -/
structure RawHitWithSnippet where
  title : String
  url : String
  snippetHtml : String
  timestamp : Int
  bm25 : Float32

namespace QueryEngine

variable (engine : QueryEngine)

/-- `Snippet::to_html` with `<mark>` around the matches. -/
def toHtml (pieces : List (String × Bool)) : String :=
  Text.join "" (pieces.map fun (text, highlighted) ↦
    if highlighted then "<mark>" ++ engine.encodeMinimal text ++ "</mark>"
    else engine.encodeMinimal text)

/-- The snippet of a document; without a fragment it is the beginning of the body. -/
def snippet (docs : List Document) (q : engine.Query) (d : Document) : String :=
  match engine.fragment docs q d.body with
  | some pieces => engine.toHtml pieces
  | none => Text.take SNIPPET_CHARS d.body

/-- The document matches the query, and is of the collection if one is required. -/
def hits (q : engine.Query) (collection : Option String) (d : Document) : Bool :=
  engine.isMatch q d && collection.all fun name ↦ d.collection = name

/-- `TopDocs`: the best documents with their scores, in descending order. -/
def topDocs (docs : List Document) (q : engine.Query) (collection : Option String) (limit : Nat) :
    List (Float32 × Document) :=
  let scored := (docs.filter (engine.hits q collection)).map fun d ↦
    (engine.score docs q collection d, d)
  (scored.insertionSort fun a b ↦ ¬ a.1 < b.1).take limit

variable {engine}

theorem hits_iff {q : engine.Query} {name : String} {d : Document} :
    engine.hits q (some name) d = true ↔ engine.isMatch q d = true ∧ d.collection = name := by
  rw [hits, Bool.and_eq_true, Option.all_some, decide_eq_true_iff]

/-- The best documents are documents that are searched for. -/
theorem mem_of_mem_topDocs {docs : List Document} {q : engine.Query} {collection : Option String}
    {limit : Nat} {hit : Float32 × Document} (h : hit ∈ engine.topDocs docs q collection limit) :
    hit.2 ∈ docs ∧ engine.hits q collection hit.2 = true := by
  have hscored := (List.perm_insertionSort _ _).subset (List.mem_of_mem_take h)
  obtain ⟨d, hd, rfl⟩ := List.mem_map.1 hscored
  exact List.mem_filter.1 hd

/-- With room for all of them, every document that is searched for is among the best. -/
theorem mem_topDocs {docs : List Document} {q : engine.Query} {collection : Option String}
    {limit : Nat} {d : Document} (hd : d ∈ docs) (h : engine.hits q collection d = true)
    (hlimit : docs.length ≤ limit) :
    (engine.score docs q collection d, d) ∈ engine.topDocs docs q collection limit := by
  rw [topDocs]
  rw [List.take_of_length_le]
  · exact (List.perm_insertionSort _ _).mem_iff.2
      (List.mem_map.2 ⟨d, List.mem_filter.2 ⟨hd, h⟩, rfl⟩)
  · rw [List.length_insertionSort, List.length_map]
    exact (List.length_filter_le _ _).trans hlimit

variable (engine)

/-- `search_with_snippets`. -/
def searchWithSnippets (docs : List Document) (queryText : String) (collection : Option String)
    (limit : Nat) : Except String (List RawHitWithSnippet) :=
  (engine.parseQuery (rewriteSiteFilter queryText)).map fun q ↦
    (engine.topDocs docs q collection limit).map fun (score, d) ↦
      { title := d.title
        url := d.url
        snippetHtml := engine.snippet docs q d
        timestamp := d.indexedAt
        bm25 := score }

end QueryEngine

end CommunitySearch
