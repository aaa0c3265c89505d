import CommunitySearch.Api.EntryPoints

/-!
# Snippets are HTML

The page inserts the snippet of a result as HTML, so apart from the marks around the matches it has
to be escaped text (`SnippetSafe`). A fragment the index library cuts out is escaped piece by piece.
The beginning of a body, which stands in for a missing fragment, is not; and the snippet of a peer's
result is passed on as it comes.
-/

namespace CommunitySearch

/-- The text without `<mark>` and `</mark>`. -/
def eraseMarks : List Char → List Char
  | '<' :: 'm' :: 'a' :: 'r' :: 'k' :: '>' :: l => eraseMarks l
  | '<' :: '/' :: 'm' :: 'a' :: 'r' :: 'k' :: '>' :: l => eraseMarks l
  | c :: l => c :: eraseMarks l
  | [] => []

/-- Text without tags. -/
def Tagless (l : List Char) : Prop :=
  ∀ c ∈ l, c ≠ '<' ∧ c ≠ '>'

instance (l : List Char) : Decidable (Tagless l) :=
  List.decidableBAll (fun c ↦ c ≠ '<' ∧ c ≠ '>') l

/-- **Only the marks are tags.** -/
def SnippetSafe (html : String) : Prop :=
  Tagless (eraseMarks html.toList)

instance (html : String) : Decidable (SnippetSafe html) :=
  inferInstanceAs (Decidable (Tagless _))

/-- The escaping of the index library leaves no tag. -/
def QueryEngine.Escapes (engine : QueryEngine) : Prop :=
  ∀ s, Tagless (engine.encodeMinimal s).toList

/-- What a node shows of a search: a result that reaches the client, whether or not the client then
goes away, and whichever peers answer in time. -/
inductive Shows (node : SearchNode) : SearchCall → SearchResult → Prop where
  | stream {req : SearchRequest} {ls : List StreamLabel} {s : SearchStream} {r : SearchResult}
      (hrun : SearchStream.machine.run (.spawn req) ls = some s)
      (hanswers : SearchStream.machine.Guarded (node.env req).Answers (.spawn req) ls)
      (hr : SseEvent.result r ∈ s.received) :
    Shows node ⟨.stream, req⟩ r
  | collect {req : SearchRequest} {arrivals : List (Nat × Completion)} {r : SearchResult}
      (hpeers : ∀ a ∈ arrivals, a.2.dispatched ∈ node.forwards req)
      (hanswers : ∀ a ∈ arrivals, a.2.answer = node.answer a.2.peer a.2.request)
      (hr : r ∈ (collectSearch node req arrivals).results) :
    Shows node ⟨.collect, req⟩ r

/-- **Snippet safety** of a search. -/
def SnippetsSafe (node : SearchNode) (call : SearchCall) : Prop :=
  ∀ r, Shows node call r → SnippetSafe r.snippetHtml

/-! ### What is shown -/

theorem mem_of_mem_drainPeers {arrivals : List (Nat × Completion)} {acc : Collected}
    {r : SearchResult} (h : r ∈ (drainPeers acc arrivals).results) :
    r ∈ acc.results ∨ ∃ a ∈ arrivals, r ∈ a.2.outcome.results := by
  induction arrivals generalizing acc with
  | nil => exact Or.inl h
  | cons a arrivals ih =>
    rw [drainPeers] at h
    split at h
    case isTrue =>
      rcases ih h with hacc | ⟨a', ha', hr⟩
      · rcases List.mem_append.1 hacc with hacc | hr
        · exact Or.inl hacc
        · exact Or.inr ⟨a, List.mem_cons_self, hr⟩
      · exact Or.inr ⟨a', List.mem_cons_of_mem _ ha', hr⟩
    case isFalse => exact Or.inl h

/-- **What is shown** is what the search finds. -/
theorem shows_iff {node : SearchNode} {call : SearchCall} {r : SearchResult} :
    Shows node call r ↔ r ∈ node.results call.request := by
  constructor
  · intro h
    cases h with
    | stream hrun hanswers hr =>
      have hs := Answered.of_run hanswers hrun
      refine hs.mem_results (hs.inv.received_prefix.subset ?_)
      exact List.mem_append_left _ hr
    | collect hpeers hanswers hr =>
      rcases mem_of_mem_drainPeers ((perm_sortByScore _).subset hr) with hlocal | ⟨a, ha, hr⟩
      · exact List.mem_append_left _ hlocal
      · rw [results_outcome (hanswers a ha)] at hr
        exact List.mem_append_right _ (List.mem_flatMap.2 ⟨_, hpeers a ha, hr⟩)
  · intro h
    obtain ⟨results, hresults⟩ := exists_delivers node call
    have hr := (hresults.perm_results.mem_iff).2 h
    cases hresults with
    | stream hrun hadmits hfinished htaken =>
      obtain ⟨event, hevent, hresult⟩ := List.mem_filterMap.1 hr
      cases event with
      | result r' =>
        obtain rfl := Option.some.inj hresult
        exact .stream hrun (hadmits.mono fun _ _ ↦ And.left) hevent
      | sourceComplete source => cases hresult
      | done => cases hresult
    | collect hpeers hanswers hbudget =>
      exact .collect (fun a ha ↦ hpeers.subset (List.mem_map_of_mem ha)) hanswers hr

/-! ### Fragments are escaped -/

theorem eraseMarks_cons {c : Char} (h : c ≠ '<') (l : List Char) :
    eraseMarks (c :: l) = c :: eraseMarks l := by
  rw [eraseMarks]
  · intro _ h' _
    exact h h'
  · intro _ h' _
    exact h h'

theorem Tagless.eraseMarks_append {l : List Char} (h : Tagless l) (l' : List Char) :
    eraseMarks (l ++ l') = l ++ eraseMarks l' := by
  induction l with
  | nil => rfl
  | cons c l ih =>
    obtain ⟨hc, hl⟩ := List.forall_mem_cons.1 h
    rw [List.cons_append, eraseMarks_cons hc.1, ih hl]
    rfl

theorem toList_join (l : List String) : (Text.join "" l).toList = l.flatMap String.toList := by
  induction l with
  | nil => rfl
  | cons s l ih =>
    cases l with
    | nil => exact (List.append_nil _).symm
    | cons s' l =>
      show (s ++ "" ++ Text.join "" (s' :: l)).toList = _
      rw [String.append_empty, String.toList_append, ih]
      rfl

/-- **A fragment** is escaped text with marks. -/
theorem snippetSafe_toHtml {engine : QueryEngine} (hescapes : engine.Escapes)
    (pieces : List (String × Bool)) : SnippetSafe (engine.toHtml pieces) := by
  rw [SnippetSafe, QueryEngine.toHtml, toList_join]
  induction pieces with
  | nil => exact nofun
  | cons piece pieces ih =>
    obtain ⟨text, highlighted⟩ := piece
    have htext := hescapes text
    rw [List.map_cons, List.flatMap_cons]
    cases highlighted with
    | false =>
      show Tagless (eraseMarks ((engine.encodeMinimal text).toList ++ _))
      rw [htext.eraseMarks_append]
      exact List.forall_mem_append.2 ⟨htext, ih⟩
    | true =>
      have hmark : ("<mark>" ++ engine.encodeMinimal text ++ "</mark>").toList =
          "<mark>".toList ++ ((engine.encodeMinimal text).toList ++ "</mark>".toList) := by
        rw [String.toList_append, String.toList_append, List.append_assoc]
      show Tagless (eraseMarks (("<mark>" ++ engine.encodeMinimal text ++ "</mark>").toList ++ _))
      rw [hmark, List.append_assoc, List.append_assoc]
      show Tagless (eraseMarks ((engine.encodeMinimal text).toList ++ ("</mark>".toList ++ _)))
      rw [htext.eraseMarks_append]
      exact List.forall_mem_append.2 ⟨htext, ih⟩

/-- A snippet is safe unless it is the beginning of a body that is not. -/
theorem snippetSafe_snippet_iff {engine : QueryEngine} (hescapes : engine.Escapes)
    {docs : List Document} {q : engine.Query} {d : Document} :
    SnippetSafe (engine.snippet docs q d) ↔
      (engine.fragment docs q d.body = none → SnippetSafe (Text.take SNIPPET_CHARS d.body)) := by
  rw [QueryEngine.snippet]
  cases engine.fragment docs q d.body with
  | none => exact ⟨fun h _ ↦ h, fun h ↦ h rfl⟩
  | some pieces => exact ⟨fun _ ↦ nofun, fun _ ↦ snippetSafe_toHtml hescapes pieces⟩

/-! ### The documents of the local results -/

namespace SearchNode

variable (node : SearchNode) (req : SearchRequest)

/-- The result of a document found with a score. -/
def resultOf (q : node.engine.Query) (hit : Float32 × Document) : SearchResult :=
  node.engine.resultOfHit
    (QueryEngine.rankingFor node.db (lookupCollectionId node.db req.collection)) node.now
    { title := hit.2.title
      url := hit.2.url
      snippetHtml := node.engine.snippet node.docs q hit.2
      timestamp := hit.2.indexedAt
      bm25 := hit.1 }

/-- The documents the local search returns for a query, with their relevance: the best of the
candidates by their final score. -/
def returned (q : node.engine.Query) : List (Float32 × Document) :=
  ((node.engine.topDocs node.docs q req.collection (SEARCH_LIMIT * 4)).insertionSort fun a b ↦
    ¬ (node.resultOf req q a).score < (node.resultOf req q b).score).take SEARCH_LIMIT

variable {node req}

/-- **The local results** are those of the documents returned. -/
theorem results_localOutcome {q : node.engine.Query}
    (h : node.engine.parseQuery (rewriteSiteFilter req.query) = .ok q) :
    (node.localOutcome req).results = (node.returned req q).map (node.resultOf req q) := by
  have hsort : ∀ hits : List (Float32 × Document),
      (hits.insertionSort fun a b ↦
        ¬ (node.resultOf req q a).score < (node.resultOf req q b).score).map (node.resultOf req q) =
          sortByScore (hits.map (node.resultOf req q)) := fun hits ↦
    List.map_insertionSort _ _ (node.resultOf req q) hits fun _ _ _ _ ↦ Iff.rfl
  rw [localOutcome, QueryEngine.localSearch, QueryEngine.searchWithSnippets, h, returned,
    List.map_take, hsort]
  dsimp only [Except.map, LocalOutcome.results]
  rw [List.map_map]
  rfl

theorem results_localOutcome_of_error {message : String}
    (h : node.engine.parseQuery (rewriteSiteFilter req.query) = .error message) :
    (node.localOutcome req).results = [] := by
  rw [localOutcome, QueryEngine.localSearch, QueryEngine.searchWithSnippets, h]
  rfl

/-- A peer's snippets are those it has sent. -/
theorem forall_peerResults {forward : ActiveCollectionPeer × SearchRequest} {p : String → Prop} :
    (∀ r ∈ node.peerResults forward, p r.snippetHtml) ↔
      ∀ results, node.answer forward.1 forward.2 = .ok results →
        ∀ r ∈ results, p r.snippetHtml := by
  unfold peerResults PeerOutcome.results ActiveCollectionPeer.outcome
  cases node.answer forward.1 forward.2 with
  | error e => exact ⟨fun _ ↦ nofun, fun _ ↦ nofun⟩
  | ok results =>
    refine List.forall_mem_map.trans ⟨fun h results' heq ↦ ?_, fun h ↦ h results rfl⟩
    obtain rfl := Except.ok.inj heq
    exact h

end SearchNode

/-- **Snippets are safe** exactly if the beginnings of bodies that stand in for a missing fragment
are, and what the peers send is. -/
theorem snippetsSafe_iff {node : SearchNode} (hescapes : node.engine.Escapes) (call : SearchCall) :
    SnippetsSafe node call ↔
      (∀ q, node.engine.parseQuery (rewriteSiteFilter call.request.query) = .ok q →
        ∀ hit ∈ node.returned call.request q, node.engine.fragment node.docs q hit.2.body = none →
          SnippetSafe (Text.take SNIPPET_CHARS hit.2.body)) ∧
      ∀ forward ∈ node.forwards call.request, ∀ results,
        node.answer forward.1 forward.2 = .ok results →
          ∀ r ∈ results, SnippetSafe r.snippetHtml := by
  have hlocal : (∀ r ∈ (node.localOutcome call.request).results, SnippetSafe r.snippetHtml) ↔
      ∀ q, node.engine.parseQuery (rewriteSiteFilter call.request.query) = .ok q →
        ∀ hit ∈ node.returned call.request q, node.engine.fragment node.docs q hit.2.body = none →
          SnippetSafe (Text.take SNIPPET_CHARS hit.2.body) := by
    cases hparse : node.engine.parseQuery (rewriteSiteFilter call.request.query) with
    | error message =>
      rw [SearchNode.results_localOutcome_of_error hparse]
      exact ⟨fun _ ↦ nofun, fun _ ↦ nofun⟩
    | ok q =>
      rw [SearchNode.results_localOutcome hparse, List.forall_mem_map]
      constructor
      · intro h q' hq' hit hhit
        obtain rfl := Except.ok.inj hq'
        exact (snippetSafe_snippet_iff hescapes).1 (h hit hhit)
      · intro h hit hhit
        exact (snippetSafe_snippet_iff hescapes).2 (h q rfl hit hhit)
  have hpeers : (∀ r ∈ (node.forwards call.request).flatMap node.peerResults,
      SnippetSafe r.snippetHtml) ↔ ∀ forward ∈ node.forwards call.request, ∀ results,
        node.answer forward.1 forward.2 = .ok results → ∀ r ∈ results,
          SnippetSafe r.snippetHtml := by
    rw [List.forall_mem_flatMap]
    exact forall₂_congr fun forward _ ↦ SearchNode.forall_peerResults
  rw [← hlocal, ← hpeers, ← List.forall_mem_append]
  exact forall_congr' fun r ↦ imp_congr_left shows_iff

/-! ### A body without a fragment -/

namespace TitleMatch

/-- The escaping of `htmlescape`. -/
def encodeChar (c : Char) : List Char :=
  if c = '<' then "&lt;".toList
  else if c = '>' then "&gt;".toList
  else if c = '&' then "&amp;".toList
  else if c = '"' then "&quot;".toList
  else if c.toNat = 0x27 then "&#x27;".toList
  else [c]

/-- The query matches in the title only. -/
def engine : QueryEngine where
  Query := String
  parseQuery := .ok
  isMatch q d := Text.contains d.title q
  score _ _ _ _ := 1.0
  fragment _ _ _ := none
  encodeMinimal s := .ofList (s.toList.flatMap encodeChar)
  toLowercase := Text.toAsciiLowercase

theorem tagless_encodeChar (c : Char) : Tagless (encodeChar c) := by
  rw [encodeChar]
  by_cases hlt : c = '<'
  · rw [if_pos hlt]
    decide
  by_cases hgt : c = '>'
  · rw [if_neg hlt, if_pos hgt]
    decide
  rw [if_neg hlt, if_neg hgt]
  split
  · decide
  split
  · decide
  split
  · decide
  · exact List.forall_mem_singleton.2 ⟨hlt, hgt⟩

theorem escapes : engine.Escapes := by
  intro s
  show Tagless (String.ofList (s.toList.flatMap encodeChar)).toList
  rw [String.toList_ofList]
  exact List.forall_mem_flatMap.2 fun c _ ↦ tagless_encodeChar c

def doc (body : String) : Document where
  collection := "guide"
  url := "https://guide.example/"
  title := "Tokio"
  body := body
  indexedAt := 0
  collectionId := ⟨0⟩
  contentHash := ""
  crawlTargetId := none

def node (body : String) : SearchNode where
  engine := engine
  db := .empty
  docs := [doc body]
  federation := .empty
  now := 0
  answer _ _ := .error "unreachable"

def call : SearchCall := ⟨.stream, ⟨"Tokio", none, 1⟩⟩

theorem take_insertionSort_singleton {α : Type} (r : α → α → Prop) [DecidableRel r] (a : α)
    (n : Nat) : ([a].insertionSort r).take (n + 1) = [a] := by
  rw [List.insertionSort_cons, List.insertionSort_nil, List.orderedInsert_nil, List.take_succ_cons,
    List.take_nil]

theorem topDocs_doc (body : String) (limit : Nat) :
    engine.topDocs [doc body] "Tokio" none (limit + 1) = [(1.0, doc body)] := by
  have hmatch : engine.hits "Tokio" none (doc body) = true := by
    dsimp only [QueryEngine.hits, engine, doc, Option.all]
    decide
  unfold QueryEngine.topDocs
  rw [List.filter_cons_of_pos hmatch, List.filter_nil, List.map_singleton]
  exact take_insertionSort_singleton _ _ _

theorem returned_node (body : String) :
    (node body).returned call.request "Tokio" = [(1.0, doc body)] := by
  have htop : (node body).engine.topDocs (node body).docs "Tokio" call.request.collection
      (SEARCH_LIMIT * 4) = [(1.0, doc body)] := topDocs_doc body 99
  unfold SearchNode.returned
  rw [htop]
  exact take_insertionSort_singleton _ _ _

theorem parseQuery_node (body : String) :
    (node body).engine.parseQuery (rewriteSiteFilter call.request.query) = .ok "Tokio" := by
  have hquery : rewriteSiteFilter call.request.query = "Tokio" := by decide
  rw [hquery]
  rfl

/-- A body of text only. -/
theorem snippetsSafe_iff_text : SnippetsSafe (node "async & await") call := by
  have hescapes : (node "async & await").engine.Escapes := escapes
  refine (snippetsSafe_iff hescapes call).2 ⟨fun q hq hit hhit _ ↦ ?_, fun forward hforward ↦ ?_⟩
  · rw [parseQuery_node] at hq
    obtain rfl := Except.ok.inj hq
    rw [returned_node, List.mem_singleton] at hhit
    subst hhit
    decide
  · exact absurd hforward List.not_mem_nil

/-- **A body that starts with a tag** is shown as it is. -/
theorem not_snippetsSafe :
    ¬ ∀ (node : SearchNode) (call : SearchCall), node.engine.Escapes → SnippetsSafe node call := by
  intro h
  have hlocal : (node "<script>alert(1)</script>").resultOf call.request "Tokio"
      (1.0, doc "<script>alert(1)</script>") ∈
      ((node "<script>alert(1)</script>").localOutcome call.request).results := by
    rw [SearchNode.results_localOutcome (parseQuery_node _), returned_node]
    exact List.mem_singleton.2 rfl
  have hsnippet : SnippetSafe "<script>alert(1)</script>" :=
    h (node "<script>alert(1)</script>") call escapes _
      (shows_iff.2 (List.mem_append_left _ hlocal))
  exact absurd hsnippet (by decide)

end TitleMatch

end CommunitySearch
