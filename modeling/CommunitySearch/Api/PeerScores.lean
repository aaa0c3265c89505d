import CommunitySearch.Api.EntryPoints
import Mathlib.Analysis.SpecialFunctions.Pow.Real

/-!
# The scores of peer results

Local results are scored by the formula of `score`, results of a peer by `dispatch`, which
multiplies what the peer reports by the weight of the subscription, and both end up in one list.
The program that scores and merges is written here once over an arithmetic: over the floats it is
the search of the node (`map_erase_collected`, `map_erase_merged`), over the reals it is the search
with exact scores. There the two ways of scoring are compared: a result of a peer has the score of
the formula exactly when it is worth nothing or its boost makes up for its age (`reRanked_iff`).
-/

namespace CommunitySearch

/-- An arithmetic for scores. -/
structure Arithmetic (K : Type) where
  mul : K → K → K
  less : K → K → Bool
  ofFloat32 : Float32 → K
  /-- A stored `f64`, cast to `f32`. -/
  ofRat : Rat → K
  /-- `freshness_factor`. -/
  freshnessFactor : (docTs now : Int) → (halfLifeDays : Rat) → K

namespace Arithmetic

/-- The arithmetic of the program. -/
def float : Arithmetic Float32 where
  mul a b := a * b
  less a b := a < b
  ofFloat32 x := x
  ofRat q := (Rat.toF64 q).toFloat32
  freshnessFactor := CommunitySearch.freshnessFactor

/-- The age of a document, in half-lives. -/
noncomputable def halfLives (docTs now : Int) (halfLifeDays : Rat) : ℝ :=
  if halfLifeDays ≤ 0 then 0
  else ((max (Int64.ofInt now - Int64.ofInt docTs).toInt 0 : Int) : ℝ) / 86400 / halfLifeDays

open Classical in
/-- Exact arithmetic, where `value` is the number a float stands for. -/
noncomputable def exact (value : Float32 → ℝ) : Arithmetic ℝ where
  mul a b := a * b
  less a b := a < b
  ofFloat32 := value
  ofRat q := q
  freshnessFactor docTs now halfLifeDays := (1 / 2) ^ halfLives docTs now halfLifeDays

end Arithmetic

/-- The number stored under a key; one when there is none. -/
def rateOf (rates : List (String × Rat)) (key : String) : Rat :=
  ((rates.find? fun w ↦ w.1 = key).map Prod.snd).getD 1

/-- A result of a search as a peer or the local index has it, and the score it is delivered with;
`peer` is `none` for a local result. -/
structure Scored (K : Type) where
  peer : Option ActiveCollectionPeer
  result : SearchResult
  score : K

/-- The result that is delivered. -/
def Scored.erase (d : Scored Float32) : SearchResult where
  title := d.result.title
  url := d.result.url
  snippetHtml := d.result.snippetHtml
  source := (d.peer.map ActiveCollectionPeer.sourceLabel).getD d.result.source
  timestamp := d.result.timestamp
  score := d.score

namespace Arithmetic

variable {K : Type} (A : Arithmetic K)

/-- The scoring formula:
`final_score = base_relevance * source_weight * freshness_factor * domain_boost`. -/
def finalScore (cfg : RankingConfig) (baseRelevance sourceWeight : K) (domain : String)
    (docTs now : Int) : K :=
  A.mul (A.mul (A.mul baseRelevance sourceWeight)
    (A.freshnessFactor docTs now cfg.freshnessHalfLifeDays))
    (A.ofRat (rateOf cfg.domainBoosts domain))

/-- `sort_by` with the scores compared in descending order. -/
def sort (results : List (Scored K)) : List (Scored K) :=
  results.insertionSort fun a b ↦ ¬ A.less a.score b.score = true

/-- A hit of the local index. -/
def ofHit (node : SearchNode) (cfg : RankingConfig) (h : RawHitWithSnippet) : Scored K where
  peer := none
  result := node.engine.resultOfHit cfg node.now h
  score := A.finalScore cfg (A.ofFloat32 h.bm25) (A.ofRat (rateOf cfg.sourceWeights "local"))
    (node.engine.extractDomain h.url) h.timestamp node.now

/-- The local results of a search; an error counts as none. -/
def localResults (node : SearchNode) (req : SearchRequest) : List (Scored K) :=
  match node.engine.searchWithSnippets node.docs req.query req.collection (SEARCH_LIMIT * 4) with
  | .ok hits =>
    let cfg := QueryEngine.rankingFor node.db (lookupCollectionId node.db req.collection)
    (A.sort (hits.map (A.ofHit node cfg))).take SEARCH_LIMIT
  | .error _ => []

/-- The results of a peer: `dispatch` multiplies the scores they come with by the weight of the
subscription. -/
def peerResults (c : Completion) : List (Scored K) :=
  match c.answer with
  | .ok results => results.map fun r ↦
      ⟨some c.peer, r, A.mul (A.ofFloat32 r.score) (A.ofFloat32 c.peer.sourceWeight)⟩
  | .error _ => []

/-- The local results, and then those of the peers as they have answered. -/
def merged (node : SearchNode) (req : SearchRequest) (completed : List Completion) :
    List (Scored K) :=
  A.localResults node req ++ completed.flatMap A.peerResults

end Arithmetic

/-- The outcomes that come before the budget is used up. -/
def withinBudget (arrivals : List (Nat × Completion)) : List Completion :=
  (arrivals.takeWhile fun a ↦ a.1 < FANOUT_COLLECT_TIMEOUT).map Prod.snd

/-- The outcomes a search takes in: all of them, or those within the budget. -/
def Delivery.taken : Delivery → List (Nat × Completion) → List Completion
  | stream, arrivals => arrivals.map Prod.snd
  | collect, arrivals => withinBudget arrivals

/-- What a search delivers: the merged results as they come, or sorted. -/
def Arithmetic.delivered {K : Type} (A : Arithmetic K) (node : SearchNode) (req : SearchRequest)
    (delivery : Delivery) (arrivals : List (Nat × Completion)) : List (Scored K) :=
  match delivery with
  | .stream => A.merged node req (delivery.taken arrivals)
  | .collect => A.sort (A.merged node req (delivery.taken arrivals))

/-! ### Over the floats, it is the search of the node -/

section Erase

variable {node : SearchNode} {req : SearchRequest}

theorem score_eq_finalScore (inputs : ScoreInputs) (cfg : RankingConfig) :
    score inputs cfg = Arithmetic.float.finalScore cfg inputs.baseRelevance
      (weightOf cfg.sourceWeights inputs.source) inputs.domain inputs.docTimestampSecs
      inputs.nowSecs := rfl

theorem map_erase_sort (results : List (Scored Float32)) :
    (Arithmetic.float.sort results).map Scored.erase = sortByScore (results.map Scored.erase) :=
  List.map_insertionSort _ _ _ _ fun _ _ _ _ ↦ not_congr decide_eq_true_iff

theorem map_erase_localResults :
    (Arithmetic.float.localResults node req).map Scored.erase =
      (node.localOutcome req).results := by
  rw [Arithmetic.localResults, SearchNode.localOutcome, QueryEngine.localSearch]
  cases node.engine.searchWithSnippets node.docs req.query req.collection (SEARCH_LIMIT * 4) with
  | error message => rfl
  | ok hits =>
    show (List.take _ (Arithmetic.float.sort _)).map Scored.erase = List.take _ (sortByScore _)
    rw [List.map_take, map_erase_sort, List.map_map]
    rfl

theorem map_erase_peerResults (c : Completion) :
    (Arithmetic.float.peerResults c).map Scored.erase = c.outcome.results := by
  show (Arithmetic.float.peerResults c).map Scored.erase =
    (c.peer.outcome c.answer c.elapsedMs).results
  rw [Arithmetic.peerResults, ActiveCollectionPeer.outcome, PeerOutcome.results]
  cases c.answer with
  | error message => rfl
  | ok results => exact List.map_map

/-- What a stream sends, in order. -/
theorem map_erase_merged (completed : List Completion) :
    (Arithmetic.float.merged node req completed).map Scored.erase =
      (node.localOutcome req).results ++ completed.flatMap fun c ↦ c.outcome.results := by
  rw [Arithmetic.merged, List.map_append, map_erase_localResults, List.map_flatMap]
  exact congrArg _ (List.flatMap_congr fun c _ ↦ map_erase_peerResults c)

theorem results_drainPeers_eq (acc : Collected) (arrivals : List (Nat × Completion)) :
    (drainPeers acc arrivals).results =
      acc.results ++ (withinBudget arrivals).flatMap fun c ↦ c.outcome.results := by
  induction arrivals generalizing acc with
  | nil => exact (List.append_nil _).symm
  | cons a arrivals ih =>
    rw [drainPeers, withinBudget, List.takeWhile_cons]
    by_cases ha : a.1 < FANOUT_COLLECT_TIMEOUT
    · rw [if_pos ha, ih, decide_eq_true ha, List.append_assoc]
      rfl
    · rw [if_neg ha, decide_eq_false ha]
      exact (List.append_nil _).symm

/-- What `collect_search` returns. -/
theorem map_erase_collected (arrivals : List (Nat × Completion)) :
    (Arithmetic.float.delivered node req .collect arrivals).map Scored.erase =
      (collectSearch node req arrivals).results := by
  show (Arithmetic.float.sort (Arithmetic.float.merged node req (withinBudget arrivals))).map
    Scored.erase = sortByScore (drainPeers ⟨(node.localOutcome req).results, []⟩ arrivals).results
  rw [map_erase_sort, map_erase_merged, results_drainPeers_eq]

/-- What a stream that has ended has sent to a client that took all of it. -/
theorem map_erase_streamed {ls : List StreamLabel} {s : SearchStream}
    (hrun : SearchStream.machine.run (.spawn req) ls = some s)
    (hadmits : SearchStream.machine.Guarded (node.env req).Admits (.spawn req) ls)
    (hfinished : s.phase = .finished) (htaken : s.channel = []) :
    (Arithmetic.float.delivered node req .stream (s.completed.map fun c ↦ (0, c))).map
      Scored.erase = s.received.filterMap SseEvent.result? := by
  have hs : Answered node req s := Answered.of_run (hadmits.mono fun _ _ ↦ And.left) hrun
  have htakes : Delivery.stream.taken (s.completed.map fun c ↦ (0, c)) = s.completed := by
    show (s.completed.map fun c ↦ (0, c)).map Prod.snd = s.completed
    rw [List.map_map]
    exact List.map_id _
  show (Arithmetic.float.merged node req _).map Scored.erase = _
  rw [htakes, map_erase_merged,
    hs.results_received (Faultless.of_run hadmits hrun).1 hfinished htaken]

end Erase

/-! ### Over the reals, the two ways of scoring compared -/

section Exact

variable {value : Float32 → ℝ} {node : SearchNode} {req : SearchRequest}

/-- **Re-ranking**: every result of a peer has the score of the formula, with the relevance the peer
reports and the weight of its subscription. -/
def ReRanked (value : Float32 → ℝ) (node : SearchNode) (cfg : RankingConfig)
    (results : List (Scored ℝ)) : Prop :=
  ∀ d ∈ results, ∀ peer ∈ d.peer,
    d.score = (Arithmetic.exact value).finalScore cfg (value d.result.score)
      (value peer.sourceWeight) (node.engine.extractDomain d.result.url) d.result.timestamp.toInt
      node.now

/-- The boost of a result's host makes up for its age: it is two to the number of half-lives. -/
def BoostMakesUp (node : SearchNode) (cfg : RankingConfig) (r : SearchResult) : Prop :=
  (rateOf cfg.domainBoosts (node.engine.extractDomain r.url) : ℝ) =
    2 ^ Arithmetic.halfLives r.timestamp.toInt node.now cfg.freshnessHalfLifeDays

/-- Boost and freshness cancel exactly when the boost makes up for the age. -/
theorem freshness_mul_boost_eq_one_iff {cfg : RankingConfig} {r : SearchResult} :
    (Arithmetic.exact value).freshnessFactor r.timestamp.toInt node.now cfg.freshnessHalfLifeDays *
        (rateOf cfg.domainBoosts (node.engine.extractDomain r.url) : ℝ) = 1 ↔
      BoostMakesUp node cfg r := by
  set h := Arithmetic.halfLives r.timestamp.toInt node.now cfg.freshnessHalfLifeDays with hh
  have hpos : (0 : ℝ) < 2 ^ h := Real.rpow_pos_of_pos two_pos h
  have hfactor : (Arithmetic.exact value).freshnessFactor r.timestamp.toInt node.now
      cfg.freshnessHalfLifeDays = (2 ^ h)⁻¹ := by
    show (1 / 2 : ℝ) ^ h = (2 ^ h)⁻¹
    rw [one_div, Real.inv_rpow two_pos.le]
  rw [hfactor, inv_mul_eq_one₀ hpos.ne', BoostMakesUp, eq_comm]

/-- The weighted score of a result is that of the formula. -/
theorem weighted_eq_finalScore_iff (value : Float32 → ℝ) (node : SearchNode)
    (cfg : RankingConfig) (peer : ActiveCollectionPeer) (r : SearchResult) :
    value r.score * value peer.sourceWeight =
        (Arithmetic.exact value).finalScore cfg (value r.score) (value peer.sourceWeight)
          (node.engine.extractDomain r.url) r.timestamp.toInt node.now ↔
      value r.score * value peer.sourceWeight = 0 ∨ BoostMakesUp node cfg r := by
  rw [← freshness_mul_boost_eq_one_iff ]
  show value r.score * value peer.sourceWeight =
    value r.score * value peer.sourceWeight *
      (Arithmetic.exact value).freshnessFactor r.timestamp.toInt node.now
          cfg.freshnessHalfLifeDays *
        (rateOf cfg.domainBoosts (node.engine.extractDomain r.url) : ℝ) ↔ _
  rw [mul_assoc, eq_comm, mul_right_eq_self₀, or_comm]

/-- What is delivered, whichever way: the local results, and the weighted ones of the peers. -/
theorem mem_delivered_iff {delivery : Delivery} {arrivals : List (Nat × Completion)}
    {d : Scored ℝ} :
    d ∈ (Arithmetic.exact value).delivered node req delivery arrivals ↔
      d ∈ (Arithmetic.exact value).localResults node req ∨
        ∃ c ∈ delivery.taken arrivals, d ∈ (Arithmetic.exact value).peerResults c := by
  have hmerged : d ∈ (Arithmetic.exact value).delivered node req delivery arrivals ↔
      d ∈ (Arithmetic.exact value).merged node req (delivery.taken arrivals) := by
    cases delivery with
    | stream => exact Iff.rfl
    | collect => exact List.mem_insertionSort _
  rw [hmerged, Arithmetic.merged, List.mem_append, List.mem_flatMap]

/-- Local results come from no peer. -/
theorem peer_of_mem_localResults {d : Scored ℝ}
    (h : d ∈ (Arithmetic.exact value).localResults node req) : d.peer = none := by
  rw [Arithmetic.localResults] at h
  split at h
  · obtain ⟨hit, -, rfl⟩ := List.mem_map.1 ((List.mem_insertionSort _).1 (List.mem_of_mem_take h))
    rfl
  · exact absurd h List.not_mem_nil

/-- **Re-ranking, exactly.** Whatever the configuration and whatever the peers answer: the results
of the peers have the scores of the formula if and only if each of them is worth nothing or has a
boost that makes up for its age. -/
theorem reRanked_iff (value : Float32 → ℝ) (node : SearchNode) (req : SearchRequest)
    (delivery : Delivery) (arrivals : List (Nat × Completion)) (cfg : RankingConfig) :
    ReRanked value node cfg ((Arithmetic.exact value).delivered node req delivery arrivals) ↔
      ∀ c ∈ delivery.taken arrivals, ∀ results, c.answer = .ok results → ∀ r ∈ results,
        value r.score * value c.peer.sourceWeight = 0 ∨ BoostMakesUp node cfg r := by
  constructor
  · intro h c hc results hanswer r hr
    refine (weighted_eq_finalScore_iff _ _ _ _ _).1 (h ⟨some c.peer, r, _⟩
      (mem_delivered_iff.2 (Or.inr ⟨c, hc, ?_⟩)) c.peer rfl)
    rw [Arithmetic.peerResults, hanswer]
    exact List.mem_map_of_mem hr
  · intro h d hd peer hpeer
    rcases mem_delivered_iff.1 hd with hlocal | ⟨c, hc, hd⟩
    · rw [peer_of_mem_localResults hlocal] at hpeer
      cases hpeer
    · rw [Arithmetic.peerResults] at hd
      split at hd
      case h_1 results hanswer =>
        obtain ⟨r, hr, rfl⟩ := List.mem_map.1 hd
        obtain rfl := Option.some.inj hpeer
        exact (weighted_eq_finalScore_iff _ _ _ _ _).2 (h c hc results hanswer r hr)
      case h_2 => exact absurd hd List.not_mem_nil

end Exact

/-! ### An old document of a peer -/

namespace Subscription

/-- A subscription to a collection of another node, with the default weight. -/
def federation : FederationTables where
  nodePeers := ⟨[⟨1, "https://peer.example", none, 1, 0, none, none, none⟩],
    List.pairwise_singleton _ _⟩
  collectionPeers := ⟨[⟨1, "guide", 1, "guide", 1.0, 1⟩], List.pairwise_singleton _ _⟩

def peer : ActiveCollectionPeer where
  collectionPeerId := 1
  nodePeerId := 1
  nodePeerUrl := "https://peer.example"
  remoteCollection := "guide"
  sourceWeight := (1.0 : Float).toFloat32
  sourceLabel := "peer:https://peer.example/guide"

/-- The document was crawled at time zero. -/
def result : SearchResult where
  title := "Guide"
  url := "https://guide.example/"
  snippetHtml := "async with tokio"
  source := "local"
  timestamp := 0
  score := 1.0

/-- A node on which 90 days have passed since then. -/
def node : SearchNode :=
  { OneDocument.node with
    federation := federation
    now := 90 * 86400
    answer := fun _ _ ↦ .ok [result] }

def request : SearchRequest := ⟨"tokio", some "guide", 1⟩

def arrivals : List (Nat × Completion) :=
  [(12, ⟨peer, peer.request request 0, .ok [result], 12⟩)]

end Subscription

/-- The document is one half-life old, and is delivered with the score the peer reports. -/
theorem not_reRanked : ¬ ∀ (value : Float32 → ℝ) (node : SearchNode) (req : SearchRequest)
    (delivery : Delivery) (arrivals : List (Nat × Completion)) (cfg : RankingConfig),
    (arrivals.map fun a ↦ a.2.dispatched).Perm (node.forwards req) →
    (∀ a ∈ arrivals, a.2.answer = node.answer a.2.peer a.2.request) →
    ReRanked value node cfg ((Arithmetic.exact value).delivered node req delivery arrivals) := by
  intro h
  have hranked := h (fun _ ↦ 1) Subscription.node Subscription.request .collect
    Subscription.arrivals (.defaultFor 0) (.of_eq rfl) (List.forall_mem_singleton.2 rfl)
  have hmem : (⟨some Subscription.peer, Subscription.result, 1 * 1⟩ : Scored ℝ) ∈
      (Arithmetic.exact fun _ ↦ 1).delivered Subscription.node Subscription.request .collect
        Subscription.arrivals :=
    mem_delivered_iff.2 (Or.inr ⟨_, List.mem_cons_self, List.mem_cons_self⟩)
  have hage : (Int64.ofInt (90 * 86400) - Int64.ofInt 0).toInt = 7776000 := by decide
  have hhalf : Arithmetic.halfLives Subscription.result.timestamp.toInt Subscription.node.now
      (RankingConfig.defaultFor 0).freshnessHalfLifeDays = 1 := by
    show (if (90 : ℚ) ≤ 0 then (0 : ℝ) else
      ((max (Int64.ofInt (90 * 86400) - Int64.ofInt 0).toInt 0 : Int) : ℝ) / 86400 / (90 : ℚ)) = 1
    rw [if_neg (by norm_num), hage]
    norm_num
  have hformula := (weighted_eq_finalScore_iff (fun _ ↦ 1) Subscription.node (.defaultFor 0)
    Subscription.peer Subscription.result).1 (hranked _ hmem Subscription.peer rfl)
  rcases hformula with hzero | hboost
  · exact one_ne_zero ((mul_one (1 : ℝ)).symm.trans hzero)
  · rw [BoostMakesUp, hhalf, Real.rpow_one] at hboost
    have hone : ((1 : ℚ) : ℝ) = 2 := hboost
    norm_num at hone

end CommunitySearch
