import CommunitySearch.Api.EntryPoints
import CommunitySearch.Federation.FanoutDepth
import CommunitySearch.Federation.StreamDecoding

/-!
# Searching a federation

One search makes engines ask engines, each with its own index, its own subscriptions and its own
clock, over streams whose events come in the order of completion. What the first engine delivers
has a description that mentions no stream: the local results of the engine at the end of every path
of subscriptions the depth allows, with the label and the weights of the path
(`federated_search_reach`). An engine that two paths lead to, or that a cycle leads back to, is
searched and delivered once for each; a subscription that fails takes the paths through it away and
no others.

The engines may change while the search goes on: `SearchNetwork` has the state of each as it is when
the request arrives.
-/

namespace CommunitySearch

/-- The subscriptions a request has been forwarded along, the first one first. -/
abbrev SearchPath := List ActiveCollectionPeer

/-- The engine at each URL when it handles the request that has come along each path. -/
abbrev SearchNetwork := String → SearchPath → SearchNode

/-- The network as the engine behind a subscription sees it. -/
def SearchNetwork.beyond (net : SearchNetwork) (peer : ActiveCollectionPeer) : SearchNetwork :=
  fun url p ↦ net url (peer :: p)

namespace ActiveCollectionPeer

/-- The request a search is forwarded as. -/
def forwarded (peer : ActiveCollectionPeer) (req : SearchRequest) : SearchRequest :=
  peer.request req (outgoingDepth req.depth)

/-- What becomes of a result of the peer. -/
def relabel (peer : ActiveCollectionPeer) (r : SearchResult) : SearchResult :=
  { r with source := peer.sourceLabel, score := r.score * peer.sourceWeight }

end ActiveCollectionPeer

section Reach

variable (text : JsonText)

/-- What the client of a peer reads of a result that is sent; `none` is an error. -/
def HttpPeerClient.heard (r : SearchResult) : Option SearchResult :=
  readResult text ((SseEvent.result r).frame text).data

/-- **An engine hears another**: it accepts the request, streams its results to the end, and the
client reads them. -/
inductive Hears (node : SearchNode) (req : SearchRequest) : List SearchResult → Prop where
  | mk {ls : List StreamLabel} {s : SearchStream} {tail : Tail} {results : List SearchResult}
      (haccepted : searchHandler peerClientHeaders req = .ok ⟨.stream, req⟩)
      (hrun : SearchStream.machine.run (.spawn req) ls = some s)
      (hadmits : SearchStream.machine.Guarded (node.env req).Admits (.spawn req) ls)
      (hfinished : s.phase = .finished) (htaken : s.channel = []) (hsilent : tail.Silent)
      (hread : HttpPeerClient.search text
        (.ok ⟨200, s.received.map (fun event ↦ .ok (event.frame text)) ++ tail.frames,
          tail.ending⟩) = .ok results) :
    Hears node req results

/-- **The engines of a search.** Each hears the peers it forwards the search to, or fails to. -/
inductive Federated : SearchNetwork → String → SearchRequest → Prop where
  | mk {net : SearchNetwork} {url : String} {req : SearchRequest}
      (hears : ∀ peer request, (peer, request) ∈ (net url []).forwards req → ∀ results,
        (net url []).answer peer request = .ok results →
          Hears text (net peer.nodePeerUrl [peer]) request results)
      (beyond : ∀ peer request, (peer, request) ∈ (net url []).forwards req → ∀ results,
        (net url []).answer peer request = .ok results →
          Federated (net.beyond peer) peer.nodePeerUrl request) :
    Federated net url req

/-- Each subscription of the path is one of the engine before it, for the collection that engine is
asked for. -/
def Subscribed : SearchNetwork → String → Option String → SearchPath → Prop
  | _, _, _, [] => True
  | net, url, collection, peer :: p =>
    peer ∈ activeCollectionPeersFor (net url []).federation (collection.getD "") ∧
      Subscribed (net.beyond peer) peer.nodePeerUrl (some peer.remoteCollection) p

/-- No engine on the path fails to answer the one before it. -/
def Answering : SearchNetwork → String → SearchRequest → SearchPath → Prop
  | _, _, _, [] => True
  | net, url, req, peer :: p =>
    ((net url []).answer peer (peer.forwarded req)).isOk ∧
      Answering (net.beyond peer) peer.nodePeerUrl (peer.forwarded req) p

/-- What a path contributes to a search: the local results of the engine at its end, as they are
when every engine on the way has read, labelled and weighted them. -/
def contribution : SearchNetwork → String → SearchRequest → SearchPath → List SearchResult
  | net, url, req, [] => ((net url []).localOutcome req).results
  | net, _, req, peer :: p =>
    ((contribution (net.beyond peer) peer.nodePeerUrl (peer.forwarded req) p).filterMap
      (HttpPeerClient.heard text)).map peer.relabel

variable {text : JsonText}

/-! ### One engine -/

namespace HttpPeerClient

variable {ending : StreamEnd} {out results : List SearchResult}

/-- **The client reads the events** one by one, and what follows them adds nothing. -/
theorem consume_events_iff {tail : Tail} (hsilent : tail.Silent) {events : List SseEvent} :
    consume text out tail.ending (events.map (fun e ↦ .ok (e.frame text)) ++ tail.frames) =
        .ok results ↔
      (∀ r ∈ events.filterMap SseEvent.result?, (heard text r).isSome) ∧
        results = out ++ (events.filterMap SseEvent.result?).filterMap (heard text) := by
  induction events generalizing out with
  | nil =>
    have hend : consume text out tail.ending tail.frames = .ok out :=
      (consume_tail_eq_ok_iff tail).2 hsilent
    have hnone : ([] : List SseEvent).filterMap SseEvent.result? = [] := rfl
    rw [List.map_nil, List.nil_append, hend, hnone, List.filterMap_nil, List.append_nil]
    exact ⟨fun h ↦ ⟨nofun, (Except.ok.inj h).symm⟩, fun h ↦ congrArg Except.ok h.2.symm⟩
  | cons event events ih =>
    cases event with
    | result r =>
      have hresults : (SseEvent.result r :: events).filterMap SseEvent.result? =
          r :: events.filterMap SseEvent.result? := rfl
      rw [List.map_cons, List.cons_append, hresults, List.forall_mem_cons]
      cases hheard : heard text r with
      | none =>
        rw [consume_bad_result rfl hheard]
        exact ⟨nofun, fun h ↦ absurd h.1.1 Bool.false_ne_true⟩
      | some r' =>
        rw [consume_result rfl hheard, ih, List.filterMap_cons_some hheard, List.append_assoc]
        exact ⟨fun h ↦ ⟨⟨rfl, h.1⟩, h.2⟩, fun h ↦ ⟨h.1.2, h.2⟩⟩
    | sourceComplete source => exact ih
    | done => exact ih

end HttpPeerClient

/-- **What an engine hears** is what the other finds, as it is read. -/
theorem Hears.perm {node : SearchNode} {req : SearchRequest} {results : List SearchResult}
    (h : Hears text node req results) :
    results.Perm ((node.results req).filterMap (HttpPeerClient.heard text)) := by
  obtain ⟨-, hrun, hadmits, hfinished, htaken, hsilent, hread⟩ := h
  obtain ⟨-, rfl⟩ := (HttpPeerClient.consume_events_iff hsilent).1 hread
  exact (Delivers.stream hrun hadmits hfinished htaken).perm_results.filterMap _

/-- An engine is heard if it accepts the request and its results can be read. -/
theorem exists_hears {node : SearchNode} {req : SearchRequest}
    (haccepted : searchHandler peerClientHeaders req = .ok ⟨.stream, req⟩)
    (hheard : ∀ r ∈ node.results req, (HttpPeerClient.heard text r).isSome) :
    ∃ results, Hears text node req results := by
  obtain ⟨results, h⟩ := exists_delivers_stream node req
  have hall : ∀ r ∈ results, (HttpPeerClient.heard text r).isSome := fun r hr ↦
    hheard r (h.perm_results.subset hr)
  cases h with
  | stream hrun hadmits hfinished htaken =>
    exact ⟨_, .mk haccepted hrun hadmits hfinished htaken (Tail.silent_nil.2 rfl)
      ((HttpPeerClient.consume_events_iff (Tail.silent_nil.2 rfl)).2 ⟨hall, rfl⟩)⟩

/-- The subscriptions of a collection are different ones. -/
theorem nodup_activeCollectionPeersFor (t : FederationTables) (localCollection : String) :
    (activeCollectionPeersFor t localCollection).Nodup := by
  rw [activeCollectionPeersFor]
  have hids : (t.collectionPeers.rows.insertionSort fun a b ↦ a.id ≤ b.id).Pairwise
      fun a b ↦ ¬ CollectionPeerRow.Clash a b :=
    (List.perm_insertionSort _ _).symm.pairwise t.collectionPeers.unique
      fun h hclash ↦ h (hclash.imp Eq.symm (And.imp Eq.symm (And.imp Eq.symm Eq.symm)))
  refine List.pairwise_filterMap.2 (hids.imp fun {a b} hne peer hpeer peer' hpeer' heq ↦ hne ?_)
  have hid : ∀ {cp : CollectionPeerRow} {peer : ActiveCollectionPeer},
      ((t.nodePeer cp.nodePeerId).bind fun np ↦
        if cp.localCollection = localCollection ∧ cp.enabled = 1 ∧ np.enabled = 1 then
          some ⟨cp.id, np.id, np.url, cp.remoteCollection, cp.sourceWeight.toFloat32,
            "peer:" ++ np.url ++ "/" ++ cp.remoteCollection⟩
        else none) = some peer → peer.collectionPeerId = cp.id := by
    intro cp peer h
    obtain ⟨np, -, h⟩ := Option.bind_eq_some_iff.1 h
    obtain ⟨-, h⟩ := Option.ite_none_right_eq_some.1 h
    exact (congrArg ActiveCollectionPeer.collectionPeerId (Option.some.inj h)).symm
  exact Or.inl ((hid hpeer).symm.trans ((congrArg _ heq).trans (hid hpeer')))

/-- **The requests an engine forwards**: one for each subscription of the collection, while there is
depth left. -/
theorem SearchNode.mem_forwards {node : SearchNode} {req request : SearchRequest}
    {peer : ActiveCollectionPeer} :
    (peer, request) ∈ node.forwards req ↔ 0 < req.depth.toNat ∧
      peer ∈ activeCollectionPeersFor node.federation (req.collection.getD "") ∧
      request = peer.forwarded req := by
  have hpos : req.depth > 0 ↔ 0 < req.depth.toNat := UInt32.lt_iff_toNat_lt
  rw [SearchNode.forwards, SearchCall.forwards, SearchCall.peers, dispatch, List.mem_map, ← hpos]
  constructor
  · rintro ⟨peer', hpeer, he⟩
    obtain ⟨rfl, rfl⟩ := Prod.mk.inj he
    obtain ⟨hdepth, hpeer⟩ := List.mem_ite_nil_right.1 hpeer
    exact ⟨hdepth, hpeer, rfl⟩
  · rintro ⟨hdepth, hpeer, rfl⟩
    exact ⟨peer, List.mem_ite_nil_right.2 ⟨hdepth, hpeer⟩, rfl⟩

theorem SearchNode.nodup_forwards (node : SearchNode) (req : SearchRequest) :
    ((node.forwards req).map Prod.fst).Nodup := by
  have hpeers : (node.forwards req).map Prod.fst =
      SearchCall.peers node.federation ⟨.stream, req⟩ := by
    rw [SearchNode.forwards, SearchCall.forwards, dispatch, List.map_map]
    exact List.map_id _
  rw [hpeers, SearchCall.peers]
  split
  · exact nodup_activeCollectionPeersFor _ _
  · exact List.nodup_nil

/-! ### Along the paths -/

/-- A path the search goes along. -/
structure Searched (net : SearchNetwork) (url : String) (req : SearchRequest) (p : SearchPath) :
    Prop where
  within : p.length ≤ min req.depth.toNat 256
  subscribed : Subscribed net url req.collection p
  answering : Answering net url req p

variable {net : SearchNetwork} {url : String} {req : SearchRequest}

theorem searched_nil : Searched net url req [] := ⟨Nat.zero_le _, trivial, trivial⟩

/-- **One more engine** on the way. -/
theorem searched_cons {peer : ActiveCollectionPeer} {p : SearchPath} :
    Searched net url req (peer :: p) ↔
      (peer, peer.forwarded req) ∈ (net url []).forwards req ∧
      ((net url []).answer peer (peer.forwarded req)).isOk ∧
      Searched (net.beyond peer) peer.nodePeerUrl (peer.forwarded req) p := by
  have hdepth : (peer.forwarded req).depth.toNat = min (req.depth.toNat - 1) 255 :=
    toNat_outgoingDepth _
  have hlength : (peer :: p).length = p.length + 1 := rfl
  rw [SearchNode.mem_forwards]
  constructor
  · rintro ⟨hwithin, ⟨hpeer, hsubscribed⟩, hok, hanswering⟩
    exact ⟨⟨by omega, hpeer, rfl⟩, hok, by omega, hsubscribed, hanswering⟩
  · rintro ⟨⟨hpos, hpeer, -⟩, hok, hwithin, hsubscribed, hanswering⟩
    exact ⟨by omega, ⟨hpeer, hsubscribed⟩, hok, hanswering⟩

/-- What comes from behind a subscription that is answered. -/
theorem perm_peerResults {peer : ActiveCollectionPeer} {request : SearchRequest}
    (hrequest : request = peer.forwarded req) {results : List SearchResult}
    (hok : (net url []).answer peer request = .ok results)
    (hhears : Hears text (net peer.nodePeerUrl [peer]) request results) {paths : List SearchPath}
    (hpaths : ((net peer.nodePeerUrl [peer]).results request).Perm
      (paths.flatMap (contribution text (net.beyond peer) peer.nodePeerUrl request))) :
    ((net url []).peerResults (peer, request)).Perm
      (paths.flatMap fun p ↦ contribution text net url req (peer :: p)) := by
  have hresults : (net url []).peerResults (peer, request) = results.map peer.relabel := by
    rw [SearchNode.peerResults, hok]
    rfl
  have hall : (paths.flatMap fun p ↦ contribution text net url req (peer :: p)) =
      ((paths.flatMap (contribution text (net.beyond peer) peer.nodePeerUrl request)).filterMap
        (HttpPeerClient.heard text)).map peer.relabel := by
    rw [List.filterMap_flatMap, List.map_flatMap, hrequest]
    rfl
  rw [hresults, hall]
  exact (hhears.perm.trans (hpaths.filterMap _)).map _

/-- **What an engine finds** comes along the paths from it. The induction is on the engines of the
search; the paths through a subscription are those from the engine behind it. -/
theorem Federated.exists_paths (h : Federated text net url req) :
    ∃ paths : List SearchPath, paths.Nodup ∧ (∀ p, p ∈ paths ↔ Searched net url req p) ∧
      ((net url []).results req).Perm (paths.flatMap (contribution text net url req)) := by
  induction h with
  | @mk net url req hears _ ih =>
    have hthrough : ∀ forward, forward ∈ (net url []).forwards req → ∃ paths : List SearchPath,
        paths.Nodup ∧ (∀ p, p ∈ paths ↔ Searched net url req (forward.1 :: p)) ∧
          ((net url []).peerResults forward).Perm
            (paths.flatMap fun p ↦ contribution text net url req (forward.1 :: p)) := by
      rintro ⟨peer, request⟩ hforward
      obtain ⟨-, -, rfl⟩ := SearchNode.mem_forwards.1 hforward
      cases hanswer : (net url []).answer peer (peer.forwarded req) with
      | error e =>
        refine ⟨[], List.nodup_nil, fun p ↦ iff_of_false List.not_mem_nil fun hp ↦ ?_, ?_⟩
        · have hok := (searched_cons.1 hp).2.1
          rw [hanswer] at hok
          cases hok
        · rw [SearchNode.peerResults, hanswer]
          exact .refl _
      | ok results =>
        obtain ⟨paths, hnodup, hmem, hperm⟩ := ih _ _ hforward _ hanswer
        refine ⟨paths, hnodup, fun p ↦ ?_,
          perm_peerResults rfl hanswer (hears _ _ hforward _ hanswer) hperm⟩
        rw [hmem, searched_cons, hanswer]
        exact ⟨fun hp ↦ ⟨hforward, rfl, hp⟩, fun hp ↦ hp.2.2⟩
    choose! through hnodup hmem hperm using hthrough
    refine ⟨[] :: ((net url []).forwards req).flatMap fun forward ↦
      (through forward).map (forward.1 :: ·), ?_, fun p ↦ ?_, ?_⟩
    · refine List.nodup_cons.2 ⟨fun hnil ↦ ?_, List.nodup_flatMap.2 ⟨fun forward hforward ↦ ?_, ?_⟩⟩
      · obtain ⟨forward, -, hp⟩ := List.mem_flatMap.1 hnil
        obtain ⟨p, -, hp⟩ := List.mem_map.1 hp
        cases hp
      · exact (hnodup forward hforward).map fun p q hpq ↦ (List.cons.inj hpq).2
      · refine (List.pairwise_map.1 (SearchNode.nodup_forwards _ req)).imp fun {f g} hne ↦ ?_
        intro p hp hq
        obtain ⟨p', -, rfl⟩ := List.mem_map.1 hp
        obtain ⟨q', -, hq⟩ := List.mem_map.1 hq
        exact hne (List.cons.inj hq).1.symm
    · cases p with
      | nil => exact iff_of_true (List.mem_cons_self ..) searched_nil
      | cons peer p =>
        rw [List.mem_cons, or_iff_right (List.cons_ne_nil _ _), List.mem_flatMap]
        constructor
        · rintro ⟨forward, hforward, hp⟩
          obtain ⟨p', hp', hcons⟩ := List.mem_map.1 hp
          obtain ⟨rfl, rfl⟩ := List.cons.inj hcons
          exact (hmem forward hforward p').1 hp'
        · intro hp
          have hforward := (searched_cons.1 hp).1
          exact ⟨_, hforward, List.mem_map.2 ⟨p, (hmem _ hforward p).2 hp, rfl⟩⟩
    · rw [List.flatMap_cons, List.flatMap_assoc]
      refine .append (.of_eq rfl) ?_
      refine List.Perm.trans (List.Perm.flatMap_left _ hperm) (.of_eq ?_)
      exact List.flatMap_congr fun forward _ ↦ (List.flatMap_map ..).symm

/-- **What a federated search delivers**: the local results from the end of each path the search
goes along, whichever way they are delivered. -/
theorem federated_search_reach {call : SearchCall} (h : Federated text net url call.request)
    {results : List SearchResult} (hresults : Delivers (net url []) call results) :
    ∃ paths : List SearchPath, paths.Nodup ∧ (∀ p, p ∈ paths ↔ Searched net url call.request p) ∧
      results.Perm (paths.flatMap (contribution text net url call.request)) := by
  obtain ⟨paths, hnodup, hmem, hperm⟩ := h.exists_paths
  exact ⟨paths, hnodup, hmem, hresults.perm_results.trans hperm⟩

end Reach

namespace SelfPeer

/-- The engine is a peer of itself. -/
def tables : FederationTables where
  nodePeers := ⟨[⟨1, "https://guide.example", none, 1, 0, none, none, none⟩], by decide⟩
  collectionPeers := ⟨[⟨1, "guide", 1, "guide", 1, 1⟩], by decide⟩

def engine : SearchNode := { OneDocument.node with federation := tables }

/-- The subscription. -/
def itself : ActiveCollectionPeer where
  collectionPeerId := 1
  nodePeerId := 1
  nodePeerUrl := "https://guide.example"
  remoteCollection := "guide"
  sourceWeight := (1 : Float).toFloat32
  sourceLabel := "peer:" ++ "https://guide.example" ++ "/" ++ "guide"

def result (score : Float32) : SearchResult :=
  ⟨"Guide", "https://guide.example/", "async with tokio", "local", 0, score⟩

def written : Json := (SseEvent.result (result 1)).toJson OneResult.numbers

/-- The text of the result. -/
def text : JsonText :=
  { OneResult.numbers with
    read := fun t ↦ if t = OneResult.write written then some written else none }

def req (depth : UInt32) : SearchRequest := ⟨"tokio", some "guide", depth⟩

/-- The network, when the engine has heard `results` from itself. -/
def net (results : List SearchResult) : SearchNetwork
  | _, [] => { engine with answer := fun _ _ ↦ .ok results }
  | _, _ :: _ => engine

theorem heard_result (score : Float32) :
    HttpPeerClient.heard text (result score) = some (result 1.0) := by
  have hread : text.read (text.write ((SseEvent.result (result score)).toJson text)) =
      some ((SseEvent.result (result score)).toJson text) :=
    if_pos (c := OneResult.write written = OneResult.write written) rfl
  exact (HttpPeerClient.readResult_frame hread).trans rfl

theorem results_engine : ∃ score, engine.results (req 0) = [result score] := ⟨_, rfl⟩

theorem federated (heard : List SearchResult) (h : Hears text engine (req 0) heard) (url : String) :
    Federated text (net heard) url (req 1) := by
  have hforwards : (net heard url []).forwards (req 1) = [(itself, req 0)] := rfl
  refine .mk (fun peer request hforward results hok ↦ ?_) fun peer request hforward _ _ ↦ ?_
  · rw [hforwards] at hforward
    obtain ⟨rfl, rfl⟩ := Prod.mk.inj (List.mem_singleton.1 hforward)
    obtain rfl := Except.ok.inj hok
    exact h
  · rw [hforwards] at hforward
    obtain ⟨rfl, rfl⟩ := Prod.mk.inj (List.mem_singleton.1 hforward)
    exact .mk (fun _ _ hnone ↦ absurd hnone List.not_mem_nil) fun _ _ hnone ↦
      absurd hnone List.not_mem_nil

end SelfPeer

/-- The document is delivered twice, once as found and once as heard. -/
theorem federated_search_reach_self : ∃ heard results,
    Delivers (SelfPeer.net heard "https://guide.example" []) ⟨.stream, SelfPeer.req 1⟩ results ∧
      results.map SearchResult.url = ["https://guide.example/", "https://guide.example/"] ∧
      ∃ paths : List SearchPath, paths.Nodup ∧
        (∀ p, p ∈ paths ↔
          Searched (SelfPeer.net heard) "https://guide.example" (SelfPeer.req 1) p) ∧
        results.Perm (paths.flatMap
          (contribution SelfPeer.text (SelfPeer.net heard) "https://guide.example"
            (SelfPeer.req 1))) := by
  obtain ⟨score, hscore⟩ := SelfPeer.results_engine
  obtain ⟨heard, hheard⟩ : ∃ heard, Hears SelfPeer.text SelfPeer.engine (SelfPeer.req 0) heard := by
    refine exists_hears rfl fun r hr ↦ ?_
    rw [hscore] at hr
    obtain rfl := List.mem_singleton.1 hr
    rw [SelfPeer.heard_result]
    rfl
  have hone : heard = [SelfPeer.result 1.0] := by
    have hperm := hheard.perm
    rw [hscore, List.filterMap_cons_some (SelfPeer.heard_result score)] at hperm
    exact List.perm_singleton.1 hperm
  obtain ⟨results, hresults⟩ := exists_delivers_stream
    (SelfPeer.net heard "https://guide.example" []) (SelfPeer.req 1)
  have hurls : (results.map SearchResult.url).Perm
      (List.replicate 2 "https://guide.example/") := by
    subst hone
    exact hresults.perm_results.map SearchResult.url
  exact ⟨heard, results, hresults, List.perm_replicate.1 hurls,
    federated_search_reach (SelfPeer.federated heard hheard _) hresults⟩

end CommunitySearch
