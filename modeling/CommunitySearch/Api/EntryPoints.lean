import CommunitySearch.Api.CollectSearch
import CommunitySearch.Api.StreamGrammar

/-!
# The entry points of a search

A search can be asked for in four ways, and each makes its own of the arguments before it streams or
collects. `SearchNode.results` is what a search finds, in some order: the local results and those of
the peers. Every way of delivering a search delivers this (`Delivers.perm_results`), so the entry
points agree exactly where the requests they make find the same. Two differences matter: an empty
collection name is a filter for all but the MCP tool, and the stream leaves the white space around
the query.
-/

namespace CommunitySearch

namespace SearchNode

variable (node : SearchNode)

/-- What the task of a streaming search deals with. -/
def env (req : SearchRequest) : SearchEnv where
  localOutcome := node.localOutcome req
  tables := some node.federation
  answer := node.answer

/-- What a peer contributes to a search. -/
def peerResults (forward : ActiveCollectionPeer × SearchRequest) : List SearchResult :=
  (forward.1.outcome (node.answer forward.1 forward.2) 0).results

/-- The requests a search is forwarded as. -/
def forwards (req : SearchRequest) : List (ActiveCollectionPeer × SearchRequest) :=
  SearchCall.forwards node.federation ⟨.stream, req⟩

/-- **What a search finds**: the local results, and those of the peers. -/
def results (req : SearchRequest) : List SearchResult :=
  (node.localOutcome req).results ++ (node.forwards req).flatMap node.peerResults

end SearchNode

/-- The results a search call delivers to a client that stays. -/
inductive Delivers (node : SearchNode) : SearchCall → List SearchResult → Prop where
  /-- The stream has ended, and the client has taken all of it. -/
  | stream {req : SearchRequest} {ls : List StreamLabel} {s : SearchStream}
      (hrun : SearchStream.machine.run (.spawn req) ls = some s)
      (hadmits : SearchStream.machine.Guarded (node.env req).Admits (.spawn req) ls)
      (hfinished : s.phase = .finished) (htaken : s.channel = []) :
    Delivers node ⟨.stream, req⟩ (s.received.filterMap SseEvent.result?)
  /-- The peers have answered within the budget, in some order. -/
  | collect {req : SearchRequest} {arrivals : List (Nat × Completion)}
      (hpeers : (arrivals.map fun a ↦ a.2.dispatched).Perm (node.forwards req))
      (hanswers : ∀ a ∈ arrivals, a.2.answer = node.answer a.2.peer a.2.request)
      (hbudget : ∀ a ∈ arrivals, a.1 < FANOUT_COLLECT_TIMEOUT) :
    Delivers node ⟨.collect, req⟩ (collectSearch node req arrivals).results

/-! ### What is delivered -/

section Delivered

variable {node : SearchNode} {req : SearchRequest}

/-- The time an answer takes does not matter. -/
theorem results_outcome {c : Completion} (h : c.answer = node.answer c.peer c.request) :
    c.outcome.results = node.peerResults c.dispatched := by
  rw [Completion.outcome, h]
  rfl

theorem flatMap_results {completed : List Completion}
    (h : ∀ c ∈ completed, c.answer = node.answer c.peer c.request) :
    completed.flatMap (fun c ↦ c.outcome.results) =
      (completed.map Completion.dispatched).flatMap node.peerResults := by
  rw [List.flatMap_map]
  exact List.flatMap_congr fun c hc ↦ results_outcome (h c hc)

theorem forwards_of_not_pos (h : ¬ req.depth > 0) : node.forwards req = [] := by
  have hpeers : SearchCall.peers node.federation ⟨.stream, req⟩ = [] := if_neg h
  rw [SearchNode.forwards, SearchCall.forwards, hpeers]
  rfl

/-- A send leaves the early phases without a lookup only at depth zero. -/
theorem early_or_depth_of_sending {phase next : StreamPhase} {event : SseEvent} {depth : UInt32}
    (h : phase.sending depth = some (event, next)) (hearly : phase.Early) :
    next.Early ∨ ¬ depth > 0 := by
  cases phase with
  | sendLocal rest =>
    cases rest with
    | nil =>
      obtain ⟨-, rfl⟩ := Prod.mk.inj (Option.some.inj h)
      by_cases hdepth : depth > 0
      · rw [if_pos hdepth]
        exact Or.inl trivial
      · exact Or.inr hdepth
    | cons r rest =>
      obtain ⟨-, rfl⟩ := Prod.mk.inj (Option.some.inj h)
      exact Or.inl trivial
  | searching | lookup => cases h
  | awaitPeer | record | sendPeer | sendDone | finished | panicked => exact hearly.elim

/-- What holds of a stream when those it deals with answer as the node has it. -/
structure Answered (node : SearchNode) (req : SearchRequest) (s : SearchStream) : Prop where
  inv : s.Inv req
  found : s.phase ≠ .searching → s.localResults = (node.localOutcome req).results
  dispatched : ¬ s.phase.Early → (∀ place, s.phase ≠ .panicked place) →
    s.dispatched = node.forwards req
  forwarded : ∀ c ∈ s.completed, c.dispatched ∈ node.forwards req
  answers : ∀ c ∈ s.completed, c.answer = node.answer c.peer c.request

theorem answered_spawn : Answered node req (.spawn req) where
  inv := SearchStream.inv_spawn req
  found h := absurd rfl h
  dispatched h := absurd trivial h
  forwarded := nofun
  answers := nofun

/-- A send goes on with what has been found and dispatched. -/
theorem Answered.sending {s s' : SearchStream} {event : SseEvent} (hs : Answered node req s)
    (hsend : s.phase.sending s.request.depth = some (event, s'.phase)) (hinv : s'.Inv req)
    (hlocal : s'.localResults = s.localResults) (hdispatched : s'.dispatched = s.dispatched)
    (hcompleted : s'.completed = s.completed) : Answered node req s' := by
  have hphase : s.phase ≠ .searching ∧ ∀ place, s.phase ≠ .panicked place := by
    refine ⟨fun h ↦ ?_, fun place h ↦ ?_⟩
    · rw [h] at hsend
      cases hsend
    · rw [h] at hsend
      cases hsend
  refine ⟨hinv, fun _ ↦ hlocal.trans (hs.found hphase.1), fun h _ ↦ hdispatched.trans ?_,
    hcompleted ▸ hs.forwarded, hcompleted ▸ hs.answers⟩
  by_cases hearly : s.phase.Early
  · have hdepth := (early_or_depth_of_sending hsend hearly).resolve_left h
    rw [hs.inv.request_eq] at hdepth
    rw [forwards_of_not_pos hdepth]
    exact (hs.inv.early hearly).2
  · exact hs.dispatched hearly hphase.2

/-- **A step** of a stream is as the node answers. -/
theorem Answered.step {s s' : SearchStream} {l : StreamLabel} (hs : Answered node req s)
    (hanswers : (node.env req).Answers s l) (hstep : SearchStream.machine.step s l = some s') :
    Answered node req s' := by
  have hinv := hs.inv.step hstep
  -- between the lookup and the end the requests dispatched are those of the node
  have hawait : s.phase = .awaitPeer → s.dispatched = node.forwards req := fun h ↦
    hs.dispatched (by rw [h]; exact id) (by rw [h]; nofun)
  cases SearchStream.steps_of_step hstep with
  | localSearch outcome hphase =>
    have houtcome : outcome = node.localOutcome req := hanswers
    exact ⟨hinv, fun _ ↦ congrArg LocalOutcome.results houtcome, fun h ↦ absurd trivial h,
      hs.forwarded, hs.answers⟩
  | sendGone hsend hgone => exact hs.sending hsend hinv rfl rfl rfl
  | send hsend hthere hroom => exact hs.sending hsend hinv rfl rfl rfl
  | lookup t hphase hlock =>
    have ht : t = some node.federation := hanswers
    refine ⟨hinv, fun _ ↦ hs.found (by rw [hphase]; nofun), fun _ _ ↦ ?_, hs.forwarded, hs.answers⟩
    rw [SearchStream.dispatchTo, ht, hs.inv.request_eq]
    rfl
  | lookupPanic t hphase hlock =>
    exact ⟨hinv, fun _ ↦ hs.found (by rw [hphase]; nofun), fun _ h ↦ absurd rfl (h _),
      hs.forwarded, hs.answers⟩
  | complete answer elapsedMs hphase hi =>
    have hanswer := hanswers _ hi
    have hmem := hs.inv.dispatched_perm.subset
      (List.mem_append_right _ (List.mem_of_getElem? hi))
    rw [hawait hphase] at hmem
    exact ⟨hinv, fun _ ↦ hs.found (by rw [hphase]; nofun), fun _ _ ↦ hawait hphase,
      List.forall_mem_append.2 ⟨hs.forwarded, List.forall_mem_singleton.2 hmem⟩,
      List.forall_mem_append.2 ⟨hs.answers, List.forall_mem_singleton.2 hanswer⟩⟩
  | exhausted hphase hnone =>
    exact ⟨hinv, fun _ ↦ hs.found (by rw [hphase]; nofun), fun _ _ ↦ hawait hphase,
      hs.forwarded, hs.answers⟩
  | record hphase hlock =>
    exact ⟨hinv, fun _ ↦ hs.found (by rw [hphase]; nofun),
      fun _ _ ↦ hs.dispatched (by rw [hphase]; exact id) (by rw [hphase]; nofun),
      hs.forwarded, hs.answers⟩
  | recordPanic hphase hlock =>
    exact ⟨hinv, fun _ ↦ hs.found (by rw [hphase]; nofun), fun _ h ↦ absurd rfl (h _),
      hs.forwarded, hs.answers⟩
  | receive hchannel => exact ⟨hinv, hs.found, hs.dispatched, hs.forwarded, hs.answers⟩
  | disconnect hthere => exact ⟨hinv, hs.found, hs.dispatched, hs.forwarded, hs.answers⟩
  | poison hlock => exact ⟨hinv, hs.found, hs.dispatched, hs.forwarded, hs.answers⟩

theorem Answered.of_run {ls : List StreamLabel} {s : SearchStream}
    (hanswers : SearchStream.machine.Guarded (node.env req).Answers (.spawn req) ls)
    (hrun : SearchStream.machine.run (.spawn req) ls = some s) : Answered node req s :=
  Machine.guarded_invariant (I := Answered node req) (fun _ _ _ hs hok hstep ↦ hs.step hok hstep)
    answered_spawn hanswers hrun

/-- The client is there, and nobody has panicked over the database. -/
def Faultless (s : SearchStream) : Prop := s.connected = true ∧ s.poisoned = false

theorem Faultless.step {s s' : SearchStream} {l : StreamLabel} (hs : Faultless s)
    (hfault : l ≠ .disconnect ∧ l ≠ .poison) (hstep : SearchStream.machine.step s l = some s') :
    Faultless s' := by
  cases SearchStream.steps_of_step hstep with
  | disconnect hthere => exact absurd rfl hfault.1
  | poison hlock => exact absurd rfl hfault.2
  | localSearch | sendGone | send | lookup | lookupPanic | complete | exhausted | record
    | recordPanic | receive => exact hs

theorem Faultless.of_run {ls : List StreamLabel} {s : SearchStream}
    (hadmits : SearchStream.machine.Guarded (node.env req).Admits (.spawn req) ls)
    (hrun : SearchStream.machine.run (.spawn req) ls = some s) : Faultless s :=
  Machine.guarded_invariant (I := Faultless) (fun _ _ _ hs hok hstep ↦ hs.step hok.2 hstep)
    ⟨rfl, rfl⟩ hadmits hrun

/-- What has been sent is found by the search. -/
theorem Answered.mem_results {s : SearchStream} (hs : Answered node req s) {r : SearchResult}
    (hr : SseEvent.result r ∈ s.sent) : r ∈ node.results req := by
  have hmem : SseEvent.result r ∈ streamEvents s.localResults
      (s.completed.map Completion.outcome) := by
    rw [← hs.inv.sent_eq]
    exact List.mem_append_left _ hr
  have hresult : r ∈ (streamEvents s.localResults (s.completed.map Completion.outcome)).filterMap
      SseEvent.result? := List.mem_filterMap.2 ⟨_, hmem, rfl⟩
  rw [filterMap_result?_streamEvents, List.flatMap_map, flatMap_results hs.answers] at hresult
  rcases List.mem_append.1 hresult with hlocal | hpeer
  · by_cases hphase : s.phase = .searching
    · rw [hs.inv.searching hphase] at hr
      exact absurd hr List.not_mem_nil
    · exact List.mem_append_left _ (hs.found hphase ▸ hlocal)
  · obtain ⟨forward, hforward, hr⟩ := List.mem_flatMap.1 hpeer
    obtain ⟨c, hc, rfl⟩ := List.mem_map.1 hforward
    exact List.mem_append_right _ (List.mem_flatMap.2 ⟨_, hs.forwarded c hc, hr⟩)

/-- What a client that stays has received when the stream has ended: the local results, and those of
the peers in the order they answered. -/
theorem Answered.results_received {s : SearchStream} (hs : Answered node req s)
    (hconnected : s.connected = true) (hfinished : s.phase = .finished) (htaken : s.channel = []) :
    s.received.filterMap SseEvent.result? =
      (node.localOutcome req).results ++ s.completed.flatMap fun c ↦ c.outcome.results := by
  have hreceived : s.received = s.sent := by
    have h := hs.inv.received_eq hconnected
    rw [htaken, List.append_nil] at h
    exact h
  have hsent : s.sent = streamEvents s.localResults (s.completed.map Completion.outcome) := by
    have h := hs.inv.sent_eq
    rw [hfinished] at h
    exact (List.append_nil _).symm.trans h
  rw [hreceived, hsent, filterMap_result?_streamEvents, hs.found (by rw [hfinished]; nofun),
    List.flatMap_map]

/-- A finished stream has delivered what the search finds. -/
theorem Answered.perm_results {s : SearchStream} (hs : Answered node req s)
    (hconnected : s.connected = true) (hfinished : s.phase = .finished) (htaken : s.channel = []) :
    (s.received.filterMap SseEvent.result?).Perm (node.results req) := by
  have hperm : (s.completed.map Completion.dispatched).Perm (node.forwards req) := by
    have h := hs.inv.dispatched_perm
    rw [hs.inv.idle (by rw [hfinished]; trivial), List.append_nil,
      hs.dispatched (by rw [hfinished]; exact id) (by rw [hfinished]; nofun)] at h
    exact h
  rw [hs.results_received hconnected hfinished htaken, flatMap_results hs.answers]
  exact (hperm.flatMap_right _).append_left _

/-- **Every way of delivering** a search delivers what it finds. -/
theorem Delivers.perm_results {call : SearchCall} {results : List SearchResult}
    (h : Delivers node call results) : results.Perm (node.results call.request) := by
  cases h with
  | stream hrun hadmits hfinished htaken =>
    exact (Answered.of_run (hadmits.mono fun _ _ ↦ And.left) hrun).perm_results
      (Faultless.of_run hadmits hrun).1 hfinished htaken
  | @collect req arrivals hpeers hanswers hbudget =>
    refine (perm_sortByScore _).trans ?_
    have hcompleted : ∀ c ∈ arrivals.map Prod.snd, c.answer = node.answer c.peer c.request := by
      intro c hc
      obtain ⟨a, ha, rfl⟩ := List.mem_map.1 hc
      exact hanswers a ha
    rw [results_drainPeers hbudget, flatMap_results hcompleted, List.map_map]
    exact (hpeers.flatMap_right _).append_left _

/-- A stream can be delivered. -/
theorem exists_delivers_stream (node : SearchNode) (req : SearchRequest) :
    ∃ results, Delivers node ⟨.stream, req⟩ results := by
  have hnext : ∀ s, (s.Inv req ∧ Faultless s) → ¬ (s.phase = .finished ∧ s.channel = []) →
      ∃ l s', (node.env req).Admits s l ∧ SearchStream.machine.step s l = some s' ∧
        s'.Inv req ∧ Faultless s' := by
    rintro s ⟨hinv, hs⟩ hgoal
    have hstep : ∃ l s', (node.env req).Admits s l ∧ SearchStream.machine.step s l = some s' := by
      by_cases hfinished : s.phase = .finished
      · refine SearchEnv.exists_of_isSome (l := .receive) trivial ⟨nofun, nofun⟩ ?_
        obtain ⟨event, channel, hchannel⟩ := List.exists_cons_of_ne_nil fun h ↦ hgoal ⟨hfinished, h⟩
        rw [SearchStream.step, hchannel]
        rfl
      · refine (node.env req).exists_step hfinished fun place h ↦ ?_
        exact absurd (hs.2.symm.trans (hinv.panicked place h)) Bool.false_ne_true
    obtain ⟨l, s', hadmits, hstep⟩ := hstep
    exact ⟨l, s', hadmits, hstep, hinv.step hstep, hs.step hadmits.2 hstep⟩
  obtain ⟨ls, s, hadmits, hrun, -, hfinished, htaken⟩ :=
    Machine.exists_guarded_run SearchStream.wellFounded_step hnext
      ⟨SearchStream.inv_spawn req, rfl, rfl⟩
  exact ⟨_, .stream hrun hadmits hfinished htaken⟩

/-- All outcomes may come at once. -/
theorem exists_delivers_collect (node : SearchNode) (req : SearchRequest) :
    ∃ results, Delivers node ⟨.collect, req⟩ results := by
  let arrivals := (node.forwards req).map fun forward ↦
    (0, (⟨forward.1, forward.2, node.answer forward.1 forward.2, 0⟩ : Completion))
  have hpeers : (arrivals.map fun a ↦ a.2.dispatched).Perm (node.forwards req) := by
    rw [List.map_map]
    exact .of_eq (List.map_id _)
  refine ⟨_, .collect hpeers ?_ ?_⟩
  · exact List.forall_mem_map.2 fun forward _ ↦ rfl
  · exact List.forall_mem_map.2 fun forward _ ↦ Nat.zero_lt_succ _

theorem exists_delivers (node : SearchNode) (call : SearchCall) :
    ∃ results, Delivers node call results := by
  obtain ⟨delivery, req⟩ := call
  cases delivery with
  | stream => exact exists_delivers_stream node req
  | collect => exact exists_delivers_collect node req

end Delivered

/-! ### The entry points -/

/-- The ways to ask for a search. -/
inductive EntryPoint where
  /-- `POST /api/search`, as SSE or as JSON. -/
  | post (headers : HeaderMap)
  /-- `GET /api/search`. -/
  | get
  /-- The MCP search tool. -/
  | mcp

/-- The call an entry point makes of the arguments. -/
def EntryPoint.call (req : SearchRequest) : EntryPoint → Except SearchError SearchCall
  | post headers => searchHandler headers req
  | get => searchGet req.query req.collection req.depth
  | mcp => toolsCall (some req.query) req.collection (some req.depth.toUInt64)

/-- How an entry point delivers. -/
def EntryPoint.delivery : EntryPoint → Delivery
  | post headers => if wantsJson headers then .collect else .stream
  | get | mcp => .collect

namespace SearchRequest

/-- The request with the white space around the query trimmed. -/
def trimmed (req : SearchRequest) : SearchRequest := { req with query := Text.trim req.query }

/-- The request of the MCP tool: an empty name is no name. -/
def ofTool (req : SearchRequest) : SearchRequest :=
  { req.trimmed with collection := req.collection.filter fun name ↦ !name.isEmpty }

end SearchRequest

/-- The request an entry point makes. -/
def EntryPoint.request (req : SearchRequest) : EntryPoint → SearchRequest
  | post headers => if wantsJson headers then req.trimmed else req
  | get => req.trimmed
  | mcp => req.ofTool

/-- **Entry-point agreement**: all entry points deliver the same results, up to order. -/
def EntryPointsAgree (node : SearchNode) (req : SearchRequest) : Prop :=
  ∀ (e e' : EntryPoint) (call call' : SearchCall) (results results' : List SearchResult),
    e.call req = .ok call → e'.call req = .ok call' → Delivers node call results →
      Delivers node call' results' → results.Perm results'

section Calls

variable {node : SearchNode} {req : SearchRequest}

theorem runJsonSearch_of_le {query : String} {collection : Option String} {depth : UInt32}
    (h : depth ≤ MAX_FANOUT_DEPTH) :
    runJsonSearch query collection depth = ⟨.collect, ⟨query, collection, depth⟩⟩ := by
  have hmin : min depth MAX_FANOUT_DEPTH = depth := if_pos h
  rw [runJsonSearch, hmin]

theorem min_toUInt64 {depth : UInt32} (h : depth ≤ MAX_FANOUT_DEPTH) :
    (min depth.toUInt64 MAX_FANOUT_DEPTH.toUInt64).toUInt32 = depth := by
  have hle : depth.toUInt64 ≤ MAX_FANOUT_DEPTH.toUInt64 := by
    rw [UInt64.le_iff_toNat_le, UInt32.toNat_toUInt64, UInt32.toNat_toUInt64]
    exact UInt32.le_iff_toNat_le.1 h
  have hmin : min depth.toUInt64 MAX_FANOUT_DEPTH.toUInt64 = depth.toUInt64 := if_pos hle
  rw [hmin, UInt32.toUInt32_toUInt64]

/-- A request that is not refused, at every entry point. -/
theorem EntryPoint.call_eq (hquery : (Text.trim req.query).isEmpty = false)
    (hdepth : req.depth ≤ MAX_FANOUT_DEPTH) (e : EntryPoint) :
    e.call req = .ok ⟨e.delivery, e.request req⟩ := by
  have hsome : ¬ (Text.trim req.query).isEmpty = true := by
    rw [hquery]
    exact Bool.false_ne_true
  cases e with
  | post headers =>
    rw [call, searchHandler, if_neg hsome, delivery, request]
    by_cases hjson : wantsJson headers = true
    · rw [if_pos hjson, if_pos hjson, if_pos hjson, runJsonSearch_of_le hdepth]
      rfl
    · rw [if_neg hjson, if_neg hjson, if_neg hjson]
  | get =>
    rw [call, searchGet, if_neg hsome, runJsonSearch_of_le hdepth]
    rfl
  | mcp =>
    rw [call, toolsCall, Option.getD_some, Option.getD_some, if_neg hsome, min_toUInt64 hdepth]
    rfl

/-- The entry points agree if their requests find the same. -/
theorem entryPointsAgree_iff_results (hquery : (Text.trim req.query).isEmpty = false)
    (hdepth : req.depth ≤ MAX_FANOUT_DEPTH) :
    EntryPointsAgree node req ↔
      ∀ e e' : EntryPoint, (node.results (e.request req)).Perm (node.results (e'.request req)) := by
  constructor
  · intro h e e'
    obtain ⟨results, hresults⟩ := exists_delivers node ⟨e.delivery, e.request req⟩
    obtain ⟨results', hresults'⟩ := exists_delivers node ⟨e'.delivery, e'.request req⟩
    have hperm := h e e' _ _ _ _ (e.call_eq hquery hdepth) (e'.call_eq hquery hdepth) hresults
      hresults'
    exact hresults.perm_results.symm.trans (hperm.trans hresults'.perm_results)
  · intro h e e' call call' results results' hcall hcall' hresults hresults'
    obtain rfl := Except.ok.inj ((e.call_eq hquery hdepth).symm.trans hcall)
    obtain rfl := Except.ok.inj ((e'.call_eq hquery hdepth).symm.trans hcall')
    exact hresults.perm_results.trans ((h e e').trans hresults'.perm_results.symm)

/-- The MCP tool makes the request of the others but for an empty name. -/
theorem ofTool_eq (h : req.collection ≠ some "") : req.ofTool = req.trimmed := by
  obtain ⟨query, collection, depth⟩ := req
  cases collection with
  | none => rfl
  | some name =>
    have hname : (!name.isEmpty) = true := by
      rw [Bool.not_eq_true', ← Bool.not_eq_true, String.isEmpty_iff]
      exact fun he ↦ h (congrArg some he)
    have hfilter : (some name).filter (fun name ↦ !name.isEmpty) = some name := if_pos hname
    rw [SearchRequest.ofTool, hfilter]
    rfl

/-- An empty name is forwarded as no name is. -/
theorem forwards_ofTool (h : req.collection = some "") :
    node.forwards req.ofTool = node.forwards req.trimmed := by
  obtain ⟨query, collection, depth⟩ := req
  dsimp only at h
  subst h
  rfl

/-- The filter on the empty name finds nothing where no document has an empty collection name. -/
theorem results_localOutcome_of_emptyName (hdocs : ∀ d ∈ node.docs, d.collection ≠ "")
    (h : req.collection = some "") : (node.localOutcome req).results = [] := by
  have hnone : ∀ q, node.docs.filter (node.engine.hits q (some "")) = [] := fun q ↦ by
    refine List.filter_eq_nil_iff.2 fun d hd hhit ↦ hdocs d hd ?_
    exact of_decide_eq_true (Bool.and_eq_true_iff.1 hhit).2
  rw [SearchNode.localOutcome, h, QueryEngine.localSearch, QueryEngine.searchWithSnippets]
  cases node.engine.parseQuery (rewriteSiteFilter req.query) with
  | error e => rfl
  | ok q =>
    dsimp only [Except.map]
    rw [QueryEngine.topDocs, hnone q]
    rfl

/-- Nothing that is searched tells the requests of the entry points apart. -/
structure Indifferent (node : SearchNode) (req : SearchRequest) : Prop where
  /-- The local index finds the same with the filter on an empty name as without a filter. -/
  emptyName : req.collection = some "" →
    (node.localOutcome req.trimmed).results.Perm (node.localOutcome req.ofTool).results
  /-- The local index and the peers together find the same whether or not the white space around
  the query is trimmed. -/
  whiteSpace : Text.trim req.query ≠ req.query →
    (node.results req).Perm (node.results req.trimmed)

/-- **The entry points agree** exactly if nothing that is searched tells their requests apart. -/
theorem entryPointsAgree_iff (hquery : (Text.trim req.query).isEmpty = false)
    (hdepth : req.depth ≤ MAX_FANOUT_DEPTH) :
    EntryPointsAgree node req ↔ Indifferent node req := by
  rw [entryPointsAgree_iff_results hquery hdepth]
  constructor
  · refine fun h ↦ ⟨fun hempty ↦ ?_, fun _ ↦ h (.post []) .get⟩
    have hperm : (node.results req.trimmed).Perm (node.results req.ofTool) := h .get .mcp
    rw [SearchNode.results, SearchNode.results, forwards_ofTool hempty] at hperm
    exact (List.perm_append_right_iff _).1 hperm
  · intro h
    have htrimmed : (node.results req).Perm (node.results req.trimmed) := by
      by_cases htrim : Text.trim req.query = req.query
      · rw [SearchRequest.trimmed, htrim]
      · exact h.whiteSpace htrim
    have htool : (node.results req.ofTool).Perm (node.results req.trimmed) := by
      by_cases hempty : req.collection = some ""
      · rw [SearchNode.results, SearchNode.results, forwards_ofTool hempty]
        exact (h.emptyName hempty).symm.append_right _
      · rw [ofTool_eq hempty]
    have hall : ∀ e : EntryPoint,
        (node.results (e.request req)).Perm (node.results req.trimmed) := by
      intro e
      cases e with
      | post headers =>
        rw [EntryPoint.request]
        split
        case isTrue => exact .refl _
        case isFalse => exact htrimmed
      | get => exact .refl _
      | mcp => exact htool
    exact fun e e' ↦ (hall e).trans (hall e').symm

end Calls

/-! ### An index of one document -/

namespace OneDocument

def engine : QueryEngine where
  Query := String
  parseQuery := .ok
  isMatch q d := Text.contains d.body q
  score _ _ _ _ := 1.0
  fragment _ _ _ := none
  encodeMinimal := id
  toLowercase := Text.toAsciiLowercase

def doc : Document where
  collection := "guide"
  url := "https://guide.example/"
  title := "Guide"
  body := "async with tokio"
  indexedAt := 0
  collectionId := ⟨0⟩
  contentHash := ""
  crawlTargetId := none

def node : SearchNode where
  engine := engine
  db := .empty
  docs := [doc]
  federation := .empty
  now := 0
  answer _ _ := .error "unreachable"

/-- A search of the collection by its name. -/
theorem entryPointsAgree_iff_guide : EntryPointsAgree node ⟨"tokio", some "guide", 1⟩ :=
  (entryPointsAgree_iff (by decide) (by decide)).2 ⟨nofun, fun h ↦ absurd (by decide) h⟩

/-- **The entry points disagree** on an empty collection name: the MCP tool searches everything, and
the others find nothing. -/
theorem not_entryPointsAgree :
    ¬ ∀ (node : SearchNode) (req : SearchRequest), (Text.trim req.query).isEmpty = false →
      req.depth ≤ MAX_FANOUT_DEPTH → EntryPointsAgree node req := by
  intro h
  have hagree := h node ⟨"tokio", some "", 0⟩ (by decide) (by decide)
  have hperm := (entryPointsAgree_iff_results (by decide) (by decide)).1 hagree .get .mcp
  have hlength : 0 = 1 := hperm.length_eq
  cases hlength

end OneDocument

end CommunitySearch
