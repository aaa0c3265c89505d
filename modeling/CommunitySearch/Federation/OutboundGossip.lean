import CommunitySearch.Api.Gossip
import CommunitySearch.Foundation.Program

/-!
# Outbound gossip

An exchange with a peer is written three times: `exchange_with_peer` for a caller that holds the
connection, `spawn_gossip_exchange_with_peer` for a background task and `trigger_gossip` for the
admin endpoint. Here each is a program of its own over the operations they share (`GossipOp`), with
its own locking, its own errors and its own loop of upserts.

`outboundGossip_agree` says that they are one exchange nevertheless. An operation may fail in any
way in the programs; the handler (`GossipWorld.answer`) is the situation of the claim, in which the
statements succeed, nobody else writes, and the peer answers whatever it likes.
-/

namespace CommunitySearch

open Prog (ret)

/-- The response of a peer: the status, and the body if it decodes. -/
structure ExchangeReply where
  status : Nat
  body : Except String ExchangeResponse

def ExchangeReply.isSuccess (r : ExchangeReply) : Bool := 200 ≤ r.status && r.status < 300

/-- What an exchange does to the world outside. -/
inductive GossipOp where
  | lock
  /-- `discovered::list`. -/
  | list
  /-- `client.post(url).json(payload).send()`. -/
  | post (url : String) (payload : ExchangeRequest)
  | timestamp
  /-- `discovered::upsert`. -/
  | upsert (e : DiscoveredEngine)

@[reducible] def GossipOp.Resp : GossipOp → Type
  | .lock => Except Unit Unit
  | .list => Except String (List DiscoveredEngine)
  | .post _ _ => Except String ExchangeReply
  | .timestamp => Int
  | .upsert _ => Except String Unit

@[reducible] def GossipSig : Signature := ⟨GossipOp, GossipOp.Resp⟩

/-- `GossipError`. -/
inductive GossipError where
  | http (error : String)
  | db (error : String)
  | version (message : String)
  | status (code : Nat)

/-- `ExchangeOutcome`. -/
structure ExchangeOutcome where
  sentCount : Nat
  receivedCount : Nat

/-- `TriggerGossipResp`. -/
structure TriggerGossipResp where
  status : String
  sentCount : Nat
  receivedCount : Nat

/-- `format!("{}/api/gossip/exchange", peer_url.trim_end_matches('/'))`. -/
def exchangeUrl (peerUrl : String) : String :=
  .ofList (peerUrl.toList.reverse.dropWhile (· == '/')).reverse ++ "/api/gossip/exchange"

/-! ### The three programs -/

/-- The upserts of `exchange_with_peer` and `trigger_gossip`: the first error ends them. -/
def upsertAll {ε : Type} (wrap : String → ε) :
    List DiscoveredEngine → Prog GossipSig (Except ε Unit)
  | [] => ret (.ok ())
  | e :: l => .op (.upsert e) fun
    | .error err => ret (.error (wrap err))
    | .ok _ => upsertAll wrap l

/-- The upserts of the background task, which goes on after an error. -/
def upsertEach : List DiscoveredEngine → Prog GossipSig Unit
  | [] => ret ()
  | e :: l => .op (.upsert e) fun _ ↦ upsertEach l

/-- `exchange_with_peer`. -/
def exchangeWithPeer (X : Crates) (peerUrl : String) :
    Prog GossipSig (Except GossipError ExchangeOutcome) :=
  .op .list fun
    | .error e => ret (.error (.db e))
    | .ok here =>
      let ourPayload : ExchangeRequest :=
        ⟨PROTOCOL_VERSION, here.map fun e ↦ ⟨e.url, e.name, e.description⟩⟩
      let sentCount := ourPayload.engines.length
      .op (.post (exchangeUrl peerUrl) ourPayload) fun
        | .error e => ret (.error (.http e))
        | .ok resp =>
          if !resp.isSuccess then ret (.error (.status resp.status))
          else match resp.body with
            | .error e => ret (.error (.http e))
            | .ok body =>
              if checkCompatibility X PROTOCOL_VERSION body.protocolVersion = .incompatible then
                ret (.error (.version ("peer " ++ peerUrl ++ " speaks " ++ body.protocolVersion ++
                  " (ours " ++ PROTOCOL_VERSION ++ ")")))
              else
                .op .timestamp fun now ↦
                  let incoming : List DiscoveredEngine :=
                    body.engines.map fun s ↦ ⟨s.url, s.name, s.description, now, now⟩
                  let receivedCount := incoming.length
                  let merged := Gossip.mergeEngineLists here incoming now
                  (upsertAll GossipError.db merged).attempt fun _ ↦
                    ret (.ok ⟨sentCount, receivedCount⟩)

/-- `spawn_gossip_exchange_with_peer`: the spawned task. Errors are only logged. -/
def spawnGossipExchangeWithPeer (X : Crates) (peerUrl : String) : Prog GossipSig Unit :=
  .op .lock fun
    | .error _ => ret ()
    | .ok _ => .op .list fun
      | .error _ => ret ()
      | .ok localList =>
        let ourPayload : ExchangeRequest :=
          ⟨PROTOCOL_VERSION, localList.map fun e ↦ ⟨e.url, e.name, e.description⟩⟩
        .op (.post (exchangeUrl peerUrl) ourPayload) fun
          | .error _ => ret ()
          | .ok resp =>
            if !resp.isSuccess then ret ()
            else match resp.body with
              | .error _ => ret ()
              | .ok body =>
                match checkCompatibility X PROTOCOL_VERSION body.protocolVersion with
                | .incompatible => ret ()
                | .minorMismatch | .compatible =>
                  .op .timestamp fun now ↦
                    let incoming : List DiscoveredEngine :=
                      body.engines.map fun s ↦ ⟨s.url, s.name, s.description, now, now⟩
                    let merged := Gossip.mergeEngineLists localList incoming now
                    .op .lock fun
                      | .ok _ => upsertEach merged
                      | .error _ => ret ()

/-- `trigger_gossip`. -/
def triggerGossip (X : Crates) (url : String) :
    Prog GossipSig (Except ApiError TriggerGossipResp) :=
  .op .lock fun
    | .error _ => ret (.error ⟨500, "db mutex poisoned"⟩)
    | .ok _ => .op .list fun
      | .error e => ret (.error ⟨500, e⟩)
      | .ok localList =>
        let ourPayload : ExchangeRequest :=
          ⟨PROTOCOL_VERSION, localList.map fun e ↦ ⟨e.url, e.name, e.description⟩⟩
        let sentCount := ourPayload.engines.length
        .op (.post (exchangeUrl url) ourPayload) fun
          | .error e => ret (.error ⟨400, e⟩)
          | .ok resp =>
            if !resp.isSuccess then
              ret (.error ⟨400, "peer returned status " ++ toString resp.status⟩)
            else match resp.body with
              | .error e => ret (.error ⟨400, e⟩)
              | .ok body =>
                if checkCompatibility X PROTOCOL_VERSION body.protocolVersion = .incompatible then
                  ret (.error ⟨400, "incompatible protocol version: peer=" ++
                    body.protocolVersion ++ " ours=" ++ PROTOCOL_VERSION⟩)
                else
                  .op .timestamp fun now ↦
                    let incoming : List DiscoveredEngine :=
                      body.engines.map fun s ↦ ⟨s.url, s.name, s.description, now, now⟩
                    let receivedCount := incoming.length
                    let merged := Gossip.mergeEngineLists localList incoming now
                    .op .lock fun
                      | .error _ => ret (.error ⟨500, "db mutex poisoned"⟩)
                      | .ok _ =>
                        (upsertAll (fun e ↦ (⟨500, e⟩ : ApiError)) merged).attempt fun _ ↦
                          ret (.ok ⟨"ok", sentCount, receivedCount⟩)

/-! ### The world they run in -/

/-- The table, and the requests sent so far. -/
structure GossipWorld where
  table : DiscoveredEngines
  sent : List (String × ExchangeRequest)

/-- Statements succeed and nobody else writes; the peer answers as it likes, at the time `now`. -/
def GossipWorld.answer (peer : String → ExchangeRequest → Except String ExchangeReply) (now : Int)
    (w : GossipWorld) : (o : GossipOp) → Option (o.Resp × GossipWorld)
  | .lock => some (.ok (), w)
  | .list => some (.ok w.table.list, w)
  | .post url payload => some (peer url payload, { w with sent := w.sent ++ [(url, payload)] })
  | .timestamp => some (now, w)
  | .upsert e => some (.ok (), { w with table := w.table.upsert e })

/-- What a program leaves of a table. -/
def leaves {α : Type} (peer : String → ExchangeRequest → Except String ExchangeReply) (now : Int)
    (t : DiscoveredEngines) (p : Prog GossipSig α) : Option GossipWorld :=
  (p.run (GossipWorld.answer peer now) ⟨t, []⟩).map Prod.snd

variable {X : Crates} {peer : String → ExchangeRequest → Except String ExchangeReply} {now : Int}
  {t : DiscoveredEngines} {peerUrl : String}

theorem run_upsertAll {ε : Type} (wrap : String → ε) (l : List DiscoveredEngine)
    (w : GossipWorld) :
    (upsertAll wrap l).run (GossipWorld.answer peer now) w =
      some (.ok (), { w with table := l.foldl DiscoveredEngines.upsert w.table }) := by
  induction l generalizing w with
  | nil => rfl
  | cons e l ih => exact ih { w with table := w.table.upsert e }

theorem run_upsertEach (l : List DiscoveredEngine) (w : GossipWorld) :
    (upsertEach l).run (GossipWorld.answer peer now) w =
      some ((), { w with table := l.foldl DiscoveredEngines.upsert w.table }) := by
  induction l generalizing w with
  | nil => rfl
  | cons e l ih => exact ih { w with table := w.table.upsert e }

/-- The payload of a 2xx response that decodes and speaks a compatible version. -/
def acceptable (X : Crates) : Except String ExchangeReply → Option (List EngineSummary)
  | .error _ => none
  | .ok resp =>
    if !resp.isSuccess then none
    else match resp.body with
      | .error _ => none
      | .ok body =>
        if checkCompatibility X PROTOCOL_VERSION body.protocolVersion = .incompatible then none
        else some body.engines

/-- The table after an exchange. -/
def exchanged (now : Int) (t : DiscoveredEngines) (payload : Option (List EngineSummary)) :
    DiscoveredEngines :=
  match payload with
  | some engines => Gossip.mergeInto t.list engines now t
  | none => t

/-- What every one of the programs leaves. -/
def GossipWorld.afterExchange (X : Crates)
    (peer : String → ExchangeRequest → Except String ExchangeReply)
    (now : Int) (t : DiscoveredEngines) (peerUrl : String) : GossipWorld :=
  let req := Gossip.request PROTOCOL_VERSION t.list
  ⟨exchanged now t (acceptable X (peer (exchangeUrl peerUrl) req)), [(exchangeUrl peerUrl, req)]⟩

/-- The request is the one of the gossip node. -/
theorem request_eq (engines : List DiscoveredEngine) :
    (⟨PROTOCOL_VERSION, engines.map fun e ↦ ⟨e.url, e.name, e.description⟩⟩ : ExchangeRequest) =
      Gossip.request PROTOCOL_VERSION engines := rfl

/-- The cases the programs distinguish. -/
@[elab_as_elim] theorem answer_cases (X : Crates)
    {motive : Except String ExchangeReply → Prop}
    (unreachable : ∀ error, motive (.error error))
    (refused : ∀ resp, resp.isSuccess = false → motive (.ok resp))
    (undecodable : ∀ status error, (ExchangeReply.mk status (.error error)).isSuccess = true →
      motive (.ok ⟨status, .error error⟩))
    (incompatible : ∀ status body, (ExchangeReply.mk status (.ok body)).isSuccess = true →
      checkCompatibility X PROTOCOL_VERSION body.protocolVersion = .incompatible →
      motive (.ok ⟨status, .ok body⟩))
    (accepted : ∀ status body, (ExchangeReply.mk status (.ok body)).isSuccess = true →
      checkCompatibility X PROTOCOL_VERSION body.protocolVersion ≠ .incompatible →
      motive (.ok ⟨status, .ok body⟩)) (a : Except String ExchangeReply) : motive a := by
  rcases a with error | ⟨status, body⟩
  · exact unreachable error
  · by_cases hs : (ExchangeReply.mk status body).isSuccess = true
    · rcases body with error | body
      · exact undecodable status error hs
      · by_cases hc : checkCompatibility X PROTOCOL_VERSION body.protocolVersion = .incompatible
        · exact incompatible status body hs hc
        · exact accepted status body hs hc
    · exact refused _ (Bool.eq_false_iff.2 hs)

theorem leaves_exchangeWithPeer : leaves peer now t (exchangeWithPeer X peerUrl) =
    some (GossipWorld.afterExchange X peer now t peerUrl) := by
  rw [leaves, exchangeWithPeer, GossipWorld.afterExchange]
  simp only [GossipWorld.answer, Option.bind_some, Prog.run, request_eq, List.nil_append]
  generalize peer (exchangeUrl peerUrl) (Gossip.request PROTOCOL_VERSION t.list) = a
  cases a using answer_cases X with
  | unreachable error => rfl
  | refused resp hs =>
    simp only [acceptable, hs]
    rfl
  | undecodable status error hs =>
    simp only [acceptable, hs]
    rfl
  | incompatible status body hs hc =>
    simp only [acceptable, hs, hc]
    rfl
  | accepted status body hs hc =>
    simp only [acceptable, hs, hc, Bool.not_true, Bool.false_eq_true, if_false, Prog.run,
      GossipWorld.answer, Option.bind_some, Prog.attempt, Prog.run_bind, run_upsertAll]
    rfl

theorem leaves_spawnGossipExchangeWithPeer :
    leaves peer now t (spawnGossipExchangeWithPeer X peerUrl) =
      some (GossipWorld.afterExchange X peer now t peerUrl) := by
  rw [leaves, spawnGossipExchangeWithPeer, GossipWorld.afterExchange]
  simp only [GossipWorld.answer, Option.bind_some, Prog.run, request_eq, List.nil_append]
  generalize peer (exchangeUrl peerUrl) (Gossip.request PROTOCOL_VERSION t.list) = a
  cases a using answer_cases X with
  | unreachable error => rfl
  | refused resp hs =>
    simp only [acceptable, hs]
    rfl
  | undecodable status error hs =>
    simp only [acceptable, hs]
    rfl
  | incompatible status body hs hc =>
    simp only [acceptable, hs, hc]
    rfl
  | accepted status body hs hc =>
    simp only [acceptable, hs, hc, Bool.not_true, Bool.false_eq_true, if_false]
    -- a minor mismatch is only logged
    rcases h : checkCompatibility X PROTOCOL_VERSION body.protocolVersion with - | - | -
    · simp only [Prog.run, GossipWorld.answer, Option.bind_some, run_upsertEach]
      rfl
    · simp only [Prog.run, GossipWorld.answer, Option.bind_some, run_upsertEach]
      rfl
    · exact absurd h hc

theorem leaves_triggerGossip : leaves peer now t (triggerGossip X peerUrl) =
    some (GossipWorld.afterExchange X peer now t peerUrl) := by
  rw [leaves, triggerGossip, GossipWorld.afterExchange]
  simp only [GossipWorld.answer, Option.bind_some, Prog.run, request_eq, List.nil_append]
  generalize peer (exchangeUrl peerUrl) (Gossip.request PROTOCOL_VERSION t.list) = a
  cases a using answer_cases X with
  | unreachable error => rfl
  | refused resp hs =>
    simp only [acceptable, hs]
    rfl
  | undecodable status error hs =>
    simp only [acceptable, hs]
    rfl
  | incompatible status body hs hc =>
    simp only [acceptable, hs, hc]
    rfl
  | accepted status body hs hc =>
    simp only [acceptable, hs, hc, Bool.not_true, Bool.false_eq_true, if_false, Prog.run,
      GossipWorld.answer, Option.bind_some, Prog.attempt, Prog.run_bind, run_upsertAll]
    rfl

theorem acceptable_eq_none {resp : ExchangeReply}
    (h : resp.isSuccess = false ∨ (∃ error, resp.body = .error error) ∨
      ∃ body, resp.body = .ok body ∧
        checkCompatibility X PROTOCOL_VERSION body.protocolVersion = .incompatible) :
    acceptable X (.ok resp) = none := by
  obtain ⟨status, body⟩ := resp
  rw [acceptable]
  rcases h with h | ⟨error, rfl⟩ | ⟨body, rfl, hc⟩
  · rw [h]
    rfl
  · split <;> rfl
  · dsimp only
    rw [if_pos hc]
    split <;> rfl

/-- **The three outbound exchanges agree.** For every table, every peer, whatever it answers to a
request, and every time, when the statements succeed and nobody else writes: the exchange, the
background task and the admin trigger send the same one request, to the same URL with the same
payload, and leave the same table. It is the table merged with the payload of an acceptable
response, and the table as it was when the response is not 2xx, does not decode or speaks an
incompatible version. -/
theorem outboundGossip_agree (X : Crates)
    (peer : String → ExchangeRequest → Except String ExchangeReply)
    (now : Int) (t : DiscoveredEngines) (peerUrl : String) :
    ∃ w : GossipWorld,
      leaves peer now t (exchangeWithPeer X peerUrl) = some w ∧
      leaves peer now t (spawnGossipExchangeWithPeer X peerUrl) = some w ∧
      leaves peer now t (triggerGossip X peerUrl) = some w ∧
      w.sent = [(exchangeUrl peerUrl, Gossip.request PROTOCOL_VERSION t.list)] ∧
      w.table = exchanged now t
        (acceptable X (peer (exchangeUrl peerUrl) (Gossip.request PROTOCOL_VERSION t.list))) ∧
      ∀ resp, peer (exchangeUrl peerUrl) (Gossip.request PROTOCOL_VERSION t.list) = .ok resp →
        (resp.isSuccess = false ∨ (∃ error, resp.body = .error error) ∨
          ∃ body, resp.body = .ok body ∧
            checkCompatibility X PROTOCOL_VERSION body.protocolVersion = .incompatible) →
        w.table = t := by
  refine ⟨_, leaves_exchangeWithPeer, leaves_spawnGossipExchangeWithPeer, leaves_triggerGossip,
    rfl, rfl, fun resp hresp h ↦ ?_⟩
  rw [GossipWorld.afterExchange]
  dsimp only
  rw [hresp, acceptable_eq_none h]
  rfl

end CommunitySearch
