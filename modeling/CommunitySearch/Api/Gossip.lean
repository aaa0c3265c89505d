import CommunitySearch.Api.Admin
import CommunitySearch.Federation.Gossip
import CommunitySearch.Federation.Storage

/-!
# The handlers of gossip

`POST /api/gossip/exchange` reads, merges and writes under one lock. An exchange this engine asks
for, from the periodic sync, a new node peer or `POST /api/admin/gossip/trigger`, holds the lock
twice: when it lists the table for its payload, and when it writes the merged list back; what
happens to the answer in between (`readAnswer`) is the same everywhere, and a background task only
logs the errors that the endpoint answers with.

`DELETE /api/admin/discovered` removes an engine, but never the engine's own entry.
-/

namespace CommunitySearch

/-- What is configured about the engine itself. -/
structure SelfConfig where
  selfUrl : String
  selfName : String
  selfDescription : String
deriving DecidableEq

namespace Gossip

/-- The request of an exchange, from a list of the table. -/
def request (version : String) (engines : List DiscoveredEngine) : ExchangeRequest :=
  ⟨version, engines.map DiscoveredEngine.summary⟩

/-- The protocol check of `exchange`. -/
def checkRequest (X : Crates) (version : String) (req : ExchangeRequest) : Except ApiError Unit :=
  match checkCompatibility X version req.protocolVersion with
  | .incompatible => .error ⟨400, "incompatible protocol version: theirs=" ++ req.protocolVersion ++
      " ours=" ++ version⟩
  | .minorMismatch => .ok ()
  | .compatible => .ok ()

/-- What `exchange` does under the lock: the list before the merge is the answer. -/
def answer (version : String) (now : Int) (engines : List EngineSummary) (t : DiscoveredEngines) :
    ExchangeResponse × DiscoveredEngines :=
  (⟨version, payload t⟩, mergeInto t.list engines now t)

/-- `exchange`. -/
def exchange (X : Crates) (version : String) (now : Int) (req : ExchangeRequest)
    (t : DiscoveredEngines) : Except ApiError (ExchangeResponse × DiscoveredEngines) := do
  checkRequest X version req
  return answer version now req.engines t

/-- What the HTTP client makes of a peer. -/
inductive PeerAnswer where
  | unreachable (error : String)
  /-- A status that is no success. -/
  | status (code : Nat)
  | undecodable (error : String)
  | response (body : ExchangeResponse)
deriving DecidableEq

/-- The answer of a peer, as far as `trigger_gossip` accepts it. -/
def readAnswer (X : Crates) (version : String) : PeerAnswer → Except ApiError ExchangeResponse
  | .unreachable error => .error ⟨400, error⟩
  | .status code => .error ⟨400, "peer returned status " ++ toString code⟩
  | .undecodable error => .error ⟨400, error⟩
  | .response body =>
    match checkCompatibility X version body.protocolVersion with
    | .incompatible => .error ⟨400, "incompatible protocol version: peer=" ++
        body.protocolVersion ++ " ours=" ++ version⟩
    | .minorMismatch => .ok body
    | .compatible => .ok body

theorem checkRequest_eq_ok {X : Crates} {version : String} {req : ExchangeRequest}
    (h : checkCompatibility X version req.protocolVersion ≠ .incompatible) :
    checkRequest X version req = .ok () := by
  rw [checkRequest]
  generalize checkCompatibility X version req.protocolVersion = c at h
  rcases c with - | - | -
  · rfl
  · rfl
  · exact absurd rfl h

theorem readAnswer_eq_ok {X : Crates} {version : String} {body : ExchangeResponse}
    (h : checkCompatibility X version body.protocolVersion ≠ .incompatible) :
    readAnswer X version (.response body) = .ok body := by
  rw [readAnswer]
  generalize checkCompatibility X version body.protocolVersion = c at h
  rcases c with - | - | -
  · rfl
  · rfl
  · exact absurd rfl h

/-- An answer is accepted as it is. -/
theorem eq_response_of_readAnswer {X : Crates} {version : String} {a : PeerAnswer}
    {body : ExchangeResponse} (h : readAnswer X version a = .ok body) : a = .response body := by
  rcases a with error | code | error | body'
  · cases h
  · cases h
  · cases h
  · rw [readAnswer] at h
    generalize checkCompatibility X version body'.protocolVersion = c at h
    rcases c with - | - | -
    · exact congrArg PeerAnswer.response (Except.ok.inj h)
    · exact congrArg PeerAnswer.response (Except.ok.inj h)
    · cases h

theorem exchange_eq_ok {X : Crates} {version : String} {now : Int} {req : ExchangeRequest}
    {t : DiscoveredEngines} {r : ExchangeResponse × DiscoveredEngines} :
    exchange X version now req t = .ok r ↔
      checkRequest X version req = .ok () ∧ answer version now req.engines t = r := by
  rw [exchange]
  generalize checkRequest X version req = c
  rcases c with error | ⟨⟩
  · constructor
    · intro h
      cases h
    · rintro ⟨h, -⟩
      cases h
  · exact ⟨fun h ↦ ⟨rfl, Except.ok.inj h⟩, fun h ↦ congrArg Except.ok h.2⟩

end Gossip

/-- `remove_discovered`. -/
def removeDiscovered (cfg : SelfConfig) (t : DiscoveredEngines) (url : String) :
    Except ApiError (DiscoveredEngines × Nat) :=
  if url = cfg.selfUrl then .error ⟨400, "cannot remove self-entry"⟩
  else if (t.remove url).2 = 0 then .error ⟨404, "no such discovered engine"⟩
  else .ok (t.remove url)

/-- `promote_discovered`: the engine becomes a node peer. -/
def promoteDiscovered (t : DiscoveredEngines) (peers : Table NodePeerRow.Clash) (url : String) :
    Except ApiError (Table NodePeerRow.Clash) :=
  match t.get url with
  | none => .error ⟨404, "unknown discovered engine"⟩
  | some engine =>
    match insertNodePeer peers engine.url (some engine.name) with
    | some (peers', _) => .ok peers'
    | none => .error .sql

/-- **A removal**: it takes out one row, and never that of the engine itself. -/
theorem removeDiscovered_eq_ok {cfg : SelfConfig} {t t' : DiscoveredEngines} {url : String}
    {n : Nat} (h : removeDiscovered cfg t url = .ok (t', n)) :
    url ≠ cfg.selfUrl ∧ url ∈ t.urls ∧
      ∀ url', t'.get url' = if url = url' then none else t.get url' := by
  rw [removeDiscovered] at h
  split at h
  · cases h
  · split at h
    · cases h
    case isFalse hself hzero =>
      have ht : t.remove url = (t', n) := Except.ok.inj h
      refine ⟨hself, ?_, fun url' ↦ ?_⟩
      · rw [DiscoveredEngines.remove_snd_eq_zero_iff] at hzero
        exact not_not.1 hzero
      · rw [← DiscoveredEngines.get_remove, ht]

end CommunitySearch
