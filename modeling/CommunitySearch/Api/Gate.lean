import CommunitySearch.Api.RateLimit

/-!
# The gate

What stands between the clients and the two guarded groups of routes: the rate limiter in front of
the search route and the token check in front of the admin routes, over one database. `main` hands
the router to the server as it is, without asking for the addresses of the clients, so a request
arrives without `ConnectInfo` (`Arrival.request`) and the client it is counted against is what its
headers say (`Arrival.client`).

The gate is a service that keeps a state for each client (`gateService`): while the known peers stay
the same, the cache of their hosts answers as the database would, and what is decided about a
request depends on the state of its client and on nothing else (`exchanges_verdicts`).
-/

namespace CommunitySearch

/-- The groups of routes behind a middleware. -/
inductive Route where
  | search
  | admin
deriving DecidableEq

/-- A request from the socket `addr`. -/
structure Arrival where
  addr : SocketAddr
  route : Route
  headers : HeaderMap
  /-- The Unix timestamp. -/
  now : Nat
  /-- The monotonic clock. -/
  clock : Nat
deriving DecidableEq

/-- `axum::serve(listener, app)`: the router is served without `ConnectInfo`. -/
def Arrival.request (a : Arrival) : Request := ⟨a.headers, none⟩

/-- The client a request is counted against. -/
def Arrival.client (a : Arrival) : String := clientIp a.request

/-- What a middleware decides. -/
inductive Verdict where
  | rate (decision : Decision)
  | admin (verdict : AdminVerdict)
deriving DecidableEq

/-- The tables of the two middlewares. -/
structure GateTables where
  rateLimits : RateLimits
  authAttempts : AuthAttempts

/-- What the two middlewares share. -/
structure Gate where
  db : Locked GateTables
  peerIpCache : PeerIpCache

namespace Gate

/-- A process just started over empty tables. -/
def start : Gate := ⟨⟨⟨.empty, .empty⟩, false⟩, .new⟩

variable (S : Settings) (X : Crates)

/-- A request reaches its middleware; no verdict means that the middleware panicked. -/
def handle (g : Gate) (a : Arrival) : Option Verdict × Gate :=
  match a.route with
  | .search =>
    let (decision, rateLimits, cache) := requireRateLimit S X
      ⟨g.db.value.rateLimits, g.db.poisoned⟩ g.peerIpCache a.now a.clock a.request
    (decision.map .rate,
      ⟨⟨{ g.db.value with rateLimits := rateLimits.value }, rateLimits.poisoned⟩, cache⟩)
  | .admin =>
    if g.db.poisoned then (none, g)
    else
      let (verdict, authAttempts) :=
        requireAdminToken S.adminToken g.db.value.authAttempts a.now a.request
      (some (.admin verdict),
        ⟨⟨{ g.db.value with authAttempts := authAttempts }, false⟩, g.peerIpCache⟩)

/-- Requests one after the other, each with what is decided about it. -/
def verdicts : Gate → List Arrival → List (Arrival × Option Verdict)
  | _, [] => []
  | g, a :: arrivals => (a, (g.handle S X a).1) :: verdicts (g.handle S X a).2 arrivals

theorem verdicts_cons (g : Gate) (a : Arrival) (arrivals : List Arrival) :
    g.verdicts S X (a :: arrivals) =
      (a, (g.handle S X a).1) :: (g.handle S X a).2.verdicts S X arrivals := rfl

end Gate

/-! ### The gate as a service -/

/-- What a middleware takes from a request, besides the client. -/
structure GateInput where
  route : Route
  now : Int
  cfg : RateLimitConfig
  authorized : Bool

/-- The state of a client. -/
structure ClientState where
  rate : RateLimitState
  attempts : AttemptState

/-- The state of a client without rows. -/
def ClientState.initial : ClientState := ⟨.initial, .initial⟩

/-- What a request does to the state of its client. -/
def ClientState.judge (s : ClientState) (i : GateInput) : Option (Verdict × ClientState) :=
  match i.route with
  | .search => (s.rate.check i.now i.cfg).map fun r ↦ (.rate r.1, { s with rate := r.2 })
  | .admin =>
    some (.admin (s.attempts.attempt i.now i.authorized).1,
      { s with attempts := (s.attempts.attempt i.now i.authorized).2 })

/-- The part of a request its verdict depends on. -/
def Arrival.input (S : Settings) (X : Crates) (a : Arrival) : GateInput where
  route := a.route
  now := a.now
  cfg := S.bucket X a.client
  authorized := isAuthorized S.adminToken a.headers

/-- The tables after a request of the client `ip`. -/
def GateTables.judge (t : GateTables) (ip : String) (i : GateInput) :
    Option (Verdict × GateTables) :=
  match i.route with
  | .search =>
    (rateLimiter.call t.rateLimits (.ip ip) (i.now, i.cfg)).map fun r ↦
      (.rate r.1, { t with rateLimits := r.2 })
  | .admin =>
    (authService.call t.authAttempts ip (i.now, i.authorized)).map fun r ↦
      (.admin r.1, { t with authAttempts := r.2 })

/-- The rows of a client. -/
def GateTables.read (t : GateTables) (ip : String) : ClientState :=
  ⟨rateLimiter.read t.rateLimits (.ip ip), authService.read t.authAttempts ip⟩

theorem GateTables.judge_step (t : GateTables) (ip : String) (i : GateInput) :
    (t.judge ip i).map (fun r ↦ (r.1, r.2.read ip)) = (t.read ip).judge i := by
  rw [GateTables.judge, ClientState.judge]
  cases i.route with
  | search =>
    have hstep : (t.read ip).rate.check i.now i.cfg =
        (rateLimiter.call t.rateLimits (.ip ip) (i.now, i.cfg)).map
          fun r ↦ (r.1, rateLimiter.read r.2 (.ip ip)) :=
      (rateLimiter.call_step t.rateLimits (.ip ip) (i.now, i.cfg)).symm
    dsimp only
    rw [hstep, Option.map_map, Option.map_map]
    rfl
  | admin =>
    have hstep : some ((t.read ip).attempts.attempt i.now i.authorized) =
        (authService.call t.authAttempts ip (i.now, i.authorized)).map
          fun r ↦ (r.1, authService.read r.2 ip) :=
      (authService.call_step t.authAttempts ip (i.now, i.authorized)).symm
    obtain ⟨r, hr, he⟩ := Option.map_eq_some_iff.1 hstep.symm
    dsimp only
    rw [hr, ← he]
    rfl

theorem GateTables.judge_frame {t : GateTables} {ip : String} {i : GateInput}
    {r : Verdict × GateTables} (h : t.judge ip i = some r) (ip' : String) (hne : ip' ≠ ip) :
    r.2.read ip' = t.read ip' := by
  rw [GateTables.judge] at h
  cases hroute : i.route with
  | search =>
    rw [hroute] at h
    obtain ⟨q, hq, rfl⟩ := Option.map_eq_some_iff.1 h
    have hkey : RateLimitKey.ip ip' ≠ .ip ip := fun he ↦ hne (RateLimitKey.ip.inj he)
    exact congrArg (ClientState.mk · _) (rateLimiter.call_frame hq _ hkey)
  | admin =>
    rw [hroute] at h
    obtain ⟨q, hq, rfl⟩ := Option.map_eq_some_iff.1 h
    exact congrArg (ClientState.mk _) (authService.call_frame hq _ hne)

/-- **The gate as a service**: a request concerns the state of its own client only. -/
def gateService : KeyedService GateTables String ClientState GateInput Verdict where
  read := GateTables.read
  step := ClientState.judge
  call := GateTables.judge
  call_step := GateTables.judge_step
  call_frame := GateTables.judge_frame

variable {S : Settings} {X : Crates}

/-- **A request is a call of the service.** -/
theorem Gate.handle_eq {g : Gate} (hcache : g.peerIpCache.Consistent X S.nodePeers) (a : Arrival) :
    (g.handle S X a).1 = (gateService.lockedCall g.db a.client (a.input S X)).1 ∧
      (g.handle S X a).2.db = (gateService.lockedCall g.db a.client (a.input S X)).2 ∧
      (g.handle S X a).2.peerIpCache.Consistent X S.nodePeers := by
  obtain ⟨⟨t, poisoned⟩, cache⟩ := g
  rw [Gate.handle, KeyedService.lockedCall]
  dsimp only [gateService, GateTables.judge, Arrival.input]
  cases a.route with
  | search =>
    obtain ⟨hpeer, hcache'⟩ := isPeerIp_eq hcache a.client a.clock
    have hcfg : (if (isPeerIp X S.nodePeers a.client cache a.clock).1 then S.peerRateLimitConfig
        else S.rateLimitConfig) = S.bucket X a.client := by
      rw [hpeer]
      rfl
    dsimp only [requireRateLimit, checkAndRecord]
    rw [show clientIp a.request = a.client from rfl, hcfg, ← lockedCall_rateLimiter,
      KeyedService.lockedCall]
    refine ⟨?_, ?_, hcache'⟩ <;> cases poisoned <;> dsimp only <;>
      rcases rateLimiter.call t.rateLimits (.ip a.client) (a.now, S.bucket X a.client) with
        - | ⟨decision, t'⟩ <;> rfl
  | admin =>
    have hcall : authService.call t.authAttempts a.client
        (a.now, isAuthorized S.adminToken a.headers) =
        some (requireAdminToken S.adminToken t.authAttempts a.now a.request) :=
      call_authService S.adminToken t.authAttempts a.now a.request
    dsimp only
    rw [hcall]
    cases poisoned <;> exact ⟨rfl, rfl, hcache⟩

/-- The call a request amounts to. -/
def Arrival.call (S : Settings) (X : Crates) (a : Arrival) : String × GateInput :=
  (a.client, a.input S X)

/-- **The gate decides what the service answers.** -/
theorem Gate.exchanges_verdicts {g : Gate} (hcache : g.peerIpCache.Consistent X S.nodePeers)
    (arrivals : List Arrival) :
    (g.verdicts S X arrivals).map (fun e ↦ ⟨e.1.client, e.1.input S X, e.2⟩) =
      gateService.trace g.db (arrivals.map (Arrival.call S X)) := by
  induction arrivals generalizing g with
  | nil => rfl
  | cons a arrivals ih =>
    obtain ⟨hverdict, hdb, hcache'⟩ := Gate.handle_eq hcache a
    rw [Gate.verdicts_cons, List.map_cons, ih hcache', hverdict, hdb]
    rfl

/-- What was decided, and when. -/
def timeline (l : List (Arrival × Option Verdict)) : List (Int × Verdict) :=
  l.filterMap fun e ↦ e.2.map ((e.1.now : Int), ·)

/-- The verdicts about one client are the history of that client. -/
theorem Gate.timeline_verdicts {g : Gate} (hcache : g.peerIpCache.Consistent X S.nodePeers)
    (arrivals : List Arrival) (key : String) :
    timeline ((g.verdicts S X arrivals).filter fun e ↦ e.1.client = key) =
      (KeyedService.history key (gateService.trace g.db (arrivals.map (Arrival.call S X)))).map
        fun e ↦ (e.1.now, e.2) := by
  rw [← Gate.exchanges_verdicts hcache, timeline, List.filterMap_filter, KeyedService.history,
    List.filterMap_map, List.map_filterMap]
  refine List.filterMap_congr fun e _ ↦ ?_
  dsimp only [Function.comp]
  by_cases hk : e.1.client = key
  · rw [if_pos (by simpa using hk), if_pos hk, Option.map_map]
    rfl
  · rw [if_neg (by simpa using hk), if_neg hk]
    rfl

end CommunitySearch
