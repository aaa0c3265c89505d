import CommunitySearch.Api.Auth
import CommunitySearch.Crawler.Url
import CommunitySearch.Federation.Storage

/-!
# The rate limiter

The sliding-window limiter with escalating cooloff, persisted in `rate_limit_state`, and the
middleware that applies it to the search route. Of the integers of the source only `limit` and its
double have their width, which a limit the administrator may set overflows. Times, durations and
counts are `i64` there and unbounded here. With the durations the server is built with and the times
of its clock none of them leaves its range (`InRange.checkedCheck_eq`); a deadline `now + duration`
would wrap for a rung near `2 ^ 63`, and of such a ladder the results about any `RateLimitConfig`
say nothing.

A call that panics is `none`. It happens when a violation finds the cooloff ladder empty, and since
the call holds the lock of the database at that point, the mutex is poisoned and every later call
panics as well.
-/

namespace CommunitySearch

/-! ### The peer-IP cache -/

/-- How long the set of peer hosts is kept, in seconds. -/
def PEER_IP_CACHE_TTL : Nat := 300

/-- The hosts of the enabled node peers, as last read from the database. -/
structure PeerIpCache where
  hosts : List String
  lastRefreshedAt : Option Nat

/-- `load_peer_hosts_from_db`. -/
def loadPeerHostsFromDb (X : Crates) (nodePeers : Table NodePeerRow.Clash) : List String :=
  (nodePeers.rows.filter fun row ↦ row.enabled = 1).filterMap fun row ↦
    (X.parse row.url).bind Url.host

namespace PeerIpCache

/-- `PeerIpCache::new`. -/
def new : PeerIpCache := ⟨[], none⟩

/-- `is_stale`; `clock` is the monotonic clock. -/
def isStale (cache : PeerIpCache) (clock : Nat) : Bool :=
  match cache.lastRefreshedAt with
  | none => true
  | some t => clock - t > PEER_IP_CACHE_TTL

/-- `refresh`. -/
def refresh (X : Crates) (nodePeers : Table NodePeerRow.Clash) (clock : Nat) : PeerIpCache :=
  ⟨loadPeerHostsFromDb X nodePeers, some clock⟩

end PeerIpCache

/-- `is_peer_ip`. -/
def isPeerIp (X : Crates) (nodePeers : Table NodePeerRow.Clash) (clientIp : String)
    (cache : PeerIpCache) (clock : Nat) : Bool × PeerIpCache :=
  let cache := if cache.isStale clock then .refresh X nodePeers clock else cache
  (cache.hosts.contains clientIp, cache)

/-! ### The limiter -/

/-- What a window is tracked against. -/
inductive RateLimitKey where
  | ip (s : String)
  | peer (s : String)
deriving DecidableEq

/-- `storage_key`. -/
def RateLimitKey.storageKey : RateLimitKey → String
  | .ip s => "ip:" ++ s
  | .peer s => "peer:" ++ s

/-- The configuration of the limiter; the durations are `i64` in the source. -/
structure RateLimitConfig where
  /-- Maximum number of requests allowed within a window. -/
  limit : UInt32
  windowSeconds : Int
  /-- Cooloff durations in seconds, by the number of violations before. -/
  cooloffLadder : List Int
  cleanPeriodSeconds : Int
deriving DecidableEq

/-- `RateLimitConfig::default`. -/
def RateLimitConfig.default : RateLimitConfig := ⟨30, 60, [60, 300, 3600], 3600⟩

inductive Decision where
  | allow
  | cooloff (secondsRemaining : Int)
deriving DecidableEq

/-- A row of `rate_limit_state`. -/
structure RateLimitRow where
  /-- The storage key. -/
  ip : String
  /-- What the JSON text of the column parses to as a list of timestamps. -/
  requestLog : Option (List Int)
  violations : Nat
  cooloffUntil : Int
  lastViolationAt : Int
  updatedAt : Int
deriving DecidableEq

/-- `PRIMARY KEY (ip)`. -/
abbrev RateLimits := KeyTable RateLimitRow.ip

/-- The state of the limiter for one key. -/
structure RateLimitState where
  requestLog : List Int
  violations : Nat
  cooloffUntil : Int
  lastViolationAt : Int
deriving DecidableEq

/-- The state of a key without a row. -/
def RateLimitState.initial : RateLimitState := ⟨[], 0, 0, 0⟩

namespace RateLimits

/-- `load_state`. -/
def loadState (t : RateLimits) (ip : String) : RateLimitState :=
  match KeyTable.find t ip with
  | some row => ⟨row.requestLog.getD [], row.violations, row.cooloffUntil, row.lastViolationAt⟩
  | none => ⟨[], 0, 0, 0⟩

/-- `save_state`: an upsert. -/
def saveState (t : RateLimits) (ip : String) (now : Int) (state : RateLimitState) : RateLimits :=
  KeyTable.put t ⟨ip, some state.requestLog, state.violations, state.cooloffUntil,
    state.lastViolationAt, now⟩

theorem loadState_saveState (t : RateLimits) (ip : String) (now : Int) (state : RateLimitState)
    (ip' : String) :
    (t.saveState ip now state).loadState ip' = if ip = ip' then state else t.loadState ip' := by
  rw [loadState, saveState, KeyTable.find_put]
  by_cases h : ip = ip'
  · rw [if_pos h, if_pos h]
    rfl
  · rw [if_neg h, if_neg h]
    rfl

end RateLimits

namespace RateLimitState

/-- Clean-period reset: a key that has not violated for long enough starts afresh. -/
def cleanReset (s : RateLimitState) (now : Int) (cfg : RateLimitConfig) : RateLimitState :=
  if s.lastViolationAt > 0 ∧ now - s.lastViolationAt > cfg.cleanPeriodSeconds ∧
      s.cooloffUntil ≤ now then
    { s with violations := 0 }
  else s

/-- Drop the timestamps that have left the window. -/
def prune (s : RateLimitState) (now : Int) (cfg : RateLimitConfig) : RateLimitState :=
  { s with requestLog := s.requestLog.filter fun t ↦ now - cfg.windowSeconds < t }

/-- A violation: take the rung of the ladder, the last one at most. -/
def violate (s : RateLimitState) (now : Int) (cfg : RateLimitConfig) :
    Option (Decision × RateLimitState) :=
  cfg.cooloffLadder[min s.violations (cfg.cooloffLadder.length - 1)]?.map fun duration ↦
    (.cooloff duration,
      { s with
        violations := s.violations + 1
        cooloffUntil := now + duration
        lastViolationAt := now })

/-- Record the timestamp, and cap the log at twice the limit. -/
def record (s : RateLimitState) (now : Int) (cfg : RateLimitConfig) : RateLimitState :=
  let log := s.requestLog ++ [now]
  let cap := (cfg.limit * 2).toNat
  { s with requestLog := if log.length > cap then log.drop (log.length - cap) else log }

/-- What `check_and_record_key` does between `load_state` and `save_state`. -/
def check (s : RateLimitState) (now : Int) (cfg : RateLimitConfig) :
    Option (Decision × RateLimitState) :=
  let s := s.cleanReset now cfg
  if s.cooloffUntil > now then some (.cooloff (s.cooloffUntil - now), s)
  else
    let s := s.prune now cfg
    if s.requestLog.length ≥ cfg.limit.toNat then s.violate now cfg
    else some (.allow, s.record now cfg)

end RateLimitState

/-- `check_and_record_key`. -/
def checkAndRecordKey (db : Locked RateLimits) (key : RateLimitKey) (now : Int)
    (cfg : RateLimitConfig) : Option Decision × Locked RateLimits :=
  if db.poisoned then (none, db)
  else
    let storageKey := key.storageKey
    match (db.value.loadState storageKey).check now cfg with
    | some (decision, state) => (some decision, ⟨db.value.saveState storageKey now state, false⟩)
    | none => (none, ⟨db.value, true⟩)

/-- `check_and_record`. -/
def checkAndRecord (db : Locked RateLimits) (ip : String) (now : Int) (cfg : RateLimitConfig) :
    Option Decision × Locked RateLimits :=
  checkAndRecordKey db (.ip ip) now cfg

/-! ### The middleware -/

/-- The settings the two middlewares read: `main` takes every field of the two configurations but
the limit from the defaults, and only the limits can be configured. -/
structure Settings where
  adminToken : String
  searchRateLimitPerMinute : UInt32
  peerRateLimitPerMinute : UInt32
  nodePeers : Table NodePeerRow.Clash

namespace Settings

/-- `rate_limit_config`: the anonymous bucket. -/
def rateLimitConfig (S : Settings) : RateLimitConfig :=
  { RateLimitConfig.default with limit := S.searchRateLimitPerMinute }

/-- `peer_rate_limit_config`: the bucket of the known peers. -/
def peerRateLimitConfig (S : Settings) : RateLimitConfig :=
  { RateLimitConfig.default with limit := S.peerRateLimitPerMinute }

/-- The bucket of a client. -/
def bucket (S : Settings) (X : Crates) (ip : String) : RateLimitConfig :=
  if (loadPeerHostsFromDb X S.nodePeers).contains ip then S.peerRateLimitConfig
  else S.rateLimitConfig

theorem cooloffLadder_bucket (S : Settings) (X : Crates) (ip : String) :
    (S.bucket X ip).cooloffLadder = [60, 300, 3600] := by
  rw [bucket]
  split <;> rfl

theorem windowSeconds_bucket (S : Settings) (X : Crates) (ip : String) :
    (S.bucket X ip).windowSeconds = 60 := by
  rw [bucket]
  split <;> rfl

end Settings

/-- `require_rate_limit`: the decision, the table and the cache. A request that is allowed is passed
on; one in cooloff is answered `429`. -/
def requireRateLimit (S : Settings) (X : Crates) (db : Locked RateLimits) (cache : PeerIpCache)
    (now : Int) (clock : Nat) (req : Request) : Option Decision × Locked RateLimits × PeerIpCache :=
  let ip := clientIp req
  let (peer, cache) := isPeerIp X S.nodePeers ip cache clock
  let cfg := if peer then S.peerRateLimitConfig else S.rateLimitConfig
  let (decision, db) := checkAndRecord db ip now cfg
  (decision, db, cache)

/-- The response to a request that is not passed on. -/
def Decision.response : Decision → Option Response
  | .allow => none
  | .cooloff secondsRemaining =>
    some ⟨429, [("retry-after", toString secondsRemaining)], "rate limited"⟩

/-- The cache of a process whose peers do not change. -/
def PeerIpCache.Consistent (X : Crates) (nodePeers : Table NodePeerRow.Clash)
    (cache : PeerIpCache) : Prop :=
  cache.lastRefreshedAt.isSome → cache.hosts = loadPeerHostsFromDb X nodePeers

theorem PeerIpCache.consistent_new (X : Crates) (nodePeers : Table NodePeerRow.Clash) :
    new.Consistent X nodePeers := fun h ↦ nomatch h

/-- The cache answers what the database would, whether it is fresh or stale. -/
theorem isPeerIp_eq {X : Crates} {nodePeers : Table NodePeerRow.Clash} {cache : PeerIpCache}
    (h : cache.Consistent X nodePeers) (ip : String) (clock : Nat) :
    (isPeerIp X nodePeers ip cache clock).1 = (loadPeerHostsFromDb X nodePeers).contains ip ∧
      (isPeerIp X nodePeers ip cache clock).2.Consistent X nodePeers := by
  rw [isPeerIp]
  by_cases hs : cache.isStale clock = true
  · rw [if_pos hs]
    exact ⟨rfl, fun _ ↦ rfl⟩
  · have hsome : cache.lastRefreshedAt.isSome := by
      rw [Option.isSome_iff_ne_none]
      intro hnone
      exact hs (by rw [PeerIpCache.isStale, hnone])
    rw [if_neg hs, ← h hsome]
    exact ⟨rfl, h⟩

/-! ### What a check can do -/

variable {s s' : RateLimitState} {now : Int} {cfg : RateLimitConfig} {decision : Decision}

theorem RateLimitState.requestLog_cleanReset (s : RateLimitState) (now : Int)
    (cfg : RateLimitConfig) : (s.cleanReset now cfg).requestLog = s.requestLog := by
  rw [cleanReset]
  split <;> rfl

theorem RateLimitState.cooloffUntil_cleanReset (s : RateLimitState) (now : Int)
    (cfg : RateLimitConfig) : (s.cleanReset now cfg).cooloffUntil = s.cooloffUntil := by
  rw [cleanReset]
  split <;> rfl

/-- In a cooloff every check is refused. -/
theorem RateLimitState.check_of_cooloff (h : now < s.cooloffUntil) :
    s.check now cfg = some (.cooloff (s.cooloffUntil - now), s.cleanReset now cfg) := by
  have hcool : (s.cleanReset now cfg).cooloffUntil > now := by
    rw [cooloffUntil_cleanReset]
    exact h
  rw [check, ← cooloffUntil_cleanReset s now cfg]
  exact if_pos hcool

/-- **What a check does to the log**: in a cooloff it stays; otherwise it is pruned, and either it
is full and the request is refused, or the request is recorded and allowed. -/
theorem RateLimitState.check_cases (h : s.check now cfg = some (decision, s')) :
    (now < s.cooloffUntil ∧ decision = .cooloff (s.cooloffUntil - now) ∧
        s'.requestLog = s.requestLog) ∨
      (s.cooloffUntil ≤ now ∧ cfg.limit.toNat ≤ (s.prune now cfg).requestLog.length ∧
        (∃ duration, decision = .cooloff duration) ∧
        s'.requestLog = (s.prune now cfg).requestLog) ∨
      (s.cooloffUntil ≤ now ∧ (s.prune now cfg).requestLog.length < cfg.limit.toNat ∧
        decision = .allow ∧ s' = ((s.cleanReset now cfg).prune now cfg).record now cfg ∧
        s'.requestLog = ((s.prune now cfg).record now cfg).requestLog) := by
  have hlog : ((s.cleanReset now cfg).prune now cfg).requestLog = (s.prune now cfg).requestLog := by
    rw [prune, prune, requestLog_cleanReset]
  rw [check] at h
  dsimp only at h
  rw [cooloffUntil_cleanReset, hlog] at h
  by_cases hcool : now < s.cooloffUntil
  · rw [if_pos hcool] at h
    obtain ⟨rfl, rfl⟩ := Prod.mk.inj (Option.some.inj h)
    exact Or.inl ⟨hcool, rfl, requestLog_cleanReset s now cfg⟩
  · rw [if_neg hcool] at h
    by_cases hfull : cfg.limit.toNat ≤ (s.prune now cfg).requestLog.length
    · rw [if_pos hfull] at h
      obtain ⟨duration, -, he⟩ := Option.map_eq_some_iff.1 h
      obtain ⟨rfl, rfl⟩ := Prod.mk.inj he
      exact Or.inr (Or.inl ⟨Int.not_lt.1 hcool, hfull, ⟨duration, rfl⟩, hlog⟩)
    · rw [if_neg hfull] at h
      obtain ⟨rfl, rfl⟩ := Prod.mk.inj (Option.some.inj h)
      refine Or.inr (Or.inr ⟨Int.not_lt.1 hcool, Nat.not_le.1 hfull, rfl, rfl, ?_⟩)
      rw [record, record, hlog]

/-- A check panics only on an empty ladder. -/
theorem RateLimitState.check_ne_none (h : cfg.cooloffLadder ≠ []) (s : RateLimitState)
    (now : Int) : s.check now cfg ≠ none := by
  have hrung : ∀ n, cfg.cooloffLadder[min n (cfg.cooloffLadder.length - 1)]? ≠ none := by
    intro n hnone
    have hpos : 0 < cfg.cooloffLadder.length := List.length_pos_iff.2 h
    have hle : cfg.cooloffLadder.length ≤ min n (cfg.cooloffLadder.length - 1) :=
      List.getElem?_eq_none_iff.1 hnone
    omega
  rw [check]
  dsimp only
  split
  · exact Option.some_ne_none _
  · split
    · rw [violate, Ne, Option.map_eq_none_iff]
      exact hrung _
    · exact Option.some_ne_none _

/-! ### The limiter as a service -/

/-- **Distinct keys have distinct storage keys.** -/
theorem RateLimitKey.storageKey_injective : Function.Injective storageKey := by
  -- the two namespaces differ in their first character
  have hne : ∀ s t : String, "ip:" ++ s ≠ "peer:" ++ t := fun s t h ↦ by
    have hlist : ("ip:" ++ s).toList = ("peer:" ++ t).toList := congrArg String.toList h
    rw [String.toList_append, String.toList_append] at hlist
    exact absurd (List.cons.inj hlist).1 (by decide)
  have hcancel : ∀ p s t : String, p ++ s = p ++ t → s = t := fun p s t h ↦ by
    have hlist : (p ++ s).toList = (p ++ t).toList := congrArg String.toList h
    rw [String.toList_append, String.toList_append] at hlist
    exact String.toList_injective (List.append_cancel_left hlist)
  rintro (s | s) (t | t) h
  · exact congrArg ip (hcancel _ _ _ h)
  · exact absurd h (hne s t)
  · exact absurd h.symm (hne t s)
  · exact congrArg peer (hcancel _ _ _ h)

/-- **The limiter as a service**: a check concerns the state of its own key only. -/
def rateLimiter :
    KeyedService RateLimits RateLimitKey RateLimitState (Int × RateLimitConfig) Decision where
  read t key := t.loadState key.storageKey
  step s input := s.check input.1 input.2
  call t key input :=
    ((t.loadState key.storageKey).check input.1 input.2).map fun r ↦
      (r.1, t.saveState key.storageKey input.1 r.2)
  call_step t key input := by
    rcases (t.loadState key.storageKey).check input.1 input.2 with - | ⟨decision, state⟩
    · rfl
    · exact congrArg some
        (Prod.ext rfl ((t.loadState_saveState _ _ _ _).trans (if_pos rfl)))
  call_frame {t key input r} h key' hne := by
    obtain ⟨d, -, rfl⟩ := Option.map_eq_some_iff.1 h
    exact (t.loadState_saveState _ _ _ _).trans
      (if_neg fun he ↦ hne (RateLimitKey.storageKey_injective he).symm)

theorem lockedCall_rateLimiter (db : Locked RateLimits) (key : RateLimitKey) (now : Int)
    (cfg : RateLimitConfig) :
    rateLimiter.lockedCall db key (now, cfg) = checkAndRecordKey db key now cfg := by
  rw [checkAndRecordKey, KeyedService.lockedCall]
  dsimp only [rateLimiter]
  rcases (db.value.loadState key.storageKey).check now cfg with - | ⟨decision, state⟩ <;> rfl

end CommunitySearch
