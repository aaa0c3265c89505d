import CommunitySearch.Api.Gate
import Mathlib.Algebra.Group.Nat.Defs

/-!
# Client isolation

Whether what is decided about one client depends on that client's requests only. It would if the
clients had keys of their own (`gateService` keeps a state for each), but `main` serves the router
without `ConnectInfo`, and every client that sends no `X-Forwarded-For` header is counted as the
client `"unknown"`. So anyone can have anyone locked out: five requests without a token are enough.

`isolated_iff` says for which requests of a client the decisions nevertheless depend on these
requests alone: for none at all, but for searches under a limit of `2 ^ 31` or more, which the
limiter never refuses because the cap on the log has wrapped to less than the limit.
-/

namespace CommunitySearch

/-- No request carries an `X-Forwarded-For` header. -/
def Unforwarded (arrivals : List Arrival) : Prop :=
  ∀ a ∈ arrivals, a.headers.get "x-forwarded-for" = none

instance (arrivals : List Arrival) : Decidable (Unforwarded arrivals) :=
  inferInstanceAs (Decidable (∀ a ∈ arrivals, a.headers.get "x-forwarded-for" = none))

/-- The requests of one client. -/
def requestsOf (c : SocketAddr) (arrivals : List Arrival) : List Arrival :=
  arrivals.filter fun a ↦ a.addr = c

/-- The verdicts about the requests of one client. -/
def verdictsTo (c : SocketAddr) (l : List (Arrival × Option Verdict)) : List (Option Verdict) :=
  (l.filter fun e ↦ e.1.addr = c).map Prod.snd

/-- In every interleaving in which the client `c` sends `own`, it gets the same verdicts. -/
def Isolated (S : Settings) (X : Crates) (c : SocketAddr) (own : List Arrival) : Prop :=
  ∀ r r' : List Arrival, Unforwarded r → Unforwarded r' → requestsOf c r = own →
    requestsOf c r' = own →
    verdictsTo c (Gate.start.verdicts S X r) = verdictsTo c (Gate.start.verdicts S X r')

theorem unforwarded_append {l l' : List Arrival} :
    Unforwarded (l ++ l') ↔ Unforwarded l ∧ Unforwarded l' :=
  List.forall_mem_append

theorem unforwarded_cons {a : Arrival} {l : List Arrival} :
    Unforwarded (a :: l) ↔ a.headers.get "x-forwarded-for" = none ∧ Unforwarded l :=
  List.forall_mem_cons

theorem Arrival.client_eq_unknown {a : Arrival} (h : a.headers.get "x-forwarded-for" = none) :
    a.client = "unknown" := by
  rw [client, clientIp, forwardedFor, request, h]
  rfl

/-! ### Runs of the gate -/

namespace Gate

variable {S : Settings} {X : Crates}

/-- The gate after a sequence of requests. -/
def after (S : Settings) (X : Crates) : Gate → List Arrival → Gate
  | g, [] => g
  | g, a :: arrivals => after S X (g.handle S X a).2 arrivals

theorem after_append (g : Gate) (l l' : List Arrival) :
    after S X g (l ++ l') = after S X (after S X g l) l' := by
  induction l generalizing g with
  | nil => rfl
  | cons a l ih => exact ih _

theorem verdicts_append (g : Gate) (l l' : List Arrival) :
    g.verdicts S X (l ++ l') = g.verdicts S X l ++ (after S X g l).verdicts S X l' := by
  induction l generalizing g with
  | nil => rfl
  | cons a l ih => rw [List.cons_append, verdicts_cons, verdicts_cons, ih]; rfl

theorem map_fst_verdicts (g : Gate) (l : List Arrival) : (g.verdicts S X l).map Prod.fst = l := by
  induction l generalizing g with
  | nil => rfl
  | cons a l ih => rw [verdicts_cons, List.map_cons, ih]

/-- The gate works, and the state of the client `"unknown"` is `s`. -/
structure Holds (S : Settings) (X : Crates) (g : Gate) (s : ClientState) : Prop where
  sound : g.db.poisoned = false
  consistent : g.peerIpCache.Consistent X S.nodePeers
  read : g.db.value.read "unknown" = s

theorem holds_start : Holds S X start .initial := ⟨rfl, PeerIpCache.consistent_new X _, rfl⟩

/-- **One request of an unforwarded client.** -/
theorem Holds.handle {g : Gate} {s s' : ClientState} (h : Holds S X g s) {a : Arrival}
    (ha : a.headers.get "x-forwarded-for" = none) {v : Verdict}
    (hs : s.judge (a.input S X) = some (v, s')) :
    (g.handle S X a).1 = some v ∧ Holds S X (g.handle S X a).2 s' := by
  obtain ⟨hverdict, hdb, hcache⟩ := handle_eq h.consistent a
  have hclient : a.client = "unknown" := Arrival.client_eq_unknown ha
  have hstep : gateService.step (gateService.read g.db.value a.client) (a.input S X) =
      some (v, s') := by
    have hread : gateService.read g.db.value "unknown" = s := h.read
    rw [hclient, hread]
    exact hs
  obtain ⟨t, hcall, hread⟩ := KeyedService.call_of_step hstep
  have hlocked : gateService.lockedCall g.db a.client (a.input S X) = (some v, ⟨t, false⟩) := by
    rw [KeyedService.lockedCall, h.sound, hcall]
    rfl
  rw [hlocked] at hverdict hdb
  refine ⟨hverdict, by rw [hdb], hcache, ?_⟩
  rw [hdb, ← hclient]
  exact hread

end Gate

/-! ### What a request does to the state it meets -/

variable {S : Settings} {X : Crates}

theorem cfg_input {a : Arrival} (ha : a.headers.get "x-forwarded-for" = none) :
    (a.input S X).cfg = S.bucket X "unknown" := by
  rw [Arrival.input, Arrival.client_eq_unknown ha]

theorem judge_search {a : Arrival} (ha : a.headers.get "x-forwarded-for" = none)
    (hroute : a.route = .search) (s : ClientState) :
    s.judge (a.input S X) = (s.rate.check a.now (S.bucket X "unknown")).map
      fun r ↦ (.rate r.1, { s with rate := r.2 }) := by
  rw [ClientState.judge]
  rw [cfg_input ha]
  dsimp only [Arrival.input]
  rw [hroute]

theorem judge_admin {a : Arrival} (hroute : a.route = .admin) (s : ClientState) :
    s.judge (a.input S X) =
      some (.admin (s.attempts.attempt a.now (isAuthorized S.adminToken a.headers)).1,
        { s with
          attempts := (s.attempts.attempt a.now (isAuthorized S.adminToken a.headers)).2 }) := by
  rw [ClientState.judge]
  dsimp only [Arrival.input]
  rw [hroute]

/-- No request makes the gate panic. -/
theorem exists_judge (s : ClientState) (a : Arrival) :
    ∃ v s', s.judge (a.input S X) = some (v, s') := by
  rw [ClientState.judge]
  dsimp only [Arrival.input]
  cases a.route with
  | search =>
    have hladder : (S.bucket X a.client).cooloffLadder ≠ [] := by
      rw [Settings.cooloffLadder_bucket]
      exact List.cons_ne_nil _ _
    obtain ⟨⟨d, rate⟩, hr⟩ := Option.ne_none_iff_exists'.1
      (RateLimitState.check_ne_none hladder s.rate a.now)
    exact ⟨_, _, by rw [hr]; rfl⟩
  | admin => exact ⟨_, _, rfl⟩

/-- Searches leave the admin attempts alone. -/
theorem Gate.Holds.searches {g : Gate} {s : ClientState} (h : Holds S X g s) {l : List Arrival}
    (hl : Unforwarded l) (hsearch : ∀ a ∈ l, a.route = .search) :
    ∃ s', Holds S X (after S X g l) s' ∧ s'.attempts = s.attempts := by
  induction l generalizing g s with
  | nil => exact ⟨s, h, rfl⟩
  | cons a l ih =>
    obtain ⟨ha, hl'⟩ := unforwarded_cons.1 hl
    obtain ⟨v, s₁, hs⟩ := exists_judge (S := S) (X := X) s a
    have hattempts : s₁.attempts = s.attempts := by
      rw [judge_search ha (hsearch a List.mem_cons_self)] at hs
      obtain ⟨r, -, he⟩ := Option.map_eq_some_iff.1 hs
      rw [← (Prod.mk.inj he).2]
    obtain ⟨s', h', hs'⟩ := ih (h.handle ha hs).2 hl' fun b hb ↦
      hsearch b (List.mem_cons_of_mem _ hb)
    exact ⟨s', h', hs'.trans hattempts⟩

/-! ### Locking somebody else out -/

/-- A request to an admin route without a token. -/
def tokenless (addr : SocketAddr) (now clock : Nat) : Arrival := ⟨addr, .admin, [], now, clock⟩

theorem attempt_initial (now : Nat) (authorized : Bool) :
    AttemptState.initial.attempt now authorized =
      if authorized then (.authorized, .initial)
      else (.unauthorized, AttemptState.initial.fail now) := by
  have hopen : isLockedOut AttemptState.initial.seen now = false := by
    rw [AttemptState.seen_of_lt (by decide), isLockedOut]
    exact decide_eq_false (Int.not_lt.2 (Int.natCast_nonneg now))
  rw [AttemptState.attempt, hopen]
  rfl

/-- **Five requests without a token lock the client out.** -/
theorem Gate.Holds.tokenless {g : Gate} {s : ClientState} (h : Holds S X g s)
    (hs : s.attempts = .initial) (addr : SocketAddr) (now clock : Nat) :
    ∃ s', Holds S X (after S X g (List.replicate 5 (tokenless addr now clock))) s' ∧
      s'.attempts = ⟨5, now + 900⟩ := by
  have hopen : ∀ n : Nat, n < 2 ^ 32 → isLockedOut (AttemptState.mk n 0).seen now = false :=
    fun n hn ↦ by
      rw [AttemptState.seen_of_lt hn, isLockedOut]
      exact decide_eq_false (Int.not_lt.2 (Int.natCast_nonneg now))
  -- one failure below the maximum
  have hfail : ∀ {g s} (n : Nat), n < 2 ^ 32 → Holds S X g s → s.attempts = ⟨n, 0⟩ →
      ∃ s', Holds S X (g.handle S X (CommunitySearch.tokenless addr now clock)).2 s' ∧
        s'.attempts = (AttemptState.mk n 0).fail now := fun {g s} n hlt hg hn ↦ by
    have hjudge := judge_admin (S := S) (X := X)
      (a := CommunitySearch.tokenless addr now clock) rfl s
    refine ⟨_, (hg.handle rfl hjudge).2, ?_⟩
    dsimp only
    rw [hn]
    change ((AttemptState.mk n 0).attempt now false).2 = _
    rw [AttemptState.attempt, hopen n hlt]
    rfl
  obtain ⟨s₁, h₁, hs₁⟩ := hfail 0 (by decide) h hs
  obtain ⟨s₂, h₂, hs₂⟩ := hfail 1 (by decide) h₁ hs₁
  obtain ⟨s₃, h₃, hs₃⟩ := hfail 2 (by decide) h₂ hs₂
  obtain ⟨s₄, h₄, hs₄⟩ := hfail 3 (by decide) h₃ hs₃
  obtain ⟨s₅, h₅, hs₅⟩ := hfail 4 (by decide) h₄ hs₄
  exact ⟨s₅, h₅, hs₅⟩

/-! ### Using somebody else's quota up -/

/-- A search. -/
def search (addr : SocketAddr) (now clock : Nat) : Arrival := ⟨addr, .search, [], now, clock⟩

theorem check_initial (now : Nat) (cfg : RateLimitConfig) (n : Nat) :
    (RateLimitState.mk (List.replicate n (now : Int)) 0 0 0).check now cfg =
      let s := (RateLimitState.mk (List.replicate n (now : Int)) 0 0 0).prune now cfg
      if s.requestLog.length ≥ cfg.limit.toNat then s.violate now cfg
      else some (.allow, s.record now cfg) := by
  have hclean : (RateLimitState.mk (List.replicate n (now : Int)) 0 0 0).cleanReset now cfg =
      RateLimitState.mk (List.replicate n (now : Int)) 0 0 0 :=
    if_neg fun h ↦ absurd h.1 (Int.lt_irrefl 0)
  rw [RateLimitState.check, hclean]
  exact if_neg (Int.not_lt.2 (Int.natCast_nonneg now))

theorem prune_replicate (now : Nat) (n : Nat) :
    (RateLimitState.mk (List.replicate n (now : Int)) 0 0 0).prune now (S.bucket X "unknown") =
      RateLimitState.mk (List.replicate n (now : Int)) 0 0 0 := by
  rw [RateLimitState.prune, Settings.windowSeconds_bucket]
  refine congrArg (RateLimitState.mk · 0 0 0) (List.filter_eq_self.2 fun t ht ↦ ?_)
  rw [(List.mem_replicate.1 ht).2]
  exact decide_eq_true (by omega)

/-- The limiter counts requests of the same second up to its limit. -/
theorem Gate.Holds.flood (hlimit : (S.bucket X "unknown").limit.toNat < 2 ^ 31)
    (addr : SocketAddr) (now clock n : Nat) (hn : n ≤ (S.bucket X "unknown").limit.toNat) :
    Holds S X (after S X start (List.replicate n (search addr now clock)))
      ⟨⟨List.replicate n (now : Int), 0, 0, 0⟩, .initial⟩ := by
  induction n with
  | zero => exact holds_start
  | succ n ih =>
    have hprev := ih (Nat.le_of_succ_le hn)
    have hcap : ((S.bucket X "unknown").limit * 2).toNat =
        (S.bucket X "unknown").limit.toNat * 2 := by
      rw [UInt32.toNat_mul]
      exact Nat.mod_eq_of_lt (by rw [show UInt32.toNat 2 = 2 from rfl]; omega)
    have hcheck : (RateLimitState.mk (List.replicate n (now : Int)) 0 0 0).check now
        (S.bucket X "unknown") =
        some (.allow, ⟨List.replicate (n + 1) (now : Int), 0, 0, 0⟩) := by
      rw [check_initial, prune_replicate]
      dsimp only
      rw [if_neg (by rw [List.length_replicate]; omega), RateLimitState.record]
      dsimp only
      rw [hcap, if_neg (by rw [List.length_append, List.length_replicate,
        List.length_singleton]; omega), ← List.replicate_succ']
    have hjudge := judge_search (S := S) (X := X) (a := search addr now clock) rfl rfl
      ⟨⟨List.replicate n (now : Int), 0, 0, 0⟩, .initial⟩
    dsimp only [search] at hjudge
    rw [hcheck] at hjudge
    rw [List.replicate_succ', after_append]
    exact (hprev.handle rfl hjudge).2

/-! ### A limit that never refuses -/

theorem length_record_le (s : RateLimitState) (now : Int) (cfg : RateLimitConfig) :
    (s.record now cfg).requestLog.length ≤ (cfg.limit * 2).toNat := by
  rw [RateLimitState.record]
  dsimp only
  split
  · rw [List.length_drop]
    omega
  · omega

/-- From `2 ^ 31` on the doubled limit wraps below the limit. -/
theorem toNat_cap_lt {cfg : RateLimitConfig} (hlimit : 2 ^ 31 ≤ cfg.limit.toNat) :
    (cfg.limit * 2).toNat < cfg.limit.toNat := by
  have hmul : (cfg.limit * 2).toNat = cfg.limit.toNat * 2 % 2 ^ 32 := UInt32.toNat_mul _ _
  have hlt : cfg.limit.toNat < 2 ^ 32 := UInt32.toNat_lt _
  omega

/-- A client whose log can never fill up. -/
structure Unlimited (cfg : RateLimitConfig) (s : RateLimitState) : Prop where
  cooloffUntil_eq : s.cooloffUntil = 0
  length_lt : s.requestLog.length < cfg.limit.toNat

/-- **Such a client is always allowed**, and stays one. -/
theorem Unlimited.check {cfg : RateLimitConfig} (hlimit : 2 ^ 31 ≤ cfg.limit.toNat)
    {s : RateLimitState} (h : Unlimited cfg s) (now : Nat) :
    ∃ s', s.check now cfg = some (.allow, s') ∧ Unlimited cfg s' := by
  have hcool : ¬ (s.cleanReset now cfg).cooloffUntil > now := by
    rw [RateLimitState.cooloffUntil_cleanReset, h.cooloffUntil_eq]
    exact Int.not_lt.2 (Int.natCast_nonneg now)
  have hlen : ¬ ((s.cleanReset now cfg).prune now cfg).requestLog.length ≥ cfg.limit.toNat := by
    have hle : ((s.cleanReset now cfg).prune now cfg).requestLog.length ≤ s.requestLog.length := by
      rw [← RateLimitState.requestLog_cleanReset s now cfg]
      exact List.length_filter_le _ _
    have hlt := h.length_lt
    omega
  refine ⟨((s.cleanReset now cfg).prune now cfg).record now cfg, ?_, ?_, ?_⟩
  · rw [RateLimitState.check, if_neg hcool, if_neg hlen]
  · exact (RateLimitState.cooloffUntil_cleanReset s now cfg).trans h.cooloffUntil_eq
  · exact (length_record_le _ _ _).trans_lt (toNat_cap_lt hlimit)

/-- **Under such a limit every search is allowed**, whoever sends what before it. -/
theorem Gate.Holds.verdicts_search (hlimit : 2 ^ 31 ≤ (S.bucket X "unknown").limit.toNat) {g : Gate}
    {s : ClientState} (h : Holds S X g s) (hs : Unlimited (S.bucket X "unknown") s.rate)
    {l : List Arrival} (hl : Unforwarded l) :
    ∀ e ∈ g.verdicts S X l, e.1.route = .search → e.2 = some (.rate .allow) := by
  induction l generalizing g s with
  | nil => exact fun e he ↦ absurd he List.not_mem_nil
  | cons a l ih =>
    obtain ⟨ha, hl'⟩ := unforwarded_cons.1 hl
    rw [verdicts_cons, List.forall_mem_cons]
    cases hroute : a.route with
    | search =>
      obtain ⟨rate, hcheck, hrate⟩ := hs.check hlimit a.now
      have hjudge : s.judge (a.input S X) = some (.rate .allow, { s with rate := rate }) := by
        rw [judge_search ha hroute, hcheck]
        rfl
      obtain ⟨hverdict, h'⟩ := h.handle ha hjudge
      exact ⟨fun _ ↦ hverdict, ih h' hrate hl'⟩
    | admin =>
      have h' := (h.handle ha (judge_admin hroute s)).2
      exact ⟨(fun hsearch ↦ nomatch hsearch), ih h' hs hl'⟩

/-! ### Exactly when a client is isolated -/

variable {c : SocketAddr}

theorem verdictsTo_append (l l' : List (Arrival × Option Verdict)) :
    verdictsTo c (l ++ l') = verdictsTo c l ++ verdictsTo c l' := by
  rw [verdictsTo, List.filter_append, List.map_append]
  rfl

theorem verdictsTo_eq_nil {g : Gate} {l : List Arrival} (h : ∀ a ∈ l, a.addr ≠ c) :
    verdictsTo c (g.verdicts S X l) = [] := by
  have hnil : (g.verdicts S X l).filter (fun e ↦ e.1.addr = c) = [] := by
    refine List.filter_eq_nil_iff.2 fun e he ↦ ?_
    have hmem : e.1 ∈ (g.verdicts S X l).map Prod.fst := List.mem_map_of_mem he
    rw [Gate.map_fst_verdicts] at hmem
    simpa using h e.1 hmem
  rw [verdictsTo, hnil]
  rfl

/-- **Interference.** Somebody else's requests before one of a client's, and another verdict about
it. -/
theorem not_isolated_of_ne {own post : List Arrival} {x : Arrival} (pre flood : List Arrival)
    (hown : own = pre ++ x :: post) (hc : ∀ a ∈ own, a.addr = c) (hu : Unforwarded own)
    (hflood : Unforwarded flood) (hother : ∀ a ∈ flood, a.addr ≠ c)
    (hne : ((Gate.after S X .start (pre ++ flood)).handle S X x).1 ≠
      ((Gate.after S X .start pre).handle S X x).1) : ¬ Isolated S X c own := by
  intro h
  have hself : requestsOf c own = own :=
    List.filter_eq_self.2 fun a ha ↦ decide_eq_true (hc a ha)
  have hnone : requestsOf c flood = [] :=
    List.filter_eq_nil_iff.2 fun a ha ↦ by simpa using hother a ha
  obtain ⟨hpre, hrest⟩ := unforwarded_append.1 (hown ▸ hu)
  have hmixed : requestsOf c (pre ++ (flood ++ x :: post)) = own := by
    rw [requestsOf, List.filter_append, List.filter_append, ← requestsOf, ← requestsOf,
      ← requestsOf, hnone, List.nil_append]
    calc requestsOf c pre ++ requestsOf c (x :: post) = requestsOf c (pre ++ x :: post) :=
          (List.filter_append ..).symm
      _ = own := hown ▸ hself
  have heq := h _ own (unforwarded_append.2 ⟨hpre, unforwarded_append.2 ⟨hflood, hrest⟩⟩) hu hmixed
    hself
  have hx : x.addr = c := hc x (hown ▸ List.mem_append_right _ List.mem_cons_self)
  have hcons : ∀ g : Gate, verdictsTo c (g.verdicts S X (x :: post)) =
      (g.handle S X x).1 :: verdictsTo c ((g.handle S X x).2.verdicts S X post) := fun g ↦ by
    rw [Gate.verdicts_cons, verdictsTo, List.filter_cons_of_pos (by simpa using hx), List.map_cons]
    rfl
  rw [hown, Gate.verdicts_append, Gate.verdicts_append, verdictsTo_append, Gate.verdicts_append,
    verdictsTo_append, verdictsTo_append, verdictsTo_eq_nil hother, List.nil_append, hcons, hcons,
    ← Gate.after_append] at heq
  exact hne (List.cons.inj (List.append_cancel_left heq)).1

/-- A socket that is not the client's. -/
def neighbour (c : SocketAddr) : SocketAddr := ⟨c.ip, c.port + 1⟩

theorem neighbour_ne (c : SocketAddr) : neighbour c ≠ c := fun h ↦
  absurd (congrArg SocketAddr.port h) (Nat.succ_ne_self _)

/-- A client with an admin request can be locked out by its neighbours. -/
theorem not_isolated_of_admin {own : List Arrival} (hc : ∀ a ∈ own, a.addr = c)
    (hu : Unforwarded own) (hadmin : ∃ a ∈ own, a.route = .admin) : ¬ Isolated S X c own := by
  obtain ⟨a, ha, hroute⟩ := hadmin
  have hfind : (own.find? fun a ↦ a.route = .admin).isSome :=
    List.find?_isSome.2 ⟨a, ha, by simpa using hroute⟩
  obtain ⟨x, hx⟩ := Option.isSome_iff_exists.1 hfind
  obtain ⟨hxadmin, pre, post, hown, hpre⟩ := List.find?_eq_some_iff_append.1 hx
  have hxroute : x.route = .admin := by simpa using hxadmin
  -- the requests before the first admin request are searches
  have hsearch : ∀ a ∈ pre, a.route = .search := fun a ha ↦ by
    have hne := hpre a ha
    cases hr : a.route with
    | search => rfl
    | admin => simp [hr] at hne
  obtain ⟨hupre, hurest⟩ := unforwarded_append.1 (hown ▸ hu)
  have hxu := (unforwarded_cons.1 hurest).1
  obtain ⟨s, hs, hattempts⟩ := (Gate.holds_start (S := S) (X := X)).searches hupre hsearch
  obtain ⟨s', hs', hattempts'⟩ := hs.tokenless hattempts (neighbour c) x.now x.clock
  refine not_isolated_of_ne pre (List.replicate 5 (tokenless (neighbour c) x.now x.clock)) hown hc
    hu ?_ ?_ ?_
  · exact fun a ha ↦ (List.mem_replicate.1 ha).2 ▸ rfl
  · exact fun a ha ↦ (List.mem_replicate.1 ha).2 ▸ neighbour_ne c
  · rw [Gate.after_append, (hs'.handle hxu (judge_admin hxroute s')).1,
      (hs.handle hxu (judge_admin hxroute s)).1, hattempts, hattempts',
      show ClientState.initial.attempts = .initial from rfl, attempt_initial]
    have hlocked : isLockedOut (AttemptState.mk 5 ((x.now : Int) + 900)).seen x.now = true := by
      have hlt : (x.now : Int) < x.now + 900 := by omega
      have hcount : 5 < 2 ^ 32 := by decide
      rw [AttemptState.seen_of_lt hcount]
      exact decide_eq_true hlt
    rw [AttemptState.attempt, if_pos hlocked]
    cases isAuthorized S.adminToken x.headers <;> exact fun h ↦ nomatch h

/-- A first violation costs a minute. -/
theorem violate_bucket (log : List Int) (now : Int) :
    (RateLimitState.mk log 0 0 0).violate now (S.bucket X "unknown") =
      some (.cooloff 60, ⟨log, 1, now + 60, now⟩) := by
  rw [RateLimitState.violate, Settings.cooloffLadder_bucket]
  rfl

/-- The verdict about a search is the decision of the limiter. -/
theorem Gate.Holds.verdict_search {g : Gate} {s : ClientState} (h : Holds S X g s) {x : Arrival}
    (hx : x.headers.get "x-forwarded-for" = none) (hroute : x.route = .search) {d : Decision}
    {rate : RateLimitState}
    (hcheck : s.rate.check x.now (S.bucket X "unknown") = some (d, rate)) :
    (g.handle S X x).1 = some (.rate d) := by
  have hjudge : s.judge (x.input S X) = some (.rate d, { s with rate := rate }) := by
    rw [judge_search hx hroute, hcheck]
    rfl
  exact (h.handle hx hjudge).1

/-- A client that searches can have its quota used up by its neighbours, under any limit that
counts. -/
theorem not_isolated_of_search (hlimit : (S.bucket X "unknown").limit.toNat < 2 ^ 31)
    {x : Arrival} {rest : List Arrival} (hc : ∀ a ∈ x :: rest, a.addr = c)
    (hu : Unforwarded (x :: rest)) (hroute : x.route = .search) : ¬ Isolated S X c (x :: rest) := by
  have hxu := (unforwarded_cons.1 hu).1
  have hsearch : ∀ n, Unforwarded (List.replicate n (search (neighbour c) x.now x.clock)) :=
    fun n a ha ↦ (List.mem_replicate.1 ha).2 ▸ rfl
  rcases Nat.eq_zero_or_pos (S.bucket X "unknown").limit.toNat with hzero | hpos
  · -- under a limit of zero a violation now decides how long the next one costs
    have hfirst : ∀ t : Nat, RateLimitState.initial.check t (S.bucket X "unknown") =
        some (.cooloff 60, ⟨[], 1, t + 60, t⟩) := fun t ↦ by
      have hcheck := check_initial t (S.bucket X "unknown") 0
      rw [prune_replicate] at hcheck
      exact hcheck.trans ((if_pos (by rw [hzero]; exact Nat.zero_le _)).trans (violate_bucket [] t))
    have hlate := Gate.holds_start.handle (S := S) (X := X)
      (a := search (neighbour c) (x.now + 1000) x.clock) rfl
      ((judge_search rfl rfl _).trans (by
        dsimp only [search]
        exact congrArg (Option.map _) (hfirst (x.now + 1000))))
    refine not_isolated_of_ne [] [search (neighbour c) (x.now + 1000) x.clock] rfl hc hu
      (fun a ha ↦ List.mem_singleton.1 ha ▸ rfl)
      (fun a ha ↦ List.mem_singleton.1 ha ▸ neighbour_ne c) ?_
    have hcool : (x.now : Int) < (x.now + 1000 : Nat) + 60 := by omega
    have hafter := hlate.2.verdict_search hxu hroute (RateLimitState.check_of_cooloff hcool)
    have hbefore := Gate.holds_start.verdict_search hxu hroute (hfirst x.now)
    intro h
    have hsixty : ((x.now + 1000 : Nat) : Int) + 60 - x.now = 60 :=
      Decision.cooloff.inj
        (Verdict.rate.inj (Option.some.inj ((hafter.symm.trans h).trans hbefore)))
    omega
  · have hflood := Gate.Holds.flood hlimit (neighbour c) x.now x.clock _ le_rfl
    have hfull : (RateLimitState.mk
        (List.replicate (S.bucket X "unknown").limit.toNat (x.now : Int)) 0 0 0).check x.now
        (S.bucket X "unknown") = some (.cooloff 60,
          ⟨List.replicate (S.bucket X "unknown").limit.toNat x.now, 1, x.now + 60, x.now⟩) := by
      rw [check_initial, prune_replicate]
      exact (if_pos (by rw [List.length_replicate])).trans (violate_bucket _ _)
    have hfresh : RateLimitState.initial.check x.now (S.bucket X "unknown") =
        some (.allow, RateLimitState.initial.record x.now (S.bucket X "unknown")) := by
      have hcheck := check_initial x.now (S.bucket X "unknown") 0
      rw [prune_replicate] at hcheck
      exact hcheck.trans (if_neg (Nat.not_le.2 hpos))
    refine not_isolated_of_ne [] (List.replicate (S.bucket X "unknown").limit.toNat
      (search (neighbour c) x.now x.clock)) rfl hc hu (hsearch _)
      (fun a ha ↦ (List.mem_replicate.1 ha).2 ▸ neighbour_ne c) ?_
    have hafter := hflood.verdict_search hxu hroute hfull
    have hbefore := Gate.holds_start.verdict_search hxu hroute hfresh
    exact fun h ↦ nomatch (hafter.symm.trans h).trans hbefore

/-- A client that only searches is isolated under a limit that never refuses. -/
theorem isolated_of_unlimited (hlimit : 2 ^ 31 ≤ (S.bucket X "unknown").limit.toNat)
    {own : List Arrival} (hsearch : ∀ a ∈ own, a.route = .search) : Isolated S X c own := by
  have hrate : Unlimited (S.bucket X "unknown") ClientState.initial.rate :=
    ⟨rfl, lt_of_lt_of_le (Nat.two_pow_pos 31) hlimit⟩
  -- all verdicts are the same, and as many as the client's requests
  have hall : ∀ r, Unforwarded r → requestsOf c r = own →
      verdictsTo c (Gate.start.verdicts S X r) =
        List.replicate own.length (some (.rate .allow)) := by
    intro r hr hown
    have hfst : (((Gate.start.verdicts S X r).filter fun e ↦ e.1.addr = c).map Prod.fst) = own := by
      calc ((Gate.start.verdicts S X r).filter fun e ↦ e.1.addr = c).map Prod.fst
          = ((Gate.start.verdicts S X r).map Prod.fst).filter fun a ↦ a.addr = c := by
            rw [List.filter_map]
            rfl
        _ = own := by rw [Gate.map_fst_verdicts]; exact hown
    refine List.eq_replicate_iff.2 ⟨?_, fun v hv ↦ ?_⟩
    · rw [← hfst, verdictsTo, List.length_map, List.length_map]
    · obtain ⟨e, he, rfl⟩ := List.mem_map.1 hv
      have hmem : e.1 ∈ own := hfst ▸ List.mem_map_of_mem he
      exact Gate.holds_start.verdicts_search hlimit hrate hr e (List.mem_filter.1 he).1
        (hsearch e.1 hmem)
  intro r r' hr hr' hown hown'
  rw [hall r hr hown, hall r' hr' hown']

/-- **Client isolation holds for no client that matters.** Under any settings, what is decided
about a client that sends no `X-Forwarded-For` header is a function of its own requests exactly when
it sends none, or when it only searches and the limit is so high that the limiter never refuses. -/
theorem isolated_iff (S : Settings) (X : Crates) (c : SocketAddr) (own : List Arrival)
    (hc : ∀ a ∈ own, a.addr = c) (hu : Unforwarded own) :
    Isolated S X c own ↔
      own = [] ∨
        2 ^ 31 ≤ (S.bucket X "unknown").limit.toNat ∧ ∀ a ∈ own, a.route = .search := by
  constructor
  · intro h
    by_cases hadmin : ∃ a ∈ own, a.route = .admin
    · exact absurd h (not_isolated_of_admin hc hu hadmin)
    · have hsearch : ∀ a ∈ own, a.route = .search := fun a ha ↦ by
        cases hroute : a.route with
        | search => rfl
        | admin => exact absurd ⟨a, ha, hroute⟩ hadmin
      rcases own with - | ⟨x, rest⟩
      · exact Or.inl rfl
      · refine Or.inr ⟨Nat.not_lt.1 fun hlimit ↦ ?_, hsearch⟩
        exact not_isolated_of_search hlimit hc hu (hsearch x List.mem_cons_self) h
  · rintro (rfl | ⟨hlimit, hsearch⟩)
    · exact fun r r' _ _ hr hr' ↦ by
        have hnil : ∀ {l : List Arrival}, requestsOf c l = [] →
            verdictsTo c (Gate.start.verdicts S X l) = [] := fun {l} hl ↦
          verdictsTo_eq_nil fun a ha hac ↦
            absurd hl (List.ne_nil_of_mem (List.mem_filter.2 ⟨ha, decide_eq_true hac⟩))
        rw [hnil hr, hnil hr']
    · exact isolated_of_unlimited hlimit hsearch

namespace Bystander

/-- An engine with the default limits and no peers. -/
def settings : Settings := ⟨"secret", 30, 120, .empty⟩

/-- No URL is ever parsed. -/
def crates : Crates := .ofTables ⟨[], [], [], [], []⟩

/-- The administrator. -/
def operator : SocketAddr := ⟨"192.0.2.1", 40000⟩

/-- Somebody else. -/
def stranger : SocketAddr := ⟨"198.51.100.7", 50000⟩

/-- A request with the right token. -/
def login : Arrival := ⟨operator, .admin, [("authorization", some "Bearer secret")], 1000, 0⟩

/-- The client and its request meet the conditions of the theorem, and it is not isolated. -/
theorem isolated_iff_login :
    Isolated settings crates operator [login] ↔
      [login] = [] ∨ 2 ^ 31 ≤ (settings.bucket crates "unknown").limit.toNat ∧
        ∀ a ∈ [login], a.route = .search :=
  isolated_iff settings crates operator [login] (by decide) (by decide)

/-- Alone, the administrator is let in; after five requests without a token from a stranger, the
same request is refused. -/
theorem not_isolated : ¬ Isolated settings crates operator [login] := fun h ↦
  absurd (h [login] (List.replicate 5 (tokenless stranger 1000 0) ++ [login]) (by decide)
    (by decide) (by decide) (by decide)) (by decide +kernel)

end Bystander

end CommunitySearch
