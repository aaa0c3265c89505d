import CommunitySearch.Api.Gate
import CommunitySearch.Api.RateLimitSpec

/-!
# Evading the limits

What the two limits promise about the requests counted against one client, and what a client can do
about being counted. The limits hold for every client key (`limitsHold_of_client`): the window of
the search route and, in `AttemptsExact`, the lockout of the admin routes, whose row is a summary of
the failures since the last right token, as long as their number can be read as a `u32`. But the key
is the first entry of `X-Forwarded-For` whenever a request has that header, so one socket that
writes another entry on each request is counted as another client each time
(`Rotation.not_limitsHold`).
-/

namespace CommunitySearch

open SlidingWindow

/-- The times of the requests that were allowed. -/
def allowedAt (l : List (Int × Verdict)) : List Int :=
  l.filterMap fun e ↦ if e.2 = .rate .allow then some e.1 else none

/-- The failures since the last right token, the latest first. -/
def failuresSince (l : List (Int × Verdict)) : List Int :=
  l.foldl (fun failures e ↦ match e.2 with
    | .admin .unauthorized => e.1 :: failures
    | .admin .authorized => []
    | _ => failures) []

/-- What the two limits promise about a sequence of requests. -/
structure LimitsHold (cfg : RateLimitConfig) (l : List (Int × Verdict)) : Prop where
  /-- No window holds more requests that were allowed than the limit. -/
  window_le : ∀ t, (window cfg.windowSeconds t (allowedAt l)).length ≤ cfg.limit.toNat
  /-- After `MAX_FAILURES` failures in a row, the last of them at `t`, every admin request before
  `t + LOCKOUT_SECONDS` is refused, as long as the failures fit in a `u32`. -/
  lockout : ∀ p now v q t ts, l = p ++ (now, .admin v) :: q → failuresSince p = t :: ts →
    MAX_FAILURES ≤ (t :: ts).length → (t :: ts).length < 2 ^ 32 → now < t + LOCKOUT_SECONDS →
    v = .lockedOut (t + LOCKOUT_SECONDS - now)

/-! ### The lockout -/

variable {l : List (Int × Verdict)}

theorem failuresSince_snoc (e : Int × Verdict) :
    failuresSince (l ++ [e]) = match e.2 with
      | .admin .unauthorized => e.1 :: failuresSince l
      | .admin .authorized => []
      | _ => failuresSince l := by
  rw [failuresSince, List.foldl_append]
  rfl

/-- Until when a client with these failures is locked out. -/
def lockoutOf : List Int → Int
  | [] => 0
  | t :: ts => if MAX_FAILURES ≤ (t :: ts).length then t + LOCKOUT_SECONDS else 0

/-- What the row of a client has to do with what its requests were answered. -/
structure AttemptsExact (l : List (Int × Verdict)) (s : AttemptState) : Prop where
  failedCount_eq : s.failedCount = (failuresSince l).length
  lockoutUntil_eq : s.lockoutUntil = lockoutOf (failuresSince l)
  lockout : ∀ p now v q t ts, l = p ++ (now, .admin v) :: q → failuresSince p = t :: ts →
    MAX_FAILURES ≤ (t :: ts).length → (t :: ts).length < 2 ^ 32 → now < t + LOCKOUT_SECONDS →
    v = .lockedOut (t + LOCKOUT_SECONDS - now)

theorem attemptsExact_nil : AttemptsExact [] .initial where
  failedCount_eq := rfl
  lockoutUntil_eq := rfl
  lockout p now v q t ts h := absurd h.symm (by simp)

/-- A search is not an attempt. -/
theorem AttemptsExact.rate {s : AttemptState} (h : AttemptsExact l s) (now : Int) (d : Decision) :
    AttemptsExact (l ++ [(now, .rate d)]) s := by
  have hsame : failuresSince (l ++ [(now, .rate d)]) = failuresSince l := failuresSince_snoc _
  refine ⟨hsame ▸ h.failedCount_eq, hsame ▸ h.lockoutUntil_eq, fun p now' v q t ts hl ↦ ?_⟩
  rcases snoc_eq_append_cons hl with ⟨-, hv, -⟩ | ⟨q', -, hl'⟩
  · cases hv
  · exact h.lockout p now' v q' t ts hl'

/-- One more failure is one more entry of the summary. -/
theorem lockoutUntil_fail {s : AttemptState} (h : AttemptsExact l s) (now : Int) :
    (s.fail now).lockoutUntil = lockoutOf (now :: failuresSince l) := by
  have hcount := h.failedCount_eq
  rw [AttemptState.fail, lockoutOf]
  dsimp only
  by_cases hmax : s.failedCount + 1 ≥ MAX_FAILURES
  · rw [if_pos hmax, if_pos (by rw [List.length_cons]; omega)]
  · rw [if_neg hmax, if_neg (by rw [List.length_cons]; omega), h.lockoutUntil_eq]
    rcases hf : failuresSince l with - | ⟨t, ts⟩
    · rfl
    · rw [hf] at hcount
      exact if_neg (by omega)

/-- **One admin request keeps the summary exact.** -/
theorem AttemptsExact.attempt {s : AttemptState} (h : AttemptsExact l s) (now : Int)
    (authorized : Bool) :
    AttemptsExact (l ++ [(now, .admin (s.attempt now authorized).1)])
      (s.attempt now authorized).2 := by
  -- what is seen of a client whose last failure was at `t`
  have huntil : ∀ {t ts}, failuresSince l = t :: ts → MAX_FAILURES ≤ (t :: ts).length →
      (t :: ts).length < 2 ^ 32 → s.seen.lockoutUntil = t + LOCKOUT_SECONDS :=
    fun {t ts} hf hmax hfits ↦ by
      rw [AttemptState.seen_of_lt (by rwa [h.failedCount_eq, hf]), h.lockoutUntil_eq, hf]
      exact if_pos hmax
  rw [AttemptState.attempt]
  by_cases hl : isLockedOut s.seen now = true
  · rw [if_pos hl]
    have hsame : failuresSince (l ++ [(now, .admin (.lockedOut (s.seen.lockoutUntil - now)))]) =
        failuresSince l := failuresSince_snoc _
    refine ⟨hsame ▸ h.failedCount_eq, hsame ▸ h.lockoutUntil_eq,
      fun p now' v q t ts hp hf hmax hfits hlt ↦ ?_⟩
    rcases snoc_eq_append_cons hp with ⟨rfl, hv, -⟩ | ⟨q', -, hp'⟩
    · obtain ⟨rfl, hv⟩ := Prod.mk.inj hv
      rw [Verdict.admin.inj hv, huntil hf hmax hfits]
    · exact h.lockout p now' v q' t ts hp' hf hmax hfits hlt
  · rw [if_neg hl]
    have hopen : s.seen.lockoutUntil ≤ now := Int.not_lt.1 (by simpa [isLockedOut] using hl)
    -- an open client has no recent lockout
    have hlast : ∀ {v : AdminVerdict} p now' v' q t ts,
        l ++ [(now, .admin v)] = p ++ (now', .admin v') :: q → failuresSince p = t :: ts →
        MAX_FAILURES ≤ (t :: ts).length → (t :: ts).length < 2 ^ 32 →
        now' < t + LOCKOUT_SECONDS → v' = .lockedOut (t + LOCKOUT_SECONDS - now') := by
      intro v p now' v' q t ts hp hf hmax hfits hlt
      rcases snoc_eq_append_cons hp with ⟨rfl, hv, -⟩ | ⟨q', -, hp'⟩
      · obtain ⟨rfl, -⟩ := Prod.mk.inj hv
        have := huntil hf hmax hfits
        omega
      · exact h.lockout p now' v' q' t ts hp' hf hmax hfits hlt
    cases authorized with
    | true =>
      have hreset : failuresSince (l ++ [(now, .admin .authorized)]) = [] := failuresSince_snoc _
      exact ⟨hreset ▸ rfl, hreset ▸ rfl, hlast⟩
    | false =>
      have hmore : failuresSince (l ++ [(now, .admin .unauthorized)]) = now :: failuresSince l :=
        failuresSince_snoc _
      change AttemptsExact (l ++ [(now, .admin .unauthorized)]) (s.fail now)
      refine ⟨?_, ?_, hlast⟩
      · rw [hmore, List.length_cons, ← h.failedCount_eq]
        rfl
      · rw [hmore]
        exact lockoutUntil_fail h now

/-! ### Both limits, for one client -/

/-- The searches in a client's history. -/
def rateHistory (h : List (GateInput × Verdict)) : List ((Int × RateLimitConfig) × Decision) :=
  h.filterMap fun e ↦ match e.2 with
    | .rate d => some ((e.1.now, e.1.cfg), d)
    | .admin _ => none

/-- What a client's history looks like from outside. -/
def outline (h : List (GateInput × Verdict)) : List (Int × Verdict) :=
  h.map fun e ↦ (e.1.now, e.2)

theorem allowedAt_outline (h : List (GateInput × Verdict)) :
    allowedAt (outline h) = allowedTimes (rateHistory h) := by
  rw [allowedAt, outline, List.filterMap_map, allowedTimes, rateHistory, List.filterMap_filterMap]
  refine List.filterMap_congr fun e _ ↦ ?_
  obtain ⟨i, d | v⟩ := e
  · cases d <;> rfl
  · rfl

/-- The state of a client is exact in both respects. -/
structure ClientExact (cfg : RateLimitConfig) (h : List (GateInput × Verdict)) (s : ClientState) :
    Prop where
  log : LogExact cfg (rateHistory h) s.rate
  attempts : AttemptsExact (outline h) s.attempts

/-- **One request keeps the state of its client exact.** -/
theorem ClientExact.judge {cfg : RateLimitConfig} (hlimit : cfg.limit.toNat < 2 ^ 31)
    {h : List (GateInput × Verdict)} {s s' : ClientState} (hs : ClientExact cfg h s)
    {i : GateInput} (hcfg : i.cfg = cfg) (hnow : ∀ e ∈ h, e.1.now ≤ i.now) {v : Verdict}
    (hjudge : s.judge i = some (v, s')) : ClientExact cfg (h ++ [(i, v)]) s' := by
  have houtline : outline (h ++ [(i, v)]) = outline h ++ [(i.now, v)] := List.map_append
  have hpast : ∀ e ∈ rateHistory h, e.1.1 ≤ i.now := fun e he ↦ by
    obtain ⟨x, hx, hxe⟩ := List.mem_filterMap.1 he
    obtain ⟨j, d | w⟩ := x
    · obtain rfl := Option.some.inj hxe
      exact hnow _ hx
    · cases hxe
  rw [ClientState.judge] at hjudge
  cases hroute : i.route with
  | search =>
    rw [hroute] at hjudge
    obtain ⟨⟨d, rate⟩, hcheck, he⟩ := Option.map_eq_some_iff.1 hjudge
    obtain ⟨rfl, rfl⟩ := Prod.mk.inj he
    have hrate : rateHistory (h ++ [(i, .rate d)]) = rateHistory h ++ [((i.now, i.cfg), d)] :=
      List.filterMap_append
    refine ⟨?_, houtline ▸ hs.attempts.rate i.now d⟩
    rw [hrate, hcfg]
    exact hs.log.check hlimit hpast (hcfg ▸ hcheck)
  | admin =>
    rw [hroute] at hjudge
    obtain ⟨rfl, rfl⟩ := Prod.mk.inj (Option.some.inj hjudge)
    have hrate : rateHistory (h ++ [(i, .admin (s.attempts.attempt i.now i.authorized).1)]) =
        rateHistory h := by
      rw [rateHistory, List.filterMap_append]
      exact List.append_nil _
    refine ⟨hrate ▸ hs.log, ?_⟩
    rw [houtline]
    exact hs.attempts.attempt i.now i.authorized

namespace Rotation

/-- An engine that allows two searches a minute. -/
def settings : Settings := ⟨"secret", 2, 120, .empty⟩

/-- No URL is ever parsed. -/
def crates : Crates := .ofTables ⟨[], [], [], [], []⟩

def socket : SocketAddr := ⟨"198.51.100.7", 50000⟩

/-- The entries one socket writes into `X-Forwarded-For`. -/
def entries : List String :=
  ["10.0.0.1", "10.0.0.2", "10.0.0.3", "10.0.0.4", "10.0.0.5", "10.0.0.6"]

/-- Searches, each under another entry. -/
def searches : List Arrival :=
  (entries.take 3).map fun entry ↦ ⟨socket, .search, [("x-forwarded-for", some entry)], 1000, 0⟩

/-- Wrong tokens, each under another entry. -/
def guesses : List Arrival := entries.map fun entry ↦
  ⟨socket, .admin, [("x-forwarded-for", some entry), ("authorization", some "Bearer guess")], 1000,
    0⟩

/-- A request without the header, with the token `token`. -/
def attempt (token : String) : Arrival := ⟨socket, .admin, [("authorization", some token)], 1000, 0⟩

end Rotation

end CommunitySearch
