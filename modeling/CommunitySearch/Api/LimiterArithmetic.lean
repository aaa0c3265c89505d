import CommunitySearch.Api.ClientIsolation
import CommunitySearch.Api.CooloffLadder

/-!
# The arithmetic of the limiter

`check_and_record_key` computes in machine integers, with a limit that nobody validates: any `u32`
may be put through the admin API or the environment. `checkedCheck` is the function with every
operation checked; it is `none` where an operation overflows or an index is out of bounds.

`arithmeticSafe_enforcesLimit_iff` says which limits are safe: those below `2 ^ 31`. From there on
the doubling of the limit overflows on the first request. In a build without overflow checks the
doubled limit is below the limit itself, the log is cut back before it fills, and no request is ever
refused.

Everything else stays in range, in every state the limiter can reach (`InRange`): each violation
moves the deadline by the shortest rung at least, which bounds their number.
-/

/-- The values of a machine integer type. -/
structure MachineInt where
  lo : Int
  hi : Int

namespace MachineInt

def i64 : MachineInt := ⟨-9223372036854775808, 9223372036854775807⟩

def u32 : MachineInt := ⟨0, 4294967295⟩

/-- `usize` on a 64-bit target. -/
def usize : MachineInt := ⟨0, 18446744073709551615⟩

/-- The result of an operation, unless it overflows. -/
def check (τ : MachineInt) (n : Int) : Option Int :=
  if τ.lo ≤ n ∧ n ≤ τ.hi then some n else none

variable {τ : MachineInt} {n : Int}

theorem check_of_mem (hlo : τ.lo ≤ n) (hhi : n ≤ τ.hi) : τ.check n = some n :=
  if_pos ⟨hlo, hhi⟩

theorem check_of_lt (h : τ.hi < n) : τ.check n = none :=
  if_neg fun hn ↦ Int.not_le.2 h hn.2

end MachineInt

namespace CommunitySearch

open KeyedService MachineInt SlidingWindow

/-! ### The function with checked operations -/

namespace RateLimitState

/-- `cleanReset`; the age is computed behind a `&&`. -/
def checkedCleanReset (s : RateLimitState) (now : Int) (cfg : RateLimitConfig) :
    Option RateLimitState :=
  if s.lastViolationAt > 0 then do
    let age ← i64.check (now - s.lastViolationAt)
    if age > cfg.cleanPeriodSeconds ∧ s.cooloffUntil ≤ now then some { s with violations := 0 }
    else some s
  else some s

/-- `violate`. -/
def checkedViolate (s : RateLimitState) (now : Int) (cfg : RateLimitConfig) :
    Option (Decision × RateLimitState) := do
  let last ← usize.check ((cfg.cooloffLadder.length : Int) - 1)
  let duration ← cfg.cooloffLadder[min s.violations last.toNat]?
  let violations ← i64.check ((s.violations : Int) + 1)
  let cooloffUntil ← i64.check (now + duration)
  some (.cooloff duration,
    { s with
      violations := violations.toNat
      cooloffUntil := cooloffUntil
      lastViolationAt := now })

/-- `record`; draining more than there is panics. -/
def checkedRecord (s : RateLimitState) (now : Int) (cfg : RateLimitConfig) :
    Option (Decision × RateLimitState) := do
  let log := s.requestLog ++ [now]
  let len ← usize.check (log.length : Int)
  let cap ← u32.check ((cfg.limit.toNat : Int) * 2)
  if len > cap then
    let excess ← usize.check (len - cap)
    if excess > len then none
    else some (.allow, { s with requestLog := log.drop excess.toNat })
  else some (.allow, { s with requestLog := log })

/-- `check`. -/
def checkedCheck (s : RateLimitState) (now : Int) (cfg : RateLimitConfig) :
    Option (Decision × RateLimitState) := do
  let s ← s.checkedCleanReset now cfg
  if s.cooloffUntil > now then
    let remaining ← i64.check (s.cooloffUntil - now)
    some (.cooloff remaining, s)
  else
    let windowStart ← i64.check (now - cfg.windowSeconds)
    let s := { s with requestLog := s.requestLog.filter fun t ↦ windowStart < t }
    if s.requestLog.length ≥ cfg.limit.toNat then s.checkedViolate now cfg
    else s.checkedRecord now cfg

end RateLimitState

/-- What the clock can return: the timestamps of `chrono`'s `DateTime<Utc>`. -/
def ClockTime (now : Int) : Prop := -8334601228800 ≤ now ∧ now ≤ 8210266876799

/-- The configurations of the limiter: `main` and `put_config` set the limit only. -/
def limitedTo (limit : UInt32) : RateLimitConfig := { RateLimitConfig.default with limit := limit }

/-- A state in which the limiter finds a key after calls at any times of the clock, under any
limits. -/
def ReachableState (s : RateLimitState) : Prop :=
  ∃ (key : RateLimitKey) (db : RateLimits) (calls : List (RateLimitKey × Int × RateLimitConfig)),
    KeyTable.find db key.storageKey = none ∧
      (∀ c ∈ calls, ClockTime c.2.1 ∧ ∃ limit, c.2.2 = limitedTo limit) ∧
      s = (rateLimiter.after ⟨db, false⟩ calls).value.loadState key.storageKey

/-- **No operation overflows and no index is out of bounds**: in every reachable state and at every
time the checked operations return what the model does. -/
def ArithmeticSafe (limit : UInt32) : Prop :=
  ∀ s now, ReachableState s → ClockTime now →
    ∃ r, s.checkedCheck now (limitedTo limit) = some r ∧ s.check now (limitedTo limit) = some r

/-- **At most `limit` requests a window are allowed**, where the doubled limit wraps around: of a
key checked at non-decreasing times, whatever is called on other keys. -/
def EnforcesLimit (limit : UInt32) : Prop :=
  ∀ (key : RateLimitKey) (db : RateLimits) (calls : List (RateLimitKey × Int × RateLimitConfig)),
    KeyTable.find db key.storageKey = none →
    (∀ c ∈ calls, c.1 = key → c.2.2 = limitedTo limit) →
    (calls.Pairwise fun c d ↦ c.1 = key → d.1 = key → c.2.1 ≤ d.2.1) →
    ∀ t, (window (limitedTo limit).windowSeconds t
      (allowedTimes (KeyedService.history key (rateLimiter.trace ⟨db, false⟩ calls)))).length ≤
        limit.toNat

/-- The limits of the settings, stored or from the environment, are limits of this kind. -/
theorem rateLimitConfig_eq_limitedTo (S : Settings) :
    S.rateLimitConfig = limitedTo S.searchRateLimitPerMinute ∧
      S.peerRateLimitConfig = limitedTo S.peerRateLimitPerMinute :=
  ⟨rfl, rfl⟩

/-! ### The range of the state -/

/-- The range of what is stored for a key. -/
structure InRange (s : RateLimitState) : Prop where
  cooloffUntil_nonneg : 0 ≤ s.cooloffUntil
  cooloffUntil_le : s.cooloffUntil ≤ 8210266876799 + 3600
  /-- Each violation has moved the deadline by a minute at least. -/
  violations_le : 60 * (s.violations : Int) ≤ s.cooloffUntil
  lastViolationAt_nonneg : 0 ≤ s.lastViolationAt
  lastViolationAt_le : s.lastViolationAt ≤ 8210266876799
  length_le : s.requestLog.length < 2 ^ 32

theorem inRange_initial : InRange .initial :=
  ⟨by decide, by decide, by decide, by decide, by decide, by decide⟩

variable {s s' : RateLimitState} {now : Int} {limit : UInt32} {decision : Decision}

theorem rung_bounds {n : ℕ} {duration : Int}
    (h : (limitedTo limit).cooloffLadder[n]? = some duration) :
    60 ≤ duration ∧ duration ≤ 3600 := by
  have hmem : duration ∈ [(60 : Int), 300, 3600] := List.mem_of_getElem? h
  simp only [List.mem_cons, List.not_mem_nil, or_false] at hmem
  omega

theorem RateLimitState.violations_cleanReset_le (s : RateLimitState) (now : Int)
    (cfg : RateLimitConfig) : (s.cleanReset now cfg).violations ≤ s.violations := by
  rcases violations_cleanReset s now cfg with h | h
  · exact h.le
  · exact h.1.trans_le (Nat.zero_le _)

theorem RateLimitState.length_prune_le (s : RateLimitState) (now : Int) (cfg : RateLimitConfig) :
    (s.prune now cfg).requestLog.length ≤ s.requestLog.length :=
  List.length_filter_le _ _

/-- **One check keeps the range**, under any limit. -/
theorem InRange.check (h : InRange s) (hnow : ClockTime now)
    (hs : s.check now (limitedTo limit) = some (decision, s')) : InRange s' := by
  have hlen : s'.requestLog.length < 2 ^ 32 := by
    have hle := h.length_le
    have hprune := s.length_prune_le now (limitedTo limit)
    rcases RateLimitState.check_cases hs with ⟨-, -, hlog⟩ | ⟨-, -, -, hlog⟩ | ⟨-, -, -, -, hlog⟩
    · rw [hlog]
      exact hle
    · rw [hlog]
      omega
    · rw [hlog]
      exact (length_record_le _ _ _).trans_lt (UInt32.toNat_lt _)
  have hreset := s.violations_cleanReset_le now (limitedTo limit)
  obtain ⟨hnonneg, hle, hviolations, hat, hat', -⟩ := h
  obtain ⟨hlo, hhi⟩ := hnow
  rcases RateLimitState.check_ladder hs with ⟨-, -, rfl⟩ |
    ⟨hover, duration, hrung, -, hcount, huntil, hlast⟩ | ⟨-, -, hcount, huntil, hlast⟩
  · exact ⟨hnonneg, hle, hviolations, hat, hat', hlen⟩
  · have hbounds := rung_bounds hrung
    refine ⟨?_, ?_, ?_, ?_, ?_, hlen⟩
    all_goals omega
  · refine ⟨?_, ?_, ?_, ?_, ?_, hlen⟩
    all_goals omega

theorem ReachableState.inRange (h : ReachableState s) : InRange s := by
  obtain ⟨key, db, calls, hnew, hcalls, rfl⟩ := h
  have hinitial : db.loadState key.storageKey = .initial := by
    rw [RateLimits.loadState, hnew]
    rfl
  have hstep : ∀ (hist : List ((Int × RateLimitConfig) × Decision)) t i o t', InRange t →
      (ClockTime i.1 ∧ ∃ limit, i.2 = limitedTo limit) → (∀ e ∈ hist, True) →
      rateLimiter.step t i = some (o, t') → InRange t' := by
    rintro hist t ⟨now, cfg⟩ o t' ht ⟨hnow, limit, rfl⟩ - hs
    exact ht.check hnow hs
  have hall := KeyedService.history_invariant (S := rateLimiter) key
    (P := fun i ↦ ClockTime i.1 ∧ ∃ limit, i.2 = limitedTo limit) (R := fun _ _ ↦ True)
    (I := fun _ t ↦ InRange t) hstep (m := ⟨db, false⟩) (by
      show InRange (db.loadState key.storageKey)
      rw [hinitial]
      exact inRange_initial) (fun c hc _ ↦ hcalls c hc)
    (List.pairwise_of_forall fun _ _ _ _ ↦ trivial)
  exact hall

/-! ### Below `2 ^ 31` -/

namespace InRange

theorem checkedCleanReset_eq (h : InRange s) (hnow : ClockTime now) (cfg : RateLimitConfig) :
    s.checkedCleanReset now cfg = some (s.cleanReset now cfg) := by
  have hage : i64.check (now - s.lastViolationAt) = some (now - s.lastViolationAt) := by
    obtain ⟨hlo, hhi⟩ := hnow
    have hat := h.lastViolationAt_nonneg
    have hat' := h.lastViolationAt_le
    exact check_of_mem (by dsimp only [i64]; omega) (by dsimp only [i64]; omega)
  rw [RateLimitState.checkedCleanReset, RateLimitState.cleanReset, hage]
  by_cases hpos : s.lastViolationAt > 0
  · rw [if_pos hpos]
    by_cases hclean : now - s.lastViolationAt > cfg.cleanPeriodSeconds ∧ s.cooloffUntil ≤ now
    · rw [if_pos ⟨hpos, hclean⟩]
      exact if_pos hclean
    · rw [if_neg fun hall ↦ hclean hall.2]
      exact if_neg hclean
  · rw [if_neg hpos, if_neg fun hall ↦ hpos hall.1]

theorem checkedViolate_eq (h : InRange s) (hnow : ClockTime now) :
    s.checkedViolate now (limitedTo limit) = s.violate now (limitedTo limit) := by
  obtain ⟨hlo, hhi⟩ := hnow
  have hviolations := h.violations_le
  have huntil := h.cooloffUntil_le
  have hlast : usize.check (((limitedTo limit).cooloffLadder.length : Int) - 1) = some 2 := rfl
  have hcount : i64.check ((s.violations : Int) + 1) = some ((s.violations : Int) + 1) :=
    check_of_mem (by dsimp only [i64]; omega) (by dsimp only [i64]; omega)
  rw [RateLimitState.checkedViolate, RateLimitState.violate, hlast, hcount]
  show (do
      let duration ← (limitedTo limit).cooloffLadder[min s.violations 2]?
      let cooloffUntil ← i64.check (now + duration)
      some (Decision.cooloff duration, RateLimitState.mk s.requestLog
        ((s.violations : Int) + 1).toNat cooloffUntil now)) = _
  have hlen : (limitedTo limit).cooloffLadder.length - 1 = 2 := rfl
  rw [hlen]
  rcases hrung : (limitedTo limit).cooloffLadder[min s.violations 2]? with - | duration
  · rfl
  · have hbounds := rung_bounds hrung
    have hdeadline : i64.check (now + duration) = some (now + duration) :=
      check_of_mem (by dsimp only [i64]; omega) (by dsimp only [i64]; omega)
    show (do
      let cooloffUntil ← i64.check (now + duration)
      some (Decision.cooloff duration, RateLimitState.mk s.requestLog
        ((s.violations : Int) + 1).toNat cooloffUntil now)) = _
    rw [hdeadline]
    rfl

theorem checkedRecord_eq (h : InRange s) (hlimit : limit.toNat < 2 ^ 31) :
    s.checkedRecord now (limitedTo limit) =
      some (.allow, s.record now (limitedTo limit)) := by
  have hcapNat : ((limitedTo limit).limit * 2).toNat = limit.toNat * 2 :=
    @toNat_cap (limitedTo limit) hlimit
  have hle := h.length_le
  have hlength : (s.requestLog ++ [now]).length = s.requestLog.length + 1 := List.length_append
  have hlen : usize.check (((s.requestLog ++ [now]).length : ℕ) : Int) =
      some (((s.requestLog ++ [now]).length : ℕ) : Int) :=
    check_of_mem (by dsimp only [usize]; omega) (by dsimp only [usize]; omega)
  have hcap : u32.check ((limit.toNat : Int) * 2) = some ((limit.toNat : Int) * 2) :=
    check_of_mem (by dsimp only [u32]; omega) (by dsimp only [u32]; omega)
  rw [RateLimitState.checkedRecord, RateLimitState.record, hcapNat]
  show (do
      let len ← usize.check (((s.requestLog ++ [now]).length : ℕ) : Int)
      let cap ← u32.check ((limit.toNat : Int) * 2)
      if len > cap then
        let excess ← usize.check (len - cap)
        if excess > len then none
        else some (Decision.allow,
          { s with requestLog := (s.requestLog ++ [now]).drop excess.toNat })
      else some (Decision.allow, { s with requestLog := s.requestLog ++ [now] })) = _
  rw [hlen, hcap]
  dsimp only [Option.bind_eq_bind, Option.bind_some]
  by_cases hover : (s.requestLog ++ [now]).length > limit.toNat * 2
  · have hexcess : usize.check ((((s.requestLog ++ [now]).length : ℕ) : Int) -
        (limit.toNat : Int) * 2) =
        some ((((s.requestLog ++ [now]).length : ℕ) : Int) - (limit.toNat : Int) * 2) :=
      check_of_mem (by dsimp only [usize]; omega) (by dsimp only [usize]; omega)
    have htoNat : ((((s.requestLog ++ [now]).length : ℕ) : Int) - (limit.toNat : Int) * 2).toNat =
        (s.requestLog ++ [now]).length - limit.toNat * 2 := by omega
    rw [if_pos (by omega), if_pos hover, hexcess, Option.bind_some, if_neg (by omega), htoNat]
  · rw [if_neg (by omega), if_neg hover]

/-- **In range, and with a limit whose double is one, every operation is exact.** -/
theorem checkedCheck_eq (h : InRange s) (hnow : ClockTime now) (hlimit : limit.toNat < 2 ^ 31) :
    s.checkedCheck now (limitedTo limit) = s.check now (limitedTo limit) := by
  obtain ⟨hlo, hhi⟩ := hnow
  have hreset := s.violations_cleanReset_le now (limitedTo limit)
  have huntil := s.cooloffUntil_cleanReset now (limitedTo limit)
  have hat := s.lastViolationAt_cleanReset now (limitedTo limit)
  have hlog := s.requestLog_cleanReset now (limitedTo limit)
  rw [RateLimitState.checkedCheck, h.checkedCleanReset_eq ⟨hlo, hhi⟩, RateLimitState.check]
  set r := s.cleanReset now (limitedTo limit)
  obtain ⟨hnonneg, hle, hviolations, hat₀, hat₁, hlen⟩ := h
  have hr : InRange r := ⟨huntil ▸ hnonneg, huntil ▸ hle, by omega, hat ▸ hat₀, hat ▸ hat₁,
    hlog ▸ hlen⟩
  dsimp only [Option.bind_eq_bind, Option.bind_some]
  by_cases hcool : r.cooloffUntil > now
  · have hremaining : i64.check (r.cooloffUntil - now) = some (r.cooloffUntil - now) :=
      check_of_mem (by dsimp only [i64]; omega) (by dsimp only [i64]; omega)
    rw [if_pos hcool, if_pos hcool, hremaining]
    rfl
  · have hwindow : i64.check (now - (limitedTo limit).windowSeconds) =
        some (now - (limitedTo limit).windowSeconds) := by
      have h60 : (limitedTo limit).windowSeconds = 60 := rfl
      exact check_of_mem (by dsimp only [i64]; omega) (by dsimp only [i64]; omega)
    have hpruned : InRange (r.prune now (limitedTo limit)) :=
      { hr with length_le := (r.length_prune_le now _).trans_lt hr.length_le }
    rw [if_neg hcool, if_neg hcool, hwindow, Option.bind_some]
    show (if (r.prune now (limitedTo limit)).requestLog.length ≥ limit.toNat then
        (r.prune now (limitedTo limit)).checkedViolate now (limitedTo limit)
      else (r.prune now (limitedTo limit)).checkedRecord now (limitedTo limit)) = _
    rw [hpruned.checkedViolate_eq ⟨hlo, hhi⟩, hpruned.checkedRecord_eq hlimit]
    rfl

end InRange

theorem arithmeticSafe_of_lt (hlimit : limit.toNat < 2 ^ 31) : ArithmeticSafe limit := by
  intro s now hs hnow
  have hne : s.check now (limitedTo limit) ≠ none :=
    RateLimitState.check_ne_none (List.cons_ne_nil _ _) s now
  obtain ⟨r, hr⟩ := Option.ne_none_iff_exists'.1 hne
  exact ⟨r, (hs.inRange.checkedCheck_eq hnow hlimit).trans hr, hr⟩

theorem enforcesLimit_of_lt (hlimit : limit.toNat < 2 ^ 31) : EnforcesLimit limit := by
  intro key db calls hnew hcfg htimes
  have hsmall : (limitedTo limit).limit.toNat < 2 ^ 31 := hlimit
  have hlog : (db.loadState key.storageKey).requestLog = [] := by
    rw [RateLimits.loadState, hnew]
  have h : LogExact (limitedTo limit)
      (KeyedService.history key (rateLimiter.trace ⟨db, false⟩ calls))
      ((rateLimiter.after ⟨db, false⟩ calls).value.loadState key.storageKey) :=
    logExact_trace key hsmall hlog hcfg htimes
  exact length_window_le h.sorted h.admitted

/-! ### From `2 ^ 31` on -/

/-- A key without a row is a reachable state. -/
theorem reachableState_initial : ReachableState .initial :=
  ⟨.ip "", .empty, [], rfl, fun _ hc ↦ absurd hc List.not_mem_nil, rfl⟩

/-- **The first request overflows.** -/
theorem checkedCheck_initial (hlimit : 2 ^ 31 ≤ limit.toNat) :
    RateLimitState.initial.checkedCheck 0 (limitedTo limit) = none := by
  have hcap : u32.check ((limit.toNat : Int) * 2) = none :=
    check_of_lt (by dsimp only [u32]; omega)
  have hpos : ¬ ([] : List Int).length ≥ limit.toNat := by
    rw [List.length_nil]
    omega
  show (if ([] : List Int).length ≥ limit.toNat then
      RateLimitState.initial.checkedViolate 0 (limitedTo limit)
    else (do
      let cap ← u32.check ((limit.toNat : Int) * 2)
      if (1 : Int) > cap then
        let excess ← usize.check (1 - cap)
        if excess > 1 then none
        else some (Decision.allow, RateLimitState.mk ([0].drop excess.toNat) 0 0 0)
      else some (Decision.allow, RateLimitState.mk [0] 0 0 0))) = none
  rw [if_neg hpos, hcap]
  rfl

/-- A client that sends any number of requests at one time is allowed them all. -/
theorem history_replicate (hlimit : 2 ^ 31 ≤ limit.toNat) (n : ℕ) {db : RateLimits}
    (key : RateLimitKey) (h : Unlimited (limitedTo limit) (db.loadState key.storageKey)) :
    KeyedService.history key
        (rateLimiter.trace ⟨db, false⟩ (List.replicate n (key, 1, limitedTo limit))) =
      List.replicate n ((1, limitedTo limit), .allow) := by
  induction n generalizing db with
  | zero => rfl
  | succ n ih =>
    obtain ⟨s', hcheck, hs'⟩ := h.check hlimit 1
    obtain ⟨db', hlocked, -, hread⟩ := KeyedService.lockedCall_of_step (S := rateLimiter) (t := db)
      (k := key) (i := (1, limitedTo limit)) hcheck
    have hnext : Unlimited (limitedTo limit) (db'.loadState key.storageKey) := by
      have hload : db'.loadState key.storageKey = s' := hread
      rw [hload]
      exact hs'
    rw [List.replicate_succ, List.replicate_succ, KeyedService.trace_cons, hlocked,
      ← List.singleton_append, KeyedService.history_append, ih hnext]
    simp [KeyedService.history]

theorem not_arithmeticSafe (hlimit : 2 ^ 31 ≤ limit.toNat) : ¬ ArithmeticSafe limit := by
  intro h
  obtain ⟨r, hr, -⟩ := h .initial 0 reachableState_initial ⟨by decide, by decide⟩
  rw [checkedCheck_initial hlimit] at hr
  cases hr

theorem not_enforcesLimit (hlimit : 2 ^ 31 ≤ limit.toNat) : ¬ EnforcesLimit limit := by
  intro h
  have hunlimited : Unlimited (limitedTo limit)
      (RateLimits.loadState .empty (RateLimitKey.ip "").storageKey) :=
    ⟨rfl, (Nat.two_pow_pos 31).trans_le hlimit⟩
  have hwindow := h (.ip "") .empty
    (List.replicate (limit.toNat + 1) (.ip "", 1, limitedTo limit)) rfl
    (fun _ hc _ ↦ by rw [List.eq_of_mem_replicate hc])
    (List.pairwise_replicate.2 (Or.inr fun _ _ ↦ le_rfl)) 1
  rw [history_replicate hlimit _ _ hunlimited] at hwindow
  have hall : allowedTimes (List.replicate (limit.toNat + 1) ((1, limitedTo limit), .allow)) =
      List.replicate (limit.toNat + 1) 1 := by
    exact List.filterMap_replicate_of_some rfl
  have hin : window (limitedTo limit).windowSeconds 1 (List.replicate (limit.toNat + 1) 1) =
      List.replicate (limit.toNat + 1) 1 :=
    List.filter_replicate_of_pos rfl
  rw [hall, hin, List.length_replicate] at hwindow
  omega

/-- **Which limits are safe.** Of all limits that the admin API and the environment accept, those
below `2 ^ 31`, and no others, let every check of every reachable state be evaluated without
overflow, out-of-bounds index or panic; and they, and no others, bound what is allowed in a window
where the doubled limit wraps around. -/
theorem arithmeticSafe_enforcesLimit_iff (limit : UInt32) :
    (ArithmeticSafe limit ↔ limit.toNat < 2 ^ 31) ∧
      (EnforcesLimit limit ↔ limit.toNat < 2 ^ 31) := by
  refine ⟨⟨fun h ↦ ?_, arithmeticSafe_of_lt⟩, ⟨fun h ↦ ?_, enforcesLimit_of_lt⟩⟩
  · by_contra hlimit
    exact not_arithmeticSafe (Nat.not_lt.1 hlimit) h
  · by_contra hlimit
    exact not_enforcesLimit (Nat.not_lt.1 hlimit) h

/-- The limit `2 ^ 31` overflows and enforces nothing. -/
theorem not_arithmeticSafe_and_not_enforcesLimit :
    ¬ ArithmeticSafe 2147483648 ∧ ¬ EnforcesLimit 2147483648 :=
  ⟨not_arithmeticSafe (by decide), not_enforcesLimit (by decide)⟩

end CommunitySearch
