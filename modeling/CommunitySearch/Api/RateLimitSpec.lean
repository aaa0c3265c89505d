import CommunitySearch.Api.RateLimit
import CommunitySearch.Foundation.SlidingWindow
import Mathlib.Algebra.Order.Group.Int
import Mathlib.Algebra.Group.Nat.Defs

/-!
# What the limiter guarantees

**The window.** At most `limit` requests of a key are allowed in any window, and the log of the key
holds every request allowed in the current one. Cooloffs only refuse more, so neither the ladder nor
the violation counter enters the argument; what carries it is that the log, pruned at any time from
now on, is the list of allowed requests pruned at that time (`LogExact.log_eq`). The cap never cuts
into it: a request is recorded when fewer than `limit` entries are left, and the cap is `limit * 2`
as long as the doubling does not wrap.

**The keys.** The decisions given to a key are those it would be given alone, because distinct keys
have distinct rows. Only a panic crosses from one key to another, through the mutex it poisons, and
only an empty cooloff ladder makes a call panic.
-/

namespace CommunitySearch

open SlidingWindow

/-- The times at which a key was allowed. -/
def allowedTimes (history : List ((Int × RateLimitConfig) × Decision)) : List Int :=
  history.filterMap fun e ↦ if e.2 = .allow then some e.1.1 else none

/-! ### The window -/

variable {history : List ((Int × RateLimitConfig) × Decision)} {cfg : RateLimitConfig}

theorem allowedTimes_snoc_allow (history : List ((Int × RateLimitConfig) × Decision))
    (input : Int × RateLimitConfig) :
    allowedTimes (history ++ [(input, .allow)]) = allowedTimes history ++ [input.1] :=
  List.filterMap_append

theorem allowedTimes_snoc_cooloff (history : List ((Int × RateLimitConfig) × Decision))
    (input : Int × RateLimitConfig) (seconds : Int) :
    allowedTimes (history ++ [(input, .cooloff seconds)]) = allowedTimes history := by
  rw [allowedTimes, List.filterMap_append]
  exact List.append_nil _

theorem exists_of_mem_allowedTimes {t : Int} (h : t ∈ allowedTimes history) :
    ∃ e ∈ history, e.1.1 = t := by
  obtain ⟨e, he, ht⟩ := List.mem_filterMap.1 h
  split at ht
  case isTrue => exact ⟨e, he, Option.some.inj ht⟩
  case isFalse => cases ht

/-- The limit leaves room for its double: the cap is not below it. -/
theorem toNat_cap (hlimit : cfg.limit.toNat < 2 ^ 31) :
    (cfg.limit * 2).toNat = cfg.limit.toNat * 2 := by
  have hmul : (cfg.limit * 2).toNat = cfg.limit.toNat * 2 % 2 ^ 32 := UInt32.toNat_mul _ _
  rw [hmul]
  exact Nat.mod_eq_of_lt (by omega)

/-- A request recorded within the limit is appended: the cap cuts nothing off. -/
theorem requestLog_record (hlimit : cfg.limit.toNat < 2 ^ 31) {s : RateLimitState}
    (hlen : s.requestLog.length < cfg.limit.toNat) (now : Int) :
    (s.record now cfg).requestLog = s.requestLog ++ [now] := by
  have hle : ¬ (s.requestLog ++ [now]).length > (cfg.limit * 2).toNat := by
    rw [toNat_cap hlimit, List.length_append, List.length_singleton]
    omega
  rw [RateLimitState.record]
  dsimp only
  rw [if_neg hle]

/-- What the log of a key has to do with the requests it was allowed. -/
structure LogExact (cfg : RateLimitConfig) (history : List ((Int × RateLimitConfig) × Decision))
    (s : RateLimitState) : Prop where
  sorted : (allowedTimes history).Pairwise (· ≤ ·)
  admitted : Admitted cfg.windowSeconds cfg.limit.toNat (allowedTimes history)
  /-- From the last request on, pruning the log is pruning the allowed requests. -/
  log_eq : ∀ t, (∀ e ∈ history, e.1.1 ≤ t) →
    since cfg.windowSeconds t s.requestLog = since cfg.windowSeconds t (allowedTimes history)

theorem logExact_nil {s : RateLimitState} (h : s.requestLog = []) : LogExact cfg [] s where
  sorted := List.Pairwise.nil
  admitted := admitted_nil
  log_eq t _ := by rw [h]; rfl

/-- **One check keeps the log exact.** -/
theorem LogExact.check (hlimit : cfg.limit.toNat < 2 ^ 31) {s s' : RateLimitState}
    (h : LogExact cfg history s) {now : Int} (hnow : ∀ e ∈ history, e.1.1 ≤ now)
    {decision : Decision} (hs : s.check now cfg = some (decision, s')) :
    LogExact cfg (history ++ [((now, cfg), decision)]) s' := by
  have hpast : ∀ {t}, (∀ e ∈ history ++ [((now, cfg), decision)], e.1.1 ≤ t) →
      (∀ e ∈ history, e.1.1 ≤ t) ∧ now ≤ t := fun ht ↦
    ⟨fun e he ↦ ht e (List.mem_append_left _ he),
      ht _ (List.mem_append_right _ (List.mem_singleton_self _))⟩
  have hprune : (s.prune now cfg).requestLog =
      since cfg.windowSeconds now (allowedTimes history) := h.log_eq now hnow
  -- pruning now and again later is pruning later
  have hlater : ∀ {t}, now ≤ t → since cfg.windowSeconds t (s.prune now cfg).requestLog =
      since cfg.windowSeconds t (allowedTimes history) := fun ht ↦ by
    rw [hprune, since_since ht]
  rcases RateLimitState.check_cases hs with ⟨-, rfl, hlog⟩ | ⟨-, -, ⟨seconds, rfl⟩, hlog⟩ |
    ⟨-, hlen, rfl, -, hlog⟩
  · have hsame := allowedTimes_snoc_cooloff history (now, cfg) (s.cooloffUntil - now)
    refine ⟨?_, ?_, fun t ht ↦ ?_⟩
    · rw [hsame]; exact h.sorted
    · rw [hsame]; exact h.admitted
    · rw [hsame, hlog]; exact h.log_eq t (hpast ht).1
  · have hsame := allowedTimes_snoc_cooloff history (now, cfg) seconds
    refine ⟨?_, ?_, fun t ht ↦ ?_⟩
    · rw [hsame]; exact h.sorted
    · rw [hsame]; exact h.admitted
    · rw [hsame, hlog]; exact hlater (hpast ht).2
  · have hone := allowedTimes_snoc_allow history (now, cfg)
    refine ⟨?_, ?_, fun t ht ↦ ?_⟩
    · rw [hone, List.pairwise_append]
      refine ⟨h.sorted, List.pairwise_singleton _ _, fun a ha b hb ↦ ?_⟩
      obtain ⟨e, he, rfl⟩ := exists_of_mem_allowedTimes ha
      rw [List.mem_singleton.1 hb]
      exact hnow e he
    · rw [hone]
      exact h.admitted.snoc (hprune ▸ hlen)
    · rw [hone, hlog, requestLog_record hlimit hlen, since_append, since_append,
        hlater (hpast ht).2]

/-- The log of a key is exact after any calls, whatever other keys are called in between. -/
theorem logExact_trace (key : RateLimitKey) (hlimit : cfg.limit.toNat < 2 ^ 31)
    {db : Locked RateLimits} (hnew : (db.value.loadState key.storageKey).requestLog = [])
    {calls : List (RateLimitKey × Int × RateLimitConfig)}
    (hcfg : ∀ c ∈ calls, c.1 = key → c.2.2 = cfg)
    (htimes : calls.Pairwise fun c d ↦ c.1 = key → d.1 = key → c.2.1 ≤ d.2.1) :
    LogExact cfg (KeyedService.history key (rateLimiter.trace db calls))
      ((rateLimiter.after db calls).value.loadState key.storageKey) := by
  let P : Int × RateLimitConfig → Prop := fun i ↦ i.2 = cfg
  let R : Int × RateLimitConfig → Int × RateLimitConfig → Prop := fun i j ↦ i.1 ≤ j.1
  have hstep : ∀ h s i o s', LogExact cfg h s → P i → (∀ e ∈ h, R e.1 i) →
      rateLimiter.step s i = some (o, s') → LogExact cfg (h ++ [(i, o)]) s' := by
    rintro h s ⟨now, cfg'⟩ o s' hI (rfl : cfg' = cfg) hnow hs
    exact hI.check hlimit hnow hs
  have hall := KeyedService.history_invariant key hstep (logExact_nil hnew) hcfg htimes
  exact hall

/-- **Sliding-window correctness.** Take a key without a row, any calls of the limiter in which it
is checked at non-decreasing times under a configuration whose limit is below `2 ^ 31`, and
whatever the calls of other keys are. No window holds more than `limit` requests the key was
allowed, and from the last check on the stored log, as far as the current window reaches, is the
list of requests allowed in it. -/
theorem window_allowed_le (key : RateLimitKey) (cfg : RateLimitConfig)
    (hlimit : cfg.limit.toNat < 2 ^ 31) (db : RateLimits)
    (hnew : KeyTable.find db key.storageKey = none)
    (calls : List (RateLimitKey × Int × RateLimitConfig))
    (hcfg : ∀ c ∈ calls, c.1 = key → c.2.2 = cfg)
    (htimes : calls.Pairwise fun c d ↦ c.1 = key → d.1 = key → c.2.1 ≤ d.2.1) :
    (∀ t, (window cfg.windowSeconds t
        (allowedTimes (KeyedService.history key (rateLimiter.trace ⟨db, false⟩ calls)))).length ≤
      cfg.limit.toNat) ∧
    ∀ t, (∀ c ∈ calls, c.1 = key → c.2.1 ≤ t) →
      since cfg.windowSeconds t
        ((rateLimiter.after ⟨db, false⟩ calls).value.loadState key.storageKey).requestLog =
      since cfg.windowSeconds t
        (allowedTimes (KeyedService.history key (rateLimiter.trace ⟨db, false⟩ calls))) := by
  have hlog : (db.loadState key.storageKey).requestLog = [] := by
    rw [RateLimits.loadState, hnew]
  have h : LogExact cfg (KeyedService.history key (rateLimiter.trace ⟨db, false⟩ calls))
      ((rateLimiter.after ⟨db, false⟩ calls).value.loadState key.storageKey) :=
    logExact_trace key hlimit hlog hcfg htimes
  refine ⟨length_window_le h.sorted h.admitted, fun t ht ↦ h.log_eq t fun e he ↦ ?_⟩
  exact ht (key, e.1) (KeyedService.mem_of_mem_history he) rfl

/-- Three checks of one client under a limit of two: two in one second, one when the window has
passed. -/
theorem window_allowed_le_thrice :
    let calls : List (RateLimitKey × Int × RateLimitConfig) :=
      [(.ip "1.2.3.4", 1000, ⟨2, 60, [60], 3600⟩), (.ip "1.2.3.4", 1000, ⟨2, 60, [60], 3600⟩),
        (.ip "1.2.3.4", 1060, ⟨2, 60, [60], 3600⟩)]
    (window 60 1059 (allowedTimes (KeyedService.history (.ip "1.2.3.4")
        (rateLimiter.trace ⟨.empty, false⟩ calls)))).length ≤ 2 ∧
      since 60 1060 ((rateLimiter.after ⟨.empty, false⟩ calls).value.loadState
        (RateLimitKey.ip "1.2.3.4").storageKey).requestLog =
      since 60 1060 (allowedTimes (KeyedService.history (.ip "1.2.3.4")
        (rateLimiter.trace ⟨.empty, false⟩ calls))) := by
  intro calls
  obtain ⟨hwindow, hlog⟩ := window_allowed_le (.ip "1.2.3.4") ⟨2, 60, [60], 3600⟩ (by decide)
    .empty rfl calls (by decide) (by decide)
  exact ⟨hwindow 1059, hlog 1060 (by decide)⟩

/-! ### The keys -/

/-- **Noninterference between keys.** In any sequence of calls whose configurations have a rung to
cool off on, whatever the keys, the times and the configurations, the decisions given to a key are
those of running the limiter on the calls of that key alone. -/
theorem decisions_of_key (db : RateLimits) (key : RateLimitKey)
    (calls : List (RateLimitKey × Int × RateLimitConfig))
    (hladder : ∀ c ∈ calls, c.2.2.cooloffLadder ≠ []) :
    (rateLimiter.trace ⟨db, false⟩ calls).filter (fun e ↦ e.key = key) =
      rateLimiter.trace ⟨db, false⟩ (calls.filter fun c ↦ c.1 = key) := by
  have hcalls : ∀ c ∈ calls, ∀ s, rateLimiter.step s c.2 ≠ none := fun c hc s ↦
    RateLimitState.check_ne_none (hladder c hc) s c.2.1
  exact KeyedService.filter_trace key hcalls rfl

/-- A key that spells another key's storage key is told apart from it. -/
theorem decisions_of_key_spelled :
    (rateLimiter.trace ⟨.empty, false⟩ [(.peer "a", 1000, ⟨1, 60, [60], 3600⟩),
        (.ip "peer:a", 1000, ⟨1, 60, [60], 3600⟩), (.peer "a", 1001, ⟨1, 60, [60], 3600⟩)]).filter
        (fun e ↦ e.key = .peer "a") =
      rateLimiter.trace ⟨.empty, false⟩ ([(.peer "a", 1000, ⟨1, 60, [60], 3600⟩),
        (.ip "peer:a", 1000, ⟨1, 60, [60], 3600⟩),
        (.peer "a", 1001, ⟨1, 60, [60], 3600⟩)].filter fun c ↦ c.1 = .peer "a") :=
  decisions_of_key .empty (.peer "a") _ (by decide)

/-- A call under an empty ladder panics while it holds the lock, and then a client that was never
seen before is not answered either. -/
theorem not_decisions_of_key :
    ¬ (rateLimiter.trace ⟨.empty, false⟩ [(.peer "a", 1000, ⟨0, 60, [], 3600⟩),
        (.ip "b", 1000, .default)]).filter (fun e ↦ e.key = .ip "b") =
      rateLimiter.trace ⟨.empty, false⟩ ([(.peer "a", 1000, ⟨0, 60, [], 3600⟩),
        (.ip "b", 1000, .default)].filter fun c ↦ c.1 = .ip "b") := by
  decide

end CommunitySearch
