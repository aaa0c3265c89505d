import CommunitySearch.Api.RateLimitSpec

/-!
# The cooloff ladder

What the violations of a key cost it. Over the checks of one key (`Check`), a check violates when
it is refused and no cooloff was running, and it resets when the stored count is not what it was
with the violation added. `ClimbsLadder` says what the ladder is for in these terms alone: the
violation that is the `k`-th since the last reset is given the `k`-th rung, or the last one; nothing
changes while its cooloff runs; and only a clean period resets the count.

What carries it is `Accounts`: the stored count is the number of violations since the last reset,
and the stored deadline and time are those of the last violation.
-/

namespace CommunitySearch

open KeyedService

/-- A check of one key: the state before it, the time and the configuration, the decision and the
state after it. -/
abbrev Check := Step RateLimitState (Int × RateLimitConfig) Decision

namespace Check

/-- The time of the check. -/
def now (c : Check) : Int := c.input.1

/-- The check is refused, and not for a cooloff that is running. -/
def violates (c : Check) : Bool := c.answer ≠ .allow ∧ c.before.cooloffUntil ≤ c.now

/-- The stored count is set back. -/
def resets (c : Check) : Bool :=
  c.after.violations ≠ c.before.violations + if c.violates then 1 else 0

/-- The number of violations since the last check that resets the count; a check that does both
violates after it resets. -/
def violationsSinceReset (l : List Check) : ℕ :=
  l.foldl (fun k c ↦ (if c.resets then 0 else k) + if c.violates then 1 else 0) 0

theorem violationsSinceReset_append_singleton (l : List Check) (c : Check) :
    violationsSinceReset (l ++ [c]) =
      (if c.resets then 0 else violationsSinceReset l) + if c.violates then 1 else 0 :=
  List.foldl_append

/-- `v` is the last violation of `l`. -/
def LastViolation (l : List Check) (v : Check) : Prop :=
  ∃ before mid, l = before ++ v :: mid ∧ v.violates = true ∧ ∀ e ∈ mid, e.violates = false

/-- **What the ladder promises** of the checks of a key. -/
structure ClimbsLadder (cfg : RateLimitConfig) (l : List Check) : Prop where
  /-- The `k`-th violation since the last reset is given the `k`-th rung, the last one at most. -/
  rung : ∀ pre c post, l = pre ++ c :: post → c.violates = true → ∃ duration,
    cfg.cooloffLadder[min (violationsSinceReset (pre ++ [c]) - 1)
      (cfg.cooloffLadder.length - 1)]? = some duration ∧
    c.answer = .cooloff duration ∧ c.after.cooloffUntil = c.now + duration
  /-- Until it ends, every check is refused with the remaining seconds and changes nothing. -/
  refused : ∀ pre v mid c post duration, l = pre ++ v :: (mid ++ c :: post) →
    v.violates = true → v.answer = .cooloff duration → c.now < v.now + duration →
    c.answer = .cooloff (v.now + duration - c.now) ∧ c.before = v.after ∧ c.after = v.after
  /-- The count is reset only after a clean period, with the cooloff over. -/
  reset : ∀ pre c post, l = pre ++ c :: post → c.resets = true → ∃ v duration,
    LastViolation pre v ∧ v.answer = .cooloff duration ∧
    cfg.cleanPeriodSeconds < c.now - v.now ∧ v.now + duration ≤ c.now

end Check

/-! ### What one check does to the four fields -/

variable {cfg : RateLimitConfig} {s s' : RateLimitState} {now : Int} {decision : Decision}

/-- A running cooloff keeps the count. -/
theorem RateLimitState.cleanReset_of_cooloff (h : now < s.cooloffUntil) :
    s.cleanReset now cfg = s :=
  if_neg fun hreset ↦ absurd hreset.2.2 (Int.not_le.2 h)

/-- In a cooloff a check is refused with the seconds that remain, and leaves the state alone. -/
theorem RateLimitState.check_in_cooloff (h : now < s.cooloffUntil) :
    s.check now cfg = some (.cooloff (s.cooloffUntil - now), s) := by
  rw [check_of_cooloff h, cleanReset_of_cooloff h]

/-- The count after a reset, if there is one. -/
theorem RateLimitState.violations_cleanReset (s : RateLimitState) (now : Int)
    (cfg : RateLimitConfig) :
    (s.cleanReset now cfg).violations = s.violations ∨
      ((s.cleanReset now cfg).violations = 0 ∧ 0 < s.lastViolationAt ∧
        cfg.cleanPeriodSeconds < now - s.lastViolationAt) := by
  rw [cleanReset]
  split
  case isTrue h => exact Or.inr ⟨rfl, h.1, h.2.1⟩
  case isFalse => exact Or.inl rfl

theorem RateLimitState.lastViolationAt_cleanReset (s : RateLimitState) (now : Int)
    (cfg : RateLimitConfig) : (s.cleanReset now cfg).lastViolationAt = s.lastViolationAt := by
  rw [cleanReset]
  split <;> rfl

/-- **The three outcomes of a check**, and what each leaves in the fields of the ladder. -/
theorem RateLimitState.check_ladder (h : s.check now cfg = some (decision, s')) :
    (now < s.cooloffUntil ∧ decision = .cooloff (s.cooloffUntil - now) ∧ s' = s) ∨
    (s.cooloffUntil ≤ now ∧ ∃ duration,
      cfg.cooloffLadder[min (s.cleanReset now cfg).violations
        (cfg.cooloffLadder.length - 1)]? = some duration ∧
      decision = .cooloff duration ∧ s'.violations = (s.cleanReset now cfg).violations + 1 ∧
      s'.cooloffUntil = now + duration ∧ s'.lastViolationAt = now) ∨
    (s.cooloffUntil ≤ now ∧ decision = .allow ∧
      s'.violations = (s.cleanReset now cfg).violations ∧ s'.cooloffUntil = s.cooloffUntil ∧
      s'.lastViolationAt = s.lastViolationAt) := by
  by_cases hcool : now < s.cooloffUntil
  · rw [check_in_cooloff hcool] at h
    obtain ⟨rfl, rfl⟩ := Prod.mk.inj (Option.some.inj h)
    exact Or.inl ⟨hcool, rfl, rfl⟩
  · have hover : ¬ (s.cleanReset now cfg).cooloffUntil > now := by
      rw [cooloffUntil_cleanReset]
      exact hcool
    rw [check] at h
    dsimp only at h
    rw [if_neg hover] at h
    split at h
    · obtain ⟨duration, hrung, he⟩ := Option.map_eq_some_iff.1 h
      obtain ⟨rfl, rfl⟩ := Prod.mk.inj he
      exact Or.inr (Or.inl ⟨Int.not_lt.1 hcool, duration, hrung, rfl, rfl, rfl, rfl⟩)
    · obtain ⟨rfl, rfl⟩ := Prod.mk.inj (Option.some.inj h)
      exact Or.inr (Or.inr ⟨Int.not_lt.1 hcool, rfl, rfl, cooloffUntil_cleanReset s now cfg,
        lastViolationAt_cleanReset s now cfg⟩)

namespace Check

/-- The check is one of the limiter under `cfg`. -/
def Under (cfg : RateLimitConfig) (c : Check) : Prop :=
  c.before.check c.now cfg = some (c.answer, c.after)

variable {c : Check} {l : List Check}

/-- **The three kinds of checks**: in a cooloff, a violation, or allowed. -/
theorem Under.cases (h : c.Under cfg) :
    (c.violates = false ∧ c.now < c.before.cooloffUntil ∧
      c.answer = .cooloff (c.before.cooloffUntil - c.now) ∧ c.after = c.before) ∨
    (c.violates = true ∧ ∃ duration,
      cfg.cooloffLadder[min (c.after.violations - 1) (cfg.cooloffLadder.length - 1)]? =
        some duration ∧
      c.answer = .cooloff duration ∧ c.after.cooloffUntil = c.now + duration ∧
      c.after.lastViolationAt = c.now) ∨
    (c.violates = false ∧ c.after.cooloffUntil = c.before.cooloffUntil ∧
      c.after.lastViolationAt = c.before.lastViolationAt) := by
  rcases RateLimitState.check_ladder h with ⟨hcool, hanswer, hafter⟩ |
    ⟨hover, duration, hrung, hanswer, hcount, huntil, hat⟩ | ⟨-, hanswer, -, huntil, hat⟩
  · refine Or.inl ⟨?_, hcool, hanswer, hafter⟩
    exact decide_eq_false fun hv ↦ absurd hcool (Int.not_lt.2 hv.2)
  · refine Or.inr (Or.inl ⟨?_, duration, ?_, hanswer, huntil, hat⟩)
    · refine decide_eq_true ⟨fun hallow ↦ ?_, hover⟩
      rw [hanswer] at hallow
      cases hallow
    · rw [hcount, Nat.add_sub_cancel]
      exact hrung
  · exact Or.inr (Or.inr ⟨decide_eq_false fun hv ↦ hv.1 hanswer, huntil, hat⟩)

/-- **The count after a check** is the count before it, or zero after a clean period, and the
violation added. -/
theorem Under.violations (h : c.Under cfg) : ∃ n,
    c.after.violations = n + (if c.violates then 1 else 0) ∧
    (n = c.before.violations ∨ (n = 0 ∧ 0 < c.before.lastViolationAt ∧
      cfg.cleanPeriodSeconds < c.now - c.before.lastViolationAt ∧
      c.before.cooloffUntil ≤ c.now)) := by
  have hreset := RateLimitState.violations_cleanReset c.before c.now cfg
  rcases RateLimitState.check_ladder h with ⟨hcool, -, hafter⟩ |
    ⟨hover, duration, -, hanswer, hcount, -, -⟩ | ⟨hover, hanswer, hcount, -, -⟩
  · refine ⟨c.before.violations, ?_, Or.inl rfl⟩
    have hv : c.violates = false := decide_eq_false fun hv ↦ absurd hcool (Int.not_lt.2 hv.2)
    rw [hafter, hv, if_neg Bool.false_ne_true, Nat.add_zero]
  · have hv : c.violates = true := by
      refine decide_eq_true ⟨fun hallow ↦ ?_, hover⟩
      rw [hanswer] at hallow
      cases hallow
    refine ⟨_, hcount.trans ?_, hreset.imp_right fun hr ↦ ⟨hr.1, hr.2.1, hr.2.2, hover⟩⟩
    rw [hv, if_pos rfl]
  · have hv : c.violates = false := decide_eq_false fun hv ↦ hv.1 hanswer
    refine ⟨_, hcount.trans ?_, hreset.imp_right fun hr ↦ ⟨hr.1, hr.2.1, hr.2.2, hover⟩⟩
    rw [hv, if_neg Bool.false_ne_true, Nat.add_zero]

/-! ### The account of the violations -/

/-- What the stored state has to do with the checks so far. -/
structure Accounts (l : List Check) (s : RateLimitState) : Prop where
  count : s.violations = violationsSinceReset l
  /-- The deadline is that of the last violation. -/
  deadline : s.lastViolationAt = 0 ∨ ∃ v duration, LastViolation l v ∧
    v.answer = .cooloff duration ∧ s.cooloffUntil = v.now + duration ∧ s.lastViolationAt = v.now

theorem accounts_initial : Accounts [] .initial := ⟨rfl, Or.inl rfl⟩

theorem LastViolation.append_singleton {v : Check} (h : LastViolation l v)
    (hc : c.violates = false) : LastViolation (l ++ [c]) v := by
  obtain ⟨before, mid, rfl, hv, hmid⟩ := h
  refine ⟨before, mid ++ [c], List.append_assoc .., hv, fun e he ↦ ?_⟩
  rcases List.mem_append.1 he with he | he
  · exact hmid e he
  · rw [List.mem_singleton.1 he]
    exact hc

/-- The count is set back exactly when a clean period has passed on a key with violations. -/
theorem Under.count_append_singleton (h : c.Under cfg)
    (hcount : c.before.violations = violationsSinceReset l) :
    c.after.violations = violationsSinceReset (l ++ [c]) := by
  obtain ⟨n, hn, hcase⟩ := h.violations
  rw [violationsSinceReset_append_singleton, ← hcount, hn]
  congr 1
  by_cases hsame : n = c.before.violations
  · have hr : c.resets = false := decide_eq_false fun hne ↦ hne (by rw [hn, hsame])
    rw [hr, if_neg Bool.false_ne_true, hsame]
  · have hr : c.resets = true := decide_eq_true fun he ↦ hsame (by rw [hn] at he; omega)
    rw [hr, if_pos rfl]
    exact (hcase.resolve_left hsame).1

/-- **One check keeps the account.** -/
theorem Accounts.append_singleton (hl : Accounts l c.before) (h : c.Under cfg) :
    Accounts (l ++ [c]) c.after := by
  refine ⟨h.count_append_singleton hl.count, ?_⟩
  rcases h.cases with ⟨hv, -, -, hafter⟩ | ⟨hv, duration, -, hanswer, huntil, hat⟩ |
    ⟨hv, huntil, hat⟩
  · rw [hafter]
    exact hl.deadline.imp_right fun ⟨v, d, hlast, hrest⟩ ↦ ⟨v, d, hlast.append_singleton hv, hrest⟩
  · exact Or.inr ⟨c, duration, ⟨l, [], rfl, hv, fun e he ↦ absurd he List.not_mem_nil⟩, hanswer,
      huntil, hat⟩
  · rw [huntil, hat]
    exact hl.deadline.imp_right fun ⟨v, d, hlast, hrest⟩ ↦ ⟨v, d, hlast.append_singleton hv, hrest⟩

/-! ### Chains of checks -/

theorem under_of_step (h : rateLimiter.step c.before c.input = some (c.answer, c.after))
    (hcfg : c.input.2 = cfg) : c.Under cfg := by
  rw [Under, ← hcfg]
  exact h

/-- The account holds all along. -/
theorem accounts_of_chained {s : RateLimitState} (hs : s = .initial)
    (hl : rateLimiter.Chained s l) (hcfg : ∀ c ∈ l, c.input.2 = cfg) :
    Accounts l (final s l) := by
  refine hl.invariant (I := Accounts) (fun pre e ⟨post, hpost⟩ hacc hstep ↦ ?_)
    (hs ▸ accounts_initial)
  exact hacc.append_singleton (under_of_step hstep (hcfg e (by rw [hpost]; simp)))

/-- Checks before the deadline change nothing. -/
theorem final_of_cooloff {s : RateLimitState} (hl : rateLimiter.Chained s l)
    (hcool : ∀ c ∈ l, c.now < s.cooloffUntil) : final s l = s := by
  refine hl.invariant (I := fun _ t ↦ t = s) (fun pre (e : Check) ⟨post, hpost⟩ hbefore hstep ↦ ?_)
    rfl
  have hnow : e.now < e.before.cooloffUntil := by
    rw [hbefore]
    exact hcool e (by rw [hpost]; simp)
  have hcheck : e.before.check e.now e.input.2 = some (e.answer, e.after) := hstep
  rw [RateLimitState.check_in_cooloff hnow] at hcheck
  exact (Prod.mk.inj (Option.some.inj hcheck)).2.symm.trans hbefore

/-- **A chain of checks in the order of time climbs the ladder.** -/
theorem climbsLadder_of_chained (hl : rateLimiter.Chained .initial l)
    (hcfg : ∀ c ∈ l, c.input.2 = cfg) (htimes : l.Pairwise fun c d ↦ c.now ≤ d.now) :
    ClimbsLadder cfg l := by
  have hcheck : ∀ {pre c post}, l = pre ++ c :: post →
      c.Under cfg ∧ Accounts pre c.before := fun {pre c post} he ↦ by
    obtain ⟨hpre, hbefore, hstep, -⟩ := hl.step_of_eq he
    refine ⟨under_of_step hstep (hcfg c (by rw [he]; simp)), hbefore ▸ ?_⟩
    exact accounts_of_chained rfl hpre fun d hd ↦ hcfg d (by rw [he]; simp [hd])
  refine ⟨fun pre c post he hv ↦ ?_, fun pre v mid c post duration he hv hanswer hnow ↦ ?_,
    fun pre c post he hr ↦ ?_⟩
  · obtain ⟨hunder, hacc⟩ := hcheck he
    rcases hunder.cases with ⟨hno, -⟩ | ⟨-, duration, hrung, hanswer, huntil, -⟩ | ⟨hno, -⟩
    · exact absurd (hno.symm.trans hv) Bool.false_ne_true
    · exact ⟨duration, hunder.count_append_singleton hacc.count ▸ hrung, hanswer, huntil⟩
    · exact absurd (hno.symm.trans hv) Bool.false_ne_true
  · -- the deadline the violation sets
    have huntil : v.after.cooloffUntil = v.now + duration := by
      rcases (hcheck he).1.cases with ⟨hno, -⟩ | ⟨-, d, -, hd, huntil, -⟩ | ⟨hno, -⟩
      · exact absurd (hno.symm.trans hv) Bool.false_ne_true
      · rw [hanswer] at hd
        rw [huntil, Decision.cooloff.inj hd]
      · exact absurd (hno.symm.trans hv) Bool.false_ne_true
    -- it is not reached by the checks in between
    obtain ⟨-, -, -, hrest⟩ := hl.step_of_eq he
    obtain ⟨hmid, hbefore, hstep, -⟩ := hrest.step_of_eq rfl
    have hearlier : ∀ d ∈ mid, d.now ≤ c.now := by
      rw [he] at htimes
      have hafter := (List.pairwise_cons.1 (List.pairwise_append.1 htimes).2.1).2
      exact fun d hd ↦ (List.pairwise_append.1 hafter).2.2 d hd c List.mem_cons_self
    have hsame : c.before = v.after := hbefore.trans (final_of_cooloff hmid fun d hd ↦ by
      rw [huntil]
      exact (hearlier d hd).trans_lt hnow)
    have hcool : c.now < c.before.cooloffUntil := by rw [hsame, huntil]; exact hnow
    have hc : c.before.check c.now c.input.2 = some (c.answer, c.after) := hstep
    rw [RateLimitState.check_in_cooloff hcool] at hc
    obtain ⟨hrefused, hkept⟩ := Prod.mk.inj (Option.some.inj hc)
    refine ⟨?_, hsame, hkept.symm.trans hsame⟩
    rw [← hrefused, hsame, huntil]
  · obtain ⟨hunder, hacc⟩ := hcheck he
    obtain ⟨n, hn, hcase⟩ := hunder.violations
    have hne := of_decide_eq_true hr
    rcases hcase with hsame | ⟨-, hpos, hclean, hover⟩
    · exact absurd (by rw [hn, hsame]) hne
    · obtain ⟨v, duration, hlast, hanswer, huntil, hat⟩ :=
        hacc.deadline.resolve_left fun hzero ↦ by omega
      exact ⟨v, duration, hlast, hanswer, hat ▸ hclean, huntil ▸ hover⟩

end Check

/-- **The cooloff ladder.** Take a key without a row and any calls of the limiter in which it is
checked at non-decreasing times under one configuration, whatever the calls of other keys are, and
suppose that every ladder has a rung. Every check of the key is answered, and in all of them the
key climbs the ladder: the `k`-th violation since the last reset lasts the `k`-th rung, or the last
one; until it ends every check is refused with exactly the remaining seconds and leaves the stored
state alone; and only a check after a clean period without violation, with the cooloff over, resets
the count. -/
theorem climbsLadder_checks (key : RateLimitKey) (cfg : RateLimitConfig) (db : RateLimits)
    (hnew : KeyTable.find db key.storageKey = none)
    (calls : List (RateLimitKey × Int × RateLimitConfig))
    (hladder : ∀ c ∈ calls, c.2.2.cooloffLadder ≠ [])
    (hcfg : ∀ c ∈ calls, c.1 = key → c.2.2 = cfg)
    (htimes : calls.Pairwise fun c d ↦ c.1 = key → d.1 = key → c.2.1 ≤ d.2.1) :
    (rateLimiter.steps key ⟨db, false⟩ calls).map Step.input =
        (calls.filter fun c ↦ c.1 = key).map Prod.snd ∧
      Check.ClimbsLadder cfg (rateLimiter.steps key ⟨db, false⟩ calls) := by
  have hcalls : ∀ c ∈ calls, ∀ s, rateLimiter.step s c.2 ≠ none := fun c hc s ↦
    RateLimitState.check_ne_none (hladder c hc) s c.2.1
  have hinput := map_input_steps key hcalls db
  have hchain : rateLimiter.Chained (db.loadState key.storageKey)
      (rateLimiter.steps key ⟨db, false⟩ calls) := chained_steps key ⟨db, false⟩ calls
  have hinitial : db.loadState key.storageKey = .initial := by
    rw [RateLimits.loadState, hnew]
    rfl
  refine ⟨hinput, Check.climbsLadder_of_chained (hinitial ▸ hchain) (fun c hc ↦ ?_) ?_⟩
  · have hmem := hinput ▸ List.mem_map_of_mem (f := Step.input) hc
    obtain ⟨d, hd, he⟩ := List.mem_map.1 hmem
    obtain ⟨hd, hkey⟩ := List.mem_filter.1 hd
    rw [← he]
    exact hcfg d hd (of_decide_eq_true hkey)
  · have hsorted : ((rateLimiter.steps key ⟨db, false⟩ calls).map Step.input).Pairwise
        fun i j ↦ i.1 ≤ j.1 := by
      rw [hinput, List.pairwise_map, List.pairwise_filter]
      exact htimes.imp fun h hc hd ↦ h (of_decide_eq_true hc) (of_decide_eq_true hd)
    rw [List.pairwise_map] at hsorted
    exact hsorted

/-- A limit of one and two rungs: five checks, of which the second and the fourth violate, and a
last one after a clean period. -/
theorem climbsLadder_checks_five :
    let cfg : RateLimitConfig := ⟨1, 60, [60, 300], 3600⟩
    let calls : List (RateLimitKey × Int × RateLimitConfig) :=
      [(.ip "1.2.3.4", 1000, cfg), (.ip "1.2.3.4", 1001, cfg), (.ip "1.2.3.4", 1061, cfg),
        (.ip "1.2.3.4", 1062, cfg), (.ip "1.2.3.4", 9000, cfg)]
    (rateLimiter.steps (.ip "1.2.3.4") ⟨.empty, false⟩ calls).map Step.input =
        (calls.filter fun c ↦ c.1 = .ip "1.2.3.4").map Prod.snd ∧
      Check.ClimbsLadder cfg (rateLimiter.steps (.ip "1.2.3.4") ⟨.empty, false⟩ calls) := by
  intro cfg calls
  exact climbsLadder_checks (.ip "1.2.3.4") cfg .empty rfl calls (by decide) (by decide) (by decide)

example :
    let cfg : RateLimitConfig := ⟨1, 60, [60, 300], 3600⟩
    let calls : List (RateLimitKey × Int × RateLimitConfig) :=
      [(.ip "1.2.3.4", 1000, cfg), (.ip "1.2.3.4", 1001, cfg), (.ip "1.2.3.4", 1061, cfg),
        (.ip "1.2.3.4", 1062, cfg), (.ip "1.2.3.4", 9000, cfg)]
    let checks : List Check := rateLimiter.steps (.ip "1.2.3.4") ⟨.empty, false⟩ calls
    (checks.map Step.answer, checks.map Check.violates, checks.map Check.resets) =
      ([.allow, .cooloff 60, .allow, .cooloff 300, .allow],
        [false, true, false, true, false], [false, false, false, false, true]) := by
  decide

end CommunitySearch
