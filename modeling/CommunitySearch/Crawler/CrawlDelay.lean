import CommunitySearch.Crawler.LoopHistory
import CommunitySearch.Crawler.Pacing
import CommunitySearch.Crawler.RecrawlCoverage
import CommunitySearch.Foundation.SlidingWindow
import Mathlib.Data.Rat.Cast.Order
import Mathlib.Tactic.Linarith

/-!
# The delay within a run

Between two pages of a run, the first of which was not answered with 429, the loop sleeps once, for
the effective delay (`spaced_of_run`). That is the larger of the configured delay and the
`Crawl-Delay` of the seed's origin as `crawl_delay_for` reads it, which rounds it to whole seconds,
up or down (`le_roundSecs_iff`). So a run keeps the declared delay exactly if it is not rounded
down, or the configured one is long enough (`sleepsBetween_iff`).
-/

namespace CommunitySearch

open LoopEvent Prog

variable {X : Crates} {config : DriverConfig}

/-! ### Whole seconds -/

/-- The nearest whole number of seconds is not below `c`, and can be represented. -/
def RoundsUp (c : ℚ) : Prop := c ≤ 2 ^ 64 - 1 ∧ (c = c.floor ∨ c.floor + 1 / 2 ≤ c)

/-- **Rounding a delay shortens it** unless it is whole or its fraction is at least a half. -/
theorem le_roundSecs_iff {c : ℚ} (hc : 0 ≤ c) : c ≤ roundSecs c ↔ RoundsUp c := by
  have hpos : 0 ≤ (c + 1 / 2).floor := Rat.le_floor_iff.2 (by push_cast; linarith)
  have hround : (roundSecs c : ℚ) = min ((c + 1 / 2).floor : ℚ) (2 ^ 64 - 1) := by
    rw [roundSecs, Nat.cast_min]
    congr 1
    · exact_mod_cast congrArg (Int.cast : ℤ → ℚ) (Int.toNat_of_nonneg hpos)
    · norm_num
  rw [hround, le_min_iff, RoundsUp, and_comm]
  refine and_congr_right fun _ ↦ ?_
  have hfloor := Rat.floor_le c
  have hle := Rat.floor_le (c + 1 / 2)
  constructor
  · intro h
    by_cases hwhole : c = c.floor
    · exact Or.inl hwhole
    · -- the rounded value is above the floor, so it is one more at least
      have hlt : (c.floor : ℚ) < (c + 1 / 2).floor :=
        lt_of_lt_of_le (lt_of_le_of_ne hfloor (Ne.symm hwhole)) h
      have hsucc : c.floor + 1 ≤ (c + 1 / 2).floor := by exact_mod_cast hlt
      have hsucc : (c.floor : ℚ) + 1 ≤ (c + 1 / 2).floor := by exact_mod_cast hsucc
      exact Or.inr (by linarith)
  · rintro (hwhole | hhalf)
    · have hle : c.floor ≤ (c + 1 / 2).floor := Rat.floor_monotone (by linarith)
      rw [hwhole]
      exact_mod_cast hwhole ▸ hle
    · have hsucc : c.floor + 1 ≤ (c + 1 / 2).floor :=
        Rat.le_floor_iff.2 (by push_cast; linarith)
      have hlt := Rat.lt_floor_add_one c
      have hsucc : ((c.floor + 1 : ℤ) : ℚ) ≤ (c + 1 / 2).floor := by exact_mod_cast hsucc
      linarith

/-! ### The sleep between two pages -/

namespace LoopEvent

def isCall : LoopEvent → Bool
  | called _ => true
  | _ => false

def slept? : LoopEvent → Option Duration
  | slept dur => some dur
  | _ => none

/-- What a run has shown since its last call of `crawl_page`. -/
def sinceCall (log : List LoopEvent) : List LoopEvent :=
  log.foldl (fun shown e ↦ if e.isCall then [] else shown ++ [e]) []

/-- What a run showed between two calls of `crawl_page` that follow each other. -/
def Between (log mid : List LoopEvent) : Prop :=
  ∃ before url next after, log = before ++ called url :: mid ++ called next :: after ∧
    ∀ e ∈ mid, e.isCall = false

/-- How long a run slept. -/
def sleptIn (mid : List LoopEvent) : Duration := (mid.filterMap slept?).sum

/-- The page was not answered with 429. -/
def NoLimit (mid : List LoopEvent) : Prop := ∀ url r, returned url r ∈ mid → ¬ RateLimited r

/-- **The delay is kept**: between two calls of `crawl_page` that follow each other, the first of
which was not answered with 429, the run sleeps at least for `delay`. -/
def SleepsBetween (delay : ℚ) (log : List LoopEvent) : Prop :=
  ∀ mid, Between log mid → NoLimit mid → delay ≤ sleptIn mid

variable {log mid : List LoopEvent}

theorem sinceCall_append_singleton (log : List LoopEvent) (e : LoopEvent) :
    sinceCall (log ++ [e]) = if e.isCall then [] else sinceCall log ++ [e] := by
  rw [sinceCall, List.foldl_append]
  rfl

theorem sinceCall_append_called (before : List LoopEvent) (url : String)
    (h : ∀ e ∈ mid, e.isCall = false) : sinceCall (before ++ called url :: mid) = mid := by
  induction mid using List.reverseRecOn with
  | nil => exact sinceCall_append_singleton before (called url)
  | append_singleton mid e ih =>
    have he : e.isCall = false := h e (List.mem_append_right mid (List.mem_singleton_self e))
    rw [← List.cons_append, ← List.append_assoc, sinceCall_append_singleton, he,
      if_neg Bool.false_ne_true, ih fun e' he' ↦ h e' (List.mem_append_left _ he')]

theorem not_between_nil : ¬ Between [] mid := by
  rintro ⟨before, url, next, after, h, -⟩
  simp at h

/-- One more event lies between no two calls, unless it is a call itself. -/
theorem Between.of_append_singleton {e : LoopEvent} (h : Between (log ++ [e]) mid) :
    Between log mid ∨ (e.isCall = true ∧ log ≠ [] ∧ mid = sinceCall log) := by
  obtain ⟨before, url, next, after, hlog, hmid⟩ := h
  obtain ⟨hbefore, rfl, -⟩ | ⟨after, rfl, hbefore⟩ := SlidingWindow.snoc_eq_append_cons hlog
  · refine Or.inr ⟨rfl, ?_, ?_⟩
    · rw [← hbefore]
      simp
    · rw [← hbefore, sinceCall_append_called before url hmid]
  · exact Or.inl ⟨before, url, next, after, hbefore, hmid⟩

/-- A page came back, and the run slept: for `D`, unless it backed off. -/
def Pause (D : Duration) (mid : List LoopEvent) : Prop :=
  ∃ url r dur, mid = [returned url r, slept dur] ∧ (RateLimited r ∨ dur = D)

/-- All that lies between two calls are such pauses. -/
def Pauses (D : Duration) (log : List LoopEvent) : Prop := ∀ mid, Between log mid → Pause D mid

theorem pauses_nil (D : Duration) : Pauses D [] := fun _ h ↦ absurd h not_between_nil

theorem Pauses.append_singleton {D : Duration} (h : Pauses D log) {e : LoopEvent}
    (he : e.isCall = false) : Pauses D (log ++ [e]) := by
  intro mid hmid
  rcases hmid.of_append_singleton with hold | ⟨hcall, -⟩
  · exact h mid hold
  · rw [he] at hcall
    cases hcall

/-- The sleep of a page that was not answered with 429. -/
theorem Pause.sleptIn_eq {D : Duration} (h : Pause D mid) (hlimit : NoLimit mid) :
    sleptIn mid = D := by
  obtain ⟨url, r, dur, rfl, hdur⟩ := h
  have hdur : dur = D := hdur.resolve_left (hlimit url r List.mem_cons_self)
  show dur + 0 = D
  rw [hdur, Nat.add_zero]

end LoopEvent

/-- The invariant of a run and its log, phase by phase. -/
def Spaced (config : DriverConfig) : Phase → List LoopEvent → Prop
  | .starting _, log | .failed _, log => log = []
  | .looping d, log => Pauses d.effectiveDelay log ∧
    (log = [] ∨ d.Done config ∨ Pause d.effectiveDelay (sinceCall log))
  | .crawling d .., log => Pauses d.effectiveDelay log ∧ sinceCall log = []
  | .sleeping d dur, log => Pauses d.effectiveDelay log ∧
    ∃ url r, sinceCall log = [returned url r] ∧ (RateLimited r ∨ dur = d.effectiveDelay)
  | .ended d, log => Pauses d.effectiveDelay log

/-- A page has returned, and the loop rests or ends. -/
theorem spaced_rest {d : DriverState} {log : List LoopEvent} {url : String}
    {r : CrawlResult PageResult} (hpauses : Pauses d.effectiveDelay log)
    (hsince : sinceCall log = []) :
    Spaced config (rest config d) (log ++ [returned url r]) := by
  have hpauses' := hpauses.append_singleton (e := returned url r) rfl
  obtain ⟨hdone, hrest⟩ | hrest := rest_cases config d
  · rw [hrest]
    exact ⟨hpauses', Or.inr (Or.inl hdone)⟩
  · rw [hrest]
    refine ⟨hpauses', url, r, ?_, Or.inr rfl⟩
    rw [sinceCall_append_singleton, hsince]
    rfl

/-- **One step of the loop.** -/
theorem Spaced.step {p p' : Phase} {log shown : List LoopEvent} (hI : Spaced config p log)
    (h : LoopStep config p shown p') : Spaced config p' (log ++ shown) := by
  cases h with
  | prelude =>
    rw [List.append_nil]
    exact hI
  | enter =>
    obtain rfl := hI
    exact ⟨pauses_nil _, Or.inl rfl⟩
  | fail =>
    rw [List.append_nil]
    exact hI
  | @take d url queue p hq hmax =>
    obtain ⟨hpauses, hlast⟩ := hI
    refine ⟨fun mid hmid ↦ ?_, sinceCall_append_singleton log (called url)⟩
    rcases hmid.of_append_singleton with hold | ⟨-, hne, rfl⟩
    · exact hpauses mid hold
    · rcases hlast with hnil | hdone | hpause
      · exact absurd hnil hne
      · -- a loop that is done takes no page
        rcases hdone with hempty | hfull
        · rw [hq] at hempty
          cases hempty
        · omega
      · exact hpause
  | finish =>
    rw [List.append_nil]
    exact hI.1
  | page =>
    rw [List.append_nil]
    exact hI
  | succeed => exact spaced_rest hI.1 hI.2
  | @retry d url retryAfter events h5 =>
    obtain ⟨hpauses, hsince⟩ := hI
    refine ⟨hpauses.append_singleton (by rfl), url, .error (.rateLimited retryAfter), ?_,
      Or.inl ⟨retryAfter, rfl⟩⟩
    rw [sinceCall_append_singleton, hsince]
    rfl
  | @abort d url retryAfter events h5 =>
    have hreturned :=
      hI.1.append_singleton (e := returned url (.error (.rateLimited retryAfter))) rfl
    have haborted := hreturned.append_singleton (e := aborted) rfl
    rw [List.append_assoc] at haborted
    exact haborted
  | skip => exact spaced_rest hI.1 hI.2
  | @wake d dur =>
    obtain ⟨hpauses, url, r, hsince, hdur⟩ := hI
    refine ⟨hpauses.append_singleton (by rfl), Or.inr (Or.inr ⟨url, r, dur, ?_, hdur⟩)⟩
    rw [sinceCall_append_singleton, hsince]
    rfl

/-- **The sleeps of a run**: between two pages it sleeps once, and for the effective delay unless it
backs off. -/
theorem pauses_of_run {e : Engine} {fetcher : Fetcher} {ctx : PageContext} {now : Int}
    {labels : List RunLabel} {s : Engine × CrawlRun} {D : Duration}
    (hrun : (crawlMachine X).run (e, CrawlRun.start X fetcher ctx config now) labels = some s)
    (hdelay : ∀ d ∈ s.2.driver, d.effectiveDelay = D) :
    Pauses D ((crawlMachine X).observe noteLoop []
      (e, CrawlRun.start X fetcher ctx config now) labels) := by
  have hI : Spaced config s.2.phase _ :=
    loop_invariant (I := Spaced config) rfl (fun _ _ _ _ hI h ↦ hI.step h) hrun
  have hdriver : ∀ d, s.2.driver = some d → d.effectiveDelay = D := fun d hd ↦ hdelay d hd
  rw [CrawlRun.driver] at hdriver
  rcases hp : s.2.phase with p | d | ⟨d, url, p, events⟩ | ⟨d, dur⟩ | d | err
  all_goals rw [hp] at hI hdriver
  · rw [hI]
    exact pauses_nil D
  · exact hdriver d rfl ▸ hI.1
  · exact hdriver d rfl ▸ hI.1
  · exact hdriver d rfl ▸ hI.1
  · exact hdriver d rfl ▸ hI
  · rw [hI]
    exact pauses_nil D

/-! ### The delay that is declared -/

/-- The rules loaded for an origin, if they are, declare the delay `c`. -/
def Declares (origin : String) (c : ℚ) (cache : RobotsCache) : Prop :=
  ∀ rules ∈ cache.get origin, rules.bind Robot.delay = some c

instance (origin : String) (c : ℚ) (cache : RobotsCache) : Decidable (Declares origin c cache) :=
  inferInstanceAs (Decidable (∀ rules ∈ cache.get origin, _ = _))

/-- The operation loads the rules of an origin. -/
def CrawlOp.loads (origin : String) : CrawlOp → Bool
  | .robotsTxt url => url == origin ++ "/robots.txt"
  | _ => false

/-- The admissible steps: whoever loads the robots file of the origin finds the delay `c` in it, and
rules that are loaded stay loaded. -/
def DeclaresDelay (origin : String) (c : ℚ) (s : Engine × CrawlRun) : RunLabel → Prop
  | .crawl (.answer (.robots rules)) =>
    s.2.nextOp.any (CrawlOp.loads origin) = true → rules.bind Robot.delay = some c
  | .other e' => Declares origin c e'.robotsCache ∧
    ((s.1.robotsCache.get origin).isSome = true → (e'.robotsCache.get origin).isSome = true)
  | _ => True

instance (origin : String) (c : ℚ) (s : Engine × CrawlRun) :
    (l : RunLabel) → Decidable (DeclaresDelay origin c s l)
  | .crawl (.answer (.robots rules)) =>
    inferInstanceAs (Decidable (_ = true → rules.bind Robot.delay = some c))
  | .other e' => inferInstanceAs (Decidable (Declares origin c e'.robotsCache ∧ (_ = true → _)))
  | .crawl (.answer (.http _)) | .crawl (.answer (.order _)) | .crawl (.answer .ok)
  | .crawl (.answer .sqlError) | .crawl .next => isTrue trivial

section Probe

variable {origin : String} {c : ℚ}

/-- How the operations of the probe are answered. The world is whether the rules of the origin are
known to be loaded. -/
def probeHandles (origin : String) (c : ℚ) (loaded : Bool) (o : CrawlOp) (r : o.Resp)
    (loaded' : Bool) : Prop :=
  (loaded = true → loaded' = true) ∧
    match o, r with
    | .robotsTxt url, rules => url = origin ++ "/robots.txt" → rules.bind Robot.delay = some c
    | .cacheGet o, entry => o = origin →
      (∀ rules ∈ entry, rules.bind Robot.delay = some c) ∧ entry.isSome = loaded'
    | .cacheInsert o _, _ => o = origin → loaded' = true
    | _, _ => True

/-- The rules loaded for the origin declare the delay. -/
def ProbeLoads (origin : String) (c : ℚ) (_ : Bool) : CrawlOp → Prop
  | .cacheInsert o rules => o = origin → rules.bind Robot.delay = some c
  | _ => True

/-- What `crawl_delay_for` reads of the delay `c`. -/
def readDelay (c : ℚ) : CrawlResult (Option Duration) := .ok (some (.fromSecs (roundSecs c)))

/-- **The probe reads the declared delay**, loaded before or now. -/
theorem wp_crawlDelayFor {seed : String} {u : Url} (hparse : X.parse seed = some u)
    (horigin : u.origin = some origin) (loaded : Bool) :
    wp (probeHandles origin c) (ProbeLoads origin c) (fun r _ ↦ r = readDelay c)
      (crawlDelayFor X seed) loaded := by
  have hload : wp (probeHandles origin c) (ProbeLoads origin c)
      (fun r loaded' ↦ r = .ok origin ∧ loaded' = true) (ensureCached X seed) loaded := by
    simp only [ensureCached, hparse, horigin]
    refine ⟨trivial, fun entry loaded₁ hentry ↦ ?_⟩
    obtain ⟨-, hentry⟩ := hentry
    cases entry with
    | some rules => exact ⟨rfl, (hentry rfl).2.symm⟩
    | none =>
      -- the rules are fetched, and declare the delay
      refine ⟨trivial, fun rules loaded₂ hrules ↦ ?_⟩
      refine ⟨fun _ ↦ hrules.2 rfl, fun _ loaded₃ hinsert ↦ ?_⟩
      exact ⟨rfl, hinsert.2 rfl⟩
  refine wp_attempt.2 (wp_mono (fun r loaded₁ hr ↦ ?_) hload)
  obtain ⟨rfl, hloaded⟩ := hr
  refine ⟨trivial, fun entry loaded₂ hentry ↦ ?_⟩
  obtain ⟨hkeep, hentry⟩ := hentry
  obtain ⟨hdelay, hsome⟩ := hentry rfl
  -- what has been loaded is still there when it is read
  obtain ⟨rules, rfl⟩ := Option.isSome_iff_exists.1 (hsome.trans (hkeep hloaded))
  obtain ⟨robot, rfl, hrobot⟩ := Option.bind_eq_some_iff.1 (hdelay rules rfl)
  show Except.ok (robot.delay.map _) = readDelay c
  rw [hrobot]
  rfl

/-- The rest of the prelude, after the probe. -/
def afterProbe (X : Crates) (fetcher : Fetcher) (ctx : PageContext) (config : DriverConfig)
    (seed : String) (delay : CrawlResult (Option Duration)) : Crawl (CrawlResult DriverState) :=
  (discoverUrls X fetcher seed ctx.urlPrefix 10000).bind fun seeds ↦
    ret (.ok
      { frontier := Worklist.empty.pushAll (seed :: seeds)
        stats := ⟨0, 0, 0, 0⟩
        consecutive429s := 0
        effectiveDelay := effectiveDelayForRun config.politenessDelay delay.toOption.join })

theorem prelude_eq_probe {fetcher : Fetcher} {ctx : PageContext} {seed : String}
    (hseed : normalizeUrl X ctx.urlPrefix = some seed) :
    prelude X fetcher ctx config ctx.urlPrefix =
      (crawlDelayFor X seed).bind (afterProbe X fetcher ctx config seed) := by
  rw [prelude, hseed]
  rfl

/-- Whatever it is answered, the loop begins with the delay `D`. -/
def DelayKnown (D : Duration) (p : Crawl (CrawlResult DriverState)) : Prop :=
  Returns (fun _ _ ↦ True) (fun r ↦ ∀ d, r = .ok d → d.effectiveDelay = D) p

theorem delayKnown_afterProbe (fetcher : Fetcher) (ctx : PageContext) (seed : String)
    (delay : CrawlResult (Option Duration)) :
    DelayKnown (effectiveDelayForRun config.politenessDelay delay.toOption.join)
      (afterProbe X fetcher ctx config seed delay) := by
  refine returns_bind.2 (returns_of_forall _ fun seeds ↦ ?_)
  intro d hd
  exact Except.ok.inj hd ▸ rfl

/-- The engine answers the probe so, when the rules loaded for the origin declare the delay. -/
theorem probeHandles_of_perform {e e' : Engine} {run : CrawlRun} {o : CrawlOp} {a : Answer}
    {r : o.Resp} {loaded : Bool} (hnext : run.nextOp = some o)
    (hok : DeclaresDelay origin c (e, run) (.crawl (.answer a)))
    (hdeclares : Declares origin c e.robotsCache)
    (hloaded : loaded = true → (e.robotsCache.get origin).isSome = true)
    (hloads : ProbeLoads origin c loaded o) (h : e.perform o a = some (r, e')) :
    Declares origin c e'.robotsCache ∧
      probeHandles origin c loaded o r (e'.robotsCache.get origin).isSome := by
  have hperformed := Engine.performed_of_perform h
  cases o with
  | request =>
    obtain ⟨-, rfl⟩ := hperformed
    exact ⟨hdeclares, hloaded, trivial⟩
  | robotsTxt url =>
    obtain ⟨rfl, rfl⟩ := hperformed
    refine ⟨hdeclares, hloaded, fun hurl ↦ hok ?_⟩
    rw [hnext, hurl]
    show (origin ++ "/robots.txt" == origin ++ "/robots.txt") = true
    exact beq_self_eq_true _
  | cacheGet o =>
    obtain ⟨rfl, rfl⟩ := hperformed
    refine ⟨hdeclares, hloaded, fun ho ↦ ?_⟩
    rw [ho]
    exact ⟨hdeclares, rfl⟩
  | cacheInsert o rules =>
    obtain rfl := hperformed
    have hget : (e.robotsCache.insert o rules).get origin =
        if o = origin then some rules else e.robotsCache.get origin :=
      RobotsCache.get_insert ..
    have hdeclares' : Declares origin c (e.robotsCache.insert o rules) := fun loadedRules hmem ↦ by
      rw [hget] at hmem
      split at hmem
      case isTrue ho => exact Option.some.inj hmem ▸ hloads ho
      case isFalse => exact hdeclares _ hmem
    refine ⟨hdeclares', fun h ↦ ?_, fun ho ↦ ?_⟩
    · show ((e.robotsCache.insert o rules).get origin).isSome = true
      rw [hget]
      split
      · rfl
      · exact hloaded h
    · show ((e.robotsCache.insert o rules).get origin).isSome = true
      rw [hget, if_pos ho]
      rfl
  | intoIter =>
    obtain ⟨-, rfl⟩ := hperformed
    exact ⟨hdeclares, hloaded, trivial⟩
  | _ =>
    have hsame : e'.robotsCache = e.robotsCache := hperformed
    rw [hsame]
    exact ⟨hdeclares, hloaded, trivial⟩

/-- The prelude is still in its probe. -/
def Probing (origin : String) (c : ℚ)
    (rest : CrawlResult (Option Duration) → Crawl (CrawlResult DriverState)) (e : Engine)
    (p : Crawl (CrawlResult DriverState)) : Prop :=
  Declares origin c e.robotsCache ∧ ∃ q loaded, p = q.bind rest ∧
    (loaded = true → (e.robotsCache.get origin).isSome = true) ∧
    wp (probeHandles origin c) (ProbeLoads origin c) (fun r _ ↦ r = readDelay c) q loaded

/-- What a run keeps of the delay: it is being read, or it is known. -/
structure KeepsDelay (origin : String) (c : ℚ)
    (rest : CrawlResult (Option Duration) → Crawl (CrawlResult DriverState)) (D : Duration)
    (s : Engine × CrawlRun) : Prop where
  starting : ∀ p, s.2.phase = .starting p → Probing origin c rest s.1 p ∨ DelayKnown D p
  driver : ∀ d ∈ s.2.driver, d.effectiveDelay = D

variable {rest : CrawlResult (Option Duration) → Crawl (CrawlResult DriverState)} {D : Duration}

/-- The probe performs an operation, or it is over and the delay is known. -/
theorem Probing.step {e e' : Engine} {run : CrawlRun} {o : CrawlOp}
    {k : o.Resp → Crawl (CrawlResult DriverState)} {a : Answer} {r : o.Resp}
    (hknown : DelayKnown D (rest (readDelay c))) (hI : Probing origin c rest e (.op o k))
    (hnext : run.nextOp = some o) (hok : DeclaresDelay origin c (e, run) (.crawl (.answer a)))
    (h : e.perform o a = some (r, e')) :
    Probing origin c rest e' (k r) ∨ DelayKnown D (k r) := by
  obtain ⟨hdeclares, q, loaded, hq, hloaded, hwp⟩ := hI
  cases q with
  | ret x =>
    obtain rfl : x = readDelay c := hwp
    have hknown : DelayKnown D (.op o k) := hq ▸ hknown
    exact Or.inr (returns_op.1 hknown r trivial)
  | op o' k' =>
    obtain ⟨rfl, hk⟩ := Prog.op.inj hq
    obtain rfl := eq_of_heq hk
    obtain ⟨hdeclares', hhandles⟩ :=
      probeHandles_of_perform hnext hok hdeclares hloaded hwp.1 h
    exact Or.inl ⟨hdeclares', k' r, _, rfl, id, hwp.2 r _ hhandles⟩

/-- **The delay is read once**, and kept. -/
theorem KeepsDelay.step {s s' : Engine × CrawlRun} {l : RunLabel}
    (hknown : DelayKnown D (rest (readDelay c))) (hI : KeepsDelay origin c rest D s)
    (hok : DeclaresDelay origin c s l) (h : (crawlMachine X).step s l = some s') :
    KeepsDelay origin c rest D s' := by
  obtain ⟨e, run⟩ := s
  obtain ⟨e', run'⟩ := s'
  cases l with
  | other e₁ =>
    obtain ⟨rfl, rfl⟩ := Prod.mk.inj (Option.some.inj h)
    refine ⟨fun p hp ↦ (hI.starting p hp).imp_left fun hprobing ↦ ?_, hI.driver⟩
    obtain ⟨-, q, loaded, hq, hloaded, hwp⟩ := hprobing
    exact ⟨hok.1, q, loaded, hq, fun h ↦ hok.2 (hloaded h), hwp⟩
  | crawl l =>
    refine ⟨fun p hp ↦ ?_, CrawlRun.delay_of_step (P := (· = D)) (fun d hp ↦ ?_) hI.driver h⟩
    · obtain ⟨o, k, a, r, hphase, rfl, hr, rfl, -⟩ := CrawlRun.prelude_of_step h hp
      rcases hI.starting _ hphase with hprobing | hdelay
      · exact hprobing.step hknown (by rw [CrawlRun.nextOp, hphase]) hok hr
      · exact Or.inr (returns_op.1 hdelay r trivial)
    · rcases hI.starting _ hp with ⟨-, q, loaded, hq, -, hwp⟩ | hdelay
      · -- the probe is over as soon as the prelude is
        cases q with
        | ret x =>
          obtain rfl : x = readDelay c := hwp
          have hdelay : DelayKnown D (ret (.ok d)) := hq ▸ hknown
          exact hdelay d rfl
        | op => cases hq
      · exact hdelay d rfl

end Probe

/-! ### The delay of a run -/

/-- The sleep is long enough exactly if one of the two delays is. -/
theorem max_le_effectiveDelay_iff {c : ℚ} (hc : 0 ≤ c) (configured : Duration) :
    max (configured : ℚ) (1000 * c) ≤
        (effectiveDelayForRun configured (some (.fromSecs (roundSecs c))) : ℕ) ↔
      1000 * c ≤ configured ∨ RoundsUp c := by
  have hdelay : ((effectiveDelayForRun configured (some (.fromSecs (roundSecs c))) : ℕ) : ℚ) =
      max (1000 * (roundSecs c : ℚ)) configured := by
    show ((max (1000 * roundSecs c) configured : ℕ) : ℚ) = _
    push_cast
    rfl
  have hscale : 1000 * c ≤ 1000 * (roundSecs c : ℚ) ↔ c ≤ roundSecs c := by
    constructor
    · intro h
      linarith
    · intro h
      linarith
  rw [hdelay, max_le_iff, and_iff_right (le_max_right _ _), le_max_iff, hscale,
    le_roundSecs_iff hc, or_comm]

/-- **The delay within a run.** Whatever the pages come to and the other tasks do: between two calls
of `crawl_page` that follow each other, the first of which was not answered with 429, a run sleeps
at least for the configured delay and for the delay `c` that the robots file of its seed's origin
declares, if and only if the configured delay is at least `c`, or `c` is not rounded down, or there
are no two such calls. -/
theorem sleepsBetween_iff {e : Engine} {fetcher : Fetcher} {ctx : PageContext} {now : Int}
    {labels : List RunLabel} {s : Engine × CrawlRun} {log : List LoopEvent} {seed origin : String}
    {u : Url} {c : ℚ} (hc : 0 ≤ c) (hseed : normalizeUrl X ctx.urlPrefix = some seed)
    (hparse : X.parse seed = some u) (horigin : u.origin = some origin)
    (hcache : Declares origin c e.robotsCache)
    (hok : (crawlMachine X).Guarded (DeclaresDelay origin c)
      (e, CrawlRun.start X fetcher ctx config now) labels)
    (hrun : (crawlMachine X).run (e, CrawlRun.start X fetcher ctx config now) labels = some s)
    (hlog : (crawlMachine X).observe noteLoop []
      (e, CrawlRun.start X fetcher ctx config now) labels = log) :
    SleepsBetween (max (config.politenessDelay : ℚ) (1000 * c)) log ↔
      (1000 * c ≤ config.politenessDelay ∨ RoundsUp c) ∨
        ∀ mid, Between log mid → ¬ NoLimit mid := by
  have hstart : KeepsDelay origin c (afterProbe X fetcher ctx config seed)
      (effectiveDelayForRun config.politenessDelay (some (.fromSecs (roundSecs c))))
      (e, CrawlRun.start X fetcher ctx config now) := by
    refine ⟨fun p hp ↦ Or.inl ?_, fun d hd ↦ by cases hd⟩
    obtain rfl := Phase.starting.inj hp
    rw [prelude_eq_probe hseed]
    exact ⟨hcache, _, false, rfl, fun h ↦ absurd h Bool.false_ne_true,
      wp_crawlDelayFor hparse horigin false⟩
  have hknown : DelayKnown
      (effectiveDelayForRun config.politenessDelay (some (.fromSecs (roundSecs c))))
      (afterProbe X fetcher ctx config seed (readDelay c)) :=
    delayKnown_afterProbe fetcher ctx seed (readDelay c)
  have hkeeps := Machine.guarded_invariant
    (I := KeepsDelay origin c (afterProbe X fetcher ctx config seed)
      (effectiveDelayForRun config.politenessDelay (some (.fromSecs (roundSecs c)))))
    (fun _ _ _ hI hl h ↦ hI.step hknown hl h) hstart hok hrun
  -- so every pause that counts lasts for the effective delay
  have hpauses : Pauses _ log := hlog ▸ pauses_of_run hrun hkeeps.driver
  rw [← max_le_effectiveDelay_iff hc]
  constructor
  · intro hlaw
    by_cases hpair : ∃ mid, Between log mid ∧ NoLimit mid
    · obtain ⟨mid, hmid, hlimit⟩ := hpair
      have hslept := hlaw mid hmid hlimit
      rw [(hpauses mid hmid).sleptIn_eq hlimit] at hslept
      exact Or.inl hslept
    · exact Or.inr fun mid hmid hlimit ↦ hpair ⟨mid, hmid, hlimit⟩
  · rintro (hlong | hnone) mid hmid hlimit
    · rw [(hpauses mid hmid).sleptIn_eq hlimit]
      exact hlong
    · exact absurd hlimit (hnone mid hmid)

namespace SlowSite

/-- The robots file of the site of two pages declares a delay. -/
def rules (c : ℚ) : Robot := ⟨"", some c, []⟩

def start : Engine × CrawlRun := TwoPages.start (.start TwoPages.db []) 0

/-- A run over the site, with a configured delay of one second. -/
def labels (c : ℚ) : List RunLabel :=
  (plainPrelude (some (rules c)) false ++ TwoPages.served TwoPages.startBody ++ [CrawlLabel.next] ++
    TwoPages.served TwoPages.moreBody ++ [CrawlLabel.next]).map .crawl

/-- What a run over the site shows, when it sleeps for `dur` between its pages. -/
def log (dur : Duration) : List LoopEvent :=
  [called "https://guide.example/",
    returned "https://guide.example/" (.ok ⟨["https://guide.example/more/"], true, false⟩),
    slept dur, called "https://guide.example/more/",
    returned "https://guide.example/more/" (.ok ⟨[], true, false⟩)]

theorem between_log (dur : Duration) : Between (log dur)
    [returned "https://guide.example/" (.ok ⟨["https://guide.example/more/"], true, false⟩),
      slept dur] :=
  ⟨[], _, _, _, rfl, by simp [isCall]⟩

theorem noLimit_log (dur : Duration) : NoLimit
    [returned "https://guide.example/" (.ok ⟨["https://guide.example/more/"], true, false⟩),
      slept dur] := by
  rintro url r hmem ⟨retryAfter, rfl⟩
  simp at hmem

end SlowSite

/-- A declared delay of two seconds, which the run keeps. -/
theorem sleepsBetween_iff_slowSite : ∃ s,
    (crawlMachine TwoPages.crates).run SlowSite.start (SlowSite.labels 2) = some s ∧
    SleepsBetween (max ((1000 : ℕ) : ℚ) (1000 * 2)) (SlowSite.log 2000) := by
  obtain ⟨s, hrun, -⟩ : ∃ s, (crawlMachine TwoPages.crates).run SlowSite.start
      (SlowSite.labels 2) = some s ∧ true = true :=
    Machine.exists_run_of_any (by decide +kernel)
  have hlog : (crawlMachine TwoPages.crates).observe noteLoop [] SlowSite.start
      (SlowSite.labels 2) = SlowSite.log 2000 := by
    decide +kernel
  have hwhole : RoundsUp 2 := ⟨by norm_num, Or.inl (by rfl)⟩
  have hseed : normalizeUrl TwoPages.crates TwoPages.target.urlPrefix =
      some "https://guide.example/" := by
    decide +kernel
  have hparse : TwoPages.crates.parse "https://guide.example/" = some (TwoPages.url "/") := by
    decide +kernel
  have horigin : (TwoPages.url "/").origin = some "https://guide.example" := by decide +kernel
  have hok : (crawlMachine TwoPages.crates).Guarded (DeclaresDelay "https://guide.example" 2)
      SlowSite.start (SlowSite.labels 2) := by
    decide +kernel
  exact ⟨s, hrun, (sleepsBetween_iff (by norm_num) hseed hparse horigin (by decide +kernel) hok
    hrun hlog).2 (Or.inl (Or.inr hwhole))⟩

/-- A declared delay of 1.4 seconds: the run sleeps for one. -/
theorem not_sleepsBetween : ¬ ∀ labels s,
    (crawlMachine TwoPages.crates).Guarded (DeclaresDelay "https://guide.example" (7 / 5))
      SlowSite.start labels →
    (crawlMachine TwoPages.crates).run SlowSite.start labels = some s →
      SleepsBetween (max ((1000 : ℕ) : ℚ) (1000 * (7 / 5)))
        ((crawlMachine TwoPages.crates).observe noteLoop [] SlowSite.start labels) := by
  obtain ⟨s, hrun, -⟩ : ∃ s, (crawlMachine TwoPages.crates).run SlowSite.start
      (SlowSite.labels (7 / 5)) = some s ∧ true = true :=
    Machine.exists_run_of_any (by decide +kernel)
  have hlog : (crawlMachine TwoPages.crates).observe noteLoop [] SlowSite.start
      (SlowSite.labels (7 / 5)) = SlowSite.log 1000 := by
    decide +kernel
  intro h
  have hslept := h _ s (by decide +kernel) hrun _ (hlog ▸ SlowSite.between_log 1000)
    (SlowSite.noLimit_log 1000)
  have hsum : sleptIn [returned "https://guide.example/"
      (.ok ⟨["https://guide.example/more/"], true, false⟩), slept 1000] = 1000 := rfl
  rw [hsum] at hslept
  norm_num at hslept

end CommunitySearch
