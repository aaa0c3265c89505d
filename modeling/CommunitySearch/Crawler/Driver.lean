import CommunitySearch.Crawler.Page
import CommunitySearch.Crawler.Sitemap
import CommunitySearch.Foundation.Machine
import CommunitySearch.Foundation.Worklist

/-!
# The crawl driver

`crawl_target` as a state machine. A run starts with the seed, the crawl delay and the sitemaps
(`prelude`); its loop takes URLs from a worklist, crawls each, and feeds the links it found back
(`feed`). The state of a run between two operations is a `Phase`; the program suspended in it is
the rest of the page being crawled.

`crawlMachine` is one run together with the engine. Between any two steps of the run the other
tasks may have changed the engine, so a label may replace it by any other.
-/

namespace CommunitySearch

open Prog (ret)

/-- Configuration of a run. -/
structure DriverConfig where
  politenessDelay : Duration
  maxPagesPerRun : Nat
deriving DecidableEq

/-- Statistics of a run. -/
structure DriverStats where
  pagesFetched : Nat
  pagesIndexed : Nat
  pagesNotModified : Nat
  pagesErrored : Nat
deriving DecidableEq

/-- The local variables of the loop. -/
structure DriverState where
  /-- `visited` and `queue`. -/
  frontier : Worklist String
  stats : DriverStats
  consecutive429s : Nat
  effectiveDelay : Duration

/-- Put a URL at the head of the queue. -/
def DriverState.pushFront (d : DriverState) (url : String) : DriverState :=
  { d with frontier := { d.frontier with queue := url :: d.frontier.queue } }

/-- `effective_delay_for_run`. -/
def effectiveDelayForRun (configured : Duration) (robotsCrawlDelay : Option Duration) : Duration :=
  (robotsCrawlDelay.map fun d ↦ max d configured).getD configured

/-- `rate_limit_backoff`: 1 s, 2 s, 4 s, 8 s, then abort. -/
def rateLimitBackoff (consecutive : Nat) : Option Duration :=
  if consecutive ≥ 5 then none else some (.fromSecs (2 ^ (consecutive - 1)))

/-- How long a run backs off after a 429. -/
def sleepDur (retryAfter : Option Duration) (consecutive : Nat) : Duration :=
  match retryAfter with
  | some d => min d (.fromSecs 120)
  | none => min ((rateLimitBackoff consecutive).getD (.fromSecs 32)) (.fromSecs 120)

/-- Where a run of `crawl_target` stands. -/
inductive Phase where
  | starting (p : Crawl (CrawlResult DriverState))
  /-- At the head of the loop. -/
  | looping (d : DriverState)
  /-- In `crawl_page` of `url`, which has performed `events`. -/
  | crawling (d : DriverState) (url : String) (p : Crawl (CrawlResult PageResult))
      (events : List CrawlEvent)
  | sleeping (d : DriverState) (dur : Duration)
  | ended (d : DriverState)
  | failed (err : CrawlError)

/-- A run of `crawl_target`. -/
structure CrawlRun where
  ctx : PageContext
  fetcher : Fetcher
  config : DriverConfig
  now : Int
  phase : Phase
  /-- Not in the source: the URLs passed to `crawl_page` so far. -/
  attempted : List String

variable (X : Crates)

/-- `crawl_target` up to its loop. -/
def prelude (fetcher : Fetcher) (ctx : PageContext) (config : DriverConfig) (seedUrl : String) :
    Crawl (CrawlResult DriverState) :=
  match normalizeUrl X seedUrl with
  | none => ret (.error (.other ("seed URL is unparseable: " ++ seedUrl)))
  | some seed =>
    (crawlDelayFor X seed).bind fun delay ↦
      (discoverUrls X fetcher seed ctx.urlPrefix 10000).bind fun seeds ↦
        ret (.ok
          { frontier := Worklist.empty.pushAll (seed :: seeds)
            stats := ⟨0, 0, 0, 0⟩
            consecutive429s := 0
            effectiveDelay := effectiveDelayForRun config.politenessDelay delay.toOption.join })

/-- Start `crawl_target` of a target; the seed is the target's own prefix. -/
def CrawlRun.start (fetcher : Fetcher) (ctx : PageContext) (config : DriverConfig) (now : Int) :
    CrawlRun where
  ctx := ctx
  fetcher := fetcher
  config := config
  now := now
  phase := .starting (prelude X fetcher ctx config ctx.urlPrefix)
  attempted := []

/-- The politeness delay between fetches, unless the last one is over. -/
def rest (config : DriverConfig) (d : DriverState) : Phase :=
  if d.frontier.queue ≠ [] ∧ d.stats.pagesFetched < config.maxPagesPerRun then
    .sleeping d d.effectiveDelay
  else .looping d

/-- Count a page that was crawled without error. -/
def DriverStats.count (s : DriverStats) (r : PageResult) : DriverStats where
  pagesFetched := s.pagesFetched + 1
  pagesIndexed := if r.indexed then s.pagesIndexed + 1 else s.pagesIndexed
  pagesNotModified := if r.notModified then s.pagesNotModified + 1 else s.pagesNotModified
  pagesErrored := s.pagesErrored

/-- What the loop does with the result of `crawl_page`. -/
def feed (config : DriverConfig) (d : DriverState) (url : String) :
    CrawlResult PageResult → Phase
  | .ok r =>
    rest config
      { d with
        consecutive429s := 0
        stats := d.stats.count r
        frontier := d.frontier.pushAll r.inPrefixLinks }
  | .error (.rateLimited retryAfter) =>
    let consecutive := d.consecutive429s + 1
    if consecutive ≥ 5 then .ended { d with consecutive429s := consecutive }
    else
      -- the URL is retried next
      .sleeping ({ d with consecutive429s := consecutive }.pushFront url)
        (sleepDur retryAfter consecutive)
  | .error _ =>
    rest config { d with stats := { d.stats with pagesErrored := d.stats.pagesErrored + 1 } }

/-- The steps of a run: an operation is answered, or the run moves on by itself. -/
inductive CrawlLabel where
  | answer (a : Answer)
  | next

namespace CrawlRun

/-- The operation a run is about to perform. -/
def nextOp (run : CrawlRun) : Option CrawlOp :=
  match run.phase with
  | .starting (.op o _) => some o
  | .crawling _ _ (.op o _) _ => some o
  | _ => none

/-- The page URL a run is about to request. -/
def requested (run : CrawlRun) : Option Url :=
  match run.nextOp with
  | some (.request .page target _ _) => some target
  | _ => none

/-- The job a run is about to send. -/
def sending (run : CrawlRun) : Option IndexJob :=
  match run.nextOp with
  | some (.send job) => some job
  | _ => none

/-- The local variables of the loop, once it is entered. -/
def driver (run : CrawlRun) : Option DriverState :=
  match run.phase with
  | .looping d | .crawling d .. | .sleeping d _ | .ended d => some d
  | _ => none

/-- The events of the page being crawled. -/
def events (run : CrawlRun) : List CrawlEvent :=
  match run.phase with
  | .crawling _ _ _ events => events
  | _ => []

/-- The run performs its next operation. -/
def answer (e : Engine) (run : CrawlRun) (a : Answer) : Option (Engine × CrawlRun) :=
  match run.phase with
  | .starting (.op o k) =>
    (e.perform o a).map fun (r, e') ↦ (e', { run with phase := .starting (k r) })
  | .crawling d url (.op o k) events =>
    (e.perform o a).map fun (r, e') ↦
      (e', { run with phase := .crawling d url (k r) (events ++ [⟨o, r⟩]) })
  | _ => none

/-- The run moves on between operations. -/
def next (run : CrawlRun) : Option CrawlRun :=
  match run.phase with
  | .starting (.ret (.ok d)) => some { run with phase := .looping d }
  | .starting (.ret (.error err)) => some { run with phase := .failed err }
  | .looping d =>
    match d.frontier.queue with
    | [] => some { run with phase := .ended d }
    | url :: queue =>
      if d.stats.pagesFetched < run.config.maxPagesPerRun then
        some { run with
          phase := .crawling { d with frontier := { d.frontier with queue := queue } } url
            (crawlPage X run.fetcher run.ctx run.now url) []
          attempted := run.attempted ++ [url] }
      else some { run with phase := .ended d }
  | .crawling d url (.ret r) _ => some { run with phase := feed run.config d url r }
  | .sleeping d _ => some { run with phase := .looping d }
  | _ => none

/-- A step of a run. -/
def step (e : Engine) (run : CrawlRun) : CrawlLabel → Option (Engine × CrawlRun)
  | .answer a => run.answer e a
  | .next => (run.next X).map fun run' ↦ (e, run')

/-- The run is over. -/
def isOver (run : CrawlRun) : Bool :=
  match run.phase with
  | .ended _ | .failed _ => true
  | _ => false

end CrawlRun

/-- The labels of one run among the tasks of an engine. -/
inductive RunLabel where
  | crawl (l : CrawlLabel)
  /-- The other tasks have moved. -/
  | other (e : Engine)

/-- One run of `crawl_target` and the engine. -/
def crawlMachine : Machine (Engine × CrawlRun) RunLabel where
  step
    | (e, run), .crawl l => run.step X e l
    | (_, run), .other e' => some (e', run)

/-- The answers to the prelude of a run over a site that has no sitemap, with the rules its robots
file parses to; they are not asked for when they are `loaded`. -/
def plainPrelude (rules : Option Robot) (loaded : Bool) : List CrawlLabel :=
  (if loaded then [.answer .ok] else [.answer .ok, .answer (.robots rules), .answer .ok]) ++
    [.answer .ok, .answer .ok, .answer .ok, .answer .ok, .answer .ok,
      .answer (.http (.response ⟨404, none, none, none, none, some ""⟩)), .answer (.order []),
      .next]

/-- The labels of a page up to its fetch, on an origin whose rules are loaded. -/
def pageUpToFetch : List CrawlLabel :=
  [.next, .answer .ok, .answer .ok, .answer .ok]

/-! ### What a step can do -/

variable {X} {e e' : Engine} {run run' : CrawlRun}

/-- **What feeding a result does**: the loop goes on, or ends at the fifth 429 in a row, and the
frontier changes by the links of a page crawled without error, or by the URL to retry. -/
theorem feed_cases (config : DriverConfig) (d : DriverState) (url : String)
    (r : CrawlResult PageResult) : ∃ d',
      (feed config d url r = .looping d' ∨ (∃ dur, feed config d url r = .sleeping d' dur) ∨
        feed config d url r = .ended d') ∧
      match r with
      | .ok p => d'.frontier = d.frontier.pushAll p.inPrefixLinks ∧
          d'.stats.pagesErrored = d.stats.pagesErrored ∧ d'.consecutive429s = 0
      | .error (.rateLimited _) =>
          (d'.frontier = d.frontier ∧ feed config d url r = .ended d' ∧ 5 ≤ d'.consecutive429s ∨
            d'.frontier = (d.pushFront url).frontier ∧
              d.consecutive429s < d'.consecutive429s ∧ d'.consecutive429s < 5) ∧
          d'.stats.pagesErrored = d.stats.pagesErrored
      | .error _ => d'.frontier = d.frontier ∧
          d'.stats.pagesErrored = d.stats.pagesErrored + 1 ∧
          d'.consecutive429s = d.consecutive429s := by
  have hrest : ∀ d', rest config d' = .looping d' ∨ (∃ dur, rest config d' = .sleeping d' dur) ∨
      rest config d' = .ended d' := fun d' ↦ by
    rw [rest]
    split
    · exact Or.inr (Or.inl ⟨_, rfl⟩)
    · exact Or.inl rfl
  cases r with
  | ok p => exact ⟨_, hrest _, rfl, rfl, rfl⟩
  | error err =>
    cases err with
    | rateLimited retryAfter =>
      by_cases h5 : d.consecutive429s + 1 ≥ 5
      · exact ⟨_, Or.inr (Or.inr (if_pos h5)), Or.inl ⟨rfl, if_pos h5, h5⟩, rfl⟩
      · exact ⟨_, Or.inr (Or.inl ⟨_, if_neg h5⟩),
          Or.inr ⟨rfl, Nat.lt_succ_self _, Nat.lt_of_not_ge h5⟩, rfl⟩
    | _ => exact ⟨_, hrest _, rfl, rfl, rfl⟩

/-- **What a step does**: it performs an operation of the prelude or of a page, or moves on. -/
theorem CrawlRun.step_cases {l : CrawlLabel} (h : run.step X e l = some (e', run')) :
    (∃ o k a r, run.phase = .starting (.op o k) ∧ l = .answer a ∧
        e.perform o a = some (r, e') ∧ run' = { run with phase := .starting (k r) }) ∨
      (∃ d url o k events a r, run.phase = .crawling d url (.op o k) events ∧ l = .answer a ∧
        e.perform o a = some (r, e') ∧
        run' = { run with phase := .crawling d url (k r) (events ++ [⟨o, r⟩]) }) ∨
      (l = .next ∧ e' = e ∧ run.next X = some run') := by
  cases l with
  | next =>
    obtain ⟨r, hr, he⟩ := Option.map_eq_some_iff.1 h
    obtain ⟨rfl, rfl⟩ := Prod.mk.inj he
    exact Or.inr (Or.inr ⟨rfl, rfl, hr⟩)
  | answer a =>
    have ha : run.answer e a = some (e', run') := h
    rw [answer] at ha
    split at ha
    case h_1 o k hp =>
      obtain ⟨⟨r, e₁⟩, hr, he⟩ := Option.map_eq_some_iff.1 ha
      obtain ⟨rfl, rfl⟩ := Prod.mk.inj he
      exact Or.inl ⟨o, k, a, r, hp, rfl, hr, rfl⟩
    case h_2 d url o k events hp =>
      obtain ⟨⟨r, e₁⟩, hr, he⟩ := Option.map_eq_some_iff.1 ha
      obtain ⟨rfl, rfl⟩ := Prod.mk.inj he
      exact Or.inr (Or.inl ⟨d, url, o, k, events, a, r, hp, rfl, hr, rfl⟩)
    case h_3 => cases ha

/-- **How a run moves on** between operations. -/
theorem CrawlRun.next_cases (h : run.next X = some run') :
    (∃ d, run.phase = .starting (.ret (.ok d)) ∧ run' = { run with phase := .looping d }) ∨
      (∃ err, run.phase = .starting (.ret (.error err)) ∧
        run' = { run with phase := .failed err }) ∨
      (∃ d, run.phase = .looping d ∧ run' = { run with phase := .ended d }) ∨
      (∃ d url queue, run.phase = .looping d ∧ d.frontier.queue = url :: queue ∧
        run' = { run with
          phase := .crawling { d with frontier := { d.frontier with queue := queue } } url
            (crawlPage X run.fetcher run.ctx run.now url) []
          attempted := run.attempted ++ [url] }) ∨
      (∃ d url r events, run.phase = .crawling d url (.ret r) events ∧
        run' = { run with phase := feed run.config d url r }) ∨
      (∃ d dur, run.phase = .sleeping d dur ∧ run' = { run with phase := .looping d }) := by
  rw [next] at h
  split at h
  case h_1 d hp => exact Or.inl ⟨d, hp, (Option.some.inj h).symm⟩
  case h_2 err hp => exact Or.inr (Or.inl ⟨err, hp, (Option.some.inj h).symm⟩)
  case h_3 d hp =>
    split at h
    case h_1 => exact Or.inr (Or.inr (Or.inl ⟨d, hp, (Option.some.inj h).symm⟩))
    case h_2 url queue hq =>
      split at h
      · exact Or.inr (Or.inr (Or.inr (Or.inl ⟨d, url, queue, hp, hq, (Option.some.inj h).symm⟩)))
      · exact Or.inr (Or.inr (Or.inl ⟨d, hp, (Option.some.inj h).symm⟩))
  case h_4 d url r events hp =>
    exact Or.inr (Or.inr (Or.inr (Or.inr (Or.inl
      ⟨d, url, r, events, hp, (Option.some.inj h).symm⟩))))
  case h_5 d dur hp =>
    exact Or.inr (Or.inr (Or.inr (Or.inr (Or.inr ⟨d, dur, hp, (Option.some.inj h).symm⟩))))
  case h_6 => cases h

theorem CrawlRun.sending_eq_some {job : IndexJob} :
    run.sending = some job ↔ run.nextOp = some (.send job) := by
  rw [sending]
  split
  case h_1 job' h => rw [h, Option.some.injEq, Option.some.injEq, CrawlOp.send.injEq]
  case h_2 h => exact ⟨fun h' ↦ (nomatch h'), fun h' ↦ absurd h' (h job)⟩

theorem CrawlRun.requested_eq_some {target : Url} (h : run.requested = some target) :
    ∃ spelled v, run.nextOp = some (.request .page target spelled v) := by
  rw [requested] at h
  split at h
  case h_1 hop => exact ⟨_, _, Option.some.inj h ▸ hop⟩
  case h_2 => cases h

/-- A response answers the page request of a run. -/
theorem CrawlRun.requested_of_response {target : Url} {spelled : String} {v : Validators}
    {a : Answer} {r : HttpResponse} (hop : run.nextOp = some (.request .page target spelled v))
    (h : e.perform (.request .page target spelled v) a = some (.response r, e')) :
    a = .http (.response r) ∧ target ∈ run.requested := by
  obtain ⟨rfl, -⟩ := Engine.performed_of_perform h
  refine ⟨rfl, ?_⟩
  rw [requested, hop]
  rfl

/-- A run keeps its context. -/
theorem CrawlRun.const_of_step {l : CrawlLabel} (h : run.step X e l = some (e', run')) :
    run'.ctx = run.ctx ∧ run'.fetcher = run.fetcher ∧ run'.config = run.config ∧
      run'.now = run.now := by
  obtain ⟨_, _, _, _, -, -, -, rfl⟩ | ⟨_, _, _, _, _, _, _, -, -, -, rfl⟩ | ⟨-, -, hn⟩ :=
    step_cases h
  · exact ⟨rfl, rfl, rfl, rfl⟩
  · exact ⟨rfl, rfl, rfl, rfl⟩
  · obtain ⟨_, -, rfl⟩ | ⟨_, -, rfl⟩ | ⟨_, -, rfl⟩ | ⟨_, _, _, -, -, rfl⟩ | ⟨_, _, _, _, -, rfl⟩ |
      ⟨_, _, -, rfl⟩ := next_cases hn
    all_goals exact ⟨rfl, rfl, rfl, rfl⟩

/-- Feeding a result back leaves the page, and does not start the run again. -/
theorem feed_ne_starting {config : DriverConfig} {d : DriverState} {url : String}
    {r : CrawlResult PageResult} {p : Crawl (CrawlResult DriverState)} :
    feed config d url r ≠ .starting p := by
  intro h
  obtain ⟨d', hd | ⟨_, hd⟩ | hd, -⟩ := feed_cases config d url r
  all_goals cases hd.symm.trans h

theorem feed_ne_crawling {config : DriverConfig} {d d' : DriverState} {url url' : String}
    {r : CrawlResult PageResult} {p : Crawl (CrawlResult PageResult)} {events : List CrawlEvent} :
    feed config d url r ≠ .crawling d' url' p events := by
  intro h
  obtain ⟨d', hd | ⟨_, hd⟩ | hd, -⟩ := feed_cases config d url r
  all_goals cases hd.symm.trans h

/-- **The prelude of a run after a step**: it has performed one more operation. -/
theorem CrawlRun.prelude_of_step {l : CrawlLabel} {p : Crawl (CrawlResult DriverState)}
    (h : run.step X e l = some (e', run')) (hphase : run'.phase = .starting p) :
    ∃ o k a r, run.phase = .starting (.op o k) ∧ l = .answer a ∧ e.perform o a = some (r, e') ∧
      p = k r ∧ run'.attempted = run.attempted := by
  obtain ⟨o, k, a, r, hp, hl, hr, rfl⟩ | ⟨_, _, _, _, _, _, _, -, -, -, rfl⟩ | ⟨-, -, hn⟩ :=
    step_cases h
  · cases hphase
    exact ⟨o, k, a, r, hp, hl, hr, rfl, rfl⟩
  · cases hphase
  · obtain ⟨_, -, rfl⟩ | ⟨_, -, rfl⟩ | ⟨_, -, rfl⟩ | ⟨_, _, _, -, -, rfl⟩ | ⟨_, _, _, _, -, rfl⟩ |
      ⟨_, _, -, rfl⟩ := next_cases hn
    · cases hphase
    · cases hphase
    · cases hphase
    · cases hphase
    · exact absurd hphase feed_ne_starting
    · cases hphase

/-- **The page of a run after a step**: it has just been started, or it has performed one more
operation. -/
theorem CrawlRun.page_of_step {l : CrawlLabel} {d : DriverState} {url : String}
    {p : Crawl (CrawlResult PageResult)} {events : List CrawlEvent}
    (h : run.step X e l = some (e', run')) (hphase : run'.phase = .crawling d url p events) :
    (p = crawlPage X run.fetcher run.ctx run.now url ∧ events = [] ∧
        run'.attempted = run.attempted ++ [url]) ∨
      ∃ d₀ o k events₀ a r, run.phase = .crawling d₀ url (.op o k) events₀ ∧ l = .answer a ∧
        e.perform o a = some (r, e') ∧ p = k r ∧ events = events₀ ++ [⟨o, r⟩] ∧
        run'.attempted = run.attempted := by
  obtain ⟨_, _, _, _, -, -, -, rfl⟩ | ⟨d₀, url₀, o, k, events₀, a, r, hp, hl, hr, rfl⟩ |
    ⟨-, -, hn⟩ := step_cases h
  · cases hphase
  · cases hphase
    exact Or.inr ⟨_, o, k, events₀, a, r, hp, hl, hr, rfl, rfl, rfl⟩
  · obtain ⟨_, -, rfl⟩ | ⟨_, -, rfl⟩ | ⟨_, -, rfl⟩ | ⟨_, _, _, -, -, rfl⟩ |
      ⟨d₀, url₀, r, _, -, rfl⟩ | ⟨_, _, -, rfl⟩ := next_cases hn
    · cases hphase
    · cases hphase
    · cases hphase
    · cases hphase
      exact Or.inl ⟨rfl, rfl, rfl⟩
    · exact absurd hphase feed_ne_crawling
    · cases hphase

/-- **The loop of a run after a step**: the prelude has set it up, it is as before, a page has been
taken from its queue, or the result of a page has been fed back. -/
theorem CrawlRun.driver_of_step {l : CrawlLabel} {d' : DriverState}
    (h : run.step X e l = some (e', run')) (hd : d' ∈ run'.driver) :
    run.phase = .starting (.ret (.ok d')) ∨ d' ∈ run.driver ∨
      (∃ d url queue, d ∈ run.driver ∧ d.frontier.queue = url :: queue ∧
        d' = { d with frontier := { d.frontier with queue := queue } }) ∨
      ∃ d url r events, run.phase = .crawling d url (.ret r) events ∧
        run' = { run with phase := feed run.config d url r } := by
  obtain ⟨_, _, _, _, -, -, -, rfl⟩ | ⟨d, url, _, _, _, _, _, hp, -, -, rfl⟩ | ⟨-, -, hn⟩ :=
    step_cases h
  · cases hd
  · cases hd
    exact Or.inr (Or.inl (by rw [driver, hp]; rfl))
  · obtain ⟨d, hp, rfl⟩ | ⟨_, -, rfl⟩ | ⟨d, hp, rfl⟩ | ⟨d, url, queue, hp, hq, rfl⟩ |
      ⟨d, url, r, events, hp, rfl⟩ | ⟨d, _, hp, rfl⟩ := next_cases hn
    · cases hd
      exact Or.inl hp
    · cases hd
    · cases hd
      exact Or.inr (Or.inl (by rw [driver, hp]; rfl))
    · cases hd
      exact Or.inr (Or.inr (Or.inl ⟨d, url, queue, by rw [driver, hp]; rfl, hq, rfl⟩))
    · exact Or.inr (Or.inr (Or.inr ⟨d, url, r, events, hp, rfl⟩))
    · cases hd
      exact Or.inr (Or.inl (by rw [driver, hp]; rfl))

/-- The loop after a result has been fed back. -/
theorem CrawlRun.driver_feed {d d' d₁ : DriverState} {url : String} {r : CrawlResult PageResult}
    (hd : feed run.config d url r = .looping d' ∨
      (∃ dur, feed run.config d url r = .sleeping d' dur) ∨ feed run.config d url r = .ended d')
    (h : d₁ ∈ ({ run with phase := feed run.config d url r } : CrawlRun).driver) : d₁ = d' := by
  obtain hd | ⟨_, hd⟩ | hd := hd
  all_goals
    rw [driver, hd] at h
    exact (Option.some.inj h).symm

/-- **What a run has attempted after a step**: what it had, and the page taken from the queue. -/
theorem CrawlRun.attempted_of_step {l : CrawlLabel} (h : run.step X e l = some (e', run')) :
    run'.attempted = run.attempted ∨
      ∃ d url queue, d ∈ run.driver ∧ d.frontier.queue = url :: queue ∧
        run'.attempted = run.attempted ++ [url] := by
  obtain ⟨_, _, _, _, -, -, -, rfl⟩ | ⟨_, _, _, _, _, _, _, -, -, -, rfl⟩ | ⟨-, -, hn⟩ :=
    step_cases h
  · exact Or.inl rfl
  · exact Or.inl rfl
  · obtain ⟨_, -, rfl⟩ | ⟨_, -, rfl⟩ | ⟨_, -, rfl⟩ | ⟨d, url, queue, hp, hq, rfl⟩ |
      ⟨_, _, _, _, -, rfl⟩ | ⟨_, _, -, rfl⟩ := next_cases hn
    · exact Or.inl rfl
    · exact Or.inl rfl
    · exact Or.inl rfl
    · exact Or.inr ⟨d, url, queue, by rw [driver, hp]; rfl, hq, rfl⟩
    · exact Or.inl rfl
    · exact Or.inl rfl

/-- A run that is over takes no step. -/
theorem CrawlRun.step_of_isOver {l : CrawlLabel} (hover : run.isOver = true) :
    run.step X e l = none := by
  rw [Option.eq_none_iff_forall_ne_some]
  rintro ⟨e', run'⟩ h
  rw [isOver] at hover
  obtain ⟨_, _, _, _, hp, -⟩ | ⟨_, _, _, _, _, _, _, hp, -⟩ | ⟨-, -, hn⟩ := step_cases h
  · rw [hp] at hover
    cases hover
  · rw [hp] at hover
    cases hover
  · obtain ⟨_, hp, -⟩ | ⟨_, hp, -⟩ | ⟨_, hp, -⟩ | ⟨_, _, _, hp, -⟩ | ⟨_, _, _, _, hp, -⟩ |
      ⟨_, _, hp, -⟩ := next_cases hn
    all_goals
      rw [hp] at hover
      cases hover

theorem CrawlRun.nextOp_of_isOver (hover : run.isOver = true) : run.nextOp = none := by
  rw [isOver] at hover
  split at hover
  case h_1 hp => rw [nextOp, hp]
  case h_2 hp => rw [nextOp, hp]
  case h_3 => cases hover

/-! ### What a run of a page keeps -/

/-- The page being crawled, if any, meets its specification from where it stands. -/
def CrawlRun.PageMeets (G : List CrawlEvent → CrawlEvent → Prop)
    (P : String → List CrawlEvent → CrawlOp → Prop)
    (Q : String → CrawlResult PageResult → List CrawlEvent → Prop) (run : CrawlRun) : Prop :=
  ∀ d url p events, run.phase = .crawling d url p events →
    Prog.wp (Prog.history G) (P url) (Q url) p events

section PageMeets

variable {G : List CrawlEvent → CrawlEvent → Prop}
  {P : String → List CrawlEvent → CrawlOp → Prop}
  {Q : String → CrawlResult PageResult → List CrawlEvent → Prop}

theorem CrawlRun.pageMeets_start (fetcher : Fetcher) (ctx : PageContext) (config : DriverConfig)
    (now : Int) : (CrawlRun.start X fetcher ctx config now).PageMeets G P Q := by
  intro d url p events h
  cases h

/-- **The page invariant**: if every page meets the specification from the start, and the answers
are the ones it allows, the page being crawled meets it at every point of the run. -/
theorem CrawlRun.PageMeets.step {l : CrawlLabel}
    (hpage : ∀ url, Prog.wp (Prog.history G) (P url) (Q url)
      (crawlPage X run.fetcher run.ctx run.now url) [])
    (hG : ∀ d url o k events a r, run.phase = .crawling d url (.op o k) events → l = .answer a →
      e.perform o a = some (r, e') → G events ⟨o, r⟩)
    (hI : run.PageMeets G P Q) (h : run.step X e l = some (e', run')) :
    run'.PageMeets G P Q := by
  intro d url p events hphase
  obtain ⟨rfl, rfl, -⟩ | ⟨d₀, o, k, events₀, a, r, hp, hl, hr, rfl, rfl, -⟩ :=
    CrawlRun.page_of_step h hphase
  · exact hpage _
  · exact Prog.wp_op_step (hI _ _ _ _ hp) ⟨hG _ _ _ _ _ _ _ hp hl hr, rfl⟩

/-- What the specification says of the operation a run is about to perform in a page. -/
theorem CrawlRun.PageMeets.nextOp {d : DriverState} {url : String} {o : CrawlOp}
    {k : o.Resp → Crawl (CrawlResult PageResult)} {events : List CrawlEvent}
    (hI : run.PageMeets G P Q) (h : run.phase = .crawling d url (.op o k) events) :
    P url events o :=
  (hI _ _ _ _ h).1

/-- What the specification says of a page that is done. -/
theorem CrawlRun.PageMeets.result {d : DriverState} {url : String} {r : CrawlResult PageResult}
    {events : List CrawlEvent} (hI : run.PageMeets G P Q)
    (h : run.phase = .crawling d url (.ret r) events) : Q url r events :=
  hI _ _ _ _ h

end PageMeets

end CommunitySearch
