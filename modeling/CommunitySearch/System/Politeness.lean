import CommunitySearch.Crawler.Pacing
import CommunitySearch.Crawler.RecrawlCoverage
import CommunitySearch.System.SingleFlight
import Mathlib.Data.List.Dedup
import Mathlib.Logic.Function.Basic

/-!
# Politeness across targets

The scheduler with a clock: time passes between the steps, a crawl that sleeps goes on only when its
sleep is over, and every page request is noted with the time it is sent at.

Each crawl paces itself, and nothing else does: no crawl knows of the hosts of another one, and the
configured number of concurrent domains is not read anywhere. `polite_of_guarded` holds of the runs
in which this does no harm (`Considerate`): few crawls are live, each turns to a host only when no
other is on it and its last request is long enough ago, and redirects and back-offs respect the
delay.
-/

namespace CommunitySearch

/-- A page request that has been sent. -/
structure PageRequest where
  sentAt : Duration
  host : Option String
  /-- The politeness delay configured for the crawl that sent it. -/
  delay : Duration

/-- The clock and what has been timed. -/
structure Times where
  clock : Duration
  /-- When the sleep of the crawl of a target is over. -/
  wake : Uuid → Duration
  requests : List PageRequest

/-- The scheduler and its clock. -/
structure TimedScheduler where
  scheduler : Scheduler
  times : Times

/-- Time passes, or the scheduler moves. -/
inductive TimedLabel where
  | elapse (d : Duration)
  | act (l : SchedulerLabel)

/-- The crawl that moves, and how. -/
def SchedulerLabel.crawled : SchedulerLabel → Option (ℕ × CrawlLabel)
  | .sys (.crawl k l) => some (k, l)
  | _ => none

/-- The targets a tick finds due. -/
def SchedulerLabel.dispatched : SchedulerLabel → List DueTarget
  | .tick _ (.due order) => order
  | _ => []

def CrawlLabel.isNext : CrawlLabel → Bool
  | .next => true
  | .answer _ => false

/-- The status and the location of a redirect. -/
def Answer.redirection : Answer → Option (RedirectStatus × String)
  | .http (.redirect status location) => some (status, location)
  | _ => none

namespace CrawlRun

/-- The page a run takes from its queue when it moves on. -/
def taking (run : CrawlRun) : Option String :=
  match run.phase with
  | .looping d =>
    if d.stats.pagesFetched < run.config.maxPagesPerRun then d.frontier.queue.head? else none
  | _ => none

/-- The back-off a run begins when it moves on. -/
def backingOff (run : CrawlRun) : Option Duration :=
  match run.phase with
  | .crawling d _ (.ret (.error (.rateLimited retryAfter))) _ =>
    if d.consecutive429s + 1 < 5 then some (sleepDur retryAfter (d.consecutive429s + 1)) else none
  | _ => none

/-- The sleep a run has begun. -/
def sleeping (run : CrawlRun) : Option Duration :=
  match run.phase with
  | .sleeping _ dur => some dur
  | _ => none

end CrawlRun

/-- The host of a page. -/
def pageHost (X : Crates) (url : String) : Option String := (X.parse url).bind Url.host

/-- The hosts whose pages a run has taken. -/
def CrawlRun.hosts (X : Crates) (run : CrawlRun) : List (Option String) :=
  run.attempted.map (pageHost X)

/-- The host of the page a run is crawling: of the request that is under way, if one is. -/
def CrawlRun.crawledHost (X : Crates) (run : CrawlRun) : Option (Option String) :=
  match run.phase with
  | .crawling _ url _ _ => some ((run.requested.map Url.host).getD (pageHost X url))
  | _ => none

namespace Times

/-- A crawl that sleeps goes on when its sleep is over. -/
def Wakes (t : Times) (run : CrawlRun) : Prop :=
  run.sleeping.isSome = true → t.wake run.ctx.crawlTargetId ≤ t.clock

instance (t : Times) (run : CrawlRun) : Decidable (t.Wakes run) :=
  inferInstanceAs (Decidable (_ → _))

/-- A crawl has moved: its sleep begins, or its request is sent. -/
def note (t : Times) (run : CrawlRun) : Times where
  clock := t.clock
  wake := match run.sleeping with
    | some dur => Function.update t.wake run.ctx.crawlTargetId (t.clock + dur)
    | none => t.wake
  requests := t.requests ++
    (run.requested.map fun target ↦ ⟨t.clock, target.host, run.config.politenessDelay⟩).toList

/-- **Politeness**: between two requests to one host at least the delay of the later one elapses. -/
def Polite (t : Times) : Prop :=
  t.requests.Pairwise fun r r' ↦ r.host = r'.host → r.sentAt + r'.delay ≤ r'.sentAt

instance (t : Times) : Decidable t.Polite :=
  inferInstanceAs (Decidable (List.Pairwise _ _))

end Times

namespace TimedScheduler

/-- The process just started. -/
def start (db : Database) (index : List Document) : TimedScheduler :=
  ⟨.start db index, ⟨0, fun _ ↦ 0, []⟩⟩

/-- The crawls that are live. -/
def runs (s : TimedScheduler) : List CrawlRun := s.scheduler.sys.runs

/-- No crawl moves on in its sleep. -/
def MayAct (s : TimedScheduler) (l : SchedulerLabel) : Prop :=
  ∀ c ∈ l.crawled, c.2.isNext = true → ∀ run ∈ s.runs[c.1]?, s.times.Wakes run

instance (s : TimedScheduler) (l : SchedulerLabel) : Decidable (s.MayAct l) :=
  inferInstanceAs (Decidable (∀ c ∈ l.crawled, _ → ∀ run ∈ s.runs[c.1]?, _))

/-- What is noted of a step. -/
def noted (s : TimedScheduler) (l : SchedulerLabel) (scheduler : Scheduler) : Times :=
  match l.crawled.bind fun c ↦ scheduler.sys.runs[c.1]? with
  | some run => s.times.note run
  | none => s.times

variable (X : Crates) (fetcher : Fetcher) (config : DriverConfig)

/-- One step. -/
def step (s : TimedScheduler) : TimedLabel → Option TimedScheduler
  | .elapse d => some ⟨s.scheduler, { s.times with clock := s.times.clock + d }⟩
  | .act l =>
    if s.MayAct l then
      (s.scheduler.step X fetcher config l).map fun scheduler ↦ ⟨scheduler, s.noted l scheduler⟩
    else none

/-- The hosts whose pages are being crawled. -/
def crawledHosts (s : TimedScheduler) : List (Option String) :=
  s.runs.filterMap (CrawlRun.crawledHost X)

/-- A host is free for a crawl: no other live crawl has taken a page of it, and the last page
request to it is at least the delay ago. -/
def Free (s : TimedScheduler) (run : CrawlRun) (host : Option String) : Prop :=
  (∀ run' ∈ s.runs, run'.ctx.crawlTargetId ≠ run.ctx.crawlTargetId → host ∉ run'.hosts X) ∧
    ∀ r ∈ s.times.requests, r.host = host →
      r.sentAt + run.config.politenessDelay ≤ s.times.clock

instance (s : TimedScheduler) (run : CrawlRun) (host : Option String) :
    Decidable (s.Free X run host) :=
  inferInstanceAs (Decidable (_ ∧ _))

/-- A crawl moves considerately: a host it turns to is free, and so is one it is redirected to; and
it backs off for at least the delay. -/
def CrawlsConsiderately (s : TimedScheduler) (run : CrawlRun) : CrawlLabel → Prop
  | .next =>
    (∀ url ∈ run.taking, pageHost X url ∉ run.hosts X → s.Free X run (pageHost X url)) ∧
      ∀ dur ∈ run.backingOff, run.config.politenessDelay ≤ dur
  | .answer a =>
    ∀ redirection ∈ a.redirection, redirects run.events < MAX_REDIRECTS →
      ∀ target ∈ run.requested, ∀ next ∈ X.redirectTarget target redirection.1 redirection.2,
        s.Free X run next.host

instance (s : TimedScheduler) (run : CrawlRun) :
    (l : CrawlLabel) → Decidable (s.CrawlsConsiderately X run l)
  | .next =>
    inferInstanceAs (Decidable ((∀ url ∈ run.taking, _ → s.Free X run (pageHost X url)) ∧
      ∀ dur ∈ run.backingOff, run.config.politenessDelay ≤ dur))
  | .answer a =>
    inferInstanceAs (Decidable (∀ redirection ∈ a.redirection, _ → ∀ target ∈ run.requested,
      ∀ next ∈ X.redirectTarget target redirection.1 redirection.2, s.Free X run next.host))

/-- The admissible steps: a tick leaves no more crawls than domains may be crawled, and a crawl
moves considerately. -/
def Considerate (maxDomains : ℕ) (s : TimedScheduler) : TimedLabel → Prop
  | .elapse _ => True
  | .act l =>
    (s.scheduler.paused = false → l.dispatched ≠ [] →
      s.runs.length + (l.dispatched.filter fun d ↦ d.id ∉ s.scheduler.running).length ≤
        maxDomains) ∧
    ∀ c ∈ l.crawled, ∀ run ∈ s.runs[c.1]?, s.CrawlsConsiderately X run c.2

instance (maxDomains : ℕ) (s : TimedScheduler) :
    (l : TimedLabel) → Decidable (s.Considerate X maxDomains l)
  | .elapse _ => isTrue trivial
  | .act l =>
    inferInstanceAs (Decidable ((s.scheduler.paused = false → ¬ l.dispatched = [] → _ ≤ _) ∧
      ∀ c ∈ l.crawled, ∀ run ∈ s.runs[c.1]?, s.CrawlsConsiderately X run c.2))

end TimedScheduler

/-- The scheduler and its clock as a machine. -/
def timedMachine (X : Crates) (fetcher : Fetcher) (config : DriverConfig) :
    Machine TimedScheduler TimedLabel where
  step := TimedScheduler.step X fetcher config

variable {X : Crates} {fetcher : Fetcher} {config : DriverConfig} {maxDomains : ℕ}

/-! ### One crawl -/

/-- The time by which the delay after the earlier requests has to be over. -/
def Times.restUntil (X : Crates) (t : Times) (run : CrawlRun) : Option Duration :=
  match run.phase with
  | .looping d =>
    if d.frontier.queue ≠ [] ∧ d.stats.pagesFetched < run.config.maxPagesPerRun then some t.clock
    else none
  | .sleeping _ _ => some (t.wake run.ctx.crawlTargetId)
  | .crawling _ _ _ events => if (pageStage X events).1 = .before then some t.clock else none
  | _ => none

/-- The invariant of a live crawl: unless its request is under way, it has rested from every request
to its hosts when it makes the next one. -/
structure Paces (X : Crates) (t : Times) (run : CrawlRun) : Prop where
  preluding : run.Preluding
  keepsStage : run.KeepsStage X
  starting : ∀ p, run.phase = .starting p → run.attempted = [] ∧ Prog.Returns (fun _ _ ↦ True)
    (fun r ↦ ∀ d, r = .ok d → run.config.politenessDelay ≤ d.effectiveDelay) p
  delay : ∀ d ∈ run.driver, run.config.politenessDelay ≤ d.effectiveDelay
  crawling : ∀ d url p events, run.phase = .crawling d url p events → url ∈ run.attempted
  rested : run.requested = none → ∀ deadline ∈ t.restUntil X run, ∀ r ∈ t.requests,
    r.host ∈ run.hosts X → r.sentAt + run.config.politenessDelay ≤ deadline

theorem paces_start (t : Times) (ctx : PageContext) (now : Int) :
    Paces X t (CrawlRun.start X fetcher ctx config now) where
  preluding := CrawlRun.preluding_start _ _ _ _
  keepsStage := CrawlRun.keepsStage_start _ _ _ _
  starting := by
    rintro _ ⟨⟩
    exact ⟨rfl, returns_prelude_delay fetcher ctx config⟩
  delay _ h := nomatch h
  crawling _ _ _ _ h := nomatch h
  rested _ _ h := nomatch h

/-- Time passes. -/
theorem Paces.elapse {t : Times} {run : CrawlRun} (hI : Paces X t run) (d : Duration) :
    Paces X { t with clock := t.clock + d } run := by
  refine ⟨hI.preluding, hI.keepsStage, hI.starting, hI.delay, hI.crawling, ?_⟩
  intro hnone deadline hdeadline r hr hhost
  have hle : ∃ earlier ∈ t.restUntil X run, earlier ≤ deadline := by
    have hclock : deadline = t.clock + d → t.clock ≤ deadline := fun h ↦ h ▸ Nat.le_add_right _ _
    unfold Times.restUntil at hdeadline ⊢
    split at hdeadline
    · obtain ⟨hmore, hdeadline⟩ := Option.ite_none_right_eq_some.1 hdeadline
      exact ⟨t.clock, if_pos hmore, hclock (Option.some.inj hdeadline).symm⟩
    · exact ⟨_, rfl, (Option.some.inj hdeadline).le⟩
    · obtain ⟨hstage, hdeadline⟩ := Option.ite_none_right_eq_some.1 hdeadline
      exact ⟨t.clock, if_pos hstage, hclock (Option.some.inj hdeadline).symm⟩
    · cases hdeadline
  obtain ⟨earlier, hearlier, hle⟩ := hle
  exact (hI.rested hnone earlier hearlier r hr hhost).trans hle

theorem CrawlRun.sleeping_of_phase {run : CrawlRun} {d : DriverState} {dur : Duration}
    (h : run.phase = .sleeping d dur) : run.sleeping = some dur := by
  rw [sleeping, h]

/-- Between pages nothing is requested. -/
theorem CrawlRun.requested_of_looping {run : CrawlRun} {d : DriverState}
    (h : run.phase = .looping d) : run.requested = none := by
  rw [requested, nextOp, h]

theorem CrawlRun.requested_of_sleeping {run : CrawlRun} {d : DriverState} {dur : Duration}
    (h : run.phase = .sleeping d dur) : run.requested = none := by
  rw [requested, nextOp, h]

theorem Times.restUntil_of_sleeping {t : Times} {run : CrawlRun} {d : DriverState} {dur : Duration}
    (h : run.phase = .sleeping d dur) :
    (t.note run).restUntil X run = some (t.clock + dur) := by
  rw [restUntil, h, note, CrawlRun.sleeping_of_phase h]
  exact congrArg some (Function.update_self ..)

theorem Times.not_done_of_restUntil {t : Times} {run : CrawlRun} {deadline : Duration}
    (hdeadline : deadline ∈ (t.note run).restUntil X run) {d : DriverState}
    (h : run.phase = .looping d) : ¬ d.Done run.config := by
  rw [restUntil, h] at hdeadline
  obtain ⟨⟨hqueue, hfetched⟩, -⟩ := Option.ite_none_right_eq_some.1 hdeadline
  exact fun hdone ↦ hdone.elim hqueue fun hmax ↦ Nat.not_le.2 hfetched hmax

theorem Times.restUntil_of_ended {t : Times} {run : CrawlRun} {d : DriverState}
    (h : run.phase = .ended d) : (t.note run).restUntil X run = none := by
  rw [restUntil, h]

/-- A run takes the head of its queue. -/
theorem CrawlRun.taking_of_next {run run' : CrawlRun} {d d' : DriverState} {url : String}
    {queue : List String} {p : Crawl (CrawlResult PageResult)} {events : List CrawlEvent}
    (hp : run.phase = .looping d) (hq : d.frontier.queue = url :: queue)
    (h : run.next X = some run') (hp' : run'.phase = .crawling d' url p events) :
    run.taking = some url ∧ d.stats.pagesFetched < run.config.maxPagesPerRun := by
  rw [next, hp] at h
  dsimp only at h
  rw [hq] at h
  dsimp only at h
  split at h
  case isTrue hlt =>
    refine ⟨?_, hlt⟩
    rw [taking, hp]
    dsimp only
    rw [if_pos hlt, hq]
    rfl
  case isFalse =>
    obtain rfl := Option.some.inj h
    cases hp'

variable {s s' : TimedScheduler} {e e' : Engine} {run run' : CrawlRun} {l : CrawlLabel}

/-- **A crawl rests before its next page**: what a considerate step preserves of the requests made
so far. -/
theorem Paces.rested_step (hI : Paces X s.times run)
    (hpast : ∀ r ∈ s.times.requests, r.sentAt ≤ s.times.clock)
    (hawake : l.isNext = true → s.times.Wakes run) (hl : s.CrawlsConsiderately X run l)
    (h : run.step X e l = some (e', run')) :
    ∀ deadline ∈ (s.times.note run').restUntil X run', ∀ r ∈ s.times.requests,
      r.host ∈ run'.hosts X → r.sentAt + run'.config.politenessDelay ≤ deadline := by
  intro deadline hdeadline r hr hhost
  obtain ⟨o, k, a, r', hp, rfl, hr', rfl⟩ | ⟨d, url, o, k, events, a, r', hp, rfl, hr', rfl⟩ |
    ⟨rfl, rfl, hn⟩ := CrawlRun.step_cases h
  · cases hdeadline
  · -- nothing has been requested yet
    obtain ⟨hstage, hdeadline⟩ := Option.ite_none_right_eq_some.1 hdeadline
    obtain rfl := Option.some.inj hdeadline
    obtain ⟨hrequested, hsame, -⟩ | hafter | ⟨_, _, _, _, -, -, -, -, hhop⟩ :=
      CrawlRun.stage_of_answer hI.keepsStage hp hr'
    · refine hI.rested hrequested s.times.clock ?_ r hr hhost
      rw [Times.restUntil, hp]
      exact if_pos (hsame ▸ hstage)
    · cases hafter.symm.trans hstage
    · cases hhop.symm.trans hstage
  · obtain ⟨d, hp, rfl⟩ | ⟨_, hp, rfl⟩ | ⟨d, hp, rfl⟩ | ⟨d, url, queue, hp, hq, rfl⟩ |
      ⟨d, url, res, events, hp, rfl⟩ | ⟨d, dur, hp, rfl⟩ := CrawlRun.next_cases hn
    · -- no page has been taken yet
      have hnone : run.attempted = [] := (hI.starting _ hp).1
      have hhost : r.host ∈ run.attempted.map (pageHost X) := hhost
      rw [hnone] at hhost
      exact absurd hhost List.not_mem_nil
    · cases hdeadline
    · cases hdeadline
    · have hdeadline : deadline ∈
          if (pageStage X []).1 = .before then some s.times.clock else none := hdeadline
      obtain ⟨-, hdeadline⟩ := Option.ite_none_right_eq_some.1 hdeadline
      obtain rfl := Option.some.inj hdeadline
      obtain ⟨htaking, hlt⟩ := CrawlRun.taking_of_next hp hq hn rfl
      have hold : r.host ∈ run.hosts X →
          r.sentAt + run.config.politenessDelay ≤ s.times.clock := by
        have hnone : run.requested = none :=
          CrawlRun.requested_of_looping hp
        refine hI.rested hnone s.times.clock ?_ r hr
        rw [Times.restUntil, hp]
        exact if_pos ⟨by rw [hq]; exact List.cons_ne_nil _ _, hlt⟩
      by_cases hmem : r.host ∈ run.hosts X
      · exact hold hmem
      · have hhost : r.host ∈ (run.attempted ++ [url]).map (pageHost X) := hhost
        rw [List.map_append, List.mem_append] at hhost
        have hnew : r.host = pageHost X url := List.mem_singleton.1 (hhost.resolve_left hmem)
        exact (hl.1 url htaking (hnew ▸ hmem)).2 r hr hnew
    · -- the sleep begins
      have hdelay : run.config.politenessDelay ≤ d.effectiveDelay :=
        hI.delay d (by rw [CrawlRun.driver, hp]; rfl)
      have hsent : r.sentAt ≤ s.times.clock := hpast r hr
      show r.sentAt + run.config.politenessDelay ≤ deadline
      obtain ⟨d', -, hdone, hfeed⟩ | ⟨d', -, hfeed⟩ | ⟨d', retryAfter, -, rfl, hlt, hfeed⟩ |
        ⟨d', -, hfeed⟩ := feed_paces run.config d url res
      · exact absurd hdone (Times.not_done_of_restUntil hdeadline hfeed)
      · obtain rfl := Option.some.inj ((Times.restUntil_of_sleeping hfeed).symm.trans hdeadline)
        exact Nat.add_le_add hsent hdelay
      · obtain rfl := Option.some.inj ((Times.restUntil_of_sleeping hfeed).symm.trans hdeadline)
        have hback := hl.2 (sleepDur retryAfter (d.consecutive429s + 1)) (by
          rw [CrawlRun.backingOff, hp]
          exact if_pos hlt)
        exact Nat.add_le_add hsent hback
      · cases (Times.restUntil_of_ended hfeed).symm.trans hdeadline
    · -- the sleep is over
      obtain ⟨-, hdeadline⟩ := Option.ite_none_right_eq_some.1 hdeadline
      obtain rfl := Option.some.inj hdeadline
      have hwake := hI.rested (CrawlRun.requested_of_sleeping hp)
        (s.times.wake run.ctx.crawlTargetId) (by rw [Times.restUntil, hp]; rfl) r hr hhost
      have hawake := hawake rfl (by rw [CrawlRun.sleeping_of_phase hp]; rfl)
      exact hwake.trans hawake

/-- The delay of a crawl is at least the configured one, whatever its prelude and its pages do. -/
theorem Paces.delay_step (hI : Paces X s.times run) (h : run.step X e l = some (e', run')) :
    ∀ d ∈ run'.driver, run'.config.politenessDelay ≤ d.effectiveDelay := by
  rw [(CrawlRun.const_of_step h).2.2.1]
  exact CrawlRun.delay_of_step (fun d hp ↦ (hI.starting _ hp).2 d rfl) hI.delay h

/-- The page being crawled has been taken. -/
theorem Paces.crawling_step (hI : Paces X s.times run) (h : run.step X e l = some (e', run')) :
    ∀ d url p events, run'.phase = .crawling d url p events → url ∈ run'.attempted := by
  intro d url p events hphase
  obtain ⟨-, -, htaken⟩ | ⟨_, _, _, _, _, _, hp, -, -, -, -, hsame⟩ :=
    CrawlRun.page_of_step h hphase
  · rw [htaken]
    exact List.mem_append_right _ (List.mem_singleton_self url)
  · rw [hsame]
    exact hI.crawling _ _ _ _ hp

/-- **The crawl that moves** keeps to its pace. -/
theorem Paces.step (hI : Paces X s.times run)
    (hpast : ∀ r ∈ s.times.requests, r.sentAt ≤ s.times.clock)
    (hawake : l.isNext = true → s.times.Wakes run) (hl : s.CrawlsConsiderately X run l)
    (h : run.step X e l = some (e', run')) : Paces X (s.times.note run') run' where
  preluding := hI.preluding.step h
  keepsStage := hI.keepsStage.step h
  starting p hphase := by
    obtain ⟨o, k, a, r, hp, -, -, rfl, hattempted⟩ := CrawlRun.prelude_of_step h hphase
    obtain ⟨hnone, hreturns⟩ := hI.starting _ hp
    rw [(CrawlRun.const_of_step h).2.2.1]
    exact ⟨hattempted.trans hnone, Prog.returns_op.1 hreturns r trivial⟩
  delay := hI.delay_step h
  crawling := hI.crawling_step h
  rested hnone deadline hdeadline r hr hhost := by
    -- nothing has been requested in this step
    have hr : r ∈ s.times.requests := by
      rw [Times.note, hnone] at hr
      exact (List.append_nil s.times.requests) ▸ hr
    exact hI.rested_step hpast hawake hl h deadline hdeadline r hr hhost

/-- **What a crawl requests**: a page of a host it has taken a page of, or is redirected to if it is
free; and it has rested. -/
theorem Paces.requested_step (hI : Paces X s.times run)
    (hpast : ∀ r ∈ s.times.requests, r.sentAt ≤ s.times.clock)
    (hawake : l.isNext = true → s.times.Wakes run) (hl : s.CrawlsConsiderately X run l)
    (h : run.step X e l = some (e', run')) {target : Url} (htarget : run'.requested = some target) :
    (target.host ∈ run'.hosts X ∨ s.Free X run target.host) ∧
      ∀ r ∈ s.times.requests, r.host = target.host →
        r.sentAt + run'.config.politenessDelay ≤ s.times.clock := by
  obtain ⟨d, url, p, events, hp, ⟨hstage, hparse⟩ | hstage⟩ :=
    (hI.keepsStage.step h).requested (hI.preluding.step h) htarget
  · have hmem : target.host ∈ run'.hosts X := by
      refine List.mem_map.2 ⟨url, (hI.step hpast hawake hl h).crawling d url p events hp, ?_⟩
      rw [pageHost, hparse]
      rfl
    refine ⟨Or.inl hmem, fun r hr hhost ↦ ?_⟩
    refine hI.rested_step hpast hawake hl h s.times.clock ?_ r hr (hhost ▸ hmem)
    rw [Times.restUntil, hp]
    exact if_pos hstage
  · -- a hop is requested by the step that follows the redirect
    have hfree : s.Free X run target.host := by
      obtain ⟨rfl, rfl, -⟩ | ⟨d₀, o, k, events₀, a, r', hp', rfl, hr', rfl, rfl, -⟩ :=
        CrawlRun.page_of_step h hp
      · cases hstage
      · obtain ⟨-, hsame, hstay⟩ | hafter | ⟨from_, status, location, next, hfrom, rfl, hlt, hjoin,
          hhop⟩ := CrawlRun.stage_of_answer hI.keepsStage hp' hr'
        · exact absurd (hsame ▸ hstage) (hstay target)
        · cases hafter.symm.trans hstage
        · obtain rfl : next = target := by injection hhop.symm.trans hstage
          refine hl (status, location) rfl ?_ from_ hfrom next hjoin
          rw [CrawlRun.events, hp']
          exact hlt
    refine ⟨Or.inr hfree, fun r hr hhost ↦ ?_⟩
    rw [(CrawlRun.const_of_step h).2.2.1]
    exact hfree.2 r hr hhost

/-- The hosts of a crawl after a considerate step. -/
theorem CrawlRun.hosts_step (hl : s.CrawlsConsiderately X run l)
    (h : run.step X e l = some (e', run')) :
    ∀ host ∈ run'.hosts X, host ∈ run.hosts X ∨ s.Free X run host := by
  intro host hhost
  obtain ⟨o, k, a, r', hp, rfl, hr', rfl⟩ | ⟨d, url, o, k, events, a, r', hp, rfl, hr', rfl⟩ |
    ⟨rfl, rfl, hn⟩ := CrawlRun.step_cases h
  · exact Or.inl hhost
  · exact Or.inl hhost
  · obtain ⟨d, hp, rfl⟩ | ⟨_, hp, rfl⟩ | ⟨d, hp, rfl⟩ | ⟨d, url, queue, hp, hq, rfl⟩ |
      ⟨d, url, res, events, hp, rfl⟩ | ⟨d, dur, hp, rfl⟩ := CrawlRun.next_cases hn
    · exact Or.inl hhost
    · exact Or.inl hhost
    · exact Or.inl hhost
    · have hhost : host ∈ (run.attempted ++ [url]).map (pageHost X) := hhost
      by_cases hmem : host ∈ run.hosts X
      · exact Or.inl hmem
      · rw [List.map_append, List.mem_append] at hhost
        have hnew : host = pageHost X url := List.mem_singleton.1 (hhost.resolve_left hmem)
        obtain ⟨htaking, -⟩ := CrawlRun.taking_of_next hp hq hn rfl
        rw [hnew] at hmem ⊢
        exact Or.inr (hl.1 url htaking hmem)
    · exact Or.inl hhost
    · exact Or.inl hhost

/-- **Another crawl** keeps to its pace, if the request is not to a host of it. -/
theorem Paces.note {t : Times} (hI : Paces X t run)
    (hid : run.ctx.crawlTargetId ≠ run'.ctx.crawlTargetId)
    (hapart : ∀ target, run'.requested = some target → target.host ∉ run.hosts X) :
    Paces X (t.note run') run := by
  refine ⟨hI.preluding, hI.keepsStage, hI.starting, hI.delay, hI.crawling, ?_⟩
  intro hnone deadline hdeadline r hr hhost
  have hwake : (t.note run').wake run.ctx.crawlTargetId = t.wake run.ctx.crawlTargetId := by
    rw [Times.note]
    cases run'.sleeping with
    | some dur => exact Function.update_of_ne hid _ _
    | none => rfl
  have hrest : (t.note run').restUntil X run = t.restUntil X run := by
    unfold Times.restUntil
    rw [hwake]
    rfl
  rw [hrest] at hdeadline
  rcases List.mem_append.1 hr with hr | hr
  · exact hI.rested hnone deadline hdeadline r hr hhost
  · obtain ⟨target, htarget, rfl⟩ := Option.map_eq_some_iff.1 (Option.mem_toList.1 hr)
    exact absurd hhost (hapart target htarget)

/-! ### All crawls -/

namespace Scheduler

variable {s s' : Scheduler}

/-- **The crawls a tick starts** are of the targets that are not running. -/
theorem runs_foldl_dispatch (s : Scheduler) (now : Int) (order : List DueTarget) :
    ∃ fresh, (order.foldl (dispatch X fetcher config now) s).sys.runs = s.sys.runs ++ fresh ∧
      (∀ run ∈ fresh, ∃ ctx config now, run = .start X fetcher ctx config now) ∧
      fresh.length ≤ (order.filter fun d ↦ d.id ∉ s.running).length := by
  induction order generalizing s with
  | nil => exact ⟨[], (List.append_nil _).symm, nofun, le_refl _⟩
  | cons d order ih =>
    obtain ⟨fresh, hruns, hfresh, hlength⟩ := ih (s.dispatch X fetcher config now d)
    rw [List.foldl_cons, hruns]
    by_cases hid : d.id ∈ s.running
    · have hsame : s.dispatch X fetcher config now d = s := if_pos hid
      rw [hsame] at hlength ⊢
      refine ⟨fresh, rfl, hfresh, ?_⟩
      rwa [List.filter_cons_of_neg (by simpa using hid)]
    · have hstarted : s.dispatch X fetcher config now d = { s with
          sys := { s.sys with
            runs := s.sys.runs ++ [.start X fetcher d.pageContext (d.driverConfig config) now] }
          running := d.id :: s.running } := if_neg hid
      rw [hstarted] at hlength ⊢
      refine ⟨.start X fetcher d.pageContext (d.driverConfig config) now :: fresh, ?_, ?_, ?_⟩
      · exact List.append_assoc ..
      · exact List.forall_mem_cons.2 ⟨⟨_, _, _, rfl⟩, hfresh⟩
      · rw [List.filter_cons_of_pos (by simpa using hid)]
        refine Nat.succ_le_succ (hlength.trans (List.Sublist.length_le ?_))
        refine List.monotone_filter_right _ fun d' hd' ↦ ?_
        have hd' := of_decide_eq_true hd'
        exact decide_eq_true fun hmem ↦ hd' (List.mem_cons_of_mem _ hmem)

/-- **The crawls after a step**: one has moved; or some are left, and a tick has started others. -/
theorem runs_of_step {l : SchedulerLabel} (h : s.step X fetcher config l = some s') :
    (∃ k cl run run' e, l.crawled = some (k, cl) ∧ s.sys.runs[k]? = some run ∧
        run.step X s.sys.engine cl = some (e, run') ∧ s'.sys.runs = s.sys.runs.set k run') ∨
      l.crawled = none ∧ ∃ kept fresh, s'.sys.runs = kept ++ fresh ∧ kept.Sublist s.sys.runs ∧
        (∀ run ∈ fresh, ∃ ctx config now, run = .start X fetcher ctx config now) ∧
        (fresh = [] ∨ s.paused = false ∧
          fresh.length ≤ (l.dispatched.filter fun d ↦ d.id ∉ s.running).length) := by
  have hkept : ∀ {kept}, s'.sys.runs = kept → kept.Sublist s.sys.runs →
      ∃ kept fresh, s'.sys.runs = kept ++ fresh ∧ kept.Sublist s.sys.runs ∧
        (∀ run ∈ fresh, ∃ ctx config now, run = .start X fetcher ctx config now) ∧
        (fresh = [] ∨ s.paused = false ∧
          fresh.length ≤ (l.dispatched.filter fun d ↦ d.id ∉ s.running).length) :=
    fun {kept} hruns hsub ↦
      ⟨kept, [], hruns.trans (List.append_nil _).symm, hsub, nofun, Or.inl rfl⟩
  cases l with
  | sys l =>
    by_cases hcrawl : ∃ k cl, l = .crawl k cl
    · obtain ⟨k, cl, rfl⟩ := hcrawl
      obtain ⟨sys, hsys, rfl⟩ := Option.map_eq_some_iff.1 h
      obtain ⟨run, run', e, hk, hrun, rfl⟩ := Sys.crawl_cases hsys
      exact Or.inl ⟨k, cl, run, run', e, rfl, hk, hrun, rfl⟩
    · have hnone : (SchedulerLabel.sys l).crawled = none := by
        cases l with
        | crawl k cl => exact absurd ⟨k, cl, rfl⟩ hcrawl
        | _ => rfl
      refine Or.inr ⟨hnone, ?_⟩
      obtain ⟨hruns, -⟩ | ⟨sys, hchange, rfl, hstart, hend, hcrash⟩ := step_sys_cases h
      · exact hkept hruns (List.nil_sublist _)
      · cases hchange with
        | runStarted => exact absurd rfl (hstart _ _ _ _)
        | runEnded => exact absurd rfl (hend _ _)
        | crashed => exact absurd rfl hcrash
        | crawled => exact absurd ⟨_, _, rfl⟩ hcrawl
        | _ => exact hkept rfl (List.Sublist.refl _)
  | setPaused paused =>
    obtain rfl := Option.some.inj h
    exact Or.inr ⟨rfl, hkept rfl (List.Sublist.refl _)⟩
  | tick now event =>
    replace h : (if s.paused then some s
      else s.tickOnce X fetcher config now event) = some s' := h
    split at h
    · exact Or.inr ⟨rfl, hkept (Option.some.inj h ▸ rfl) (List.Sublist.refl _)⟩
    case isFalse hpaused =>
      cases event with
      | overCapacity => exact Or.inr ⟨rfl, hkept (Option.some.inj h ▸ rfl) (List.Sublist.refl _)⟩
      | fails => exact Or.inr ⟨rfl, hkept (Option.some.inj h ▸ rfl) (List.Sublist.refl _)⟩
      | due order =>
        obtain ⟨-, h⟩ := Option.ite_none_right_eq_some.1 h
        obtain rfl := Option.some.inj h
        obtain ⟨fresh, hruns, hfresh, hlength⟩ := runs_foldl_dispatch s now order
        exact Or.inr ⟨rfl, _, fresh, hruns, List.Sublist.refl _, hfresh,
          Or.inr ⟨Bool.eq_false_of_not_eq_true hpaused, hlength⟩⟩
  | finish k saved =>
    obtain ⟨run, hk, h⟩ := Option.bind_eq_some_iff.1 h
    obtain ⟨sys, hsys, rfl⟩ := Option.map_eq_some_iff.1 h
    exact Or.inr ⟨rfl, hkept (runs_of_endRun hsys) (List.eraseIdx_sublist _ _)⟩
  | panic k =>
    obtain ⟨run, hk, rfl⟩ := Option.map_eq_some_iff.1 h
    exact Or.inr ⟨rfl, hkept rfl (List.eraseIdx_sublist _ _)⟩

end Scheduler

namespace TimedScheduler

variable {l : SchedulerLabel} {scheduler : Scheduler}

/-- The invariant of a considerate run: each crawl keeps to its pace, and no two are on one host. -/
structure Apart (X : Crates) (maxDomains : ℕ) (s : TimedScheduler) : Prop where
  single : s.scheduler.SingleFlight
  few : s.runs.length ≤ maxDomains
  past : ∀ r ∈ s.times.requests, r.sentAt ≤ s.times.clock
  polite : s.times.Polite
  paces : ∀ run ∈ s.runs, Paces X s.times run
  apart : ∀ run ∈ s.runs, ∀ run' ∈ s.runs, run.ctx.crawlTargetId ≠ run'.ctx.crawlTargetId →
    ∀ host ∈ run.hosts X, host ∉ run'.hosts X

theorem apart_start (db : Database) (index : List Document) :
    (start db index).Apart X maxDomains where
  single := ⟨List.nodup_nil, fun _ ↦ Iff.rfl⟩
  few := Nat.zero_le _
  past _ h := nomatch h
  polite := List.Pairwise.nil
  paces _ h := nomatch h
  apart _ h := nomatch h

theorem noted_of_crawled {k : ℕ} {cl : CrawlLabel} (hl : l.crawled = some (k, cl))
    (hk : scheduler.sys.runs[k]? = some run') : s.noted l scheduler = s.times.note run' := by
  rw [noted, hl, Option.bind_some, hk]

theorem noted_of_not_crawled (hl : l.crawled = none) : s.noted l scheduler = s.times := by
  rw [noted, hl, Option.bind_none]

/-- The crawls after one has moved: that one, and those of the other targets. -/
theorem mem_runs_set {k : ℕ} (hs : s.scheduler.SingleFlight) (hk : s.runs[k]? = some run)
    {other : CrawlRun} (h : other ∈ s.runs.set k run') :
    other = run' ∨ other ∈ s.runs ∧ other.ctx.crawlTargetId ≠ run.ctx.crawlTargetId := by
  obtain ⟨j, hj⟩ := List.mem_iff_getElem?.1 h
  have hlt : k < s.scheduler.live.length := by
    rw [Scheduler.live, List.length_map]
    exact (List.getElem?_eq_some_iff.1 hk).1
  by_cases hkj : k = j
  · subst hkj
    rw [List.getElem?_set_self (List.getElem?_eq_some_iff.1 hk).1] at hj
    exact Or.inl (Option.some.inj hj).symm
  · rw [List.getElem?_set_ne hkj] at hj
    refine Or.inr ⟨List.mem_of_getElem? hj, fun hid ↦ hkj ?_⟩
    refine (List.getElem?_inj hlt hs.once).1 ?_
    have hlive : ∀ {i : ℕ} {r : CrawlRun}, s.runs[i]? = some r →
        s.scheduler.live[i]? = some r.ctx.crawlTargetId := fun {i r} hi ↦ by
      rw [Scheduler.live, List.getElem?_map]
      exact congrArg _ hi
    rw [hlive hk, hlive hj, hid]

/-- **A crawl moves considerately**, and the crawls stay apart. -/
theorem Apart.crawled (hI : s.Apart X maxDomains) {k : ℕ} {cl : CrawlLabel}
    (hawake : cl.isNext = true → s.times.Wakes run) (hcl : s.CrawlsConsiderately X run cl)
    (hk : s.runs[k]? = some run) (hrun : run.step X s.scheduler.sys.engine cl = some (e', run'))
    (hruns : scheduler.sys.runs = s.runs.set k run') (hsingle : scheduler.SingleFlight) :
    Apart X maxDomains ⟨scheduler, s.times.note run'⟩ := by
  have hmem : run ∈ s.runs := List.mem_of_getElem? hk
  have hpaces := hI.paces run hmem
  have hid : run'.ctx = run.ctx := (CrawlRun.const_of_step hrun).1
  have hothers : ∀ other ∈ scheduler.sys.runs, other = run' ∨
      other ∈ s.runs ∧ other.ctx.crawlTargetId ≠ run.ctx.crawlTargetId := by
    rw [hruns]
    exact fun other h ↦ mem_runs_set hI.single hk h
  have hapart : ∀ other ∈ s.runs, other.ctx.crawlTargetId ≠ run.ctx.crawlTargetId →
      ∀ host ∈ run'.hosts X, host ∉ other.hosts X := by
    intro other hother hne host hhost
    rcases CrawlRun.hosts_step hcl hrun host hhost with hold | hfree
    · exact hI.apart run hmem other hother hne.symm host hold
    · exact hfree.1 other hother hne
  have hrequested : ∀ target, run'.requested = some target →
      (∀ other ∈ s.runs, other.ctx.crawlTargetId ≠ run.ctx.crawlTargetId →
        target.host ∉ other.hosts X) ∧
      ∀ r ∈ s.times.requests, r.host = target.host →
        r.sentAt + run'.config.politenessDelay ≤ s.times.clock := by
    intro target htarget
    obtain ⟨htaken | hfree, hrested⟩ := hpaces.requested_step hI.past hawake hcl hrun htarget
    · exact ⟨fun other hother hne ↦ hapart other hother hne _ htaken, hrested⟩
    · exact ⟨hfree.1, hrested⟩
  refine ⟨hsingle, ?_, ?_, ?_, ?_, ?_⟩
  · show scheduler.sys.runs.length ≤ maxDomains
    rw [hruns, List.length_set]
    exact hI.few
  · intro r hr
    rcases List.mem_append.1 hr with hr | hr
    · exact hI.past r hr
    · obtain ⟨target, -, rfl⟩ := Option.map_eq_some_iff.1 (Option.mem_toList.1 hr)
      exact le_refl _
  · refine List.pairwise_append.2 ⟨hI.polite, ?_, fun r hr r' hr' hhost ↦ ?_⟩
    · cases run'.requested with
      | none => exact List.Pairwise.nil
      | some target => exact List.pairwise_singleton _ _
    · obtain ⟨target, htarget, rfl⟩ := Option.map_eq_some_iff.1 (Option.mem_toList.1 hr')
      exact (hrequested target htarget).2 r hr hhost
  · intro other hother
    rcases hothers other hother with rfl | ⟨hother, hne⟩
    · exact hpaces.step hI.past hawake hcl hrun
    · exact (hI.paces other hother).note (hid ▸ hne) fun target htarget ↦
        (hrequested target htarget).1 other hother hne
  · intro one hone two htwo hne host hhost hhost'
    rcases hothers one hone with rfl | ⟨hone, hone'⟩
    · rcases hothers two htwo with rfl | ⟨htwo, htwo'⟩
      · exact hne rfl
      · exact hapart two htwo htwo' host hhost hhost'
    · rcases hothers two htwo with htwo | ⟨htwo, htwo'⟩
      · exact hapart one hone hone' host (htwo ▸ hhost') hhost
      · exact hI.apart one hone two htwo hne host hhost hhost'

/-- **The scheduler moves considerately**, and the crawls stay apart. -/
theorem Apart.act (hI : s.Apart X maxDomains) (hl : s.Considerate X maxDomains (.act l))
    (hmay : s.MayAct l) (h : s.scheduler.step X fetcher config l = some scheduler) :
    Apart X maxDomains ⟨scheduler, s.noted l scheduler⟩ := by
  have hsingle : scheduler.SingleFlight := hI.single.step h
  obtain ⟨k, cl, run, run', e, hcrawled, hk, hrun, hruns⟩ |
    ⟨hcrawled, kept, fresh, hruns, hkept, hfresh, hfew⟩ := Scheduler.runs_of_step h
  · have hmoved : scheduler.sys.runs[k]? = some run' := by
      rw [hruns, List.getElem?_set_self (List.getElem?_eq_some_iff.1 hk).1]
    rw [noted_of_crawled hcrawled hmoved]
    exact hI.crawled (fun hnext ↦ hmay _ hcrawled hnext run hk) (hl.2 _ hcrawled run hk) hk hrun
      hruns hsingle
  · rw [noted_of_not_crawled hcrawled]
    have hmem : ∀ run ∈ scheduler.sys.runs,
        run ∈ s.runs ∨ ∃ ctx config now, run = .start X fetcher ctx config now := by
      intro run hrun
      rw [hruns, List.mem_append] at hrun
      exact hrun.imp (fun h ↦ hkept.subset h) (hfresh run)
    refine ⟨hsingle, ?_, hI.past, hI.polite, ?_, ?_⟩
    · show scheduler.sys.runs.length ≤ maxDomains
      have hlength : kept.length ≤ s.runs.length := hkept.length_le
      rw [hruns, List.length_append]
      obtain rfl | ⟨hpaused, hfresh⟩ := hfew
      · exact hlength.trans hI.few
      · by_cases hdispatched : l.dispatched = []
        · rw [hdispatched] at hfresh
          have hnone : fresh.length ≤ 0 := hfresh
          have hold : s.runs.length ≤ maxDomains := hI.few
          omega
        · have hmax := hl.1 hpaused hdispatched
          omega
    · intro run hrun
      obtain hold | ⟨ctx, config, now, rfl⟩ := hmem run hrun
      · exact hI.paces run hold
      · exact paces_start _ ctx now
    · intro one hone two htwo hne host hhost hhost'
      obtain hone | ⟨_, _, _, rfl⟩ := hmem one hone
      · obtain htwo | ⟨_, _, _, rfl⟩ := hmem two htwo
        · exact hI.apart one hone two htwo hne host hhost hhost'
        · cases hhost'
      · cases hhost

theorem Apart.step {l : TimedLabel} (hI : s.Apart X maxDomains) (hl : s.Considerate X maxDomains l)
    (h : (timedMachine X fetcher config).step s l = some s') : s'.Apart X maxDomains := by
  cases l with
  | elapse d =>
    obtain rfl := Option.some.inj h
    exact ⟨hI.single, hI.few, fun r hr ↦ (hI.past r hr).trans (Nat.le_add_right _ _), hI.polite,
      fun run hrun ↦ (hI.paces run hrun).elapse d, hI.apart⟩
  | act l =>
    obtain ⟨hmay, h⟩ := Option.ite_none_right_eq_some.1 h
    obtain ⟨scheduler, hstep, rfl⟩ := Option.map_eq_some_iff.1 h
    exact hI.act hl hmay hstep

/-- **The runs that are polite**: if every step is considerate, between two page requests to one
host at least the configured delay elapses, and the hosts being crawled are never more than the
configured domains. -/
theorem polite_of_guarded {db : Database} {index : List Document} {labels : List TimedLabel}
    (hok : (timedMachine X fetcher config).Guarded (Considerate X maxDomains) (start db index)
      labels)
    (h : (timedMachine X fetcher config).run (start db index) labels = some s) :
    s.times.Polite ∧ (s.crawledHosts X).dedup.length ≤ maxDomains := by
  have hI : s.Apart X maxDomains :=
    Machine.guarded_invariant (fun _ _ _ hI hok hstep ↦ hI.step hok hstep) (apart_start db index)
      hok h
  refine ⟨hI.polite, (List.dedup_sublist _).length_le.trans ?_⟩
  exact (List.length_filterMap_le _ _).trans hI.few

/-- One crawl of two pages, which sleeps between them. -/
def patient : List TimedLabel :=
  [.act (.tick 1000 (.due [⟨⟨1⟩, ⟨0⟩, "guide", "https://guide.example/", 3600, none⟩]))] ++
    (plainPrelude none false ++ TwoPages.served TwoPages.startBody).map
      (fun l ↦ .act (.sys (.crawl 0 l))) ++
    [.elapse 1000] ++
    (CrawlLabel.next :: TwoPages.served TwoPages.moreBody).map fun l ↦ .act (.sys (.crawl 0 l))

theorem polite_patient :
    ∃ s, (timedMachine TwoPages.crates ⟨"search-bot"⟩ ⟨1000, 100⟩).run (.start TwoPages.db [])
        patient = some s ∧
      s.times.requests.map PageRequest.sentAt = [0, 1000] ∧
      s.times.Polite ∧ (s.crawledHosts TwoPages.crates).dedup.length ≤ 1 := by
  have hok : (timedMachine TwoPages.crates ⟨"search-bot"⟩ ⟨1000, 100⟩).Guarded
      (Considerate TwoPages.crates 1) (.start TwoPages.db []) patient := by decide +kernel
  have hany : ((timedMachine TwoPages.crates ⟨"search-bot"⟩ ⟨1000, 100⟩).run (.start TwoPages.db [])
      patient).any (fun s ↦ s.times.requests.map PageRequest.sentAt = [0, 1000]) = true := by
    decide +kernel
  obtain ⟨s, hs, hsent⟩ := Machine.exists_run_of_any hany
  exact ⟨s, hs, of_decide_eq_true hsent, polite_of_guarded hok hs⟩

end TimedScheduler

/-! ### Two targets on one host -/

namespace SharedHost

def url (host path : String) : Url := ⟨"https", "", none, some host, none, path, none, none⟩

def crates : Crates := .ofTables
  { urls := ["/", "/sitemap.xml"].flatMap fun path ↦
      [("https://guide.example" ++ path, url "guide.example" path),
        ("https://other.example" ++ path, url "other.example" path)]
    joins := []
    documents := []
    disallowed := []
    digests := [] }

/-- Two collections that list the same page, and one of them another host. -/
def db : Database :=
  (do
    let (db, _) ← Database.empty.createItem "guide" "" "t0"
    let (db, _) ← db.createItem "mirror" "" "t0"
    let (db, _) ← db.addTarget 1 "https://guide.example/" 3600 "t1"
    let (db, _) ← db.addTarget 2 "https://guide.example/" 3600 "t1"
    let (db, _) ← db.addTarget 2 "https://other.example/" 3600 "t1"
    return db).getD .empty

/-- A tick starts the three crawls, and each comes to its first request. -/
def labels : List TimedLabel :=
  (.tick 1000 (.due (db.listDueTargets 1000)) ::
    ([(0, false), (1, true), (2, false)].flatMap fun (k, loaded) ↦
      (plainPrelude none loaded ++ pageUpToFetch).map fun l ↦
        SchedulerLabel.sys (.crawl k l))).map .act

/-- **The crawls do not know of each other**: one host is sent two page requests at once, and pages
of two hosts are crawled where the configuration allows one. -/
theorem not_polite :
    ∃ s, (timedMachine crates ⟨"search-bot"⟩ ⟨1000, 100⟩).run (.start db []) labels = some s ∧
      ¬ s.times.Polite ∧ ¬ (s.crawledHosts crates).dedup.length ≤ 1 := by
  have hany : ((timedMachine crates ⟨"search-bot"⟩ ⟨1000, 100⟩).run (.start db []) labels).any
      (fun s ↦ ¬ s.times.Polite ∧ ¬ (s.crawledHosts crates).dedup.length ≤ 1) = true := by
    decide +kernel
  obtain ⟨s, hs, hnot⟩ := Machine.exists_run_of_any hany
  exact ⟨s, hs, of_decide_eq_true hnot⟩

end SharedHost

end CommunitySearch
