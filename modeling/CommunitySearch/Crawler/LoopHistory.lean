import CommunitySearch.Crawler.PageSpec

/-!
# The loop of a run, as its log shows it

An observer of `crawl_target` logs when a page is taken, what it came to, how long the run sleeps,
and when it gives up (`noteLoop`). `LoopStep` says once which phases a step of a run connects and
what it shows; it knows nothing of the operations in between, so what follows from it
(`loop_invariant`) holds whatever the servers answer and the other tasks do.
-/

namespace CommunitySearch

/-- What the loop of a run shows. -/
inductive LoopEvent where
  /-- `crawl_page` is called. -/
  | called (url : String)
  /-- `crawl_page` returns. -/
  | returned (url : String) (r : CrawlResult PageResult)
  | slept (dur : Duration)
  /-- The run gives up. -/
  | aborted
deriving DecidableEq

/-- What a run shows when it moves on. -/
def CrawlRun.shown (run : CrawlRun) : List LoopEvent :=
  match run.phase with
  | .looping d =>
    if d.stats.pagesFetched < run.config.maxPagesPerRun then
      d.frontier.queue.head?.toList.map .called
    else []
  | .crawling d url (.ret r) _ =>
    match feed run.config d url r with
    -- a result ends the run only as the fifth 429
    | .ended _ => [.returned url r, .aborted]
    | _ => [.returned url r]
  | .sleeping _ dur => [.slept dur]
  | _ => []

/-- The observer of a run. -/
def noteLoop (log : List LoopEvent) (s : Engine × CrawlRun) : RunLabel → List LoopEvent
  | .crawl .next => log ++ s.2.shown
  | _ => log

namespace LoopEvent

def call? : LoopEvent → Option String
  | called url => some url
  | _ => none

def outcome? : LoopEvent → Option (String × CrawlResult PageResult)
  | returned url r => some (url, r)
  | _ => none

/-- The URLs passed to `crawl_page`, in order. -/
def calls (log : List LoopEvent) : List String := log.filterMap call?

/-- What `crawl_page` returned for each URL, in order. -/
def outcomes (log : List LoopEvent) : List (String × CrawlResult PageResult) :=
  log.filterMap outcome?

@[simp] theorem calls_append (log log' : List LoopEvent) :
    calls (log ++ log') = calls log ++ calls log' :=
  List.filterMap_append ..

@[simp] theorem outcomes_append (log log' : List LoopEvent) :
    outcomes (log ++ log') = outcomes log ++ outcomes log' :=
  List.filterMap_append ..

end LoopEvent

open LoopEvent

/-- `crawl_page` was answered with 429. -/
def RateLimited (r : CrawlResult PageResult) : Prop :=
  ∃ retryAfter, r = .error (.rateLimited retryAfter)

/-- The loop after a page that succeeded. -/
def DriverState.succeed (d : DriverState) (page : PageResult) : DriverState :=
  { d with
    consecutive429s := 0
    stats := d.stats.count page
    frontier := d.frontier.pushAll page.inPrefixLinks }

/-- The loop after a page that failed, other than by a 429. -/
def DriverState.fail (d : DriverState) : DriverState :=
  { d with stats := { d.stats with pagesErrored := d.stats.pagesErrored + 1 } }

/-- The loop after one more 429. -/
def DriverState.limit (d : DriverState) : DriverState :=
  { d with consecutive429s := d.consecutive429s + 1 }

/-- **The steps of the loop** under a configuration, and what they show. -/
inductive LoopStep (config : DriverConfig) : Phase → List LoopEvent → Phase → Prop
  | prelude {o k r} : LoopStep config (.starting (.op o k)) [] (.starting (k r))
  | enter {d} : LoopStep config (.starting (.ret (.ok d))) [] (.looping d)
  | fail {err} : LoopStep config (.starting (.ret (.error err))) [] (.failed err)
  | take {d url queue p} : d.frontier.queue = url :: queue →
      d.stats.pagesFetched < config.maxPagesPerRun →
      LoopStep config (.looping d) [called url]
        (.crawling { d with frontier := { d.frontier with queue := queue } } url p [])
  | finish {d} : d.frontier.queue = [] ∨ config.maxPagesPerRun ≤ d.stats.pagesFetched →
      LoopStep config (.looping d) [] (.ended d)
  | page {d url o k r events events'} :
      LoopStep config (.crawling d url (.op o k) events) [] (.crawling d url (k r) events')
  | succeed {d url page events} :
      LoopStep config (.crawling d url (.ret (.ok page)) events) [returned url (.ok page)]
        (rest config (d.succeed page))
  | retry {d url retryAfter events} : d.consecutive429s + 1 < 5 →
      LoopStep config (.crawling d url (.ret (.error (.rateLimited retryAfter))) events)
        [returned url (.error (.rateLimited retryAfter))]
        (.sleeping (d.limit.pushFront url) (sleepDur retryAfter (d.consecutive429s + 1)))
  | abort {d url retryAfter events} : 5 ≤ d.consecutive429s + 1 →
      LoopStep config (.crawling d url (.ret (.error (.rateLimited retryAfter))) events)
        [returned url (.error (.rateLimited retryAfter)), aborted] (.ended d.limit)
  | skip {d url err events} : ¬ RateLimited (.error err) →
      LoopStep config (.crawling d url (.ret (.error err)) events) [returned url (.error err)]
        (rest config d.fail)
  | wake {d dur} : LoopStep config (.sleeping d dur) [slept dur] (.looping d)

variable {X : Crates} {e e' : Engine} {run run' : CrawlRun}

/-- The rest between two pages, or the end of the loop. -/
theorem rest_cases (config : DriverConfig) (d : DriverState) :
    (d.frontier.queue = [] ∨ config.maxPagesPerRun ≤ d.stats.pagesFetched) ∧
        rest config d = .looping d ∨
      rest config d = .sleeping d d.effectiveDelay := by
  rw [rest]
  split
  case isTrue => exact Or.inr rfl
  case isFalse h =>
    refine Or.inl ⟨?_, rfl⟩
    by_cases hq : d.frontier.queue = []
    · exact Or.inl hq
    · exact Or.inr (Nat.not_lt.1 fun hlt ↦ h ⟨hq, hlt⟩)

theorem rest_ne_ended {config : DriverConfig} {d d' : DriverState} : rest config d ≠ .ended d' := by
  intro h
  obtain ⟨-, hrest⟩ | hrest := rest_cases config d
  all_goals cases hrest.symm.trans h

/-- What a page that has returned shows, if the loop goes on. -/
theorem shown_of_rest {d d₁ : DriverState} {url : String} {r : CrawlResult PageResult}
    {events : List CrawlEvent} (hp : run.phase = .crawling d url (.ret r) events)
    (h : feed run.config d url r = rest run.config d₁) : run.shown = [returned url r] := by
  simp only [CrawlRun.shown, hp, h]
  split
  case h_1 hended => exact absurd hended rest_ne_ended
  case h_2 => rfl

/-- The result of a page is fed back. -/
theorem loopStep_feed {d : DriverState} {url : String} {r : CrawlResult PageResult}
    {events : List CrawlEvent} (hp : run.phase = .crawling d url (.ret r) events) :
    LoopStep run.config run.phase run.shown (feed run.config d url r) := by
  rw [hp]
  cases r with
  | ok page =>
    have hfeed : feed run.config d url (.ok page) = rest run.config (d.succeed page) := rfl
    rw [shown_of_rest hp hfeed, hfeed]
    exact .succeed
  | error err =>
    by_cases hlimited : RateLimited (.error err)
    · obtain ⟨retryAfter, herr⟩ := hlimited
      obtain rfl := Except.error.inj herr
      by_cases h5 : 5 ≤ d.consecutive429s + 1
      · have hfeed : feed run.config d url (.error (.rateLimited retryAfter)) = .ended d.limit :=
          if_pos h5
        have hshown : run.shown = [returned url (.error (.rateLimited retryAfter)), aborted] := by
          simp only [CrawlRun.shown, hp, hfeed]
        rw [hshown, hfeed]
        exact .abort h5
      · have hfeed : feed run.config d url (.error (.rateLimited retryAfter)) =
            .sleeping (d.limit.pushFront url) (sleepDur retryAfter (d.consecutive429s + 1)) :=
          if_neg h5
        have hshown : run.shown = [returned url (.error (.rateLimited retryAfter))] := by
          simp only [CrawlRun.shown, hp, hfeed]
        rw [hshown, hfeed]
        exact .retry (Nat.lt_of_not_ge h5)
    · -- the counter of 429s is not reset here
      have hfeed : feed run.config d url (.error err) = rest run.config d.fail := by
        cases err with
        | rateLimited retryAfter => exact absurd ⟨retryAfter, rfl⟩ hlimited
        | _ => rfl
      rw [shown_of_rest hp hfeed, hfeed]
      exact .skip hlimited

/-- A run moves on by a step of the loop. -/
theorem loopStep_of_next (h : run.next X = some run') :
    LoopStep run.config run.phase run.shown run'.phase := by
  rw [CrawlRun.next] at h
  split at h
  case h_1 d hp =>
    rw [← Option.some.inj h, CrawlRun.shown, hp]
    exact .enter
  case h_2 err hp =>
    rw [← Option.some.inj h, CrawlRun.shown, hp]
    exact .fail
  case h_3 d hp =>
    rw [CrawlRun.shown, hp]
    dsimp only
    split at h
    case h_1 hq =>
      rw [← Option.some.inj h, hq]
      show LoopStep _ _ (if _ then [] else []) _
      rw [ite_self]
      exact .finish (Or.inl hq)
    case h_2 url queue hq =>
      split at h
      case isTrue hmax =>
        rw [← Option.some.inj h, hq, if_pos hmax]
        exact .take hq hmax
      case isFalse hmax =>
        rw [← Option.some.inj h, if_neg hmax]
        exact .finish (Or.inr (Nat.not_lt.1 hmax))
  case h_4 d url r events hp =>
    rw [← Option.some.inj h]
    exact loopStep_feed hp
  case h_5 d dur hp =>
    rw [← Option.some.inj h, CrawlRun.shown, hp]
    exact .wake
  case h_6 => cases h

/-- **Every step of a run is a step of its loop**, and the observer notes what it shows. -/
theorem loopStep_of_step {l : CrawlLabel} (h : run.step X e l = some (e', run')) :
    ∃ shown, LoopStep run.config run.phase shown run'.phase ∧
      ∀ log, noteLoop log (e, run) (.crawl l) = log ++ shown := by
  obtain ⟨o, k, a, r, hp, rfl, -, rfl⟩ | ⟨d, url, o, k, events, a, r, hp, rfl, -, rfl⟩ |
    ⟨rfl, -, hn⟩ := CrawlRun.step_cases h
  · refine ⟨[], ?_, fun log ↦ (List.append_nil log).symm⟩
    rw [hp]
    exact .prelude
  · refine ⟨[], ?_, fun log ↦ (List.append_nil log).symm⟩
    rw [hp]
    exact .page
  · exact ⟨run.shown, loopStep_of_next hn, fun _ ↦ rfl⟩

/-- The loop before its first page. -/
structure DriverState.Fresh (d : DriverState) : Prop where
  fetched : d.stats.pagesFetched = 0
  limited : d.consecutive429s = 0
  queued : ∃ urls, d.frontier = Worklist.empty.pushAll urls

/-- The loop starts afresh, whatever the prelude is answered. -/
theorem returns_prelude_fresh (fetcher : Fetcher) (ctx : PageContext) (config : DriverConfig)
    (seedUrl : String) :
    Prog.Returns (fun _ _ ↦ True) (fun r ↦ ∀ d, r = .ok d → d.Fresh)
      (prelude X fetcher ctx config seedUrl) := by
  unfold prelude
  split
  case h_1 =>
    intro d hd
    cases hd
  case h_2 seed _ =>
    refine Prog.returns_bind.2 (Prog.returns_of_forall _ fun delay ↦ ?_)
    refine Prog.returns_bind.2 (Prog.returns_of_forall _ fun seeds ↦ ?_)
    intro d hd
    obtain rfl := Except.ok.inj hd
    exact ⟨rfl, rfl, seed :: seeds, rfl⟩

/-- **The run principle for loops**: what holds of the prelude and no log, and is kept by every step
of the loop, holds of every run and its log. -/
theorem loop_invariant {fetcher : Fetcher} {ctx : PageContext} {config : DriverConfig} {now : Int}
    {I : Phase → List LoopEvent → Prop}
    (hstart : I (.starting (prelude X fetcher ctx config ctx.urlPrefix)) [])
    (hstep : ∀ p log shown p', I p log → LoopStep config p shown p' → I p' (log ++ shown))
    {labels : List RunLabel} {s : Engine × CrawlRun}
    (hrun : (crawlMachine X).run (e, CrawlRun.start X fetcher ctx config now) labels = some s) :
    I s.2.phase ((crawlMachine X).observe noteLoop []
      (e, CrawlRun.start X fetcher ctx config now) labels) := by
  refine (Machine.observed_invariant (f := noteLoop)
    (I := fun s log ↦ s.2.config = config ∧ I s.2.phase log) ?_ ⟨rfl, hstart⟩
    (Machine.guarded_true _ labels) hrun).2
  rintro ⟨e, run⟩ log l ⟨e', run'⟩ ⟨rfl, hI⟩ - h
  cases l with
  | other e₁ =>
    obtain ⟨-, rfl⟩ := Prod.mk.inj (Option.some.inj h)
    exact ⟨rfl, hI⟩
  | crawl l =>
    obtain ⟨shown, hloop, hnote⟩ := loopStep_of_step h
    rw [hnote]
    exact ⟨(CrawlRun.const_of_step h).2.2.1, hstep _ _ _ _ hI hloop⟩

end CommunitySearch
