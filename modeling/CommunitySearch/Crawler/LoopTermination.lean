import CommunitySearch.Crawler.LoopHistory
import CommunitySearch.Crawler.RecrawlCoverage

/-!
# A run ends, and takes each page once

Every page that succeeds uses up budget, every 429 a retry, and every other failure a URL of the
queue, which only successes fill. So no run goes on for ever, on a site of any size
(`wellFounded_step`): the measure of the loop is lexicographic, in that order.

A URL is taken twice only if it was answered with 429 in between and at once put back:
`OnceButRetries` says so of the calls of a run.
-/

namespace CommunitySearch

open Prog
open LoopEvent

variable {X : Crates} {config : DriverConfig}

/-! ### The end of a run -/

/-- `p'` comes after `p`. -/
def LoopStep.After (config : DriverConfig) (p' p : Phase) : Prop :=
  ∃ shown, LoopStep config p shown p'

namespace LoopStep

theorem acc_ended (d : DriverState) : Acc (After config) (.ended d) := by
  refine ⟨_, fun p' h ↦ ?_⟩
  obtain ⟨_, h⟩ := h
  cases h

theorem acc_failed (err : CrawlError) : Acc (After config) (.failed err) := by
  refine ⟨_, fun p' h ↦ ?_⟩
  obtain ⟨_, h⟩ := h
  cases h

theorem acc_sleeping {d : DriverState} (h : Acc (After config) (.looping d)) (dur : Duration) :
    Acc (After config) (.sleeping d dur) := by
  refine ⟨_, fun p' hp ↦ ?_⟩
  obtain ⟨_, hp⟩ := hp
  cases hp
  exact h

theorem acc_rest {d : DriverState} (h : Acc (After config) (.looping d)) :
    Acc (After config) (rest config d) := by
  obtain ⟨-, hrest⟩ | hrest := rest_cases config d
  · rw [hrest]
    exact h
  · rw [hrest]
    exact acc_sleeping h _

/-- A page comes to an end, if the loop does after it. -/
theorem acc_crawling {d : DriverState} {url : String}
    (hsucceed : ∀ page, Acc (After config) (.looping (d.succeed page)))
    (hretry : d.consecutive429s + 1 < 5 → Acc (After config) (.looping (d.limit.pushFront url)))
    (hskip : Acc (After config) (.looping d.fail)) (p : Crawl (CrawlResult PageResult))
    (events : List CrawlEvent) : Acc (After config) (.crawling d url p events) := by
  induction p generalizing events with
  | ret r =>
    refine ⟨_, fun p' h ↦ ?_⟩
    obtain ⟨_, h⟩ := h
    cases h with
    | succeed => exact acc_rest (hsucceed _)
    | retry h5 => exact acc_sleeping (hretry h5) _
    | abort => exact acc_ended _
    | skip => exact acc_rest hskip
  | op o k ih =>
    refine ⟨_, fun p' h ↦ ?_⟩
    obtain ⟨_, h⟩ := h
    cases h
    exact ih _ _

/-- **The loop ends**: by the budget, then by the retries left, then by the queue. -/
theorem acc_looping (config : DriverConfig) (d : DriverState) :
    Acc (After config) (.looping d) := by
  refine ⟨_, fun p' h ↦ ?_⟩
  obtain ⟨_, h⟩ := h
  cases h with
  | finish => exact acc_ended _
  | take hq hmax =>
    exact acc_crawling (fun page ↦ acc_looping config _) (fun h5 ↦ acc_looping config _)
      (acc_looping config _) _ _
termination_by (config.maxPagesPerRun - d.stats.pagesFetched, 5 - d.consecutive429s,
  d.frontier.queue.length)
decreasing_by
  · -- a success uses up budget
    refine Prod.Lex.left _ _ ?_
    show config.maxPagesPerRun - (d.stats.pagesFetched + 1) < _
    omega
  · -- a 429 uses up a retry
    refine Prod.Lex.right _ (Prod.Lex.left _ _ ?_)
    show 5 - (d.consecutive429s + 1) < _
    simp only at h5
    omega
  · -- any other failure uses up the URL
    refine Prod.Lex.right _ (Prod.Lex.right _ ?_)
    rw [hq]
    exact Nat.lt_succ_self _

theorem acc_starting (p : Crawl (CrawlResult DriverState)) :
    Acc (After config) (.starting p) := by
  induction p with
  | ret r =>
    refine ⟨_, fun p' h ↦ ?_⟩
    obtain ⟨_, h⟩ := h
    cases h with
    | enter => exact acc_looping config _
    | fail => exact acc_failed _
  | op o k ih =>
    refine ⟨_, fun p' h ↦ ?_⟩
    obtain ⟨_, h⟩ := h
    cases h
    exact ih _

/-- **No loop goes on for ever.** -/
theorem wellFounded_after (config : DriverConfig) : WellFounded (After config) := by
  refine ⟨fun p ↦ ?_⟩
  cases p with
  | starting p => exact acc_starting p
  | looping d => exact acc_looping config d
  | crawling d url p events =>
    exact acc_crawling (fun _ ↦ acc_looping config _) (fun _ ↦ acc_looping config _)
      (acc_looping config _) p events
  | sleeping d dur => exact acc_sleeping (acc_looping config d) dur
  | ended d => exact acc_ended d
  | failed err => exact acc_failed err

end LoopStep

/-- **No run goes on for ever**, whatever its steps are answered. -/
theorem CrawlRun.wellFounded_step (X : Crates) :
    WellFounded fun run' run : CrawlRun ↦ ∃ e e' l, run.step X e l = some (e', run') := by
  have hacc : ∀ (config : DriverConfig) (p : Phase), ∀ run : CrawlRun, run.config = config →
      run.phase = p → Acc (fun run' run : CrawlRun ↦ ∃ e e' l, run.step X e l = some (e', run'))
        run := by
    intro config p
    induction p using (LoopStep.wellFounded_after config).induction with
    | _ p ih =>
      intro run hconfig hphase
      refine ⟨_, fun run' h ↦ ?_⟩
      obtain ⟨e, e', l, h⟩ := h
      obtain ⟨shown, hloop, -⟩ := loopStep_of_step h
      rw [hconfig, hphase] at hloop
      exact ih run'.phase ⟨shown, hloop⟩ run' ((const_of_step h).2.2.1.trans hconfig) rfl
  exact ⟨fun run ↦ hacc run.config run.phase run rfl rfl⟩

/-- The run waits for the indexer to take a job from the full channel. -/
def CrawlRun.WaitsForIndexer (e : Engine) (run : CrawlRun) : Prop :=
  run.sending.isSome = true ∧ e.indexer.isSome = true ∧ CHANNEL_CAPACITY ≤ e.upsertQueue.length

/-- An operation can be answered, unless it is a send on a full channel. -/
theorem Engine.exists_perform (e : Engine) (o : CrawlOp) :
    (∃ a r, e.perform o a = some r) ∨
      ∃ job, o = .send job ∧ e.indexer.isSome = true ∧ CHANNEL_CAPACITY ≤ e.upsertQueue.length := by
  cases o with
  | request kind target spelled v => exact Or.inl ⟨.http .failed, _, rfl⟩
  | robotsTxt url => exact Or.inl ⟨.robots none, _, rfl⟩
  | intoIter found => exact Or.inl ⟨.order found, _, if_pos (List.Perm.refl found)⟩
  | upsert row => exact Or.inl ⟨.sqlError, _, rfl⟩
  | recordHit => exact Or.inl ⟨.sqlError, _, rfl⟩
  | send job =>
    rcases hix : e.indexer with - | ix
    · refine Or.inl ⟨.ok, (false, e), ?_⟩
      simp only [perform, hix]
    · by_cases hfull : e.upsertQueue.length < CHANNEL_CAPACITY
      · refine Or.inl ⟨.ok, (true, { e with upsertQueue := e.upsertQueue ++ [job] }), ?_⟩
        simp only [perform, hix, if_pos hfull]
      · exact Or.inr ⟨job, rfl, rfl, Nat.not_lt.1 hfull⟩
  | _ => exact Or.inl ⟨.ok, _, rfl⟩

/-- **A run is never stuck**: until it is over it can move, or waits for the indexer. -/
theorem CrawlRun.exists_step {e : Engine} {run : CrawlRun} (h : run.isOver = false) :
    (∃ l s, run.step X e l = some s) ∨ run.WaitsForIndexer e := by
  have hop : ∀ o, run.nextOp = some o →
      (∀ a r, e.perform o a = some r → ∃ s, run.answer e a = some s) →
      (∃ l s, run.step X e l = some s) ∨ run.WaitsForIndexer e := by
    intro o ho hanswer
    obtain ⟨a, r, hr⟩ | ⟨job, rfl, hix, hfull⟩ := e.exists_perform o
    · obtain ⟨s, hs⟩ := hanswer a r hr
      exact Or.inl ⟨.answer a, s, hs⟩
    · refine Or.inr ⟨?_, hix, hfull⟩
      rw [sending_eq_some.2 ho]
      rfl
  have hnext : ∀ run', run.next X = some run' →
      (∃ l s, run.step X e l = some s) ∨ run.WaitsForIndexer e := by
    intro run' hn
    refine Or.inl ⟨.next, (e, run'), ?_⟩
    show (run.next X).map _ = _
    rw [hn]
    rfl
  rcases hp : run.phase with p | d | ⟨d, url, p, events⟩ | ⟨d, dur⟩ | d | err
  · cases p with
    | ret r =>
      cases r with
      | ok d => exact hnext _ (by rw [next, hp])
      | error err => exact hnext _ (by rw [next, hp])
    | op o k =>
      refine hop o (by rw [nextOp, hp]) fun a r hr ↦ ?_
      rw [answer, hp]
      exact ⟨_, congrArg (Option.map _) hr⟩
  · rcases hq : d.frontier.queue with - | ⟨url, queue⟩
    · exact hnext { run with phase := .ended d } (by simp only [next, hp, hq])
    · by_cases hmax : d.stats.pagesFetched < run.config.maxPagesPerRun
      · exact hnext _ (by simp only [next, hp, hq, if_pos hmax]; rfl)
      · exact hnext { run with phase := .ended d } (by simp only [next, hp, hq, if_neg hmax])
  · cases p with
    | ret r => exact hnext _ (by rw [next, hp])
    | op o k =>
      refine hop o (by rw [nextOp, hp]) fun a r hr ↦ ?_
      rw [answer, hp]
      exact ⟨_, congrArg (Option.map _) hr⟩
  · exact hnext _ (by rw [next, hp])
  · rw [isOver, hp] at h
    cases h
  · rw [isOver, hp] at h
    cases h

/-! ### The calls of a run -/

/-- What `crawl_page` was called with and returned. -/
abbrev Outcomes := List (String × CrawlResult PageResult)

/-- The `k`-th call was made for `url`, and was answered with 429. -/
def LimitedAt (outcomes : Outcomes) (k : ℕ) (url : String) : Prop :=
  ∃ r, RateLimited r ∧ outcomes[k]? = some (url, r)

/-- **Each URL once, but for retries**: between two calls for a URL there are only calls for it that
were answered with 429, at most four of them. -/
def OnceButRetries (calls : List String) (outcomes : Outcomes) : Prop :=
  ∀ i j url, i < j → calls[i]? = some url → calls[j]? = some url →
    j ≤ i + 4 ∧ ∀ k, i ≤ k → k < j → LimitedAt outcomes k url

/-- Since the first call for `url` there are at most `n` calls, all for it and answered with 429. -/
def RetriedBy (n : ℕ) (url : String) (outcomes : Outcomes) : Prop :=
  ∀ i, (outcomes.map Prod.fst)[i]? = some url →
    outcomes.length ≤ i + n ∧ ∀ k, i ≤ k → k < outcomes.length → LimitedAt outcomes k url

section Calls

variable {outcomes : Outcomes} {url : String}

theorem LimitedAt.append {k : ℕ} (h : LimitedAt outcomes k url) (rest : Outcomes) :
    LimitedAt (outcomes ++ rest) k url := by
  obtain ⟨r, hr, hk⟩ := h
  have hlt : k < outcomes.length := (List.getElem?_eq_some_iff.1 hk).1
  exact ⟨r, hr, by rw [List.getElem?_append_left hlt, hk]⟩

/-- One more call, for a URL that may be retried. -/
theorem OnceButRetries.call (h : OnceButRetries (outcomes.map Prod.fst) outcomes)
    (hurl : RetriedBy 4 url outcomes) :
    OnceButRetries (outcomes.map Prod.fst ++ [url]) outcomes := by
  intro i j u hij hi hj
  have hlen : (outcomes.map Prod.fst).length = outcomes.length := List.length_map _
  have hjlt : j < (outcomes.map Prod.fst ++ [url]).length := (List.getElem?_eq_some_iff.1 hj).1
  rw [List.length_append, hlen, List.length_singleton] at hjlt
  rw [List.getElem?_append_left (by omega)] at hi
  by_cases hlast : j = outcomes.length
  · -- the later call is the new one
    rw [List.getElem?_append_right (by omega), hlen, hlast, Nat.sub_self] at hj
    obtain rfl : url = u := Option.some.inj hj
    rw [hlast]
    exact hurl i hi
  · rw [List.getElem?_append_left (by omega)] at hj
    exact h i j u hij hi hj

/-- A call returns. -/
theorem OnceButRetries.return (h : OnceButRetries (outcomes.map Prod.fst ++ [url]) outcomes)
    (r : CrawlResult PageResult) :
    OnceButRetries ((outcomes ++ [(url, r)]).map Prod.fst) (outcomes ++ [(url, r)]) := by
  rw [List.map_append]
  intro i j u hij hi hj
  obtain ⟨hle, hk⟩ := h i j u hij hi hj
  exact ⟨hle, fun k hik hkj ↦ (hk k hik hkj).append _⟩

/-- A URL that has not been called for. -/
theorem retriedBy_of_not_mem (h : url ∉ outcomes.map Prod.fst) (n : ℕ) :
    RetriedBy n url outcomes :=
  fun _ hi ↦ absurd (List.mem_of_getElem? hi) h

/-- A URL that is retried once more. -/
theorem RetriedBy.limit {n : ℕ} (h : RetriedBy n url outcomes) {r : CrawlResult PageResult}
    (hr : RateLimited r) : RetriedBy (n + 1) url (outcomes ++ [(url, r)]) := by
  intro i hi
  have hlen : (outcomes.map Prod.fst).length = outcomes.length := List.length_map _
  have hlast : LimitedAt (outcomes ++ [(url, r)]) outcomes.length url := ⟨r, hr, by simp⟩
  rw [List.length_append, List.length_singleton]
  by_cases hnew : i < outcomes.length
  · rw [List.map_append, List.getElem?_append_left (by omega)] at hi
    obtain ⟨hle, hk⟩ := h i hi
    refine ⟨by omega, fun k hik hlt ↦ ?_⟩
    by_cases hold : k < outcomes.length
    · exact (hk k hik hold).append _
    · obtain rfl : k = outcomes.length := by omega
      exact hlast
  · refine ⟨by omega, fun k hik hlt ↦ ?_⟩
    obtain rfl : k = outcomes.length := by omega
    exact hlast

/-- The worklist of a loop that goes on, and what its calls returned. -/
structure Settled (d : DriverState) (outcomes : Outcomes) : Prop where
  once : OnceButRetries (outcomes.map Prod.fst) outcomes
  limited : d.consecutive429s < 5
  /-- Only the next URL may have been called for. -/
  head : ∀ url queue, d.frontier.queue = url :: queue →
    RetriedBy d.consecutive429s url outcomes ∧ ∀ u ∈ queue, u ∉ outcomes.map Prod.fst
  nodup : d.frontier.queue.Nodup
  queued : ∀ u ∈ d.frontier.queue, u ∈ d.frontier.visited
  called : ∀ u ∈ outcomes.map Prod.fst, u ∈ d.frontier.visited

variable {d : DriverState} {r : CrawlResult PageResult}

theorem DriverState.Fresh.settled (h : d.Fresh) : Settled d [] := by
  obtain ⟨urls, hfrontier⟩ := h.queued
  have hnil : ∀ u ∈ (Worklist.empty : Worklist String).queue, u ∈ Worklist.empty.visited :=
    fun u hu ↦ absurd hu List.not_mem_nil
  refine ⟨fun i j u _ hi ↦ ?_, by rw [h.limited]; omega, fun url queue _ ↦ ?_, ?_, ?_, ?_⟩
  · simp at hi
  · exact ⟨retriedBy_of_not_mem List.not_mem_nil _, fun u _ ↦ List.not_mem_nil⟩
  · rw [hfrontier]
    exact Worklist.nodup_queue_pushAll urls List.nodup_nil hnil
  · rw [hfrontier]
    exact Worklist.Explored.queue_visited_pushAll hnil
  · exact fun u hu ↦ absurd hu List.not_mem_nil

/-- The call for the next URL. -/
theorem Settled.call (h : Settled (d.pushFront url) outcomes) :
    OnceButRetries (outcomes.map Prod.fst ++ [url]) outcomes := by
  have hlimited : d.consecutive429s < 5 := h.limited
  refine h.once.call fun i hi ↦ ?_
  obtain ⟨hle, hk⟩ := (h.head url d.frontier.queue rfl).1 i hi
  have hle : outcomes.length ≤ i + d.consecutive429s := hle
  exact ⟨by omega, hk⟩

/-- **The loop moves on** to other URLs. -/
theorem Settled.moveOn (h : Settled (d.pushFront url) outcomes) (r : CrawlResult PageResult)
    {d' : DriverState} (hlimited : d'.consecutive429s < 5) (hnodup : d'.frontier.queue.Nodup)
    (hqueued : ∀ u ∈ d'.frontier.queue, u ∈ d'.frontier.visited)
    (hvisited : ∀ u ∈ d.frontier.visited, u ∈ d'.frontier.visited)
    (hnew : ∀ u ∈ d'.frontier.queue, u ∈ d.frontier.queue ∨ u ∉ d.frontier.visited) :
    Settled d' (outcomes ++ [(url, r)]) := by
  have hurl : url ∈ d.frontier.visited := h.queued url List.mem_cons_self
  -- what was queued has not been called for, and what is new has not even been seen
  have hfresh : ∀ u ∈ d'.frontier.queue, u ∉ (outcomes ++ [(url, r)]).map Prod.fst := by
    intro u hu hmem
    rw [List.map_append] at hmem
    rcases List.mem_append.1 hmem with hcalled | hlast
    · rcases hnew u hu with hq | hv
      · exact (h.head url d.frontier.queue rfl).2 u hq hcalled
      · exact hv (h.called u hcalled)
    · have hlast : u = url := List.mem_singleton.1 hlast
      rcases hnew u hu with hq | hv
      · exact (List.nodup_cons.1 h.nodup).1 (hlast ▸ hq)
      · exact hv (hlast ▸ hurl)
  refine ⟨h.call.return r, hlimited, fun u queue hq ↦ ?_, hnodup, hqueued, fun u hu ↦ ?_⟩
  · refine ⟨retriedBy_of_not_mem (hfresh u ?_) _, fun v hv ↦ hfresh v ?_⟩
    · rw [hq]
      exact List.mem_cons_self
    · rw [hq]
      exact List.mem_cons_of_mem u hv
  · rw [List.map_append] at hu
    rcases List.mem_append.1 hu with hu | hu
    · exact hvisited u (h.called u hu)
    · exact hvisited u (List.mem_singleton.1 hu ▸ hurl)

theorem Settled.succeed (h : Settled (d.pushFront url) outcomes) (page : PageResult) :
    Settled (d.succeed page) (outcomes ++ [(url, .ok page)]) := by
  have hqueued : ∀ u ∈ d.frontier.queue, u ∈ d.frontier.visited := fun u hu ↦
    h.queued u (List.mem_cons_of_mem url hu)
  refine h.moveOn _ ?_ ?_ ?_ (fun u hu ↦ ?_) fun u hu ↦ ?_
  · show 0 < 5
    omega
  · exact Worklist.nodup_queue_pushAll _ (List.nodup_cons.1 h.nodup).2 hqueued
  · exact Worklist.Explored.queue_visited_pushAll hqueued
  · exact Worklist.mem_visited_pushAll.2 (Or.inl hu)
  · exact Worklist.mem_queue_pushAll_new hu

theorem Settled.skip (h : Settled (d.pushFront url) outcomes) (err : CrawlError) :
    Settled d.fail (outcomes ++ [(url, .error err)]) :=
  h.moveOn _ h.limited (List.nodup_cons.1 h.nodup).2
    (fun u hu ↦ h.queued u (List.mem_cons_of_mem url hu)) (fun _ hu ↦ hu) fun _ hu ↦ Or.inl hu

/-- **The URL is put back**, and no other. -/
theorem Settled.retry (h : Settled (d.pushFront url) outcomes) (hr : RateLimited r)
    (h5 : d.consecutive429s + 1 < 5) :
    Settled (d.limit.pushFront url) (outcomes ++ [(url, r)]) := by
  obtain ⟨hretried, hothers⟩ := h.head url d.frontier.queue rfl
  refine ⟨h.call.return r, h5, fun u queue hq ↦ ?_, h.nodup, h.queued, fun u hu ↦ ?_⟩
  · obtain ⟨rfl, rfl⟩ := List.cons.inj hq
    refine ⟨hretried.limit hr, fun u hu hmem ↦ ?_⟩
    rw [List.map_append] at hmem
    rcases List.mem_append.1 hmem with hcalled | hlast
    · exact hothers u hu hcalled
    · have hlast : u = url := List.mem_singleton.1 hlast
      exact (List.nodup_cons.1 h.nodup).1 (hlast ▸ hu)
  · rw [List.map_append] at hu
    rcases List.mem_append.1 hu with hu | hu
    · exact h.called u hu
    · exact List.mem_singleton.1 hu ▸ h.queued url List.mem_cons_self

end Calls

/-! ### Runs -/

/-- The invariant of a run and its log, phase by phase. -/
def Tracks (config : DriverConfig) : Phase → List LoopEvent → Prop
  | .starting p, log => log = [] ∧ Returns (fun _ _ ↦ True) (fun r ↦ ∀ d, r = .ok d → d.Fresh) p
  | .looping d, log | .sleeping d _, log =>
    d.stats.pagesFetched ≤ config.maxPagesPerRun ∧ calls log = (outcomes log).map Prod.fst ∧
      Settled d (outcomes log)
  | .crawling d url _ _, log =>
    d.stats.pagesFetched < config.maxPagesPerRun ∧
      calls log = (outcomes log).map Prod.fst ++ [url] ∧ Settled (d.pushFront url) (outcomes log)
  | .ended d, log =>
    d.stats.pagesFetched ≤ config.maxPagesPerRun ∧ calls log = (outcomes log).map Prod.fst ∧
      OnceButRetries ((outcomes log).map Prod.fst) (outcomes log)
  | .failed _, log => log = []

/-- The page that was called has returned. -/
theorem calls_of_returned {log shown : List LoopEvent} {url : String} {r : CrawlResult PageResult}
    (hcalls : calls log = (outcomes log).map Prod.fst ++ [url]) (hnone : calls shown = [])
    (hone : outcomes shown = [(url, r)]) :
    calls (log ++ shown) = (outcomes (log ++ shown)).map Prod.fst := by
  rw [calls_append, outcomes_append, hcalls, hnone, hone, List.map_append, List.append_nil]
  rfl

/-- A page has returned, and the loop rests or goes on. -/
theorem Tracks.rest {log : List LoopEvent} {d : DriverState} {url : String}
    {r : CrawlResult PageResult} (hfetched : d.stats.pagesFetched ≤ config.maxPagesPerRun)
    (hcalls : calls log = (outcomes log).map Prod.fst ++ [url])
    (hsettled : Settled d (outcomes log ++ [(url, r)])) :
    Tracks config (rest config d) (log ++ [returned url r]) := by
  have houtcomes : outcomes (log ++ [returned url r]) = outcomes log ++ [(url, r)] :=
    outcomes_append ..
  have hcalls' : calls (log ++ [returned url r]) =
      (outcomes (log ++ [returned url r])).map Prod.fst :=
    calls_of_returned hcalls rfl rfl
  rw [← houtcomes] at hsettled
  obtain ⟨-, hrest⟩ | hrest := rest_cases config d
  all_goals
    rw [hrest]
    exact ⟨hfetched, hcalls', hsettled⟩

/-- **One step of the loop.** -/
theorem Tracks.step {p p' : Phase} {log shown : List LoopEvent} (hI : Tracks config p log)
    (h : LoopStep config p shown p') : Tracks config p' (log ++ shown) := by
  cases h with
  | prelude =>
    rw [List.append_nil]
    exact ⟨hI.1, returns_op.1 hI.2 _ trivial⟩
  | enter =>
    obtain ⟨rfl, hfresh⟩ := hI
    have hfresh := hfresh _ rfl
    exact ⟨hfresh.fetched ▸ Nat.zero_le _, rfl, hfresh.settled⟩
  | fail =>
    rw [List.append_nil]
    exact hI.1
  | @take d url queue p hq hmax =>
    obtain ⟨-, hcalls, hsettled⟩ := hI
    have houtcomes : outcomes (log ++ [called url]) = outcomes log := by
      rw [outcomes_append]
      exact List.append_nil _
    have hback : { d with frontier := { d.frontier with queue := queue } }.pushFront url = d := by
      rw [DriverState.pushFront, ← hq]
    refine ⟨hmax, ?_, ?_⟩
    · rw [calls_append, houtcomes, hcalls]
      rfl
    · rw [houtcomes, hback]
      exact hsettled
  | finish =>
    rw [List.append_nil]
    exact ⟨hI.1, hI.2.1, hI.2.2.once⟩
  | page =>
    rw [List.append_nil]
    exact hI
  | succeed =>
    obtain ⟨hmax, hcalls, hsettled⟩ := hI
    exact .rest hmax hcalls (hsettled.succeed _)
  | @retry d url retryAfter events h5 =>
    obtain ⟨hmax, hcalls, hsettled⟩ := hI
    refine ⟨Nat.le_of_lt hmax, calls_of_returned hcalls rfl rfl, ?_⟩
    rw [outcomes_append]
    exact hsettled.retry ⟨retryAfter, rfl⟩ h5
  | abort =>
    obtain ⟨hmax, hcalls, hsettled⟩ := hI
    refine ⟨Nat.le_of_lt hmax, calls_of_returned hcalls rfl rfl, ?_⟩
    rw [outcomes_append]
    exact hsettled.call.return _
  | skip =>
    obtain ⟨hmax, hcalls, hsettled⟩ := hI
    exact .rest (Nat.le_of_lt hmax) hcalls (hsettled.skip _)
  | wake =>
    have houtcomes : ∀ dur, outcomes (log ++ [slept dur]) = outcomes log := fun dur ↦ by
      rw [outcomes_append]
      exact List.append_nil _
    obtain ⟨hmax, hcalls, hsettled⟩ := hI
    refine ⟨hmax, ?_, ?_⟩
    · rw [calls_append, houtcomes, hcalls]
      exact List.append_nil _
    · rw [houtcomes]
      exact hsettled

theorem Tracks.fetched_le {run : CrawlRun} {log : List LoopEvent}
    (hI : Tracks config run.phase log) :
    ∀ d ∈ run.driver, d.stats.pagesFetched ≤ config.maxPagesPerRun := by
  intro d hd
  rw [CrawlRun.driver] at hd
  split at hd
  case h_5 => cases hd
  all_goals
    rename_i hp
    rw [hp] at hI
    obtain rfl := Option.some.inj hd
  · exact hI.1
  · exact Nat.le_of_lt hI.1
  · exact hI.1
  · exact hI.1

theorem Tracks.onceButRetries {p : Phase} {log : List LoopEvent} (hI : Tracks config p log) :
    OnceButRetries (calls log) (outcomes log) := by
  have hnil : OnceButRetries [] [] := fun i _ _ _ hi ↦ by simp at hi
  cases p with
  | starting p =>
    obtain ⟨rfl, -⟩ := hI
    exact hnil
  | looping d =>
    rw [hI.2.1]
    exact hI.2.2.once
  | crawling d url p events =>
    rw [hI.2.1]
    exact hI.2.2.call
  | sleeping d dur =>
    rw [hI.2.1]
    exact hI.2.2.once
  | ended d =>
    rw [hI.2.1]
    exact hI.2.2
  | failed err =>
    obtain rfl := hI
    exact hnil

/-- **Termination and at-most-once.** No run of `crawl_target` goes on for ever, and until it is
over it can move, or waits for the indexer; its successful pages stay within the budget, and it
calls `crawl_page` for each URL once, except for immediate retries after a 429. -/
theorem crawl_terminates {e : Engine} {fetcher : Fetcher} {ctx : PageContext} {now : Int}
    {labels : List RunLabel} {s : Engine × CrawlRun}
    (hrun : (crawlMachine X).run (e, CrawlRun.start X fetcher ctx config now) labels = some s) :
    (WellFounded fun run' run : CrawlRun ↦ ∃ e e' l, run.step X e l = some (e', run')) ∧
      (s.2.isOver = false → (∃ l s', s.2.step X s.1 l = some s') ∨ s.2.WaitsForIndexer s.1) ∧
      (∀ d ∈ s.2.driver, d.stats.pagesFetched ≤ config.maxPagesPerRun) ∧
      ∀ log, (crawlMachine X).observe noteLoop []
        (e, CrawlRun.start X fetcher ctx config now) labels = log →
          OnceButRetries (calls log) (outcomes log) := by
  have hI : Tracks config s.2.phase _ :=
    loop_invariant (I := Tracks config) ⟨rfl, returns_prelude_fresh _ _ _ _⟩
      (fun _ _ _ _ hI h ↦ hI.step h) hrun
  refine ⟨CrawlRun.wellFounded_step X, CrawlRun.exists_step, hI.fetched_le, ?_⟩
  rintro _ rfl
  exact hI.onceButRetries

/-- A run over a site of two pages. -/
theorem crawl_terminates_twoPages : ∃ s,
    (crawlMachine TwoPages.crates).run (TwoPages.start (.start TwoPages.db []) 0)
      TwoPages.full = some s ∧
    s.2.isOver = true ∧ (∀ d ∈ s.2.driver, d.stats.pagesFetched ≤ 100) ∧
    ∃ log, calls log = ["https://guide.example/", "https://guide.example/more/"] ∧
      OnceButRetries (calls log) (outcomes log) := by
  obtain ⟨s, hrun, hover⟩ : ∃ s, (crawlMachine TwoPages.crates).run
      (TwoPages.start (.start TwoPages.db []) 0) TwoPages.full = some s ∧
        s.2.isOver = true :=
    Machine.exists_run_of_any (by decide +kernel)
  obtain ⟨-, -, hfetched, honce⟩ := crawl_terminates hrun
  refine ⟨s, hrun, hover, hfetched, _, ?_, honce _ rfl⟩
  decide +kernel

end CommunitySearch
