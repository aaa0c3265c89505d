import CommunitySearch.Crawler.Site
import CommunitySearch.Db.Collections
import CommunitySearch.Db.CrawlTargets

/-!
# Coverage of a run, and of the next one

A run against a site that does not change attempts exactly the URLs reachable from the seeds along
the links the crawler sees (`mem_attempted_iff_reach`), whatever the order of the frontier. A page
answered with 304 has no links as far as the crawler can see. So a second run covers the first one
exactly if the links it does not see are not needed: `attempted_subset_iff`.
-/

namespace CommunitySearch

open Prog

variable {X : Crates} {site : Site} {unmodified : String → Url → Bool} {fetcher : Fetcher}
  {ctx : PageContext}

/-! ### Runs that a site answers -/

/-- The environment's part of an answer is that of the site. -/
def Site.Answers (site : Site) (unmodified : Url → Bool) : CrawlOp → Answer → Prop
  | .request .page target _ _, .http a => site.PageAnswer unmodified target a
  | .request .sitemap target _ _, .http a => a = site.serve target
  | .robotsTxt url, .robots robot => robot = site.robots url
  | _, _ => True

/-- The URL of the page being crawled. -/
def CrawlRun.page (run : CrawlRun) : String :=
  match run.phase with
  | .crawling _ url _ _ => url
  | _ => ""

instance (site : Site) (unmodified : Url → Bool) (target : Url) :
    (a : HttpAnswer) → Decidable (site.PageAnswer unmodified target a)
  | .response r => inferInstanceAs (Decidable (r.status = 429 ∨
      if site.servesPage target && unmodified target then r.status = 304
      else site.serve target = .response r))
  | .redirect .. => inferInstanceAs (Decidable (site.serve target = _))
  | .failed => inferInstanceAs (Decidable (site.serve target = _))

instance (site : Site) (unmodified : Url → Bool) (o : CrawlOp) (a : Answer) :
    Decidable (site.Answers unmodified o a) := by
  unfold Site.Answers
  split <;> infer_instance

/-- The steps of a run against a site: the site answers, and what the other tasks load of robots
rules is the site's too. -/
def AnsweredBy (site : Site) (unmodified : String → Url → Bool) (s : Engine × CrawlRun) :
    RunLabel → Prop
  | .crawl (.answer a) => ∀ o ∈ s.2.nextOp, site.Answers (unmodified s.2.page) o a
  | .crawl .next => True
  | .other e' => s.1.robotsCache.Keeps e'.robotsCache ∧ site.Agrees e'.robotsCache

instance (site : Site) (cache : RobotsCache) : Decidable (site.Agrees cache) :=
  inferInstanceAs (Decidable (∀ entry ∈ cache, _))

instance (site : Site) (unmodified : String → Url → Bool) (s : Engine × CrawlRun) :
    (l : RunLabel) → Decidable (AnsweredBy site unmodified s l)
  | .crawl (.answer a) =>
    inferInstanceAs (Decidable (∀ o ∈ s.2.nextOp, site.Answers (unmodified s.2.page) o a))
  | .crawl .next => isTrue trivial
  | .other e' =>
    inferInstanceAs (Decidable (s.1.robotsCache.Keeps e'.robotsCache ∧ site.Agrees e'.robotsCache))

/-- The run has emptied its frontier: it has neither hit the page limit nor given up after five
429s, and no page failed. -/
def CrawlRun.completed (run : CrawlRun) : Bool :=
  match run.phase with
  | .ended d => d.frontier.queue.isEmpty && d.stats.pagesErrored == 0 && d.consecutive429s < 5
  | _ => false

theorem handles_of_perform {e e' : Engine} {o : CrawlOp} {a : Answer} {r : o.Resp}
    {cache : RobotsCache} {unmodified : Url → Bool} (hkeep : cache.Keeps e.robotsCache)
    (hagrees : site.Agrees e.robotsCache) (hloads : site.Loads cache o)
    (ha : site.Answers unmodified o a) (h : e.perform o a = some (r, e')) :
    site.handles unmodified cache o r e'.robotsCache := by
  have hperformed := Engine.performed_of_perform h
  cases o with
  | request kind =>
    obtain ⟨rfl, rfl⟩ := hperformed
    cases kind <;> exact ⟨hkeep, hagrees, ha⟩
  | robotsTxt _ =>
    obtain ⟨rfl, rfl⟩ := hperformed
    exact ⟨hkeep, hagrees, ha⟩
  | cacheGet _ =>
    obtain ⟨rfl, rfl⟩ := hperformed
    exact ⟨hkeep, hagrees, rfl⟩
  | intoIter _ =>
    obtain ⟨hperm, rfl⟩ := hperformed
    exact ⟨hkeep, hagrees, hperm⟩
  | cacheInsert origin robot =>
    obtain rfl := hperformed
    have hrobot : robot = site.robots (origin ++ "/robots.txt") := hloads
    have hinsert : site.Agrees (e.robotsCache.insert origin robot) := fun entry hentry ↦ by
      rcases List.mem_cons.1 hentry with rfl | hentry
      · exact hrobot
      · exact hagrees entry hentry
    -- loading rules again gives the same rules
    have hreload : e.robotsCache.Keeps (e.robotsCache.insert origin robot) := fun entry hentry ↦ by
      rw [RobotsCache.get_insert]
      split
      case isTrue ho =>
        obtain ⟨rules, hget⟩ := e.robotsCache.exists_get_of_mem hentry
        rw [hget, hagrees.get hget, hrobot, ho]
      case isFalse => rfl
    refine ⟨hkeep.trans hreload, hinsert, ?_⟩
    exact (RobotsCache.get_insert ..).trans (if_pos rfl)
  | _ => exact ⟨hperformed ▸ hkeep, hperformed ▸ hagrees, trivial⟩

/-! ### The search invariant -/

/-- The local variables of the loop, the page being crawled counted as queued. -/
def CrawlRun.unfinished (run : CrawlRun) : Option DriverState :=
  match run.phase with
  | .looping d | .sleeping d _ | .ended d => some d
  | .crawling d url _ _ => some (d.pushFront url)
  | _ => none

/-- The invariant of a run against a site: as long as no page has failed, its worklist is that of a
search along the links the crawler sees. -/
structure Covers (X : Crates) (site : Site) (unmodified : String → Url → Bool)
    (fetcher : Fetcher) (ctx : PageContext) (s : Engine × CrawlRun) : Prop where
  context : s.2.ctx = ctx ∧ s.2.fetcher = fetcher
  agrees : site.Agrees s.1.robotsCache
  starting : ∀ p, s.2.phase = .starting p → s.2.attempted = [] ∧
    ∃ cache, RobotsCache.Keeps cache s.1.robotsCache ∧
      wp (site.handles (unmodified "")) site.Loads
        (fun r _ ↦ ∀ d, r = .ok d → d.stats.pagesErrored = 0 ∧ d.consecutive429s = 0 ∧
          ∃ urls, d.frontier = Worklist.empty.pushAll urls ∧
            ∀ u, u ∈ urls ↔ u ∈ site.seeds X fetcher ctx) p cache
  crawling : ∀ d url p events, s.2.phase = .crawling d url p events → url ∈ s.2.attempted ∧
    ∃ cache, RobotsCache.Keeps cache s.1.robotsCache ∧
      wp (site.handles (unmodified url)) site.Loads
        (fun r _ ↦ ∀ p, r = .ok p → p.inPrefixLinks = site.followed X unmodified ctx url) p cache
  retries : ∀ d ∈ s.2.unfinished, s.2.isOver = false → d.consecutive429s < 5
  explored : ∀ d ∈ s.2.unfinished, d.stats.pagesErrored = 0 → d.consecutive429s < 5 →
    ∃ done, Worklist.Explored (site.followed X unmodified ctx) (site.seeds X fetcher ctx)
      d.frontier done ∧ (∀ u ∈ done, u ∈ s.2.attempted) ∧
        ∀ u ∈ s.2.attempted, u ∈ d.frontier.visited

theorem covers_start {e : Engine} (h : site.Agrees e.robotsCache) (config : DriverConfig)
    (now : Int) :
    Covers X site unmodified fetcher ctx (e, CrawlRun.start X fetcher ctx config now) where
  context := ⟨rfl, rfl⟩
  agrees := h
  starting := by
    rintro _ ⟨⟩
    exact ⟨rfl, e.robotsCache, .refl _, Site.wp_prelude_site _ _ _ _⟩
  crawling _ _ _ _ h := nomatch h
  retries _ h := nomatch h
  explored _ h := nomatch h

/-- **Where the worklist of a run comes from**: the prelude has set it up, the step leaves it as it
is, or the result of a page has been fed back. -/
theorem CrawlRun.unfinished_of_step {e e' : Engine} {run run' : CrawlRun} {l : CrawlLabel}
    {d' : DriverState} (h : run.step X e l = some (e', run')) (hd : d' ∈ run'.unfinished) :
    (run.phase = .starting (.ret (.ok d')) ∧ run'.attempted = run.attempted) ∨
      (d' ∈ run.unfinished ∧ run.isOver = false ∧ (run'.attempted = run.attempted ∨
        ∃ url ∈ d'.frontier.queue, run'.attempted = run.attempted ++ [url])) ∨
      ∃ d url r events, run.phase = .crawling d url (.ret r) events ∧
        run' = { run with phase := feed run.config d url r } := by
  obtain ⟨_, _, _, _, -, -, -, rfl⟩ | ⟨d, url, _, _, _, _, _, hp, -, -, rfl⟩ | ⟨-, -, hn⟩ :=
    step_cases h
  · cases hd
  · cases hd
    exact Or.inr (Or.inl ⟨by rw [unfinished, hp]; rfl, by rw [isOver, hp], Or.inl rfl⟩)
  · obtain ⟨d, hp, rfl⟩ | ⟨_, -, rfl⟩ | ⟨d, hp, rfl⟩ | ⟨d, url, queue, hp, hq, rfl⟩ |
      ⟨d, url, r, events, hp, rfl⟩ | ⟨d, _, hp, rfl⟩ := next_cases hn
    · cases hd
      exact Or.inl ⟨hp, rfl⟩
    · cases hd
    · cases hd
      exact Or.inr (Or.inl ⟨by rw [unfinished, hp]; rfl, by rw [isOver, hp], Or.inl rfl⟩)
    · -- the page that is taken is put back in front of the rest
      obtain rfl : d = d' := by
        have hback : { d with frontier := ⟨d.frontier.visited, url :: queue⟩ } = d' :=
          Option.some.inj hd
        rw [← hback, ← hq]
      refine Or.inr (Or.inl ⟨by rw [unfinished, hp]; rfl, by rw [isOver, hp],
        Or.inr ⟨url, ?_, rfl⟩⟩)
      rw [hq]
      exact List.mem_cons_self
    · exact Or.inr (Or.inr ⟨d, url, r, events, hp, rfl⟩)
    · cases hd
      exact Or.inr (Or.inl ⟨by rw [unfinished, hp]; rfl, by rw [isOver, hp], Or.inl rfl⟩)

/-- The worklist after a result has been fed back. -/
theorem CrawlRun.unfinished_feed {run : CrawlRun} {d d' d₁ : DriverState} {url : String}
    {r : CrawlResult PageResult}
    (hd : feed run.config d url r = .looping d' ∨
      (∃ dur, feed run.config d url r = .sleeping d' dur) ∨ feed run.config d url r = .ended d')
    (h : d₁ ∈ ({ run with phase := feed run.config d url r } : CrawlRun).unfinished) : d₁ = d' := by
  obtain hd | ⟨_, hd⟩ | hd := hd
  all_goals
    rw [unfinished, hd] at h
    exact (Option.some.inj h).symm

section Covers

variable {e e' : Engine} {run run' : CrawlRun} {l : CrawlLabel}

/-- What is left of the prelude after the site's answer to an operation. -/
theorem Covers.answer_prelude (hI : Covers X site unmodified fetcher ctx (e, run)) {o : CrawlOp}
    {k : o.Resp → Crawl (CrawlResult DriverState)} {a : Answer} {r : o.Resp}
    (hp : run.phase = .starting (.op o k))
    (hok : AnsweredBy site unmodified (e, run) (.crawl (.answer a)))
    (hr : e.perform o a = some (r, e')) :
    site.Agrees e'.robotsCache ∧ wp (site.handles (unmodified "")) site.Loads
      (fun (r : CrawlResult DriverState) _ ↦ ∀ d, r = .ok d →
        d.stats.pagesErrored = 0 ∧ d.consecutive429s = 0 ∧
          ∃ urls, d.frontier = Worklist.empty.pushAll urls ∧
            ∀ u, u ∈ urls ↔ u ∈ site.seeds X fetcher ctx) (k r) e'.robotsCache := by
  obtain ⟨-, cache, hcache, hwp⟩ := hI.starting _ hp
  have ha : site.Answers (unmodified "") o a := by
    have := hok o (by rw [CrawlRun.nextOp, hp]; rfl)
    rwa [CrawlRun.page, hp] at this
  have hhandles := handles_of_perform hcache hI.agrees hwp.1 ha hr
  exact ⟨hhandles.2.1, wp_op_step hwp hhandles⟩

/-- What is left of a page after the site's answer to an operation. -/
theorem Covers.answer_page (hI : Covers X site unmodified fetcher ctx (e, run)) {d : DriverState}
    {url : String} {o : CrawlOp} {k : o.Resp → Crawl (CrawlResult PageResult)}
    {events : List CrawlEvent} {a : Answer} {r : o.Resp}
    (hp : run.phase = .crawling d url (.op o k) events)
    (hok : AnsweredBy site unmodified (e, run) (.crawl (.answer a)))
    (hr : e.perform o a = some (r, e')) :
    site.Agrees e'.robotsCache ∧ wp (site.handles (unmodified url)) site.Loads
      (fun (r : CrawlResult PageResult) _ ↦ ∀ p, r = .ok p →
        p.inPrefixLinks = site.followed X unmodified ctx url) (k r) e'.robotsCache := by
  obtain ⟨-, cache, hcache, hwp⟩ := hI.crawling _ _ _ _ hp
  have ha : site.Answers (unmodified url) o a := by
    have := hok o (by rw [CrawlRun.nextOp, hp]; rfl)
    rwa [CrawlRun.page, hp] at this
  have hhandles := handles_of_perform hcache hI.agrees hwp.1 ha hr
  exact ⟨hhandles.2.1, wp_op_step hwp hhandles⟩

theorem Covers.agrees_step (hI : Covers X site unmodified fetcher ctx (e, run))
    (hok : AnsweredBy site unmodified (e, run) (.crawl l))
    (h : run.step X e l = some (e', run')) : site.Agrees e'.robotsCache := by
  obtain ⟨o, k, a, r, hp, rfl, hr, -⟩ | ⟨d, url, o, k, events, a, r, hp, rfl, hr, -⟩ |
    ⟨-, rfl, -⟩ := CrawlRun.step_cases h
  · exact (hI.answer_prelude hp hok hr).1
  · exact (hI.answer_page hp hok hr).1
  · exact hI.agrees

/-- A loop that goes on has not had five 429s in a row. -/
theorem Covers.retries_step (hI : Covers X site unmodified fetcher ctx (e, run))
    (h : run.step X e l = some (e', run')) :
    ∀ d ∈ run'.unfinished, run'.isOver = false → d.consecutive429s < 5 := by
  intro d' hd' hover
  obtain ⟨hp, -⟩ | ⟨hd, hgoes, -⟩ | ⟨d, url, r, events, hp, rfl⟩ :=
    CrawlRun.unfinished_of_step h hd'
  · obtain ⟨-, cache, -, hseeds⟩ := hI.starting _ hp
    obtain ⟨-, hcons, -⟩ := hseeds d' rfl
    omega
  · exact hI.retries d' hd hgoes
  · have hlt : d.consecutive429s < 5 :=
      hI.retries (d.pushFront url) (by rw [CrawlRun.unfinished, hp]; rfl)
        (by rw [CrawlRun.isOver, hp])
    obtain ⟨d₁, hd₁, hfed⟩ := feed_cases run.config d url r
    obtain rfl := CrawlRun.unfinished_feed hd₁ hd'
    cases r with
    | ok p => omega
    | error err =>
      cases err with
      | rateLimited retryAfter =>
        obtain ⟨⟨-, hended, -⟩ | ⟨-, -, h5⟩, -⟩ := hfed
        · simp only [CrawlRun.isOver, hended, Bool.true_eq_false] at hover
        · exact h5
      | _ => exact hfed.2.2 ▸ hlt

/-- **The search goes on**: its worklist stays that of a search along the links the crawler sees. -/
theorem Covers.explored_step (hI : Covers X site unmodified fetcher ctx (e, run))
    (h : run.step X e l = some (e', run')) :
    ∀ d ∈ run'.unfinished, d.stats.pagesErrored = 0 → d.consecutive429s < 5 →
      ∃ done, Worklist.Explored (site.followed X unmodified ctx) (site.seeds X fetcher ctx)
        d.frontier done ∧ (∀ u ∈ done, u ∈ run'.attempted) ∧
          ∀ u ∈ run'.attempted, u ∈ d.frontier.visited := by
  intro d' hd' herr hcons
  obtain ⟨hp, hsame⟩ | ⟨hd, -, hattempts⟩ | ⟨d, url, r, events, hp, rfl⟩ :=
    CrawlRun.unfinished_of_step h hd'
  · -- the loop is entered
    obtain ⟨hnil, cache, -, hseeds⟩ := hI.starting _ hp
    obtain ⟨-, -, urls, hfrontier, hmem⟩ := hseeds d' rfl
    refine ⟨[], ?_, fun _ h ↦ absurd h List.not_mem_nil, fun u hu ↦ ?_⟩
    · rw [hfrontier]
      exact (Worklist.Explored.start _ urls).congr_seeds hmem
    · rw [hsame, hnil] at hu
      exact absurd hu List.not_mem_nil
  · -- a page is taken, or none
    obtain ⟨done, hexplored, hdone, hattempted⟩ := hI.explored d' hd herr hcons
    obtain hsame | ⟨url, hurl, htaken⟩ := hattempts
    · rw [hsame]
      exact ⟨done, hexplored, hdone, hattempted⟩
    · rw [htaken]
      refine ⟨done, hexplored, fun u hu ↦ List.mem_append_left _ (hdone u hu), fun u hu ↦ ?_⟩
      rcases List.mem_append.1 hu with hu | hu
      · exact hattempted u hu
      · rw [List.mem_singleton.1 hu]
        exact hexplored.queue_visited url hurl
  · -- the result of a page is fed back
    obtain ⟨hmem, cache, -, hlinks⟩ := hI.crawling _ _ _ _ hp
    have hd : d.pushFront url ∈ run.unfinished := by
      rw [CrawlRun.unfinished, hp]
      rfl
    have hlt : (d.pushFront url).consecutive429s < 5 :=
      hI.retries _ hd (by rw [CrawlRun.isOver, hp])
    obtain ⟨d₁, hd₁, hfed⟩ := feed_cases run.config d url r
    obtain rfl := CrawlRun.unfinished_feed hd₁ hd'
    cases r with
    | ok p =>
      obtain ⟨hfrontier, herrs, -⟩ := hfed
      obtain ⟨done, hexplored, hdone, hattempted⟩ := hI.explored _ hd (herrs ▸ herr) hlt
      rw [hfrontier, hlinks p rfl]
      refine ⟨done ++ [url], hexplored.expand rfl, fun u hu ↦ ?_, fun u hu ↦ ?_⟩
      · rcases List.mem_append.1 hu with hu | hu
        · exact hdone u hu
        · exact List.mem_singleton.1 hu ▸ hmem
      · exact Worklist.mem_visited_pushAll.2 (Or.inl (hattempted u hu))
    | error err =>
      cases err with
      | rateLimited retryAfter =>
        obtain ⟨⟨-, -, h5⟩ | ⟨hfrontier, -, -⟩, herrs⟩ := hfed
        · omega
        · rw [hfrontier]
          exact hI.explored _ hd (herrs ▸ herr) hlt
      | _ => exact absurd (hfed.2.1.symm.trans herr) (Nat.succ_ne_zero _)

/-- **A step of the run** keeps the search invariant. -/
theorem Covers.crawl (hI : Covers X site unmodified fetcher ctx (e, run))
    (hok : AnsweredBy site unmodified (e, run) (.crawl l))
    (h : run.step X e l = some (e', run')) :
    Covers X site unmodified fetcher ctx (e', run') where
  context := by
    obtain ⟨hctx, hfetcher, -, -⟩ := CrawlRun.const_of_step h
    exact ⟨hctx.trans hI.context.1, hfetcher.trans hI.context.2⟩
  agrees := hI.agrees_step hok h
  starting p hphase := by
    obtain ⟨o, k, a, r, hp, rfl, hr, rfl, hsame⟩ := CrawlRun.prelude_of_step h hphase
    exact ⟨hsame.trans (hI.starting _ hp).1, e'.robotsCache, .refl _,
      (hI.answer_prelude hp hok hr).2⟩
  crawling d url p events hphase := by
    obtain ⟨rfl, rfl, htaken⟩ | ⟨d₀, o, k, events₀, a, r, hp, rfl, hr, rfl, rfl, hsame⟩ :=
      CrawlRun.page_of_step h hphase
    · refine ⟨?_, e'.robotsCache, .refl _, ?_⟩
      · rw [htaken]
        exact List.mem_append_right _ (List.mem_singleton_self _)
      · obtain ⟨rfl, rfl⟩ := hI.context
        exact Site.wp_crawlPage_site _ _ _ _ _ _
    · refine ⟨?_, e'.robotsCache, .refl _, (hI.answer_page hp hok hr).2⟩
      rw [hsame]
      exact (hI.crawling _ _ _ _ hp).1
  retries := hI.retries_step h
  explored := hI.explored_step h

end Covers

/-- **A step** keeps the search invariant, whatever the other tasks do. -/
theorem Covers.step {s s' : Engine × CrawlRun} {l : RunLabel}
    (hI : Covers X site unmodified fetcher ctx s) (hok : AnsweredBy site unmodified s l)
    (h : (crawlMachine X).step s l = some s') : Covers X site unmodified fetcher ctx s' := by
  obtain ⟨e, run⟩ := s
  obtain ⟨e', run'⟩ := s'
  cases l with
  | other e₁ =>
    obtain ⟨rfl, rfl⟩ := Prod.mk.inj (Option.some.inj h)
    obtain ⟨hkeep, hagrees⟩ := hok
    refine ⟨hI.context, hagrees, fun p hp ↦ ?_, fun d url p events hp ↦ ?_, hI.retries,
      hI.explored⟩
    · obtain ⟨hnil, cache, hcache, hwp⟩ := hI.starting p hp
      exact ⟨hnil, cache, hcache.trans hkeep, hwp⟩
    · obtain ⟨hmem, cache, hcache, hwp⟩ := hI.crawling d url p events hp
      exact ⟨hmem, cache, hcache.trans hkeep, hwp⟩
  | crawl l => exact hI.crawl hok h

/-! ### What a run attempts -/

theorem covers_of_run {e : Engine} (hagrees : site.Agrees e.robotsCache) {config : DriverConfig}
    {now : Int} {labels : List RunLabel} {s : Engine × CrawlRun}
    (hok : (crawlMachine X).Guarded (AnsweredBy site unmodified)
      (e, CrawlRun.start X fetcher ctx config now) labels)
    (hrun : (crawlMachine X).run (e, CrawlRun.start X fetcher ctx config now) labels = some s) :
    Covers X site unmodified fetcher ctx s :=
  Machine.guarded_invariant (fun _ _ _ hI hl h ↦ hI.step hl h) (covers_start hagrees config now)
    hok hrun

/-- **A completed run attempts what is reachable** along the links the crawler sees. -/
theorem Covers.mem_attempted_iff {s : Engine × CrawlRun}
    (hI : Covers X site unmodified fetcher ctx s) (h : s.2.completed = true) {u : String} :
    u ∈ s.2.attempted ↔
      Worklist.Reach (site.followed X unmodified ctx) (site.seeds X fetcher ctx) u := by
  rw [CrawlRun.completed] at h
  split at h
  case h_1 d hp =>
    simp only [Bool.and_eq_true, List.isEmpty_iff, beq_iff_eq, decide_eq_true_eq] at h
    obtain ⟨⟨hq, herr⟩, hcons⟩ := h
    obtain ⟨done, hexplored, hdone, hattempted⟩ :=
      hI.explored d (by rw [CrawlRun.unfinished, hp]; rfl) herr hcons
    rw [← hexplored.mem_done_iff hq]
    refine ⟨fun hu ↦ ?_, hdone u⟩
    rcases hexplored.queued_or_done u (hattempted u hu) with hmem | hmem
    · rw [hq] at hmem
      exact nomatch hmem
    · exact hmem
  case h_2 => cases h

/-- The second run reaches the links it does not see: those of the pages the first run reached and
that are unmodified in the second. -/
def LinksReachedAgain (X : Crates) (site : Site) (unmodified₁ unmodified₂ : String → Url → Bool)
    (fetcher : Fetcher) (ctx : PageContext) : Prop :=
  ∀ u, Worklist.Reach (site.followed X unmodified₁ ctx) (site.seeds X fetcher ctx) u →
    site.isUnmodified X unmodified₂ u = true → ∀ v ∈ site.followed X unmodified₁ ctx u,
      Worklist.Reach (site.followed X unmodified₂ ctx) (site.seeds X fetcher ctx) v

/-- **Re-crawl coverage.** Two completed runs of the same target against a site that does not
change: the second attempts every URL the first attempted if and only if it reaches, along the
links of the pages it gets in full, also the links of the pages answered with 304. -/
theorem attempted_subset_iff {unmodified₁ unmodified₂ : String → Url → Bool} {e₁ e₂ : Engine}
    (hagrees₁ : site.Agrees e₁.robotsCache) (hagrees₂ : site.Agrees e₂.robotsCache)
    {config₁ config₂ : DriverConfig} {now₁ now₂ : Int} {labels₁ labels₂ : List RunLabel}
    {s₁ s₂ : Engine × CrawlRun}
    (hok₁ : (crawlMachine X).Guarded (AnsweredBy site unmodified₁)
      (e₁, CrawlRun.start X fetcher ctx config₁ now₁) labels₁)
    (hrun₁ : (crawlMachine X).run (e₁, CrawlRun.start X fetcher ctx config₁ now₁) labels₁ =
      some s₁)
    (hdone₁ : s₁.2.completed = true)
    (hok₂ : (crawlMachine X).Guarded (AnsweredBy site unmodified₂)
      (e₂, CrawlRun.start X fetcher ctx config₂ now₂) labels₂)
    (hrun₂ : (crawlMachine X).run (e₂, CrawlRun.start X fetcher ctx config₂ now₂) labels₂ =
      some s₂)
    (hdone₂ : s₂.2.completed = true) :
    (∀ u ∈ s₁.2.attempted, u ∈ s₂.2.attempted) ↔
      LinksReachedAgain X site unmodified₁ unmodified₂ fetcher ctx := by
  have hmem₁ : ∀ u, u ∈ s₁.2.attempted ↔ _ := fun u ↦
    (covers_of_run hagrees₁ hok₁ hrun₁).mem_attempted_iff hdone₁
  have hmem₂ : ∀ u, u ∈ s₂.2.attempted ↔ _ := fun u ↦
    (covers_of_run hagrees₂ hok₂ hrun₂).mem_attempted_iff hdone₂
  simp only [hmem₁, hmem₂]
  constructor
  · intro h u hu _ v hv
    exact h v (hu.step hv)
  · intro h u hu
    refine Worklist.Reach.induction
      (C := Worklist.Reach (site.followed X unmodified₂ ctx) (site.seeds X fetcher ctx))
      (fun x hx ↦ .seed hx) (fun x y hx hx' hy ↦ ?_) hu
    -- the links of a page that is answered in full are seen in both runs
    by_cases hun : site.isUnmodified X unmodified₂ x = true
    · exact h x hx hun y hy
    · refine hx'.step ?_
      rw [Site.followed] at hy
      split at hy
      · cases hy
      · rwa [Site.followed, if_neg hun]

/-! ### A site whose start page is not modified -/

namespace TwoPages

def url (path : String) : Url := ⟨"https", "", none, some "guide.example", none, path, none, none⟩

def startBody : String := "<body><a href=\"/more/\">More</a></body>"

def moreBody : String := "<body>End</body>"

/-- What the crates compute on the pages of the site. -/
def crates : Crates := .ofTables
  { urls := ["/", "/more/", "/sitemap.xml"].map fun path ↦
      ("https://guide.example" ++ path, url path)
    joins := [((url "/", "/more/"), url "/more/")]
    documents := [(startBody, ⟨[⟨"/more/", "More"⟩], [], [], some [⟨"More", false⟩]⟩),
      (moreBody, ⟨[], [], [], some [⟨"End", false⟩]⟩)]
    disallowed := []
    digests := [("\x00More", "008d9c2c77fcb139a4555f270273ba9361663a7b1366caab37d4e4514b07f81a"),
      ("\x00End", "a910bdf3e0aa99b6c132def0633640704395c81a4ec753deb9a39592e0e9f021")] }

def page (body : String) : HttpResponse :=
  ⟨200, some "text/html", some "\"v1\"", none, none, some body⟩

def guide : Site where
  serve u :=
    if u = url "/" then .response (page startBody)
    else if u = url "/more/" then .response (page moreBody)
    else .response ⟨404, none, none, none, none, some ""⟩
  robots _ := none

def target : PageContext := ⟨⟨0⟩, ⟨1⟩, "https://guide.example/", "guide"⟩

/-- A collection with one target. -/
def db : Database :=
  ((Database.empty.createItem "guide" "" "t0").bind fun (db, _) ↦
    (db.addTarget 1 "https://guide.example/" 3600 "t1").map Prod.fst).getD .empty

def start (e : Engine) (now : Int) : Engine × CrawlRun :=
  (e, .start crates ⟨"search-bot"⟩ target ⟨1000, 100⟩ now)

/-- A page served in full: the job is counted and sent, the row is written, the result is fed
back. -/
def served (body : String) : List CrawlLabel :=
  pageUpToFetch ++
    [.answer (.http (.response (page body))), .answer .ok, .answer .ok, .answer .ok, .next]

/-- A page that is answered 304. -/
def notModified : List CrawlLabel :=
  pageUpToFetch ++
    [.answer (.http (.response ⟨304, none, none, none, none, none⟩)), .answer .ok, .next]

/-- A run that gets every page in full. -/
def full : List RunLabel :=
  (plainPrelude none false ++ served startBody ++ [CrawlLabel.next] ++ served moreBody ++
    [CrawlLabel.next]).map .crawl

/-- A run that is answered 304 on the start page. -/
def unmodifiedStart : List RunLabel :=
  (plainPrelude none true ++ notModified ++ [CrawlLabel.next]).map .crawl

/-- A run that is answered 304 on the page without links. -/
def unmodifiedMore : List RunLabel :=
  (plainPrelude none true ++ served startBody ++ [CrawlLabel.next] ++ notModified ++
    [CrawlLabel.next]).map .crawl

end TwoPages

/-- A page without links is unmodified in the second run. -/
theorem attempted_subset_iff_unmodifiedMore : ∃ s₁ s₂,
    (crawlMachine TwoPages.crates).run (TwoPages.start (.start TwoPages.db []) 0)
      TwoPages.full = some s₁ ∧
    (crawlMachine TwoPages.crates).run (TwoPages.start s₁.1 3600) TwoPages.unmodifiedMore =
      some s₂ ∧
    ((∀ u ∈ s₁.2.attempted, u ∈ s₂.2.attempted) ↔ LinksReachedAgain TwoPages.crates TwoPages.guide
      (fun _ _ ↦ false) (fun _ u ↦ u = TwoPages.url "/more/") ⟨"search-bot"⟩ TwoPages.target) := by
  obtain ⟨s₁, hrun₁, h₁⟩ : ∃ s₁, (crawlMachine TwoPages.crates).run
      (TwoPages.start (.start TwoPages.db []) 0) TwoPages.full = some s₁ ∧
        (s₁.2.completed && decide (TwoPages.guide.Agrees s₁.1.robotsCache) &&
          decide ((crawlMachine TwoPages.crates).Guarded
            (AnsweredBy TwoPages.guide fun _ u ↦ u = TwoPages.url "/more/")
            (TwoPages.start s₁.1 3600) TwoPages.unmodifiedMore) &&
          ((crawlMachine TwoPages.crates).run (TwoPages.start s₁.1 3600)
            TwoPages.unmodifiedMore).any fun s₂ ↦ s₂.2.completed) = true :=
    Machine.exists_run_of_any (by decide +kernel)
  simp only [Bool.and_eq_true, decide_eq_true_eq] at h₁
  obtain ⟨⟨⟨hdone₁, hagrees⟩, hok₂⟩, hany⟩ := h₁
  obtain ⟨s₂, hrun₂, hdone₂⟩ := Machine.exists_run_of_any hany
  exact ⟨s₁, s₂, hrun₁, hrun₂, attempted_subset_iff (by decide) hagrees (by decide +kernel)
    hrun₁ hdone₁ hok₂ hrun₂ hdone₂⟩

/-- The start page is the only way to the other page, and in the second run it is unmodified. -/
theorem not_attempted_subset : ¬ ∀ (unmodified : String → Url → Bool) labels₁ labels₂ s₁ s₂,
    (crawlMachine TwoPages.crates).Guarded (AnsweredBy TwoPages.guide fun _ _ ↦ false)
      (TwoPages.start (.start TwoPages.db []) 0) labels₁ →
    (crawlMachine TwoPages.crates).run (TwoPages.start (.start TwoPages.db []) 0) labels₁ =
      some s₁ → s₁.2.completed = true →
    (crawlMachine TwoPages.crates).Guarded (AnsweredBy TwoPages.guide unmodified)
      (TwoPages.start s₁.1 3600) labels₂ →
    (crawlMachine TwoPages.crates).run (TwoPages.start s₁.1 3600) labels₂ = some s₂ →
    s₂.2.completed = true → ∀ u ∈ s₁.2.attempted, u ∈ s₂.2.attempted := by
  obtain ⟨s₁, hrun₁, h₁⟩ : ∃ s₁, (crawlMachine TwoPages.crates).run
      (TwoPages.start (.start TwoPages.db []) 0) TwoPages.full = some s₁ ∧
        (s₁.2.completed && decide ("https://guide.example/more/" ∈ s₁.2.attempted) &&
          decide ((crawlMachine TwoPages.crates).Guarded
            (AnsweredBy TwoPages.guide fun _ u ↦ u = TwoPages.url "/")
            (TwoPages.start s₁.1 3600) TwoPages.unmodifiedStart) &&
          ((crawlMachine TwoPages.crates).run (TwoPages.start s₁.1 3600)
            TwoPages.unmodifiedStart).any fun s₂ ↦ s₂.2.completed &&
              decide ("https://guide.example/more/" ∉ s₂.2.attempted)) = true :=
    Machine.exists_run_of_any (by decide +kernel)
  simp only [Bool.and_eq_true, decide_eq_true_eq] at h₁
  obtain ⟨⟨⟨hdone₁, hmem₁⟩, hok₂⟩, hany⟩ := h₁
  obtain ⟨s₂, hrun₂, h₂⟩ := Machine.exists_run_of_any hany
  obtain ⟨hdone₂, hmem₂⟩ := Bool.and_eq_true_iff.1 h₂
  exact fun h ↦ of_decide_eq_true hmem₂
    (h _ _ _ s₁ s₂ (by decide +kernel) hrun₁ hdone₁ hok₂ hrun₂ hdone₂ _ hmem₁)

end CommunitySearch
