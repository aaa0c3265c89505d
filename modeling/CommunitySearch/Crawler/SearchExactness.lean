import CommunitySearch.Crawler.PrefixContainment
import CommunitySearch.Crawler.RecrawlCoverage

/-!
# Which URLs a run attempts

Against any server, and whatever the other tasks do, a run of `crawl_target` is a worklist search
whose edges it learns while it goes on: the links each page returned when it succeeded. These are
where it was redirected, what it declares canonical and what it links to, as far as that lies in the
prefix (`LeadsTo`, `wp_crawlPage_leadsTo`). An observer of the run (`Crawled`) notes the pages that
succeeded, and the events of the prelude, which fix the URLs the sitemaps contributed.
`attempted_isLeast` says what the run attempted in terms of what was observed.
-/

namespace CommunitySearch

open Prog (Yields ret op yields_bind)

/-! ### Where a page leads -/

/-- A page requested under `url` and served as `body` at `finalUrl` points to `v`: `v` is in normal
form and in the prefix, and the page was redirected to `v`, declares it canonical, or links to it.
A redirect or a canonical URL that is the page itself points nowhere. -/
def PointsTo (X : Crates) (ctx : PageContext) (url body finalUrl v : String) : Prop :=
  isInPrefix X v ctx.urlPrefix = true ∧
    ((normalizeUrl X finalUrl = some v ∧ normalizeUrl X url ≠ some v) ∨
      ((extractCanonical X body finalUrl).bind (normalizeUrl X) = some v ∧
        normalizeUrl X url ≠ some v) ∨
      ∃ link ∈ extractLinks X body finalUrl, normalizeUrl X link.url = some v)

/-- The page `url` leads to `v`: by its events it was served, and what was served points to `v`. -/
def LeadsTo (X : Crates) (ctx : PageContext) (url : String) (events : List CrawlEvent)
    (v : String) : Prop :=
  ∃ target r body, servedPage events = some (target, r) ∧ r.isPage = true ∧ r.body = some body ∧
    PointsTo X ctx url body target.toString v

section Links

variable {X : Crates} {ctx : PageContext} {url body finalUrl v : String}

theorem redirectUrl_eq_some : redirectUrl X ctx url finalUrl = some v ↔
    normalizeUrl X finalUrl = some v ∧ normalizeUrl X url ≠ some v ∧
      isInPrefix X v ctx.urlPrefix = true := by
  simp only [redirectUrl, Option.filter_eq_some_iff, decide_eq_true_eq, and_assoc, ne_comm]

theorem canonicalUrl_eq_some : canonicalUrl X ctx url body finalUrl = some v ↔
    (extractCanonical X body finalUrl).bind (normalizeUrl X) = some v ∧
      normalizeUrl X url ≠ some v ∧ redirectUrl X ctx url finalUrl ≠ some v ∧
      isInPrefix X v ctx.urlPrefix = true := by
  simp only [canonicalUrl, Option.filter_eq_some_iff, decide_eq_true_eq, and_assoc,
    ne_comm (a := some v)]

/-- The links of a page. -/
theorem mem_pageLinks :
    v ∈ pageLinks X ctx url body finalUrl ↔ PointsTo X ctx url body finalUrl v := by
  have hlinks : v ∈ inPrefixLinks X ctx (extractLinks X body finalUrl) ↔
      (∃ link ∈ extractLinks X body finalUrl, normalizeUrl X link.url = some v) ∧
        isInPrefix X v ctx.urlPrefix = true := by
    rw [inPrefixLinks, List.mem_filter, List.mem_filterMap]
  simp only [PointsTo, pageLinks, List.mem_append, Option.mem_toList, hlinks,
    redirectUrl_eq_some, canonicalUrl_eq_some, ne_eq]
  -- a canonical URL that is the redirect target as well is listed as the redirect target
  tauto

end Links

section Spec

open Prog

variable {X : Crates} {G : List CrawlEvent → CrawlEvent → Prop}

/-- The result of a page lists where it leads. -/
def ListsLeads (X : Crates) (ctx : PageContext) (url : String) (res : CrawlResult PageResult)
    (h : List CrawlEvent) : Prop :=
  ∀ p, res = .ok p → ∀ v, v ∈ p.inPrefixLinks ↔ LeadsTo X ctx url h v

theorem listsLeads_error {ctx : PageContext} {url : String} {err : CrawlError}
    {h : List CrawlEvent} : ListsLeads X ctx url (.error err) h :=
  fun _ hp ↦ nomatch hp

/-- A page that was served no body leads nowhere. -/
theorem not_leadsTo {ctx : PageContext} {url v : String} {h : List CrawlEvent}
    {served : Option (Url × HttpResponse)} (hserved : servedPage h = served)
    (hpage : ∀ u r, served = some (u, r) → r.isPage = false) : ¬ LeadsTo X ctx url h v := by
  rintro ⟨target, r, -, hr, htrue, -⟩
  rw [hpage target r (hserved.symm.trans hr)] at htrue
  cases htrue

/-- What follows a fetch requests nothing, and its result lists where the page served leads. -/
theorem wp_handleOutcome_leadsTo {ctx : PageContext} {url : String} {now : Int}
    {prior : Option CrawledPageRow} {outcome : FetchOutcome} {h : List CrawlEvent}
    (ho : Outcome G (some prior) (.ok outcome) h) :
    wp (history G) (fun _ _ ↦ True) (ListsLeads X ctx url)
      (handleOutcome X ctx url now prior outcome) h := by
  obtain ⟨served, hs, ho⟩ := ho
  have hkeeps : wp (history G) (fun _ _ ↦ True) (fun _ h' ↦ servedPage h' = served)
      (handleOutcome X ctx url now prior outcome) h := by
    refine (performs_handleOutcome ctx url now prior outcome).wp (fun _ _ _ _ ↦ trivial) ?_
      hs.served
    rintro h' o r _ hserved hrecords ⟨-, rfl⟩
    have hnone : CrawlEvent.served? ⟨o, r⟩ = none := by
      cases o <;> first | rfl | exact hrecords.elim
    rw [servedPage, List.findSome?_append, ← servedPage, hserved]
    simp [hnone]
  refine wp_mono' (fun _ _ _ _ hr ↦ hr) (fun _ _ _ ↦ trivial) (fun res h' hres p hp v ↦ ?_)
    (wp_and hkeeps (wp_handleOutcome_links (P := fun _ _ ↦ True) (fun _ _ _ ↦ trivial) url now
      prior outcome h))
  obtain ⟨hserved, hlinks⟩ := hres
  rw [hlinks p hp]
  have hnowhere : (∀ u r, served = some (u, r) → r.isPage = false) →
      (v ∈ ([] : List String) ↔ LeadsTo X ctx url h' v) := fun hpage ↦
    iff_of_false List.not_mem_nil (not_leadsTo hserved hpage)
  cases outcome with
  | fresh status body etag lm finalUrl =>
    obtain ⟨u, r, rfl, hpage, hbody, rfl, -⟩ := ho
    rw [outcomeLinks, mem_pageLinks]
    constructor
    · intro hpoints
      exact ⟨u, r, body, hserved, hpage, hbody, hpoints⟩
    · rintro ⟨u', r', body', hserved', -, hbody', hpoints⟩
      obtain ⟨rfl, rfl⟩ := Prod.mk.inj (Option.some.inj (hserved.symm.trans hserved'))
      obtain rfl := Option.some.inj (hbody.symm.trans hbody')
      exact hpoints
  | rateLimited _ => exact hnowhere ho
  | notModified => exact hnowhere ho
  | otherStatus _ => exact hnowhere ho

/-- **A page that succeeds lists where it leads.** -/
theorem wp_crawlPage_leadsTo (fetcher : Fetcher) (ctx : PageContext) (now : Int) (url : String) :
    wp (history G) (fun _ _ ↦ True) (ListsLeads X ctx url)
      (crawlPage X fetcher ctx now url) [] := by
  exact wp_crawlPage_of_outcome (fun _ _ _ ↦ trivial) (fun _ ↦ trivial) (fun _ _ _ _ ↦ trivial)
    (fun _ _ _ _ _ _ ↦ listsLeads_error) fun _ _ _ ho ↦ wp_handleOutcome_leadsTo ho

end Spec

/-! ### What is observed -/

/-- A page that has succeeded. -/
structure CrawledPage where
  url : String
  /-- What happened in `crawl_page`. -/
  events : List CrawlEvent
  /-- The links it returned. -/
  inPrefixLinks : List String

/-- What an observer of a run has noted. -/
structure Crawled where
  /-- The events up to the loop. -/
  prelude : List CrawlEvent
  /-- The pages that succeeded. -/
  pages : List CrawledPage

namespace Crawled

/-- Note the result of a page, if it succeeded. -/
def noteResult (c : Crawled) (url : String) (events : List CrawlEvent) :
    CrawlResult PageResult → Crawled
  | .ok r => { c with pages := c.pages ++ [⟨url, events, r.inPrefixLinks⟩] }
  | .error _ => c

/-- Note what a step of the run shows: an answer in the prelude, or the result of a page. -/
def note (c : Crawled) (s : Engine × CrawlRun) : RunLabel → Crawled
  | .crawl (.answer a) =>
    match s.2.phase with
    | .starting (.op o _) =>
      match s.1.perform o a with
      | some (r, _) => { c with prelude := c.prelude ++ [⟨o, r⟩] }
      | none => c
    | _ => c
  | .crawl .next =>
    match s.2.phase with
    | .crawling _ url (.ret r) events => c.noteResult url events r
    | _ => c
  | .other _ => c

/-- The links returned for a URL. -/
def links (c : Crawled) (url : String) : List String :=
  (c.pages.filter fun p ↦ p.url = url).flatMap CrawledPage.inPrefixLinks

/-- The events up to the loop are those of the probe for a crawl delay, and then of a call of
`discover_urls` that returned `seeds`. -/
def SitemapSeeds (X : Crates) (fetcher : Fetcher) (ctx : PageContext) (c : Crawled)
    (seed : String) (seeds : List String) : Prop :=
  ∃ delay probe discovery, c.prelude = probe ++ discovery ∧
    Yields delay (crawlDelayFor X seed) probe ∧
    Yields seeds (discoverUrls X fetcher seed ctx.urlPrefix 10000) discovery

theorem mem_links {c : Crawled} {url v : String} :
    v ∈ c.links url ↔ ∃ p ∈ c.pages, p.url = url ∧ v ∈ p.inPrefixLinks := by
  simp only [links, List.mem_flatMap, List.mem_filter, decide_eq_true_eq, and_assoc]

/-- One more page that succeeded. -/
theorem mem_links_append {c : Crawled} {page : CrawledPage} {u v : String} :
    v ∈ links { c with pages := c.pages ++ [page] } u ↔
      v ∈ c.links u ∨ u = page.url ∧ v ∈ page.inPrefixLinks := by
  simp only [mem_links, List.mem_append, List.mem_singleton, or_and_right, exists_or,
    exists_eq_left]
  exact or_congr_right (and_congr_left fun _ ↦ eq_comm)

end Crawled

variable {X : Crates} {valid : Url → Prop} {fetcher : Fetcher} {ctx : PageContext}
  {config : DriverConfig}

/-- What the prelude returns, in terms of its events. -/
theorem frontier_of_yields {events : List CrawlEvent} {d : DriverState}
    (h : Yields (.ok d) (prelude X fetcher ctx config ctx.urlPrefix) events) :
    ∃ seed seeds, normalizeUrl X ctx.urlPrefix = some seed ∧
      (∀ pages, Crawled.SitemapSeeds X fetcher ctx ⟨events, pages⟩ seed seeds) ∧
      d.frontier = Worklist.empty.pushAll (seed :: seeds) := by
  unfold prelude at h
  split at h
  case h_1 => cases h.2
  case h_2 seed hseed =>
    obtain ⟨delay, probe, rest, rfl, hprobe, hrest⟩ := yields_bind.1 h
    obtain ⟨seeds, discovery, last, rfl, hdiscovery, rfl, hd⟩ := yields_bind.1 hrest
    obtain rfl := Except.ok.inj hd
    refine ⟨seed, seeds, hseed, fun pages ↦ ⟨delay, probe, discovery, ?_, hprobe, hdiscovery⟩, rfl⟩
    show probe ++ (discovery ++ []) = probe ++ discovery
    rw [List.append_nil]

/-! ### The search invariant -/

/-- The invariant: the worklist of the run is that of a search along the links observed so far. -/
structure Searches (X : Crates) (fetcher : Fetcher) (ctx : PageContext) (config : DriverConfig)
    (run : CrawlRun) (c : Crawled) : Prop where
  context : run.ctx = ctx ∧ run.fetcher = fetcher ∧ run.config = config
  starting : ∀ p, run.phase = .starting p → run.attempted = [] ∧ c.pages = [] ∧
    ∀ r rest, Yields r p rest →
      Yields r (prelude X fetcher ctx config ctx.urlPrefix) (c.prelude ++ rest)
  crawling : ∀ d url p events, run.phase = .crawling d url p events → url ∈ run.attempted
  searching : ∀ d ∈ run.driver, ∃ seed seeds, normalizeUrl X ctx.urlPrefix = some seed ∧
    c.SitemapSeeds X fetcher ctx seed seeds ∧
    Worklist.Explored c.links (seed :: seeds) d.frontier run.attempted ∧
    ∀ u, ∀ v ∈ c.links u, v ∈ d.frontier.visited

theorem searches_start (X : Crates) (fetcher : Fetcher) (ctx : PageContext)
    (config : DriverConfig) (now : Int) :
    Searches X fetcher ctx config (CrawlRun.start X fetcher ctx config now) ⟨[], []⟩ where
  context := ⟨rfl, rfl, rfl⟩
  starting := by
    rintro _ ⟨⟩
    exact ⟨rfl, rfl, fun _ _ h ↦ h⟩
  crawling _ _ _ _ h := by cases h
  searching _ h := by cases h

/-- The loop is entered with the seed and the URLs of the sitemaps. -/
theorem Searches.enter {run : CrawlRun} {c : Crawled} {d : DriverState}
    (hI : Searches X fetcher ctx config run c) (hp : run.phase = .starting (ret (.ok d))) :
    Searches X fetcher ctx config { run with phase := .looping d } c := by
  refine ⟨hI.context, fun _ h ↦ (by cases h), fun _ _ _ _ h ↦ (by cases h), ?_⟩
  rintro _ ⟨⟩
  obtain ⟨hattempted, hpages, hyields⟩ := hI.starting _ hp
  have hprelude := hyields (.ok d) [] ⟨rfl, rfl⟩
  rw [List.append_nil] at hprelude
  obtain ⟨seed, seeds, hseed, hsitemaps, hfrontier⟩ := frontier_of_yields hprelude
  have hnone : ∀ u, ∀ v ∈ c.links u, False := fun u v hv ↦ by
    obtain ⟨p, hmem, -⟩ := Crawled.mem_links.1 hv
    rw [hpages] at hmem
    exact List.not_mem_nil hmem
  refine ⟨seed, seeds, hseed, hsitemaps c.pages, ?_, fun u v hv ↦ (hnone u v hv).elim⟩
  show Worklist.Explored c.links (seed :: seeds) d.frontier run.attempted
  rw [hfrontier, hattempted]
  exact .start _ _

/-- A page is taken from the queue. -/
theorem Searches.take {run : CrawlRun} {c : Crawled} {d : DriverState} {url : String}
    {queue : List String} {p : Crawl (CrawlResult PageResult)}
    (hI : Searches X fetcher ctx config run c) (hp : run.phase = .looping d)
    (hq : d.frontier.queue = url :: queue) :
    Searches X fetcher ctx config
      { run with
        phase := .crawling { d with frontier := { d.frontier with queue := queue } } url p []
        attempted := run.attempted ++ [url] } c := by
  refine ⟨hI.context, fun _ h ↦ (by cases h), ?_, ?_⟩
  · rintro _ _ _ _ ⟨⟩
    exact List.mem_append_right _ (List.mem_singleton_self url)
  · rintro _ ⟨⟩
    obtain ⟨seed, seeds, hseed, hsitemaps, hexplored, hlinks⟩ :=
      hI.searching d (by rw [CrawlRun.driver, hp]; rfl)
    exact ⟨seed, seeds, hseed, hsitemaps, hexplored.take hq (hlinks url), hlinks⟩

/-- The result of a page is fed back, and its links are noted if it succeeded. -/
theorem Searches.feed {run : CrawlRun} {c : Crawled} {d : DriverState} {url : String}
    {r : CrawlResult PageResult} {events : List CrawlEvent}
    (hI : Searches X fetcher ctx config run c) (hp : run.phase = .crawling d url (ret r) events) :
    Searches X fetcher ctx config { run with phase := feed run.config d url r }
      (c.noteResult url events r) := by
  obtain ⟨seed, seeds, hseed, hsitemaps, hexplored, hlinks⟩ :=
    hI.searching d (by rw [CrawlRun.driver, hp]; rfl)
  have hurl : url ∈ d.frontier.visited := hexplored.done_visited url (hI.crawling _ _ _ _ hp)
  obtain ⟨d', hd, hfrontier⟩ := feed_cases run.config d url r
  refine ⟨hI.context, fun _ h ↦ absurd h feed_ne_starting,
    fun _ _ _ _ h ↦ absurd h feed_ne_crawling, fun d₁ h ↦ ?_⟩
  obtain rfl := CrawlRun.driver_feed hd h
  refine ⟨seed, seeds, hseed, ?_⟩
  cases r with
  | ok page =>
    refine ⟨hsitemaps, ?_, fun u v hv ↦ ?_⟩
    · rw [hfrontier.1]
      exact hexplored.learn hurl fun _ _ ↦ Crawled.mem_links_append
    · rw [hfrontier.1]
      refine Worklist.mem_visited_pushAll.2 ?_
      rcases Crawled.mem_links_append.1 hv with hv | ⟨-, hv⟩
      · exact Or.inl (hlinks u v hv)
      · exact Or.inr hv
  | error err =>
    have hsame : d₁.frontier = d.frontier ∨ d₁.frontier = (d.pushFront url).frontier := by
      cases err with
      | rateLimited retryAfter => exact hfrontier.1.imp And.left And.left
      | _ => exact Or.inl hfrontier.1
    obtain hsame | hsame := hsame
    · rw [hsame]
      exact ⟨hsitemaps, hexplored, hlinks⟩
    · rw [hsame]
      exact ⟨hsitemaps, hexplored.requeue hurl, hlinks⟩

/-- **One step of the search.** -/
theorem Searches.step {s s' : Engine × CrawlRun} {c : Crawled} {l : RunLabel}
    (hI : Searches X fetcher ctx config s.2 c) (h : (crawlMachine X).step s l = some s') :
    Searches X fetcher ctx config s'.2 (c.note s l) := by
  obtain ⟨e, run⟩ := s
  obtain ⟨e', run'⟩ := s'
  cases l with
  | other e₁ =>
    obtain ⟨-, rfl⟩ := Prod.mk.inj (Option.some.inj h)
    exact hI
  | crawl l =>
    obtain ⟨o, k, a, r, hp, rfl, hr, rfl⟩ | ⟨d, url, o, k, events, a, r, hp, rfl, hr, rfl⟩ |
      ⟨rfl, rfl, hn⟩ := CrawlRun.step_cases h
    · have hnote : c.note (e, run) (.crawl (.answer a)) =
          { c with prelude := c.prelude ++ [⟨o, r⟩] } := by
        simp only [Crawled.note, hp, hr]
      rw [hnote]
      obtain ⟨hattempted, hpages, hyields⟩ := hI.starting _ hp
      refine ⟨hI.context, ?_, fun _ _ _ _ h ↦ (by cases h), fun _ h ↦ by cases h⟩
      rintro _ ⟨⟩
      -- the answer is the first of those the rest of the prelude was waiting for
      refine ⟨hattempted, hpages, fun x rest hx ↦ ?_⟩
      rw [List.append_assoc]
      exact hyields x _ hx.op
    · have hnote : c.note (e, run) (.crawl (.answer a)) = c := by
        simp only [Crawled.note, hp]
      rw [hnote]
      refine ⟨hI.context, fun _ h ↦ (by cases h), ?_, ?_⟩
      · rintro _ _ _ _ ⟨⟩
        exact hI.crawling _ _ _ _ hp
      · rintro _ ⟨⟩
        exact hI.searching d (by rw [CrawlRun.driver, hp]; rfl)
    · obtain ⟨d, hp, rfl⟩ | ⟨_, hp, rfl⟩ | ⟨d, hp, rfl⟩ | ⟨d, url, queue, hp, hq, rfl⟩ |
        ⟨d, url, r, events, hp, rfl⟩ | ⟨d, _, hp, rfl⟩ := CrawlRun.next_cases hn
      · have hnote : c.note (e', run) (.crawl .next) = c := by simp only [Crawled.note, hp]
        rw [hnote]
        exact hI.enter hp
      · exact ⟨hI.context, fun _ h ↦ (by cases h), fun _ _ _ _ h ↦ (by cases h),
          fun _ h ↦ by cases h⟩
      · have hnote : c.note (e', run) (.crawl .next) = c := by simp only [Crawled.note, hp]
        rw [hnote]
        refine ⟨hI.context, fun _ h ↦ (by cases h), fun _ _ _ _ h ↦ (by cases h), ?_⟩
        rintro _ ⟨⟩
        exact hI.searching d (by rw [CrawlRun.driver, hp]; rfl)
      · have hnote : c.note (e', run) (.crawl .next) = c := by simp only [Crawled.note, hp]
        rw [hnote]
        exact hI.take hp hq
      · have hnote : c.note (e', run) (.crawl .next) = c.noteResult url events r := by
          simp only [Crawled.note, hp]
        rw [hnote]
        exact hI.feed hp
      · have hnote : c.note (e', run) (.crawl .next) = c := by simp only [Crawled.note, hp]
        rw [hnote]
        refine ⟨hI.context, fun _ h ↦ (by cases h), fun _ _ _ _ h ↦ (by cases h), ?_⟩
        rintro _ ⟨⟩
        exact hI.searching d (by rw [CrawlRun.driver, hp]; rfl)

/-! ### The links of the pages -/

/-- The pages that have succeeded, and the one being crawled, list where they lead. -/
structure Lists (X : Crates) (ctx : PageContext) (run : CrawlRun) (c : Crawled) : Prop where
  context : run.ctx = ctx
  crawling : run.PageMeets (fun _ _ ↦ True) (fun _ _ _ ↦ True) (ListsLeads X ctx)
  pages : ∀ p ∈ c.pages, ∀ v, v ∈ p.inPrefixLinks ↔ LeadsTo X ctx p.url p.events v

theorem lists_start (X : Crates) (fetcher : Fetcher) (ctx : PageContext) (config : DriverConfig)
    (now : Int) : Lists X ctx (CrawlRun.start X fetcher ctx config now) ⟨[], []⟩ where
  context := rfl
  crawling := CrawlRun.pageMeets_start fetcher ctx config now
  pages _ h := absurd h List.not_mem_nil

theorem Lists.noteResult {run : CrawlRun} {c : Crawled} {d : DriverState} {url : String}
    {r : CrawlResult PageResult} {events : List CrawlEvent} (hI : Lists X ctx run c)
    (hp : run.phase = .crawling d url (ret r) events) :
    ∀ p ∈ (c.noteResult url events r).pages, ∀ v,
      v ∈ p.inPrefixLinks ↔ LeadsTo X ctx p.url p.events v := by
  cases r with
  | error err => exact hI.pages
  | ok page =>
    intro p hmem
    rcases List.mem_append.1 hmem with hmem | hmem
    · exact hI.pages p hmem
    · obtain rfl := List.mem_singleton.1 hmem
      exact hI.crawling.result hp page rfl

theorem Lists.step {s s' : Engine × CrawlRun} {c : Crawled} {l : RunLabel}
    (hI : Lists X ctx s.2 c) (h : (crawlMachine X).step s l = some s') :
    Lists X ctx s'.2 (c.note s l) := by
  obtain ⟨e, run⟩ := s
  obtain ⟨e', run'⟩ := s'
  cases l with
  | other e₁ =>
    obtain ⟨-, rfl⟩ := Prod.mk.inj (Option.some.inj h)
    exact hI
  | crawl l =>
    have hstep : run.step X e l = some (e', run') := h
    have hctx : run.ctx = ctx := hI.context
    refine ⟨(CrawlRun.const_of_step hstep).1.trans hctx, ?_, ?_⟩
    · refine CrawlRun.PageMeets.step (fun url ↦ ?_) (fun _ _ _ _ _ _ _ _ _ _ ↦ trivial)
        hI.crawling hstep
      rw [hctx]
      exact wp_crawlPage_leadsTo run.fetcher ctx run.now url
    · cases l with
      | answer a =>
        show ∀ p ∈ (c.note (e, run) (.crawl (.answer a))).pages, _
        rw [Crawled.note]
        split
        · split <;> exact hI.pages
        · exact hI.pages
      | next =>
        show ∀ p ∈ (c.note (e, run) (.crawl .next)).pages, _
        rw [Crawled.note]
        split
        case h_1 hp => exact hI.noteResult hp
        case h_2 => exact hI.pages

/-! ### What a run attempts -/

/-- **Exactness and containment.** Whatever the servers answer and the other tasks do, every URL a
run attempts is in normal form and inside the prefix; the links a page returns when it succeeds are
all that it leads to inside the prefix, by a redirect, its canonical URL or a link; and if the run
ends with its queue empty, what it attempted is the least set that contains the seed and the URLs
`discover_urls` returned and is closed under the links of the pages that succeeded. -/
theorem attempted_isLeast (hX : X.UrlLaws valid) {e : Engine} {now : Int}
    {labels : List RunLabel} {s : Engine × CrawlRun}
    (hrun : (crawlMachine X).run (e, CrawlRun.start X fetcher ctx config now) labels = some s) :
    (∀ url ∈ s.2.attempted,
      normalizeUrl X url = some url ∧ isInPrefix X url ctx.urlPrefix = true) ∧
    ∀ c, (crawlMachine X).observe Crawled.note ⟨[], []⟩
        (e, CrawlRun.start X fetcher ctx config now) labels = c →
      (∀ p ∈ c.pages, ∀ v, v ∈ p.inPrefixLinks ↔ LeadsTo X ctx p.url p.events v) ∧
      ∀ d, s.2.phase = .ended d → d.frontier.queue = [] →
        ∃ seed seeds, normalizeUrl X ctx.urlPrefix = some seed ∧
          c.SitemapSeeds X fetcher ctx seed seeds ∧
          IsLeast {C : Set String | seed ∈ C ∧ (∀ url ∈ seeds, url ∈ C) ∧
            ∀ p ∈ c.pages, p.url ∈ C → ∀ v ∈ p.inPrefixLinks, v ∈ C}
            {url | url ∈ s.2.attempted} := by
  have hcontained := contained_of_run (K := fun u ↦ normalizeUrl X u = some u ∧
    isInPrefix X u ctx.urlPrefix = true) hX (fun _ _ hnorm hin ↦ ⟨normalizeUrl_idem hX hnorm, hin⟩)
    hrun
  refine ⟨hcontained.attempted, ?_⟩
  rintro c rfl
  have hlists : Lists X ctx s.2 _ :=
    Machine.observed_invariant (I := fun s c ↦ Lists X ctx s.2 c)
      (fun _ _ _ _ hI _ h ↦ hI.step h) (lists_start X fetcher ctx config now)
      (Machine.guarded_true _ labels) hrun
  refine ⟨hlists.pages, fun d hd hq ↦ ?_⟩
  have hI : Searches X fetcher ctx config s.2 _ :=
    Machine.observed_invariant (I := fun s c ↦ Searches X fetcher ctx config s.2 c)
      (fun _ _ _ _ hI _ h ↦ hI.step h) (searches_start X fetcher ctx config now)
      (Machine.guarded_true _ labels) hrun
  obtain ⟨seed, seeds, hseed, hsitemaps, hexplored, -⟩ :=
    hI.searching d (by rw [CrawlRun.driver, hd]; rfl)
  refine ⟨seed, seeds, hseed, hsitemaps, ?_⟩
  have hattempted : {url | url ∈ s.2.attempted} = {url | Worklist.Reach _ (seed :: seeds) url} :=
    Set.ext fun url ↦ hexplored.mem_done_iff hq
  rw [hattempted]
  -- a set is closed under the links of the pages just when it is closed page by page
  convert Worklist.isLeast_reach _ (seed :: seeds) using 2
  ext C
  simp only [List.forall_mem_cons, Crawled.mem_links, and_assoc]
  refine and_congr_right fun _ ↦ and_congr_right fun _ ↦ ?_
  constructor
  · rintro h x hx y ⟨p, hp, rfl, hy⟩
    exact h p hp hx y hy
  · exact fun h p hp hx y hy ↦ h p.url hx y ⟨p, hp, rfl, hy⟩

/-! ### A page of three names -/

namespace ThreeNames

def url (path : String) : Url := ⟨"https", "", none, some "guide.example", none, path, none, none⟩

def body : String := "<link rel=\"canonical\" href=\"/welcome/\"><body>Home</body>"

/-- What the crates compute on the site. -/
def crates : Crates := .ofTables
  { urls := ["/", "/home/", "/welcome/", "/sitemap.xml"].map fun path ↦
      ("https://guide.example" ++ path, url path)
    joins := [((url "/", "/home/"), url "/home/"), ((url "/home/", "/welcome/"), url "/welcome/"),
      ((url "/welcome/", "/welcome/"), url "/welcome/")]
    documents := [(body, ⟨[], [⟨"canonical", "/welcome/"⟩], [], some [⟨"Home", false⟩]⟩)]
    disallowed := []
    digests := [("\x00Home", "ee456c55d0bfe904935b840999e0935d2cac29bbf66df4b33d4310e7028c809c")] }

def start : Engine × CrawlRun :=
  (.start TwoPages.db [], .start crates ⟨"search-bot"⟩ TwoPages.target ⟨1000, 100⟩ 0)

/-- A page served in full, after the answers of its redirects. -/
def served (redirects : List CrawlLabel) : List CrawlLabel :=
  pageUpToFetch ++ redirects ++ [.answer (.http (.response (TwoPages.page body))), .answer .ok,
    .answer .ok, .answer .ok, .next]

/-- The start page redirects to the home page, which declares another URL canonical. -/
def labels : List RunLabel :=
  (plainPrelude none false ++ served [.answer (.http (.redirect .found "/home/"))] ++
    [CrawlLabel.next] ++ served [] ++ [CrawlLabel.next] ++ served [] ++
    [CrawlLabel.next]).map .crawl

/-- The page is crawled under its three names. -/
theorem attempted_isLeast_threeNames : ∃ s,
    (crawlMachine crates).run start labels = some s ∧
    s.2.attempted = ["https://guide.example/", "https://guide.example/home/",
      "https://guide.example/welcome/"] ∧
    ∃ (c : Crawled) (seed : String) (seeds : List String),
      (c.pages.map fun p ↦ (p.url, p.inPrefixLinks)) =
        [("https://guide.example/",
            ["https://guide.example/home/", "https://guide.example/welcome/"]),
          ("https://guide.example/home/", ["https://guide.example/welcome/"]),
          ("https://guide.example/welcome/", [])] ∧
      (∀ p ∈ c.pages, ∀ v,
        v ∈ p.inPrefixLinks ↔ LeadsTo crates TwoPages.target p.url p.events v) ∧
      normalizeUrl crates "https://guide.example/" = some seed ∧
      c.SitemapSeeds crates ⟨"search-bot"⟩ TwoPages.target seed seeds ∧
      IsLeast {C : Set String | seed ∈ C ∧ (∀ url ∈ seeds, url ∈ C) ∧
        ∀ p ∈ c.pages, p.url ∈ C → ∀ v ∈ p.inPrefixLinks, v ∈ C} {url | url ∈ s.2.attempted} := by
  have hlaws : crates.UrlLaws _ :=
    Crates.urlLaws_ofTables (by decide +kernel) (by decide +kernel)
  obtain ⟨s, hrun, hs⟩ : ∃ s, (crawlMachine crates).run start labels = some s ∧
      (decide (s.2.attempted = ["https://guide.example/", "https://guide.example/home/",
        "https://guide.example/welcome/"]) && s.2.completed) = true :=
    Machine.exists_run_of_any (by decide +kernel)
  obtain ⟨hattempted, hend⟩ := Bool.and_eq_true_iff.1 hs
  have hpages : (((crawlMachine crates).observe Crawled.note ⟨[], []⟩ start labels).pages.map
      fun p ↦ (p.url, p.inPrefixLinks)) =
        [("https://guide.example/",
            ["https://guide.example/home/", "https://guide.example/welcome/"]),
          ("https://guide.example/home/", ["https://guide.example/welcome/"]),
          ("https://guide.example/welcome/", [])] := by
    decide +kernel
  rw [CrawlRun.completed] at hend
  split at hend
  case h_1 d hd =>
    have hempty : d.frontier.queue.isEmpty = true :=
      (Bool.and_eq_true_iff.1 (Bool.and_eq_true_iff.1 hend).1).1
    obtain ⟨hleads, hleast⟩ := (attempted_isLeast hlaws hrun).2 _ rfl
    obtain ⟨seed, seeds, h⟩ := hleast d hd (List.isEmpty_iff.1 hempty)
    exact ⟨s, hrun, of_decide_eq_true hattempted, _, seed, seeds, hpages, hleads, h⟩
  case h_2 => cases hend

end ThreeNames

end CommunitySearch
