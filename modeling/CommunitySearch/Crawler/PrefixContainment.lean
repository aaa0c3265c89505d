import CommunitySearch.Crawler.PageSpec

/-!
# Prefix containment

Which URLs a run of `crawl_target` works on, and where the content it indexes was served.

The URLs are always in the prefix: the seed by the laws of the `url` crate
(`isInPrefix_of_normalizeUrl`), the others because every source of them tests. The content is
tested nowhere: a page is indexed under an in-prefix URL wherever the last redirect led. So
`jobInPrefix_of_guarded` holds of the runs in which no page is indexed that a URL outside the
prefix served (`ServesPrefix`).
-/

namespace CommunitySearch

open Prog

variable {X : Crates} {valid : Url → Prop}

/-! ### The URLs a run works on -/

/-- Nothing is assumed of an answer, except that iterating over a set lists its elements. -/
def AnyAnswer : (o : CrawlOp) → o.Resp → Prop
  | .intoIter found, l => l.Perm found
  | _, _ => True

section Property

/- `K` is any property of the URLs of the prefix in normal form. -/
variable {K : String → Prop} {pre : String}

theorem returns_addUrls
    (hK : ∀ s u, normalizeUrl X s = some u → isInPrefix X u pre = true → K u) {maxUrls : ℕ}
    {us found : List String} (h : ∀ u ∈ found, K u) :
    Returns AnyAnswer (fun r ↦ ∀ u ∈ r.1, K u) (addUrls X pre maxUrls us found) := by
  induction us generalizing found with
  | nil => exact h
  | cons u us ih =>
    rw [addUrls]
    split
    case h_1 => exact ih h
    case h_2 norm hnorm =>
      split
      case isTrue => exact ih h
      case isFalse hin =>
        have hin : isInPrefix X norm pre = true := by simpa using hin
        have hinsert : ∀ v ∈ insertUrl found norm, K v := fun v hv ↦ by
          rw [insertUrl] at hv
          split at hv
          · exact h v hv
          · rcases List.mem_append.1 hv with hv | hv
            · exact h v hv
            · rw [List.mem_singleton.1 hv]
              exact hK u norm hnorm hin
        refine returns_bind.2 (returns_of_forall _ fun allowed ↦ ?_)
        split
        · exact ih h
        · dsimp only
          split
          · exact hinsert
          · exact ih hinsert

theorem returns_visitSitemaps
    (hK : ∀ s u, normalizeUrl X s = some u → isInPrefix X u pre = true → K u) {fetcher : Fetcher}
    {maxUrls : ℕ} {urls : List String} {s : SitemapRound} (h : ∀ u ∈ s.found, K u) :
    Returns AnyAnswer (fun s' ↦ ∀ u ∈ s'.found, K u)
      (visitSitemaps X fetcher pre maxUrls urls s) := by
  induction urls generalizing s with
  | nil => exact h
  | cons url urls ih =>
    rw [visitSitemaps]
    split
    · exact ih h
    · dsimp only
      refine returns_bind.2 (returns_of_forall _ fun allowed ↦ ?_)
      split
      · exact ih h
      · refine returns_bind.2 (returns_of_forall _ fun body ↦ ?_)
        split
        · split
          · exact ih h
          · refine returns_bind.2 ((returns_addUrls hK h).mono fun r hr ↦ ?_)
            split
            · exact hr
            · exact ih hr
          · exact ih h
        · exact ih h

theorem returns_sitemapRounds
    (hK : ∀ s u, normalizeUrl X s = some u → isInPrefix X u pre = true → K u) {fetcher : Fetcher}
    {maxUrls depth : ℕ} {toVisit : List String} {s : SitemapRound} (h : ∀ u ∈ s.found, K u) :
    Returns AnyAnswer (fun found ↦ ∀ u ∈ found, K u)
      (sitemapRounds X fetcher pre maxUrls depth toVisit s) := by
  have hround : ∀ {toVisit : List String} {s : SitemapRound}, (∀ u ∈ s.found, K u) →
      Returns AnyAnswer (fun s' ↦ ∀ u ∈ s'.found, K u)
        (visitSitemaps X fetcher pre maxUrls toVisit { s with nextRound := [] }) :=
    fun {toVisit s} h ↦ returns_visitSitemaps hK (s := { s with nextRound := [] }) h
  induction depth generalizing toVisit s with
  | zero =>
    refine returns_bind.2 ((hround h).mono fun s' hs' ↦ ?_)
    split <;> exact hs'
  | succ depth ih =>
    refine returns_bind.2 ((hround h).mono fun s' hs' ↦ ?_)
    split
    · exact hs'
    · exact ih hs'

/-- **Sitemaps contribute in-prefix URLs only**, and in normal form. -/
theorem returns_discoverUrls
    (hK : ∀ s u, normalizeUrl X s = some u → isInPrefix X u pre = true → K u) (fetcher : Fetcher)
    (seedUrl : String) (maxUrls : ℕ) :
    Returns AnyAnswer (fun found ↦ ∀ u ∈ found, K u)
      (discoverUrls X fetcher seedUrl pre maxUrls) := by
  have hnil : ∀ u ∈ ([] : List String), K u := fun _ h ↦ nomatch h
  rw [discoverUrls]
  split
  · exact hnil
  · refine returns_bind.2 (returns_of_forall _ fun candidates ↦ ?_)
    split
    · exact hnil
    · refine returns_bind.2 ((returns_sitemapRounds hK hnil).mono fun found hfound ↦ ?_)
      exact returns_op.2 fun l hl u hu ↦ hfound u (List.Perm.mem_iff hl |>.1 hu)

/-- **The frontier starts inside the prefix.** -/
theorem returns_prelude (hX : X.UrlLaws valid) {ctx : PageContext}
    (hK : ∀ s u, normalizeUrl X s = some u → isInPrefix X u ctx.urlPrefix = true → K u)
    (fetcher : Fetcher) (config : DriverConfig) :
    Returns AnyAnswer (fun r ↦ ∀ d, r = .ok d → ∀ u ∈ d.frontier.queue, K u)
      (prelude X fetcher ctx config ctx.urlPrefix) := by
  unfold prelude
  split
  case h_1 => exact fun _ h ↦ nomatch h
  case h_2 seed hseed =>
    refine returns_bind.2 (returns_of_forall _ fun delay ↦ ?_)
    refine returns_bind.2 ((returns_discoverUrls hK _ _ _).mono fun seeds hseeds ↦ ?_)
    rintro d hd u hu
    obtain rfl := Except.ok.inj hd
    rcases Worklist.mem_queue_pushAll hu with hu | hu
    · exact nomatch hu
    · rcases List.mem_cons.1 hu with rfl | hu
      · exact hK _ _ hseed (isInPrefix_of_normalizeUrl hX hseed)
      · exact hseeds u hu

theorem of_redirectUrl {ctx : PageContext}
    (hK : ∀ s u, normalizeUrl X s = some u → isInPrefix X u ctx.urlPrefix = true → K u)
    {url finalUrl c : String} (h : redirectUrl X ctx url finalUrl = some c) : K c := by
  obtain ⟨hc, hin⟩ := Option.filter_eq_some_iff.1 h
  exact hK _ c (Option.filter_eq_some_iff.1 hc).1 hin

theorem of_canonicalUrl {ctx : PageContext}
    (hK : ∀ s u, normalizeUrl X s = some u → isInPrefix X u ctx.urlPrefix = true → K u)
    {url body finalUrl c : String} (h : canonicalUrl X ctx url body finalUrl = some c) : K c := by
  obtain ⟨hc, hin⟩ := Option.filter_eq_some_iff.1 h
  have hdeclared := (Option.filter_eq_some_iff.1 (Option.filter_eq_some_iff.1 hc).1).1
  obtain ⟨t, -, ht⟩ := Option.bind_eq_some_iff.1 hdeclared
  exact hK t c ht hin

/-- The outcome of a fetch leads to in-prefix URLs only. -/
theorem of_mem_outcomeLinks {ctx : PageContext}
    (hK : ∀ s u, normalizeUrl X s = some u → isInPrefix X u ctx.urlPrefix = true → K u)
    {url u : String} {outcome : FetchOutcome} (h : u ∈ outcomeLinks X ctx url outcome) : K u := by
  cases outcome with
  | fresh status body etag lm finalUrl =>
    rcases List.mem_append.1 h with h | h
    · rcases List.mem_append.1 h with h | h
      · exact of_redirectUrl hK (Option.mem_toList.1 h)
      · exact of_canonicalUrl hK (Option.mem_toList.1 h)
    · obtain ⟨hmem, hin⟩ := List.mem_filter.1 h
      obtain ⟨link, -, hlink⟩ := List.mem_filterMap.1 hmem
      exact hK _ u hlink hin
  | _ => exact nomatch h

/-- **A page contributes in-prefix URLs only.** -/
theorem returns_crawlPage {ctx : PageContext}
    (hK : ∀ s u, normalizeUrl X s = some u → isInPrefix X u ctx.urlPrefix = true → K u)
    (fetcher : Fetcher) (now : Int) (url : String) :
    Returns AnyAnswer (fun r ↦ ∀ p, r = .ok p → ∀ u ∈ p.inPrefixLinks, K u)
      (crawlPage X fetcher ctx now url) := by
  refine returns_attempt.2 (returns_of_forall _ fun r ↦ ?_)
  cases r with
  | error err => exact fun _ h ↦ nomatch h
  | ok allowed =>
    dsimp only
    split
    · exact fun _ h ↦ nomatch h
    · refine returns_op.2 fun row _ ↦ ?_
      cases row with
      | none => exact fun _ h ↦ nomatch h
      | some prior =>
        refine returns_attempt.2 (returns_of_forall _ fun outcome ↦ ?_)
        cases outcome with
        | error err => exact fun _ h ↦ nomatch h
        | ok outcome =>
          refine wp_mono (fun r _ hr p hp u hu ↦ ?_)
            (wp_handleOutcome_links (fun _ _ _ ↦ trivial) url now prior outcome ())
          exact of_mem_outcomeLinks hK (hr p hp ▸ hu)

/-! ### Runs -/

/-- The invariant: what is queued or has been attempted has the property, and so has what the rest
of the run will queue. -/
structure Contained (K : String → Prop) (run : CrawlRun) : Prop where
  starting : ∀ p, run.phase = .starting p → Returns AnyAnswer
    (fun r ↦ ∀ d, r = .ok d → ∀ u ∈ d.frontier.queue, K u) p
  queued : ∀ d ∈ run.driver, ∀ u ∈ d.frontier.queue, K u
  crawling : ∀ d url p events, run.phase = .crawling d url p events →
    K url ∧ Returns AnyAnswer (fun r ↦ ∀ p, r = .ok p → ∀ u ∈ p.inPrefixLinks, K u) p
  attempted : ∀ u ∈ run.attempted, K u

theorem anyAnswer_of_perform {e e' : Engine} {o : CrawlOp} {a : Answer} {r : o.Resp}
    (h : e.perform o a = some (r, e')) : AnyAnswer o r := by
  cases o with
  | intoIter found => exact (Engine.performed_of_perform h).1
  | _ => trivial

theorem contained_start (hX : X.UrlLaws valid) {ctx : PageContext}
    (hK : ∀ s u, normalizeUrl X s = some u → isInPrefix X u ctx.urlPrefix = true → K u)
    (fetcher : Fetcher) (config : DriverConfig) (now : Int) :
    Contained K (CrawlRun.start X fetcher ctx config now) where
  starting := by
    rintro _ ⟨⟩
    exact returns_prelude hX hK fetcher config
  queued _ h := nomatch h
  crawling _ _ _ _ h := nomatch h
  attempted _ h := nomatch h

/-- What is queued after a step has the property, if what the loop is entered with has it, the URL
to retry, and the links of a page. -/
theorem CrawlRun.queued_of_step {e e' : Engine} {run run' : CrawlRun} {l : CrawlLabel}
    (hstart : ∀ d, run.phase = .starting (ret (.ok d)) → ∀ u ∈ d.frontier.queue, K u)
    (hqueued : ∀ d ∈ run.driver, ∀ u ∈ d.frontier.queue, K u)
    (hpage : ∀ d url r events, run.phase = .crawling d url (ret r) events →
      K url ∧ ∀ page, r = .ok page → ∀ u ∈ page.inPrefixLinks, K u)
    (h : run.step X e l = some (e', run')) :
    ∀ d ∈ run'.driver, ∀ u ∈ d.frontier.queue, K u := by
  intro d' hd' u hu
  obtain hp | hd | ⟨d, url, queue, hd, hq, rfl⟩ | ⟨d, url, r, events, hp, rfl⟩ :=
    CrawlRun.driver_of_step h hd'
  · exact hstart d' hp u hu
  · exact hqueued d' hd u hu
  · refine hqueued d hd u ?_
    rw [hq]
    exact List.mem_cons_of_mem url hu
  · obtain ⟨hurl, hlinks⟩ := hpage _ _ _ _ hp
    have hqueued := hqueued d (by rw [CrawlRun.driver, hp]; rfl)
    obtain ⟨d₁, hd₁, hfrontier⟩ := feed_cases run.config d url r
    obtain rfl := CrawlRun.driver_feed hd₁ hd'
    cases r with
    | ok page =>
      rw [hfrontier.1] at hu
      exact (Worklist.mem_queue_pushAll hu).elim (hqueued u) (hlinks page rfl u)
    | error err =>
      cases err with
      | rateLimited retryAfter =>
        rcases hfrontier.1 with ⟨he, -⟩ | ⟨he, -⟩
        · rw [he] at hu
          exact hqueued u hu
        · rw [he] at hu
          rcases List.mem_cons.1 hu with rfl | hu
          · exact hurl
          · exact hqueued u hu
      | _ =>
        rw [hfrontier.1] at hu
        exact hqueued u hu

theorem Contained.queued_step {e e' : Engine} {run run' : CrawlRun} {l : CrawlLabel}
    (hI : Contained K run) (h : run.step X e l = some (e', run')) :
    ∀ d ∈ run'.driver, ∀ u ∈ d.frontier.queue, K u :=
  CrawlRun.queued_of_step (fun d hp ↦ hI.starting _ hp d rfl) hI.queued
    (fun _ _ _ _ hp ↦ hI.crawling _ _ _ _ hp) h

theorem Contained.attempted_step {e e' : Engine} {run run' : CrawlRun} {l : CrawlLabel}
    (hI : Contained K run) (h : run.step X e l = some (e', run')) : ∀ u ∈ run'.attempted, K u := by
  intro u hu
  obtain hsame | ⟨d, url, queue, hd, hq, htaken⟩ := CrawlRun.attempted_of_step h
  · exact hI.attempted u (hsame ▸ hu)
  · rw [htaken] at hu
    rcases List.mem_append.1 hu with hu | hu
    · exact hI.attempted u hu
    · rw [List.mem_singleton.1 hu]
      exact hI.queued d hd url (hq ▸ List.mem_cons_self)

/-- **A run stays inside its prefix.** -/
theorem Contained.step {e e' : Engine} {run run' : CrawlRun} {l : CrawlLabel}
    (hK : ∀ s u, normalizeUrl X s = some u → isInPrefix X u run.ctx.urlPrefix = true → K u)
    (hI : Contained K run) (h : run.step X e l = some (e', run')) : Contained K run' where
  starting p hphase := by
    obtain ⟨o, k, a, r, hp, -, hr, rfl, -⟩ := CrawlRun.prelude_of_step h hphase
    exact returns_op.1 (hI.starting _ hp) r (anyAnswer_of_perform hr)
  queued := hI.queued_step h
  crawling d url p events hphase := by
    obtain ⟨rfl, -, htaken⟩ | ⟨_, o, k, _, a, r, hp, -, hr, rfl, -, -⟩ :=
      CrawlRun.page_of_step h hphase
    · have hmem : url ∈ run'.attempted := by
        rw [htaken]
        exact List.mem_append_right _ (List.mem_singleton_self url)
      exact ⟨hI.attempted_step h url hmem, returns_crawlPage hK _ _ _⟩
    · obtain ⟨hurl, hpage⟩ := hI.crawling _ _ _ _ hp
      exact ⟨hurl, returns_op.1 hpage r (anyAnswer_of_perform hr)⟩
  attempted := hI.attempted_step h

/-- **What a run attempts has the property**, whatever the other tasks do. -/
theorem contained_of_run (hX : X.UrlLaws valid) {e : Engine} {fetcher : Fetcher}
    {ctx : PageContext} {config : DriverConfig} {now : Int} {labels : List RunLabel}
    {s : Engine × CrawlRun}
    (hK : ∀ s u, normalizeUrl X s = some u → isInPrefix X u ctx.urlPrefix = true → K u)
    (hrun : (crawlMachine X).run (e, CrawlRun.start X fetcher ctx config now) labels = some s) :
    Contained K s.2 := by
  refine (Machine.invariant (M := crawlMachine X)
    (I := fun s ↦ s.2.ctx = ctx ∧ Contained K s.2) ?_
    ⟨rfl, contained_start hX hK fetcher config now⟩ ⟨labels, hrun⟩).2
  rintro ⟨e, run⟩ l ⟨e', run'⟩ ⟨rfl, hcont⟩ h
  cases l with
  | other e₁ =>
    obtain ⟨-, rfl⟩ := Prod.mk.inj (Option.some.inj h)
    exact ⟨rfl, hcont⟩
  | crawl l => exact ⟨(CrawlRun.const_of_step h).1, hcont.step hK h⟩

end Property

/-! ### What a run indexes -/

/-- The URL a page is indexed under is in the prefix, if the URL requested is. -/
theorem isInPrefix_indexUrl {ctx : PageContext} {url body finalUrl : String}
    (h : isInPrefix X url ctx.urlPrefix = true) :
    isInPrefix X (indexUrl X ctx url body finalUrl) ctx.urlPrefix = true := by
  rcases hr : redirectUrl X ctx url finalUrl with - | c
  · rcases hc : canonicalUrl X ctx url body finalUrl with - | c
    · rw [indexUrl, hr, hc]
      exact h
    · rw [indexUrl, hr, hc]
      exact of_canonicalUrl (fun _ _ _ h ↦ h) hc
  · rw [indexUrl, hr]
    exact of_redirectUrl (fun _ _ _ h ↦ h) hr

/-- The response of the hop at `target` is no page to index, or `target` is in the prefix. -/
def ServedInPrefix (X : Crates) (pre : String) (events : List CrawlEvent) (target : Url)
    (r : HttpResponse) : Prop :=
  r.isPage = true → ∀ body ∈ r.body, alreadyIndexed X (priorRow events) body = false →
    isInPrefix X target.toString pre = true

instance (X : Crates) (pre : String) (events : List CrawlEvent) (target : Url)
    (r : HttpResponse) : Decidable (ServedInPrefix X pre events target r) :=
  inferInstanceAs (Decidable (_ → ∀ body ∈ r.body, _ → _))

/-- The admissible steps: a page that is indexed is served inside the prefix. -/
def ServesPrefix (X : Crates) (s : Engine × CrawlRun) : RunLabel → Prop
  | .crawl (.answer (.http (.response r))) =>
    ∀ target ∈ s.2.requested, ServedInPrefix X s.2.ctx.urlPrefix s.2.events target r
  | _ => True

instance (X : Crates) (s : Engine × CrawlRun) : (l : RunLabel) → Decidable (ServesPrefix X s l)
  | .crawl (.answer (.http (.response r))) =>
    inferInstanceAs (Decidable (∀ target ∈ s.2.requested,
      ServedInPrefix X s.2.ctx.urlPrefix s.2.events target r))
  | .crawl (.answer (.http (.redirect ..))) | .crawl (.answer (.http .failed))
  | .crawl (.answer (.robots _)) | .crawl (.answer (.order _)) | .crawl (.answer .ok)
  | .crawl (.answer .sqlError) | .crawl .next | .other _ => isTrue trivial

/-- `ServesPrefix`, as a condition on the events of a page. -/
def ServedInPrefixAfter (X : Crates) (pre : String) (events : List CrawlEvent) :
    CrawlEvent → Prop
  | ⟨.request .page target _ _, .response r⟩ => ServedInPrefix X pre events target r
  | _ => True

/-- The job a run is about to send: its URL is in the prefix, and its content is that of a page
served in the prefix. -/
def JobInPrefix (X : Crates) (s : Engine × CrawlRun) : Prop :=
  ∀ job ∈ s.2.sending,
    isInPrefix X job.url s.2.ctx.urlPrefix = true ∧
      ∃ u r body, servedPage s.2.events = some (u, r) ∧ r.body = some body ∧
        job.title = (parseText X body).title ∧ job.body = (parseText X body).text ∧
        isInPrefix X u.toString s.2.ctx.urlPrefix = true

theorem servedInPrefixAfter_of_perform {e e' : Engine} {run : CrawlRun} {o : CrawlOp} {a : Answer}
    {r : o.Resp} {events : List CrawlEvent} (hop : run.nextOp = some o)
    (hevents : run.events = events) (hok : ServesPrefix X (e, run) (.crawl (.answer a)))
    (h : e.perform o a = some (r, e')) :
    ServedInPrefixAfter X run.ctx.urlPrefix events ⟨o, r⟩ := by
  unfold ServedInPrefixAfter
  split
  case h_1 target spelled v r he =>
    obtain ⟨rfl, hr⟩ := Sigma.mk.inj he
    obtain rfl := eq_of_heq hr
    obtain ⟨rfl, hrequested⟩ := CrawlRun.requested_of_response hop h
    exact hevents ▸ hok target hrequested
  case h_2 => trivial

/-- **Prefix containment.** In every run of `crawl_target` in which no page is indexed that a URL
outside the prefix served, every job sent has its URL in the prefix and its content from a page
served in the prefix. -/
theorem jobInPrefix_of_guarded (hX : X.UrlLaws valid) {e : Engine} {fetcher : Fetcher}
    {ctx : PageContext} {config : DriverConfig} {now : Int} {labels : List RunLabel}
    {s : Engine × CrawlRun}
    (hok : (crawlMachine X).Guarded (ServesPrefix X)
      (e, CrawlRun.start X fetcher ctx config now) labels)
    (hrun : (crawlMachine X).run (e, CrawlRun.start X fetcher ctx config now) labels = some s) :
    JobInPrefix X s := by
  have hcont := contained_of_run (K := fun u ↦ isInPrefix X u ctx.urlPrefix = true) hX
    (fun _ _ _ h ↦ h) hrun
  have hI : (s.2.ctx = ctx ∧ s.2.now = now) ∧
      s.2.PageMeets (ServedInPrefixAfter X ctx.urlPrefix)
        (fun url ↦ SendSpec X ctx now url (ServedInPrefixAfter X ctx.urlPrefix))
        (fun _ _ _ ↦ True) := by
    refine Machine.guarded_invariant
      (I := fun s ↦ (s.2.ctx = ctx ∧ s.2.now = now) ∧
        s.2.PageMeets (ServedInPrefixAfter X ctx.urlPrefix)
          (fun url ↦ SendSpec X ctx now url (ServedInPrefixAfter X ctx.urlPrefix))
          (fun _ _ _ ↦ True)) ?_
      ⟨⟨rfl, rfl⟩, CrawlRun.pageMeets_start _ _ _ _⟩ hok hrun
    rintro ⟨e, run⟩ l ⟨e', run'⟩ ⟨⟨rfl, rfl⟩, hmeets⟩ hl h
    cases l with
    | other e₁ =>
      obtain ⟨-, rfl⟩ := Prod.mk.inj (Option.some.inj h)
      exact ⟨⟨rfl, rfl⟩, hmeets⟩
    | crawl l =>
      obtain ⟨hctx, -, -, hnow⟩ := CrawlRun.const_of_step h
      refine ⟨⟨hctx, hnow⟩, hmeets.step (fun url ↦ ?_) ?_ h⟩
      · exact wp_mono (fun _ _ _ ↦ trivial) (wp_crawlPage _ _ _ _)
      · rintro d url o k events a r hp rfl hr
        refine servedInPrefixAfter_of_perform ?_ ?_ hl hr
        · rw [CrawlRun.nextOp, hp]
        · rw [CrawlRun.events, hp]
  obtain ⟨e', run⟩ := s
  obtain ⟨⟨rfl, rfl⟩, hmeets⟩ := hI
  intro job hjob
  -- a send is no step of the prelude, so it belongs to a page and meets its specification
  obtain hpre | ⟨d, url, k, events, hp⟩ := (CrawlRun.preluding_of_run hrun).of_nextOp
    (CrawlRun.sending_eq_some.1 hjob)
  · exact hpre.elim
  · have hevents : run.events = events := by rw [CrawlRun.events, hp]
    obtain ⟨u, r, body, hserved, hpage, hbody, hnew, rfl, pre, spelled, v, hrow, hG⟩ :=
      hmeets.nextOp hp
    have hprior : priorRow pre = priorRow events := by rw [priorRow, hrow, Option.join_some]
    rw [hevents]
    exact ⟨isInPrefix_indexUrl (hcont.crawling _ _ _ _ hp).1, u, r, body, hserved, hbody, rfl, rfl,
      hG hpage body hbody (hprior ▸ hnew)⟩

/-! ### A page that is served from elsewhere -/

namespace Welcome

def guide (path : String) : Url := ⟨"https", "", none, some "guide.example", none, path, none, none⟩

/-- A URL outside the prefix. -/
def elsewhere : Url := ⟨"https", "", none, some "elsewhere.example", none, "/", none, none⟩

def body : String := "<title>Guide</title><body>Welcome</body>"

/-- What the crates compute on the pages involved. -/
def tables : CrateTables where
  urls := [("https://guide.example/", guide "/"),
    ("https://guide.example/sitemap.xml", guide "/sitemap.xml"),
    ("https://elsewhere.example/", elsewhere)]
  joins := [((guide "/", "https://elsewhere.example/"), elsewhere)]
  documents := [(body, ⟨[], [], ["Guide"], some [⟨"Welcome", false⟩]⟩)]
  disallowed := []
  digests := [("Guide\x00Welcome",
    "747d8793c1e950ede0166417c9dff052295acb64071978f1283c415037ae5928")]

def crates : Crates := .ofTables tables

/-- A run over the whole site. -/
def start : Engine × CrawlRun :=
  (.init, .start crates ⟨"search-bot"⟩ ⟨⟨0⟩, ⟨1⟩, "https://guide.example/", "guide"⟩ ⟨1000, 100⟩ 0)

/-- The page is answered by `answers`, the last of which serves it, and its job is counted. -/
def labels (answers : List HttpAnswer) : List RunLabel :=
  (plainPrelude none false ++ pageUpToFetch ++ answers.map (fun a ↦ CrawlLabel.answer (.http a)) ++
    [CrawlLabel.answer .ok]).map .crawl

def page : HttpResponse := ⟨200, some "text/html", none, none, none, some body⟩

/-- The job sent for the page, wherever it is served. -/
def job : IndexJob where
  collectionName := "guide"
  url := "https://guide.example/"
  title := "Guide"
  body := "Welcome"
  indexedAt := 0
  collectionId := ⟨0⟩
  contentHash := "747d8793c1e950ede0166417c9dff052295acb64071978f1283c415037ae5928"
  crawlTargetId := some ⟨1⟩

end Welcome

/-- The seed redirects to another host, and what that host serves is indexed under the seed. -/
theorem not_jobInPrefix : ¬ ∀ labels s,
    (crawlMachine Welcome.crates).run Welcome.start labels = some s →
      JobInPrefix Welcome.crates s := by
  obtain ⟨s, hrun, hs⟩ : ∃ s, (crawlMachine Welcome.crates).run Welcome.start
      (Welcome.labels [.redirect .found "https://elsewhere.example/", .response Welcome.page]) =
        some s ∧ decide (s.2.sending = some Welcome.job ∧
          servedPage s.2.events = some (Welcome.elsewhere, Welcome.page) ∧
          isInPrefix Welcome.crates Welcome.elsewhere.toString s.2.ctx.urlPrefix = false) = true :=
    Machine.exists_run_of_any (by decide +kernel)
  obtain ⟨hsend, hserved, houtside⟩ := of_decide_eq_true hs
  intro h
  obtain ⟨-, u, r, _, hu, -, -, -, hin⟩ := h _ s hrun _ hsend
  obtain ⟨rfl, -⟩ := Prod.mk.inj (Option.some.inj (hserved.symm.trans hu))
  exact nomatch houtside.symm.trans hin

/-- A page that is served where it was requested. -/
theorem jobInPrefix_of_guarded_welcome : ∃ s,
    (crawlMachine Welcome.crates).run Welcome.start (Welcome.labels [.response Welcome.page]) =
      some s ∧ s.2.sending = some Welcome.job ∧ JobInPrefix Welcome.crates s := by
  obtain ⟨s, hrun, hs⟩ : ∃ s, (crawlMachine Welcome.crates).run Welcome.start
      (Welcome.labels [.response Welcome.page]) = some s ∧
        decide (s.2.sending = some Welcome.job) = true :=
    Machine.exists_run_of_any (by decide +kernel)
  have hlaws := Crates.urlLaws_ofTables (t := Welcome.tables) (by decide +kernel)
    (by decide +kernel)
  exact ⟨s, hrun, of_decide_eq_true hs,
    jobInPrefix_of_guarded hlaws (by decide +kernel) hrun⟩

end CommunitySearch
