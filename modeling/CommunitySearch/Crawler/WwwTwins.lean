import CommunitySearch.Crawler.SearchExactness

/-!
# A site under two hosts

The prefix of a target admits the bare host and its `www.` form alike, so that a site is not stored
twice. But the set of visited URLs, the rows and the jobs are told apart by their whole strings:
`exists_twins` is a run that stores one page under both hosts.

What keeps the two forms apart is the site: `noTwins_of_guarded` holds of the runs in which every
page has settled on one of them, by where it redirects, by what it declares canonical, or by how it
is linked (`SettledOn`). That is so when the crawl starts from URLs of one form and no page points
to the other (`settlesOn_of_leadsInto`).
-/

namespace CommunitySearch

open Prog

variable {X : Crates} {fetcher : Fetcher} {ctx : PageContext} {config : DriverConfig} {now : Int}

/-! ### The `www.` form of a URL -/

namespace Url

/-- The URL with `www.` in front of its host. -/
def onWww (u : Url) : Url := { u with host := u.host.map ("www." ++ ·) }

/-- The URLs `a` and `b` differ only in that `a` has a leading `www.` on the host. -/
def WwwTwins (a b : String) : Prop :=
  ∃ u : Url, u.host.isSome = true ∧ a = u.onWww.toString ∧ b = u.toString

theorem length_toString_onWww {u : Url} (h : u.host.isSome = true) :
    u.onWww.toString.length = u.toString.length + 4 := by
  obtain ⟨host, hhost⟩ := Option.isSome_iff_exists.1 h
  have hwww : u.onWww.host = some ("www." ++ host) := by rw [onWww, hhost, Option.map_some]
  have hlen : ("www." : String).length = 4 := rfl
  simp only [Url.toString, authority, hwww, hhost, String.length_append, hlen]
  -- the other parts are the same
  simp only [onWww]
  omega

theorem WwwTwins.length_eq {a b : String} (h : WwwTwins a b) : a.length = b.length + 4 := by
  obtain ⟨u, hhost, rfl, rfl⟩ := h
  exact length_toString_onWww hhost

end Url

/-! ### The jobs of a run -/

/-- An observer of the jobs a run has handed to the channel. -/
def handJob (jobs : List IndexJob) (s : Engine × CrawlRun) : RunLabel → List IndexJob
  | .crawl (.answer _) => jobs ++ s.2.sending.toList
  | _ => jobs

/-- No two of the jobs have URLs that differ only in a leading `www.` of the host. -/
def NoTwins (jobs : List IndexJob) : Prop :=
  ∀ a ∈ jobs, ∀ b ∈ jobs, ¬ Url.WwwTwins a.url b.url

/-! ### A site that has settled -/

/-- The response to the hop at `target`, made for the page `url`, is no page to index, or it has
settled on `S`: it was redirected to a URL of `S` in the prefix, or else declares one of `S`
canonical, or else was requested under one. -/
def SettledOn (X : Crates) (S : String → Prop) (ctx : PageContext) (url : String)
    (events : List CrawlEvent) (target : Url) (r : HttpResponse) : Prop :=
  r.isPage = true → ∀ body ∈ r.body, alreadyIndexed X (priorRow events) body = false →
    (∀ redirect ∈ redirectUrl X ctx url target.toString, S redirect) ∧
      (redirectUrl X ctx url target.toString = none →
        (∀ canonical ∈ canonicalUrl X ctx url body target.toString, S canonical) ∧
          (canonicalUrl X ctx url body target.toString = none → S url))

instance (X : Crates) (S : String → Prop) [DecidablePred S] (ctx : PageContext) (url : String)
    (events : List CrawlEvent) (target : Url) (r : HttpResponse) :
    Decidable (SettledOn X S ctx url events target r) :=
  inferInstanceAs (Decidable (_ → ∀ body ∈ r.body, _ → (∀ c ∈ redirectUrl X ctx url _, S c) ∧
    (_ → (∀ c ∈ canonicalUrl X ctx url body _, S c) ∧ (_ → S url))))

/-- A page that has settled is indexed where it has. -/
theorem SettledOn.indexUrl {S : String → Prop} {url : String} {events : List CrawlEvent}
    {target : Url} {r : HttpResponse} (h : SettledOn X S ctx url events target r)
    (hpage : r.isPage = true) {body : String} (hbody : body ∈ r.body)
    (hnew : alreadyIndexed X (priorRow events) body = false) :
    S (indexUrl X ctx url body target.toString) := by
  obtain ⟨hredirect, hstays⟩ := h hpage body hbody hnew
  rw [CommunitySearch.indexUrl]
  rcases hr : redirectUrl X ctx url target.toString with - | c
  · obtain ⟨hcanonical, hplain⟩ := hstays hr
    rcases hc : canonicalUrl X ctx url body target.toString with - | c
    · exact hplain hc
    · exact hcanonical c hc
  · exact hredirect c hr

/-- The admissible steps: a page that is served has settled on a URL of `S`. -/
def SettlesOn (X : Crates) (S : String → Prop) (s : Engine × CrawlRun) : RunLabel → Prop
  | .crawl (.answer (.http (.response r))) =>
    ∀ target ∈ s.2.requested, SettledOn X S s.2.ctx s.2.page s.2.events target r
  | _ => True

instance (X : Crates) (S : String → Prop) [DecidablePred S] (s : Engine × CrawlRun) :
    (l : RunLabel) → Decidable (SettlesOn X S s l)
  | .crawl (.answer (.http (.response r))) =>
    inferInstanceAs (Decidable (∀ target ∈ s.2.requested,
      SettledOn X S s.2.ctx s.2.page s.2.events target r))
  | .crawl (.answer (.http (.redirect ..))) | .crawl (.answer (.http .failed))
  | .crawl (.answer (.robots _)) | .crawl (.answer (.order _)) | .crawl (.answer .ok)
  | .crawl (.answer .sqlError) | .crawl .next | .other _ => isTrue trivial

/-- `SettlesOn`, as a condition on the events of the page `url`. -/
def SettledAfter (X : Crates) (S : String → Prop) (ctx : PageContext) (url : String)
    (events : List CrawlEvent) : CrawlEvent → Prop
  | ⟨.request .page target _ _, .response r⟩ => SettledOn X S ctx url events target r
  | _ => True

theorem settledAfter_of_perform {S : String → Prop} {e e' : Engine} {run : CrawlRun}
    {d : DriverState} {url : String} {o : CrawlOp} {k : o.Resp → Crawl (CrawlResult PageResult)}
    {events : List CrawlEvent} {a : Answer} {r : o.Resp}
    (hp : run.phase = .crawling d url (.op o k) events)
    (hok : SettlesOn X S (e, run) (.crawl (.answer a))) (h : e.perform o a = some (r, e')) :
    SettledAfter X S run.ctx url events ⟨o, r⟩ := by
  unfold SettledAfter
  split
  case h_1 target spelled v r he =>
    obtain ⟨rfl, hr⟩ := Sigma.mk.inj he
    obtain rfl := eq_of_heq hr
    obtain ⟨rfl, hrequested⟩ := CrawlRun.requested_of_response (by rw [CrawlRun.nextOp, hp]) h
    have hsettled := hok target hrequested
    rw [CrawlRun.page, CrawlRun.events, hp] at hsettled
    exact hsettled
  case h_2 => trivial

/-! ### Runs of a site that has settled -/

/-- The page being crawled sends the job of the response it got, which has settled. -/
def CrawlRun.Settling (X : Crates) (S : String → Prop) (run : CrawlRun) : Prop :=
  ∀ d url p events, run.phase = .crawling d url p events →
    wp (history (SettledAfter X S run.ctx url))
      (SendSpec X run.ctx run.now url (SettledAfter X S run.ctx url)) (fun _ _ ↦ True) p events

theorem CrawlRun.Settling.step {S : String → Prop} {e e' : Engine} {run run' : CrawlRun}
    {l : CrawlLabel} (hI : run.Settling X S) (hok : SettlesOn X S (e, run) (.crawl l))
    (h : run.step X e l = some (e', run')) : run'.Settling X S := by
  obtain ⟨hctx, -, -, hnow⟩ := CrawlRun.const_of_step h
  intro d url p events hphase
  rw [hctx, hnow]
  obtain ⟨rfl, rfl, -⟩ | ⟨d₀, o, k, events₀, a, r, hp, rfl, hr, rfl, rfl, -⟩ :=
    CrawlRun.page_of_step h hphase
  · exact wp_mono (fun _ _ _ ↦ trivial) (wp_crawlPage _ _ _ _)
  · exact wp_op_step (hI _ _ _ _ hp) ⟨settledAfter_of_perform hp hok hr, rfl⟩

/-- **A page that has settled is indexed under a URL of `S`.** -/
theorem CrawlRun.Settling.url_sending {S : String → Prop} {run : CrawlRun} {job : IndexJob}
    (hI : run.Settling X S) (hpre : run.Preluding) (h : run.sending = some job) : S job.url := by
  obtain hop | ⟨d, url, k, events, hp⟩ := hpre.of_nextOp (CrawlRun.sending_eq_some.1 h)
  · exact hop.elim
  · obtain ⟨u, r, body, -, hpage, hbody, hnew, rfl, pre, spelled, v, hrow, hG⟩ :=
      (hI _ _ _ _ hp).1
    have hprior : priorRow pre = priorRow events := by rw [priorRow, hrow, Option.join_some]
    exact SettledOn.indexUrl hG hpage hbody (hprior ▸ hnew)

/-- **No double storing.** In every run of `crawl_target` in which each page that is indexed has
settled on one of its two forms, no two of the jobs have URLs that differ only in a leading
`www.`. -/
theorem noTwins_of_guarded {S : String → Prop} (hS : ∀ a b, S a → S b → ¬ Url.WwwTwins a b)
    {e : Engine} {labels : List RunLabel} {s : Engine × CrawlRun}
    (hok : (crawlMachine X).Guarded (SettlesOn X S)
      (e, CrawlRun.start X fetcher ctx config now) labels)
    (hrun : (crawlMachine X).run (e, CrawlRun.start X fetcher ctx config now) labels = some s) :
    NoTwins ((crawlMachine X).observe handJob []
      (e, CrawlRun.start X fetcher ctx config now) labels) := by
  have hI : s.2.Settling X S ∧ s.2.Preluding ∧ ∀ job ∈ (crawlMachine X).observe handJob []
      (e, CrawlRun.start X fetcher ctx config now) labels, S job.url := by
    refine Machine.observed_invariant (f := handJob)
      (I := fun s jobs ↦ s.2.Settling X S ∧ s.2.Preluding ∧ ∀ job ∈ jobs, S job.url) ?_
      ⟨?_, CrawlRun.preluding_start _ _ _ _, fun _ h ↦ absurd h List.not_mem_nil⟩ hok hrun
    · rintro ⟨e, run⟩ jobs l ⟨e', run'⟩ ⟨hsettling, hpre, hjobs⟩ hl h
      cases l with
      | other e₁ =>
        obtain ⟨-, rfl⟩ := Prod.mk.inj (Option.some.inj h)
        exact ⟨hsettling, hpre, hjobs⟩
      | crawl l =>
        refine ⟨hsettling.step hl h, hpre.step h, fun job hjob ↦ ?_⟩
        cases l with
        | next => exact hjobs job hjob
        | answer a =>
          rcases List.mem_append.1 hjob with hjob | hjob
          · exact hjobs job hjob
          · exact hsettling.url_sending hpre (Option.mem_toList.1 hjob)
    · intro d url p events hphase
      cases hphase
  intro a ha b hb
  exact hS _ _ (hI.2.2 a ha) (hI.2.2 b hb)

/-! ### A site that leads into one form -/

/-- The loop the run enters next. -/
def CrawlRun.entering (run : CrawlRun) : Option DriverState :=
  match run.phase with
  | .starting (.ret (.ok d)) => some d
  | _ => none

/-- The admissible steps: the crawl starts from URLs of `S`, and a page that is served points to
URLs of `S`. -/
def LeadsInto (X : Crates) (S : String → Prop) (s : Engine × CrawlRun) : RunLabel → Prop
  | .crawl (.answer (.http (.response r))) =>
    r.isPage = true → ∀ target ∈ s.2.requested, ∀ body ∈ r.body, ∀ v,
      PointsTo X s.2.ctx s.2.page body target.toString v → S v
  | .crawl .next => ∀ d ∈ s.2.entering, ∀ u ∈ d.frontier.queue, S u
  | _ => True

/-- What is queued is in `S`, and so is the page being crawled and what it leads to. -/
structure CrawlRun.Into (X : Crates) (S : String → Prop) (run : CrawlRun) : Prop where
  queued : ∀ d ∈ run.driver, ∀ u ∈ d.frontier.queue, S u
  page : ∀ d url p events, run.phase = .crawling d url p events →
    S url ∧ ∀ v, LeadsTo X run.ctx url events v → S v
  lists : run.PageMeets (fun _ _ ↦ True) (fun _ _ _ ↦ True) (ListsLeads X run.ctx)

theorem CrawlRun.into_start {S : String → Prop} :
    (CrawlRun.start X fetcher ctx config now).Into X S where
  queued _ h := nomatch h
  page _ _ _ _ h := nomatch h
  lists := CrawlRun.pageMeets_start _ _ _ _

/-- One more event of a page: the page leads nowhere new, or was served just now. -/
theorem LeadsTo.of_append {url v : String} {events : List CrawlEvent} {o : CrawlOp} {r : o.Resp}
    (h : LeadsTo X ctx url (events ++ [⟨o, r⟩]) v) : LeadsTo X ctx url events v ∨
      ∃ target spelled w response body, (⟨o, r⟩ : CrawlEvent) =
          ⟨.request .page target spelled w, .response response⟩ ∧ response.isPage = true ∧
        response.body = some body ∧ PointsTo X ctx url body target.toString v := by
  obtain ⟨target, response, body, hserved, hpage, hbody, hpoints⟩ := h
  rw [servedPage, List.findSome?_append] at hserved
  rcases hbefore : servedPage events with - | served
  · rw [servedPage] at hbefore
    rw [hbefore, Option.none_or, List.findSome?_singleton] at hserved
    unfold CrawlEvent.served? at hserved
    split at hserved
    case h_1 he =>
      obtain ⟨rfl, rfl⟩ := Prod.mk.inj (Option.some.inj hserved)
      exact Or.inr ⟨_, _, _, _, body, he, hpage, hbody, hpoints⟩
    case h_2 => cases hserved
  · rw [servedPage] at hbefore
    rw [hbefore, Option.some_or] at hserved
    exact Or.inl ⟨target, response, body, hbefore.trans hserved, hpage, hbody, hpoints⟩

theorem CrawlRun.Into.queued_step {S : String → Prop} {e e' : Engine} {run run' : CrawlRun}
    {l : CrawlLabel} (hI : run.Into X S) (hok : LeadsInto X S (e, run) (.crawl l))
    (h : run.step X e l = some (e', run')) : ∀ d ∈ run'.driver, ∀ u ∈ d.frontier.queue, S u := by
  refine CrawlRun.queued_of_step (fun d hp ↦ ?_) hI.queued (fun d url r events hp ↦ ?_) h
  · cases l with
    | answer a =>
      rw [CrawlRun.step, CrawlRun.answer, hp] at h
      cases h
    | next => exact hok d (by rw [CrawlRun.entering, hp]; rfl)
  · obtain ⟨hurl, hleads⟩ := hI.page _ _ _ _ hp
    exact ⟨hurl, fun page hpage u hu ↦ hleads u ((hI.lists.result hp page hpage u).1 hu)⟩

/-- **A run stays in the form it is led into.** -/
theorem CrawlRun.Into.step {S : String → Prop} {e e' : Engine} {run run' : CrawlRun}
    {l : CrawlLabel} (hI : run.Into X S) (hok : LeadsInto X S (e, run) (.crawl l))
    (h : run.step X e l = some (e', run')) : run'.Into X S := by
  have hctx : run'.ctx = run.ctx := (CrawlRun.const_of_step h).1
  refine ⟨hI.queued_step hok h, fun d url p events hphase ↦ ?_, ?_⟩
  · rw [hctx]
    obtain ⟨-, rfl, htaken⟩ | ⟨_, o, k, events₀, a, r, hp, rfl, hr, -, rfl, -⟩ :=
      CrawlRun.page_of_step h hphase
    · refine ⟨?_, fun v hv ↦ ?_⟩
      · obtain hsame | ⟨d, url', queue, hd, hq, htaken'⟩ := CrawlRun.attempted_of_step h
        · exact absurd (hsame.symm.trans htaken) (by simp)
        · obtain rfl : url' = url := by simpa using htaken'.symm.trans htaken
          exact hI.queued d hd url' (hq ▸ List.mem_cons_self)
      · obtain ⟨_, _, _, hserved, -⟩ := hv
        cases hserved
    · obtain ⟨hurl, hleads⟩ := hI.page _ _ _ _ hp
      refine ⟨hurl, fun v hv ↦ ?_⟩
      obtain hv | ⟨target, spelled, w, response, body, he, hpage, hbody, hpoints⟩ := hv.of_append
      · exact hleads v hv
      · obtain ⟨rfl, hresponse⟩ := Sigma.mk.inj he
        obtain rfl := eq_of_heq hresponse
        obtain ⟨rfl, hrequested⟩ := CrawlRun.requested_of_response (by rw [CrawlRun.nextOp, hp]) hr
        refine hok hpage target hrequested body hbody v ?_
        rw [CrawlRun.page, hp]
        exact hpoints
  · rw [hctx]
    exact CrawlRun.PageMeets.step (fun url ↦ wp_crawlPage_leadsTo run.fetcher run.ctx run.now url)
      (fun _ _ _ _ _ _ _ _ _ _ ↦ trivial) hI.lists h

/-- **A site that leads into one form has settled on it.** If a crawl starts from URLs of `S`, and
the pages it is served redirect to, declare canonical and link to URLs of `S` alone as far as they
lie in the prefix, then each of them has settled on a URL of `S`. -/
theorem settlesOn_of_leadsInto {S : String → Prop} {e : Engine} {labels : List RunLabel}
    (hok : (crawlMachine X).Guarded (LeadsInto X S)
      (e, CrawlRun.start X fetcher ctx config now) labels) :
    (crawlMachine X).Guarded (SettlesOn X S)
      (e, CrawlRun.start X fetcher ctx config now) labels := by
  refine hok.of_invariant (I := fun s ↦ s.2.Into X S ∧ s.2.Preluding) ?_ ?_
    ⟨CrawlRun.into_start, CrawlRun.preluding_start _ _ _ _⟩
  · rintro ⟨e, run⟩ l ⟨e', run'⟩ ⟨hinto, hpre⟩ hl h
    cases l with
    | other e₁ =>
      obtain ⟨-, rfl⟩ := Prod.mk.inj (Option.some.inj h)
      exact ⟨hinto, hpre⟩
    | crawl l => exact ⟨hinto.step hl h, hpre.step h⟩
  · rintro ⟨e, run⟩ l ⟨hinto, hpre⟩ hl
    unfold SettlesOn
    split
    case h_1 r =>
      intro target htarget hpage body hbody _
      have hpoints := hl hpage target htarget body hbody
      refine ⟨fun redirect h ↦ ?_, fun _ ↦ ⟨fun canonical h ↦ ?_, fun _ ↦ ?_⟩⟩
      · obtain ⟨hnorm, hne, hin⟩ := redirectUrl_eq_some.1 h
        exact hpoints redirect ⟨hin, Or.inl ⟨hnorm, hne⟩⟩
      · obtain ⟨hnorm, hne, -, hin⟩ := canonicalUrl_eq_some.1 h
        exact hpoints canonical ⟨hin, Or.inr (Or.inl ⟨hnorm, hne⟩)⟩
      · obtain ⟨spelled, v, hop⟩ := CrawlRun.requested_eq_some htarget
        obtain hprelude | ⟨d, url, k, events, hp⟩ := hpre.of_nextOp hop
        · cases hprelude
        · rw [CrawlRun.page, hp]
          exact (hinto.page _ _ _ _ hp).1
    case h_2 => trivial

/-- A site of two pages, served under one host. -/
theorem noTwins_of_guarded_twoPages : ∃ s,
    (crawlMachine TwoPages.crates).run (TwoPages.start (.start TwoPages.db []) 0)
      TwoPages.full = some s ∧
    NoTwins ((crawlMachine TwoPages.crates).observe handJob []
      (TwoPages.start (.start TwoPages.db []) 0) TwoPages.full) := by
  obtain ⟨s, hrun, -⟩ : ∃ s, (crawlMachine TwoPages.crates).run
      (TwoPages.start (.start TwoPages.db []) 0) TwoPages.full = some s ∧ true = true :=
    Machine.exists_run_of_any (by decide +kernel)
  refine ⟨s, hrun, noTwins_of_guarded
    (S := (· ∈ ["https://guide.example/", "https://guide.example/more/"])) ?_
    (by decide +kernel) hrun⟩
  have hlen : ∀ a ∈ ["https://guide.example/", "https://guide.example/more/"],
      ∀ b ∈ ["https://guide.example/", "https://guide.example/more/"],
        a.length ≠ b.length + 4 := by
    decide
  exact fun a b ha hb htwins ↦ hlen a ha b hb htwins.length_eq

/-! ### One page under two hosts -/

namespace TwoHosts

def home (host : String) : Url := ⟨"https", "", none, some host, none, "/", none, none⟩

/-- The home page links to the `www.` form of itself. -/
def body : String := "<body><a href=\"https://www.guide.example/\">Home</a></body>"

/-- What the crates compute on the page. -/
def crates : Crates := .ofTables
  { urls := [("https://guide.example/", home "guide.example"),
      ("https://www.guide.example/", home "www.guide.example"),
      ("https://guide.example/sitemap.xml", { home "guide.example" with path := "/sitemap.xml" })]
    joins := ["guide.example", "www.guide.example"].map fun host ↦
      ((home host, "https://www.guide.example/"), home "www.guide.example")
    documents := [(body, ⟨[⟨"https://www.guide.example/", "Home"⟩], [], [],
      some [⟨"Home", false⟩]⟩)]
    disallowed := []
    digests := [("\x00Home", "ee456c55d0bfe904935b840999e0935d2cac29bbf66df4b33d4310e7028c809c")] }

def start : Engine × CrawlRun :=
  (.start TwoPages.db [], .start crates ⟨"search-bot"⟩ TwoPages.target ⟨1000, 100⟩ 0)

/-- The page is served under the bare host, then under the other. -/
def labels : List RunLabel :=
  (plainPrelude none false ++ TwoPages.served body ++
    [CrawlLabel.next, .next, .answer .ok, .answer (.robots none), .answer .ok, .answer .ok,
      .answer .ok, .answer (.http (.response (TwoPages.page body))), .answer .ok,
      .answer .ok]).map .crawl

end TwoHosts

/-- A page is stored under both hosts. -/
theorem exists_twins : ¬ ∀ labels s,
    (crawlMachine TwoHosts.crates).run TwoHosts.start labels = some s →
      NoTwins ((crawlMachine TwoHosts.crates).observe handJob [] TwoHosts.start labels) := by
  obtain ⟨s, hrun, -⟩ : ∃ s, (crawlMachine TwoHosts.crates).run TwoHosts.start TwoHosts.labels =
      some s ∧ true = true :=
    Machine.exists_run_of_any (by decide +kernel)
  have hjobs : ((crawlMachine TwoHosts.crates).observe handJob [] TwoHosts.start
      TwoHosts.labels).map IndexJob.url =
        ["https://guide.example/", "https://www.guide.example/"] := by
    decide +kernel
  intro h
  obtain ⟨a, ha, hurl⟩ := List.exists_of_mem_map (f := IndexJob.url)
    (hjobs ▸ List.mem_cons_of_mem _ (List.mem_singleton_self "https://www.guide.example/"))
  obtain ⟨b, hb, hurl'⟩ := List.exists_of_mem_map (f := IndexJob.url)
    (hjobs ▸ List.mem_cons_self (a := "https://guide.example/"))
  refine h _ s hrun a ha b hb ⟨TwoHosts.home "guide.example", rfl, ?_, ?_⟩
  · rw [hurl]
    rfl
  · rw [hurl']
    rfl

end CommunitySearch
