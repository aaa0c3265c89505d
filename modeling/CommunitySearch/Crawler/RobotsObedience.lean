import CommunitySearch.Crawler.PageSpec

/-!
# Robots obedience

`crawl_page` asks the robots checker about the URL it was given and then leaves the fetch to the
HTTP client, which follows redirects without asking again. So the URL a page crawl starts with is
always allowed by the rules of its origin, and the URL of a further hop is allowed exactly as far
as the servers redirect to allowed URLs.

`pageRequestsAllowed_of_guarded` is the run theorem: as long as no redirect that is followed leads
to a URL its origin's loaded rules do not allow (`RedirectObeys`), every page request is allowed.
-/

namespace CommunitySearch

open Prog

variable (X : Crates)

/-! ### What the cache allows -/

namespace RobotsCache

/-- The rules loaded for the origin of a URL allow it; nothing is allowed on an origin that is not
loaded. -/
def allows (cache : RobotsCache) (target : Url) (spelled : String) : Bool :=
  match target.origin.bind cache.get with
  | some entry => verdict X (some entry) spelled
  | none => false

/-- A page request is for an allowed URL; the other operations are free. -/
def Permits (cache : RobotsCache) : CrawlOp → Prop
  | .request .page target spelled _ => cache.allows X target spelled = true
  | _ => True

instance (cache : RobotsCache) : (o : CrawlOp) → Decidable (cache.Permits X o)
  | .request .page target spelled _ =>
    inferInstanceAs (Decidable (cache.allows X target spelled = true))
  | .request .sitemap .. | .robotsTxt _ | .cacheGet _ | .cacheInsert .. | .intoIter _
  | .getByUrl .. | .inflightAdd _ | .send _ | .upsert _ | .recordHit .. => isTrue trivial

variable {X} {cache cache' : RobotsCache}

theorem Keeps.allows (h : cache.Keeps cache') {target : Url} {spelled : String}
    (ha : cache.allows X target spelled = true) : cache'.allows X target spelled = true := by
  rw [RobotsCache.allows] at ha ⊢
  rcases hb : target.origin.bind cache.get with - | entry
  · rw [hb] at ha
    cases ha
  · obtain ⟨origin, ho, hget⟩ := Option.bind_eq_some_iff.1 hb
    rw [ho, Option.bind_some, h.get hget]
    rwa [hb] at ha

theorem Keeps.permits (h : cache.Keeps cache') {o : CrawlOp} (ho : cache.Permits X o) :
    cache'.Permits X o := by
  unfold Permits at ho ⊢
  split
  · exact h.allows ho
  · trivial

end RobotsCache

/-! ### A page under obedient servers -/

/-- The redirects a page has been answered with. -/
def redirects (events : List CrawlEvent) : ℕ := events.countP CrawlEvent.isRedirect

/-- Answers under which a page stays obedient. The world is the robots cache and the number of
redirects so far: the cache answers for itself and keeps what is loaded, and a redirect that will
be followed leads to an allowed URL. -/
def obeys : RobotsCache × ℕ → (o : CrawlOp) → o.Resp → RobotsCache × ℕ → Prop
  | (cache, n), .cacheGet origin, entry, (cache', n') =>
    cache.Keeps cache' ∧ n' = n ∧ entry = cache'.get origin
  | (_, n), .cacheInsert origin robot, _, (cache', n') => n' = n ∧ cache'.get origin = some robot
  | (cache, n), .request .page target _ _, .redirect status location, (cache', n') =>
    cache.Keeps cache' ∧ n' = n + 1 ∧ (n < MAX_REDIRECTS →
      ∀ next, X.redirectTarget target status location = some next →
        cache'.allows X next next.toString = true)
  | (cache, n), _, _, (cache', n') => cache.Keeps cache' ∧ n' = n

variable {X}

/-- What is known of the checker's verdict: the rules of the origin are loaded, and they are what
it was read from. -/
theorem wp_isAllowed_obeys (url : String) (cache : RobotsCache) (n : ℕ) :
    wp (obeys X) (fun w o ↦ w.1.Permits X o)
      (fun r w ↦ w.2 = n ∧ (r = .ok true → ∃ u, X.parse url = some u ∧
        w.1.allows X u url = true))
      (isAllowed X url) (cache, n) := by
  -- from an origin that is loaded, the verdict is read
  have hread : ∀ u origin (cache : RobotsCache) entry, X.parse url = some u →
      u.origin = some origin → cache.get origin = some entry →
      wp (obeys X) (fun w o ↦ w.1.Permits X o)
        (fun r w ↦ w.2 = n ∧ (r = .ok true → ∃ u, X.parse url = some u ∧
          w.1.allows X u url = true))
        (.op (.cacheGet origin) fun entry ↦ ret (.ok (verdict X entry url)) :
          Crawl (CrawlResult Bool)) (cache, n) := by
    intro u origin cache entry hu ho hget
    refine ⟨trivial, ?_⟩
    rintro _ ⟨cache', n'⟩ ⟨hkeep, rfl, rfl⟩
    refine ⟨rfl, fun hv ↦ ⟨u, hu, ?_⟩⟩
    have hv : verdict X (cache'.get origin) url = true := Except.ok.inj hv
    have hget' : cache'.get origin = some entry := hkeep.get hget
    rw [RobotsCache.allows, ho, Option.bind_some, hget']
    rwa [hget'] at hv
  have herr : ∀ (err : CrawlError) (w : RobotsCache × ℕ), w.2 = n →
      w.2 = n ∧ ((.error err : CrawlResult Bool) = .ok true → ∃ u, X.parse url = some u ∧
        w.1.allows X u url = true) := fun _ _ hw ↦ ⟨hw, fun h ↦ nomatch h⟩
  rw [isAllowed, readEntry, wp_attempt]
  rw [ensureCached]
  split
  case h_1 => exact herr _ _ rfl
  case h_2 u hu =>
    split
    case h_1 => exact herr _ _ rfl
    case h_2 origin ho =>
      refine ⟨trivial, ?_⟩
      rintro entry ⟨cache', n'⟩ ⟨-, rfl, hentry⟩
      cases entry with
      | some entry => exact hread u origin cache' entry hu ho hentry.symm
      | none =>
        refine ⟨trivial, ?_⟩
        rintro robot ⟨cache'', n''⟩ ⟨-, rfl⟩
        refine ⟨trivial, ?_⟩
        rintro _ ⟨cache₃, n₃⟩ ⟨rfl, hget⟩
        exact hread u origin cache₃ robot hu ho hget

/-- Every hop of a fetch is allowed, if the first one is. -/
theorem wp_follow_obeys {v : Validators} {hops n : ℕ} (hn : n + hops = MAX_REDIRECTS)
    {current : Url} {spelled : String} {cache : RobotsCache}
    (h : cache.allows X current spelled = true) :
    wp (obeys X) (fun w o ↦ w.1.Permits X o) (fun _ _ ↦ True)
      (follow X .page v hops current spelled) (cache, n) := by
  induction hops generalizing n current spelled cache with
  | zero =>
    refine ⟨h, ?_⟩
    rintro answer w -
    cases answer with
    | failed => trivial
    | response r => trivial
    | redirect status location =>
      dsimp only
      split <;> trivial
  | succ hops ih =>
    refine ⟨h, ?_⟩
    rintro answer ⟨cache', n'⟩ hw
    cases answer with
    | failed => trivial
    | response r => trivial
    | redirect status location =>
      obtain ⟨-, rfl, hnext⟩ := hw
      dsimp only
      split
      case h_1 => trivial
      case h_2 next hjoin => exact ih (by omega) (hnext (by omega) next hjoin)

/-- **A page under obedient servers requests allowed URLs only.** -/
theorem wp_crawlPage_obeys (fetcher : Fetcher) (ctx : PageContext) (now : Int) (url : String)
    (cache : RobotsCache) :
    wp (obeys X) (fun w o ↦ w.1.Permits X o) (fun _ _ ↦ True)
      (crawlPage X fetcher ctx now url) (cache, 0) := by
  refine wp_attempt.2 (wp_mono (fun r w hr ↦ ?_) (wp_isAllowed_obeys url cache 0))
  obtain ⟨cache₁, n⟩ := w
  obtain ⟨rfl, hallowed⟩ := hr
  cases r with
  | error err => trivial
  | ok allowed =>
    cases allowed with
    | false => trivial
    | true =>
      obtain ⟨u, hu, ha⟩ := hallowed rfl
      -- the row is read in between, and what the cache has allowed it still allows
      refine ⟨trivial, ?_⟩
      rintro row ⟨cache₂, n⟩ ⟨hkeep, rfl⟩
      cases row with
      | none => trivial
      | some prior =>
        have hclient : ∀ v, wp (obeys X) (fun w o ↦ w.1.Permits X o) (fun _ _ ↦ True)
            (clientGet X .page url v) (cache₂, 0) := fun v ↦ by
          rw [clientGet, hu]
          exact wp_follow_obeys rfl (hkeep.allows ha)
        refine wp_attempt.2 ?_
        rw [fetch]
        split
        · refine wp_bind.2 (wp_mono (fun res w _ ↦ ?_) (hclient _))
          have hhandle : ∀ outcome, wp (obeys X) (fun w o ↦ w.1.Permits X o) (fun _ _ ↦ True)
              (handleOutcome X ctx url now prior outcome) w := fun outcome ↦ by
            refine (performs_handleOutcome ctx url now prior outcome).wp (I := fun _ ↦ True)
              (fun w o _ ho ↦ ?_) (fun _ _ _ _ _ _ _ ↦ trivial) trivial
            cases o <;> trivial
          cases res with
          | none => trivial
          | some res =>
            obtain ⟨r, finalUrl⟩ := res
            refine wp_ret.2 ?_
            split
            · exact hhandle _
            · trivial
        · trivial

/-! ### Runs -/

/-- The admissible steps: a redirect that is followed leads to a URL that the rules loaded for its
origin allow, and the other tasks do not replace loaded rules. -/
def RedirectObeys (X : Crates) (s : Engine × CrawlRun) : RunLabel → Prop
  | .crawl (.answer (.http (.redirect status location))) =>
    redirects s.2.events < MAX_REDIRECTS → ∀ target ∈ s.2.requested,
      ∀ next ∈ X.redirectTarget target status location,
        s.1.robotsCache.allows X next next.toString = true
  | .crawl _ => True
  | .other e' => s.1.robotsCache.Keeps e'.robotsCache

instance (X : Crates) (s : Engine × CrawlRun) : (l : RunLabel) → Decidable (RedirectObeys X s l)
  | .crawl (.answer (.http (.redirect status location))) =>
    inferInstanceAs (Decidable (redirects s.2.events < MAX_REDIRECTS → ∀ target ∈ s.2.requested,
      ∀ next ∈ X.redirectTarget target status location,
        s.1.robotsCache.allows X next next.toString = true))
  | .crawl (.answer (.http (.response _))) | .crawl (.answer (.http .failed))
  | .crawl (.answer (.robots _)) | .crawl (.answer (.order _)) | .crawl (.answer .ok)
  | .crawl (.answer .sqlError) | .crawl .next => isTrue trivial
  | .other e' => inferInstanceAs (Decidable (s.1.robotsCache.Keeps e'.robotsCache))

/-- The page a run is about to request is allowed by the rules loaded for its origin. -/
def PageRequestAllowed (X : Crates) (s : Engine × CrawlRun) : Prop :=
  ∀ o ∈ s.2.nextOp, s.1.robotsCache.Permits X o

instance (X : Crates) (s : Engine × CrawlRun) : Decidable (PageRequestAllowed X s) :=
  inferInstanceAs (Decidable (∀ o ∈ s.2.nextOp, s.1.robotsCache.Permits X o))

/-- The invariant: what is left of a page requests allowed URLs only, under obedient servers. -/
def Obedient (X : Crates) (s : Engine × CrawlRun) : Prop :=
  ∀ d url p events, s.2.phase = .crawling d url p events →
    ∃ cache, RobotsCache.Keeps cache s.1.robotsCache ∧
      wp (obeys X) (fun w o ↦ w.1.Permits X o) (fun _ _ ↦ True) p (cache, redirects events)

theorem redirects_append (events : List CrawlEvent) (e : CrawlEvent) :
    redirects (events ++ [e]) = redirects events + if e.isRedirect then 1 else 0 := by
  rw [redirects, List.countP_append, List.countP_singleton]
  rfl

/-- The engine's answers under an admissible label are obedient ones. -/
theorem obeys_of_perform {e e' : Engine} {run : CrawlRun} {o : CrawlOp} {a : Answer} {r : o.Resp}
    {cache : RobotsCache} {events : List CrawlEvent} (hkeep : cache.Keeps e.robotsCache)
    (hop : run.nextOp = some o) (hevents : run.events = events)
    (hok : RedirectObeys X (e, run) (.crawl (.answer a))) (h : e.perform o a = some (r, e')) :
    obeys X (cache, redirects events) o r (e'.robotsCache, redirects (events ++ [⟨o, r⟩])) := by
  rw [redirects_append]
  have hanswer := Engine.performed_of_perform h
  cases o with
  | request kind target spelled v =>
    obtain ⟨rfl, rfl⟩ := hanswer
    cases r with
    | failed => cases kind <;> exact ⟨hkeep, rfl⟩
    | response _ => cases kind <;> exact ⟨hkeep, rfl⟩
    | redirect status location =>
      cases kind with
      | sitemap => exact ⟨hkeep, rfl⟩
      | page =>
        refine ⟨hkeep, rfl, fun hlt next hnext ↦ ?_⟩
        have hrequested : target ∈ run.requested := by
          rw [CrawlRun.requested, hop]
          rfl
        exact hok (hevents ▸ hlt) target hrequested next hnext
  | robotsTxt _ =>
    obtain ⟨-, rfl⟩ := hanswer
    exact ⟨hkeep, rfl⟩
  | cacheGet origin =>
    obtain ⟨rfl, rfl⟩ := hanswer
    exact ⟨hkeep, rfl, rfl⟩
  | cacheInsert origin robot =>
    obtain rfl := hanswer
    refine ⟨rfl, ?_⟩
    rw [RobotsCache.get_insert, if_pos rfl]
  | intoIter _ =>
    obtain ⟨-, rfl⟩ := hanswer
    exact ⟨hkeep, rfl⟩
  | _ => exact ⟨hanswer ▸ hkeep, rfl⟩

theorem obedient_of_step {s s' : Engine × CrawlRun} {l : RunLabel} (hI : Obedient X s)
    (hok : RedirectObeys X s l) (h : (crawlMachine X).step s l = some s') : Obedient X s' := by
  obtain ⟨e, run⟩ := s
  obtain ⟨e', run'⟩ := s'
  intro d url p events hphase
  cases l with
  | other e₁ =>
    obtain ⟨rfl, rfl⟩ := Prod.mk.inj (Option.some.inj h)
    obtain ⟨cache, hkeep, hwp⟩ := hI d url p events hphase
    exact ⟨cache, hkeep.trans hok, hwp⟩
  | crawl l =>
    obtain ⟨rfl, rfl, -⟩ | ⟨d₀, o, k, events₀, a, r, hp, rfl, hr, rfl, rfl, -⟩ :=
      CrawlRun.page_of_step h hphase
    · exact ⟨_, .refl _, wp_crawlPage_obeys _ _ _ _ _⟩
    · obtain ⟨cache, hkeep, hwp⟩ := hI _ _ _ _ hp
      refine ⟨e'.robotsCache, .refl _, wp_op_step hwp (obeys_of_perform hkeep ?_ ?_ hok hr)⟩
      · rw [CrawlRun.nextOp, hp]
      · rw [CrawlRun.events, hp]

/-- **Robots obedience.** In every run of `crawl_target` in which no redirect that is followed
leads to a URL its origin's loaded rules do not allow, every page requested, each redirect hop
included, is allowed by the rules loaded for its origin. -/
theorem pageRequestAllowed_of_guarded {e : Engine} {fetcher : Fetcher} {ctx : PageContext}
    {config : DriverConfig} {now : Int} {labels : List RunLabel} {s : Engine × CrawlRun}
    (hok : (crawlMachine X).Guarded (RedirectObeys X)
      (e, CrawlRun.start X fetcher ctx config now) labels)
    (hrun : (crawlMachine X).run (e, CrawlRun.start X fetcher ctx config now) labels = some s) :
    PageRequestAllowed X s := by
  have hstart : Obedient X (e, CrawlRun.start X fetcher ctx config now) := by
    rintro _ _ _ _ ⟨⟩
  have hI : Obedient X s :=
    Machine.guarded_invariant (fun _ _ _ ↦ obedient_of_step) hstart hok hrun
  have hprelude : s.2.Preluding := CrawlRun.preluding_of_run hrun
  intro o ho
  obtain hpre | ⟨d, url, k, events, hp⟩ := hprelude.of_nextOp ho
  · cases o with
    | request kind =>
      obtain rfl : kind = .sitemap := hpre
      trivial
    | _ => trivial
  · obtain ⟨cache, hkeep, hwp⟩ := hI _ _ _ _ hp
    exact hkeep.permits hwp.1

/-! ### A site whose redirects leave what its rules allow -/

namespace Guide

def url (path : String) : Url := ⟨"https", "", none, some "guide.example", none, path, none, none⟩

/-- `Disallow: /private/`. -/
def rules : Robot := ⟨"User-agent: *\nDisallow: /private/", none, []⟩

/-- What the crates compute on the URLs of the site. -/
def crates : Crates := .ofTables
  { urls := ["/", "/start/", "/private/", "/sitemap.xml"].map fun path ↦
      ("https://guide.example" ++ path, url path)
    joins := [((url "/", "/start/"), url "/start/"), ((url "/", "/private/"), url "/private/")]
    documents := []
    disallowed := [(rules.rules, "https://guide.example/private/")]
    digests := [] }

/-- A run over the whole site. -/
def start : Engine × CrawlRun :=
  (.init, .start crates ⟨"search-bot"⟩ ⟨⟨0⟩, ⟨1⟩, "https://guide.example/", "guide"⟩ ⟨1000, 100⟩ 0)

/-- The prelude, and the first page up to its fetch, which is redirected. -/
def labels (location : String) : List RunLabel :=
  (plainPrelude (some rules) false ++ pageUpToFetch ++
    [CrawlLabel.answer (.http (.redirect .found location))]).map .crawl

end Guide

/-- A redirect is followed to a URL that the rules of the site disallow. -/
theorem not_pageRequestAllowed : ¬ ∀ labels s,
    (crawlMachine Guide.crates).run Guide.start labels = some s →
      PageRequestAllowed Guide.crates s := by
  obtain ⟨s, hrun, hs⟩ : ∃ s, (crawlMachine Guide.crates).run Guide.start
      (Guide.labels "/private/") = some s ∧ decide (¬ PageRequestAllowed Guide.crates s) = true :=
    Machine.exists_run_of_any (by decide +kernel)
  exact fun h ↦ of_decide_eq_true hs (h _ s hrun)

/-- A redirect inside what the rules allow. -/
theorem pageRequestAllowed_of_guarded_start : ∃ s,
    (crawlMachine Guide.crates).run Guide.start (Guide.labels "/start/") = some s ∧
      s.2.requested = some (Guide.url "/start/") ∧ PageRequestAllowed Guide.crates s := by
  obtain ⟨s, hrun, hs⟩ : ∃ s, (crawlMachine Guide.crates).run Guide.start
      (Guide.labels "/start/") = some s ∧
        decide (s.2.requested = some (Guide.url "/start/")) = true :=
    Machine.exists_run_of_any (by decide +kernel)
  exact ⟨s, hrun, of_decide_eq_true hs, pageRequestAllowed_of_guarded (by decide +kernel) hrun⟩

end CommunitySearch
