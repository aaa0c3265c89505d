import CommunitySearch.Crawler.PageSpec

/-!
# Crawling a site that does not change

A `Site` answers a request by its URL alone, except that it may answer the conditional request of
a page with 304, and may always limit the rate. Against such a site a page crawl is a function of
its URL: `links` is the link graph the crawler sees, and `followed` what is left of it when some
pages are answered with 304. The seeds are a function of the site too, up to their order
(`wp_prelude_site`), however the robots cache was filled meanwhile.
-/

namespace CommunitySearch

open Prog

/-- What the servers have, for as long as it does not change. -/
structure Site where
  /-- What a URL serves. -/
  serve : Url → HttpAnswer
  /-- What the robots file at a URL parses to. -/
  robots : String → Option Robot

namespace Site

variable (X : Crates) (site : Site)

/-! ### The link graph -/

/-- One hop of a request: `onward` is asked about the URL of a redirect. -/
def resolveHop (current : Url) (onward : Url → Option (HttpResponse × Url)) :
    Option (HttpResponse × Url) :=
  match site.serve current with
  | .failed => none
  | .response r => some (r, current)
  | .redirect status location =>
    match X.redirectTarget current status location with
    | none => some (status.response, current)
    | some next => onward next

/-- The final response to a request and the URL it comes from, after at most `hops` redirects. -/
def resolve : (hops : ℕ) → (current : Url) → Option (HttpResponse × Url)
  | 0, current => site.resolveHop X current fun _ ↦ none
  | hops + 1, current => site.resolveHop X current (resolve hops)

/-- What the request of a page ends with. -/
def get (url : String) : Option (HttpResponse × Url) :=
  (X.parse url).bind (site.resolve X MAX_REDIRECTS)

/-- The URLs of the prefix a page leads to. -/
def links (ctx : PageContext) (url : String) : List String :=
  match site.get X url with
  | some (r, u) =>
    match classify r u with
    | .ok outcome => outcomeLinks X ctx url outcome
    | .error _ => []
  | none => []

/-- The page is answered with 304: `unmodified` says so of the URL that serves it. -/
def isUnmodified (unmodified : String → Url → Bool) (url : String) : Bool :=
  match site.get X url with
  | some (r, u) => r.isPage && unmodified url u
  | none => false

/-- The links the crawler sees of a page. -/
def followed (unmodified : String → Url → Bool) (ctx : PageContext) (url : String) :
    List String :=
  if site.isUnmodified X unmodified url then [] else site.links X ctx url

/-! ### The answers of the site -/

/-- A URL serves a page. -/
def servesPage (u : Url) : Bool :=
  match site.serve u with
  | .response r => r.isPage
  | _ => false

/-- The answers to the request of a page: what the site serves, 304 if the page is unmodified, or
429. -/
def PageAnswer (unmodified : Url → Bool) (target : Url) : HttpAnswer → Prop
  | .response r => r.status = 429 ∨
      if site.servesPage target && unmodified target then r.status = 304
      else site.serve target = .response r
  | a => site.serve target = a

/-- The loaded rules are those of the site. -/
def Agrees (cache : RobotsCache) : Prop :=
  ∀ entry ∈ cache, entry.2 = site.robots (entry.1 ++ "/robots.txt")

/-- How operations are answered while one page is crawled, over the state of the robots cache. -/
def handles (unmodified : Url → Bool) (cache : RobotsCache) (o : CrawlOp) (r : o.Resp)
    (cache' : RobotsCache) : Prop :=
  cache.Keeps cache' ∧ site.Agrees cache' ∧
    match o, r with
    | .request .page target _ _, a => site.PageAnswer unmodified target a
    | .request .sitemap target _ _, a => a = site.serve target
    | .robotsTxt url, robot => robot = site.robots url
    | .cacheGet origin, entry => entry = cache'.get origin
    | .cacheInsert origin robot, _ => cache'.get origin = some robot
    | .intoIter found, l => l.Perm found
    | _, _ => True

/-- Rules are loaded from the site. -/
def Loads (_ : RobotsCache) : CrawlOp → Prop
  | .cacheInsert origin robot => robot = site.robots (origin ++ "/robots.txt")
  | _ => True

/-- The answers the site determines; the others are arbitrary. -/
def answer : (o : CrawlOp) → o.Resp
  | .request _ target _ _ => site.serve target
  | .robotsTxt url => site.robots url
  | .cacheGet origin => some (site.robots (origin ++ "/robots.txt"))
  | .cacheInsert .. => ()
  | .intoIter found => found
  | .getByUrl .. => some none
  | .inflightAdd _ => ()
  | .send _ => true
  | .upsert _ => true
  | .recordHit .. => true

/-- The URLs the frontier starts with. -/
def seeds (fetcher : Fetcher) (ctx : PageContext) : List String :=
  match normalizeUrl X ctx.urlPrefix with
  | none => []
  | some seed => seed :: eval site.answer (discoverUrls X fetcher seed ctx.urlPrefix 10000)

variable {X} {site} {unmodified : Url → Bool}

theorem Agrees.get {cache : RobotsCache} (h : site.Agrees cache) {origin : String}
    {entry : Option Robot} (he : cache.get origin = some entry) :
    entry = site.robots (origin ++ "/robots.txt") := by
  obtain ⟨⟨o, robot⟩, hfind, rfl⟩ := Option.map_eq_some_iff.1 he
  obtain rfl : o = origin := by simpa using List.find?_some hfind
  exact h _ (List.mem_of_find?_eq_some hfind)

/-! ### The prelude -/

/-- Whether the rules of an origin were loaded before or are loaded now, they are the site's. -/
theorem wp_ensureCached_site (url : String) (cache : RobotsCache) :
    wp (site.handles unmodified) site.Loads
      (fun r cache' ↦ r = eval site.answer (ensureCached X url) ∧ ∀ origin, r = .ok origin →
        ∃ entry, cache'.get origin = some entry) (ensureCached X url) cache := by
  unfold ensureCached
  split
  case h_1 => exact ⟨rfl, fun _ h ↦ nomatch h⟩
  case h_2 u hu =>
    split
    case h_1 => exact ⟨rfl, fun _ h ↦ nomatch h⟩
    case h_2 origin ho =>
      refine ⟨trivial, ?_⟩
      rintro entry cache₁ ⟨-, -, hentry⟩
      cases entry with
      | some entry =>
        refine ⟨rfl, fun o hr ↦ ⟨entry, ?_⟩⟩
        obtain rfl := Except.ok.inj hr
        exact hentry.symm
      | none =>
        refine ⟨trivial, ?_⟩
        rintro robot cache₂ ⟨-, -, rfl⟩
        refine ⟨rfl, ?_⟩
        rintro _ cache₃ ⟨-, -, hget⟩
        refine ⟨rfl, fun o hr ↦ ⟨site.robots (origin ++ "/robots.txt"), ?_⟩⟩
        obtain rfl := Except.ok.inj hr
        exact hget

/-- **Reading the rules of an origin gives those of the site.** -/
theorem computes_readEntry {α : Type} (url : String) (f : Option (Option Robot) → α) :
    Computes (site.handles unmodified) site.Loads site.answer (readEntry X url f) := by
  intro cache
  refine wp_bind.2 (wp_mono ?_ (wp_ensureCached_site url cache))
  rintro r cache₁ ⟨hr, hloaded⟩
  rw [readEntry, attempt, eval_bind, ← hr]
  cases r with
  | error err => rfl
  | ok origin =>
    obtain ⟨entry, hentry⟩ := hloaded origin rfl
    refine ⟨trivial, ?_⟩
    rintro _ cache₂ ⟨hkeep, hagrees, rfl⟩
    have hget : cache₂.get origin = some (site.robots (origin ++ "/robots.txt")) := by
      rw [hkeep.get hentry, hagrees.get (hkeep.get hentry)]
    rw [hget]
    rfl

/-- **A request that is answered by the site alone** ends as the site says. -/
theorem computes_follow {σ : Type} {H : σ → (o : CrawlOp) → o.Resp → σ → Prop}
    {P : σ → CrawlOp → Prop} {kind : RequestKind}
    (hP : ∀ s target spelled v, P s (.request kind target spelled v))
    (hH : ∀ s target spelled v a s', H s (.request kind target spelled v) a s' →
      a = site.serve target) (v : Validators) (hops : ℕ) (current : Url) (spelled : String) :
    Computes (E := CrawlSig) H P site.answer (follow X kind v hops current spelled) := by
  have hhop : ∀ current spelled onward,
      (∀ next, Computes H P site.answer (onward next)) →
      Computes (E := CrawlSig) H P site.answer (hop X kind v current spelled onward) :=
    fun current spelled onward honward ↦ by
      refine computes_op (fun s ↦ hP s _ _ _) (fun s a s' h ↦ hH s _ _ _ a s' h) ?_
      dsimp only [answer]
      split
      · exact computes_ret _
      · exact computes_ret _
      · split
        · exact computes_ret _
        · exact honward _
  induction hops generalizing current spelled with
  | zero => exact hhop _ _ _ fun _ ↦ computes_ret _
  | succ hops ih => exact hhop _ _ _ fun _ ↦ ih _ _

theorem computes_fetchTextRaw (fetcher : Fetcher) (url : String) (maxBytes : ℕ) :
    Computes (site.handles unmodified) site.Loads site.answer
      (fetchTextRaw X fetcher url maxBytes) := by
  have hclient : Computes (site.handles unmodified) site.Loads site.answer
      (clientGet X .sitemap url ⟨none, none⟩) := by
    rw [clientGet]
    split
    · exact computes_ret _
    · exact computes_follow (fun _ _ _ _ ↦ trivial) (fun _ _ _ _ _ _ h ↦ h.2.2) _ _ _ _
  rw [fetchTextRaw]
  split
  · refine hclient.bind ?_
    split
    · exact computes_ret _
    · split
      · exact computes_ret _
      · split <;> exact computes_ret _
  · exact computes_ret _

theorem computes_addUrls (pre : String) (maxUrls : ℕ) (us found : List String) :
    Computes (site.handles unmodified) site.Loads site.answer
      (addUrls X pre maxUrls us found) := by
  induction us generalizing found with
  | nil => exact computes_ret _
  | cons u us ih =>
    rw [addUrls]
    split
    · exact ih _
    · split
      · exact ih _
      · refine (computes_readEntry _ _).bind ?_
        split
        · exact ih _
        · dsimp only
          split
          · exact computes_ret _
          · exact ih _

theorem computes_visitSitemaps (fetcher : Fetcher) (pre : String) (maxUrls : ℕ)
    (urls : List String) (s : SitemapRound) :
    Computes (site.handles unmodified) site.Loads site.answer
      (visitSitemaps X fetcher pre maxUrls urls s) := by
  induction urls generalizing s with
  | nil => exact computes_ret _
  | cons url urls ih =>
    rw [visitSitemaps]
    split
    · exact ih _
    · dsimp only
      refine (computes_readEntry _ _).bind ?_
      split
      · exact ih _
      · refine (computes_fetchTextRaw _ _ _).bind ?_
        split
        · split
          · exact ih _
          · refine (computes_addUrls _ _ _ _).bind ?_
            split
            · exact computes_ret _
            · exact ih _
          · exact ih _
        · exact ih _

theorem computes_sitemapRounds (fetcher : Fetcher) (pre : String) (maxUrls depth : ℕ)
    (toVisit : List String) (s : SitemapRound) :
    Computes (site.handles unmodified) site.Loads site.answer
      (sitemapRounds X fetcher pre maxUrls depth toVisit s) := by
  induction depth generalizing toVisit s with
  | zero =>
    refine (computes_visitSitemaps _ _ _ _ _).bind ?_
    split <;> exact computes_ret _
  | succ depth ih =>
    refine (computes_visitSitemaps _ _ _ _ _).bind ?_
    split
    · exact computes_ret _
    · exact ih _ _

/-- **The sitemaps of a site determine what is discovered**, up to its order. -/
theorem wp_discoverUrls_site (fetcher : Fetcher) (seedUrl pre : String) (maxUrls : ℕ)
    (cache : RobotsCache) :
    wp (site.handles unmodified) site.Loads
      (fun l _ ↦ l.Perm (eval site.answer (discoverUrls X fetcher seedUrl pre maxUrls)))
      (discoverUrls X fetcher seedUrl pre maxUrls) cache := by
  have hcandidates : Computes (site.handles unmodified) site.Loads site.answer
      (collectSitemapCandidates X seedUrl) := by
    refine (computes_readEntry _ _).bind ?_
    dsimp only
    split <;> exact computes_ret _
  rw [discoverUrls]
  split
  · exact List.Perm.refl _
  · rw [eval_bind]
    refine wp_bind.2 (wp_mono ?_ (hcandidates cache))
    rintro candidates cache₁ rfl
    split
    · exact List.Perm.refl _
    · rw [eval_bind]
      refine wp_bind.2 (wp_mono ?_ (computes_sitemapRounds _ _ _ _ _ _ cache₁))
      rintro found cache₂ rfl
      exact ⟨trivial, fun l cache₃ h ↦ h.2.2⟩

/-- **The frontier starts with the seeds of the site.** -/
theorem wp_prelude_site (fetcher : Fetcher) (ctx : PageContext) (config : DriverConfig)
    (cache : RobotsCache) :
    wp (site.handles unmodified) site.Loads
      (fun r _ ↦ ∀ d, r = .ok d → d.stats.pagesErrored = 0 ∧ d.consecutive429s = 0 ∧
        ∃ urls, d.frontier = Worklist.empty.pushAll urls ∧
          ∀ u, u ∈ urls ↔ u ∈ site.seeds X fetcher ctx)
      (prelude X fetcher ctx config ctx.urlPrefix) cache := by
  unfold prelude
  split
  case h_1 => exact fun _ h ↦ nomatch h
  case h_2 seed hseed =>
    refine wp_bind.2 (wp_mono (fun delay cache₁ _ ↦ ?_) (computes_readEntry seed _ cache))
    refine wp_bind.2 (wp_mono (fun l cache₂ hl ↦ ?_) (wp_discoverUrls_site _ _ _ _ cache₁))
    rintro d hd
    obtain rfl := Except.ok.inj hd
    refine ⟨rfl, rfl, _, rfl, fun u ↦ ?_⟩
    rw [seeds, hseed, List.mem_cons, List.mem_cons, hl.mem_iff]

/-! ### A page -/

/-- A response agrees with what was expected: it is the same, or 304 for an unmodified page, or
429. -/
def Ends (unmodified : Url → Bool) (expected res : Option (HttpResponse × Url)) : Prop :=
  ∀ r u, res = some (r, u) → r.status = 429 ∨
    ∃ r₀, expected = some (r₀, u) ∧ if r₀.isPage && unmodified u then r.status = 304 else r = r₀

/-- One hop of a page request ends as expected, if following a redirect does. -/
theorem wp_hop_site {v : Validators} {current : Url} {spelled : String}
    {onward : Url → Crawl (Option (HttpResponse × Url))}
    {expected : Url → Option (HttpResponse × Url)}
    (honward : ∀ next cache, wp (site.handles unmodified) site.Loads
      (fun res _ ↦ Ends unmodified (expected next) res) (onward next) cache)
    (cache : RobotsCache) :
    wp (site.handles unmodified) site.Loads
      (fun res _ ↦ Ends unmodified (site.resolveHop X current expected) res)
      (hop X .page v current spelled onward) cache := by
  refine ⟨trivial, ?_⟩
  rintro a cache₁ ⟨-, -, ha⟩
  cases a with
  | failed => exact fun _ _ h ↦ nomatch h
  | response r =>
    rintro _ _ ⟨⟩
    refine Or.imp_right (fun ha ↦ ?_) ha
    split at ha
    case isTrue h =>
      obtain ⟨hpage, hun⟩ := Bool.and_eq_true_iff.1 h
      rw [servesPage] at hpage
      split at hpage
      case h_1 r₀ hserve =>
        refine ⟨r₀, by rw [resolveHop, hserve], ?_⟩
        rw [hpage, hun]
        exact ha
      case h_2 => cases hpage
    case isFalse h =>
      refine ⟨r, by rw [resolveHop, ha], ?_⟩
      have hpage : site.servesPage current = r.isPage := by rw [servesPage, ha]
      rw [← hpage, if_neg h]
  | redirect status location =>
    have hserve : site.serve current = .redirect status location := ha
    rw [resolveHop, hserve]
    dsimp only
    rcases X.redirectTarget current status location with - | next
    · rintro _ _ ⟨⟩
      refine Or.inr ⟨status.response, rfl, ?_⟩
      rw [isPage_response, Bool.false_and]
      rfl
    · exact honward next cache₁

theorem wp_follow_site (v : Validators) (hops : ℕ) (current : Url) (spelled : String)
    (cache : RobotsCache) :
    wp (site.handles unmodified) site.Loads
      (fun res _ ↦ Ends unmodified (site.resolve X hops current) res)
      (follow X .page v hops current spelled) cache := by
  induction hops generalizing current spelled cache with
  | zero =>
    refine wp_hop_site (fun next cache ↦ ?_) cache
    exact fun _ _ h ↦ nomatch h
  | succ hops ih => exact wp_hop_site (fun next cache ↦ ih next _ cache) cache

/-- **Against a site, the links a page leads to are those of the site**, or none if the site says
that it is unmodified. -/
theorem wp_crawlPage_site (unmodified : String → Url → Bool) (fetcher : Fetcher)
    (ctx : PageContext) (now : Int) (url : String) (cache : RobotsCache) :
    wp (site.handles (unmodified url)) site.Loads
      (fun r _ ↦ ∀ p, r = .ok p → p.inPrefixLinks = site.followed X unmodified ctx url)
      (crawlPage X fetcher ctx now url) cache := by
  refine wp_attempt.2 (wp_mono (fun r cache₁ _ ↦ ?_) (computes_readEntry url _ cache))
  cases r with
  | error err =>
    intro _ h
    cases h
  | ok allowed =>
    dsimp only
    split
    · intro _ h
      cases h
    · refine ⟨trivial, fun row cache₂ _ ↦ ?_⟩
      cases row with
      | none =>
        intro _ h
        cases h
      | some prior =>
        refine wp_attempt.2 ?_
        rw [fetch]
        split
        case isFalse =>
          intro _ h
          cases h
        case isTrue =>
          have hclient : ∀ v, wp (site.handles (unmodified url)) site.Loads
              (fun res _ ↦ Ends (unmodified url) (site.get X url) res)
              (clientGet X .page url v) cache₂ := fun v ↦ by
            rw [clientGet, Site.get]
            split
            case h_1 hparse =>
              intro _ _ h
              cases h
            case h_2 u hparse =>
              rw [hparse]
              exact wp_follow_site _ _ _ _ _
          refine wp_bind.2 (wp_mono (fun res cache₃ hres ↦ ?_) (hclient _))
          have hloads : ∀ cache o, o.Records ctx → site.Loads cache o := fun cache o ho ↦ by
            cases o <;> trivial
          cases res with
          | none =>
            intro _ h
            cases h
          | some res =>
            obtain ⟨r, u⟩ := res
            refine wp_ret.2 ?_
            split
            case h_2 =>
              intro _ h
              cases h
            case h_1 outcome houtcome =>
              rcases hres r u rfl with h429 | ⟨r₀, hget, hr⟩
              · -- the retry is up to the driver
                rw [classify, if_neg (by omega), if_pos h429] at houtcome
                obtain rfl := Except.ok.inj houtcome
                intro _ h
                cases h
              · refine wp_mono (fun a _ ha p hp ↦ (ha p hp).trans ?_)
                  (wp_handleOutcome_links hloads url now prior outcome cache₃)
                rw [followed, isUnmodified, hget]
                dsimp only
                split at hr
                case isTrue hun =>
                  rw [classify, if_pos hr] at houtcome
                  obtain rfl := Except.ok.inj houtcome
                  rw [if_pos hun]
                  rfl
                case isFalse hun =>
                  subst hr
                  rw [if_neg hun, links, hget]
                  simp only [houtcome]

end Site

end CommunitySearch
