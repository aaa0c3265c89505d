import CommunitySearch.Crawler.Driver

/-!
# What a page crawl does

Two kinds of facts about `crawlPage`. The operations each of its parts can perform at all, whatever
the answers (`Prog.Performs`): which requests, and with which context jobs are sent and rows are
written. And its specification over the events of a page: a job is sent exactly if the page ended
on a 2xx HTML response whose fingerprint is not the one journaled for its row, and it is the job of
that response (`wp_crawlPage`).
-/

namespace CommunitySearch

open Prog

variable {X : Crates}

/-! ### The operations of each part -/

/-- An operation of the robots checker. -/
def CrawlOp.IsRobots : CrawlOp → Prop
  | .robotsTxt _ | .cacheGet _ | .cacheInsert .. => True
  | _ => False

/-- A request of the given kind. -/
def CrawlOp.IsRequest (kind : RequestKind) : CrawlOp → Prop
  | .request k .. => k = kind
  | _ => False

/-- An operation before the first page: robots, sitemaps, and the order of the seeds. -/
def CrawlOp.IsPrelude : CrawlOp → Prop
  | .robotsTxt _ | .cacheGet _ | .cacheInsert .. | .intoIter _ => True
  | .request kind .. => kind = .sitemap
  | _ => False

/-- An operation after a fetch: a job or a row of the context of the crawl, a count, or an
outlink. -/
def CrawlOp.Records (ctx : PageContext) : CrawlOp → Prop
  | .send job => job.collectionId = ctx.collectionId ∧ job.collectionName = ctx.collectionName ∧
      job.crawlTargetId = some ctx.crawlTargetId
  | .upsert row => row.collectionId = ctx.collectionId ∧ row.crawlTargetId = ctx.crawlTargetId
  | .inflightAdd _ | .recordHit .. => True
  | _ => False

/-- Jobs and rows carry the context of the crawl. -/
def CrawlOp.InContext (ctx : PageContext) : CrawlOp → Prop
  | .send job => job.collectionId = ctx.collectionId ∧ job.collectionName = ctx.collectionName ∧
      job.crawlTargetId = some ctx.crawlTargetId
  | .upsert row => row.collectionId = ctx.collectionId ∧ row.crawlTargetId = ctx.crawlTargetId
  | _ => True

theorem CrawlOp.IsRobots.isPrelude {o : CrawlOp} (h : o.IsRobots) : o.IsPrelude := by
  cases o <;> trivial

theorem CrawlOp.IsRobots.inContext {o : CrawlOp} (ctx : PageContext) (h : o.IsRobots) :
    o.InContext ctx := by
  cases o <;> trivial

theorem CrawlOp.IsPrelude.inContext {o : CrawlOp} (ctx : PageContext) (h : o.IsPrelude) :
    o.InContext ctx := by
  cases o <;> trivial

theorem CrawlOp.IsRequest.inContext {o : CrawlOp} {kind : RequestKind} (ctx : PageContext)
    (h : o.IsRequest kind) : o.InContext ctx := by
  cases o <;> trivial

theorem CrawlOp.Records.inContext {o : CrawlOp} {ctx : PageContext} (h : o.Records ctx) :
    o.InContext ctx := by
  cases o <;> first | exact h | trivial

theorem performs_ensureCached (url : String) : Performs CrawlOp.IsRobots (ensureCached X url) := by
  rw [ensureCached]
  split
  · trivial
  · split
    · trivial
    · refine ⟨trivial, fun entry ↦ ?_⟩
      cases entry with
      | some _ => trivial
      | none => exact ⟨trivial, fun _ ↦ ⟨trivial, fun _ ↦ trivial⟩⟩

theorem performs_readEntry {α : Type} (url : String) (f : Option (Option Robot) → α) :
    Performs CrawlOp.IsRobots (readEntry X url f) :=
  (performs_ensureCached url).attempt fun _ ↦ ⟨trivial, fun _ ↦ trivial⟩

theorem performs_isAllowed (url : String) : Performs CrawlOp.IsRobots (isAllowed X url) :=
  performs_readEntry _ _

theorem performs_hop (kind : RequestKind) (v : Validators) (current : Url) (spelled : String)
    {onward : Url → Crawl (Option (HttpResponse × Url))}
    (h : ∀ next, Performs (CrawlOp.IsRequest kind) (onward next)) :
    Performs (CrawlOp.IsRequest kind) (hop X kind v current spelled onward) := by
  refine ⟨rfl, fun answer ↦ ?_⟩
  cases answer with
  | failed => trivial
  | response r => trivial
  | redirect status location =>
    dsimp only
    split
    · trivial
    · exact h _

theorem performs_follow (kind : RequestKind) (v : Validators) (hops : ℕ) (current : Url)
    (spelled : String) :
    Performs (CrawlOp.IsRequest kind) (follow X kind v hops current spelled) := by
  induction hops generalizing current spelled with
  | zero => exact performs_hop _ _ _ _ fun _ ↦ trivial
  | succ hops ih => exact performs_hop _ _ _ _ fun _ ↦ ih _ _

theorem performs_clientGet (kind : RequestKind) (url : String) (v : Validators) :
    Performs (CrawlOp.IsRequest kind) (clientGet X kind url v) := by
  rw [clientGet]
  split
  · trivial
  · exact performs_follow _ _ _ _ _

theorem performs_fetch (fetcher : Fetcher) (url : String) (v : Validators) :
    Performs (CrawlOp.IsRequest .page) (fetch X fetcher url v) := by
  rw [fetch]
  split
  · refine (performs_clientGet _ _ _).bind fun r ↦ ?_
    cases r <;> trivial
  · trivial

theorem performs_fetchTextRaw (fetcher : Fetcher) (url : String) (maxBytes : ℕ) :
    Performs (CrawlOp.IsRequest .sitemap) (fetchTextRaw X fetcher url maxBytes) := by
  rw [fetchTextRaw]
  split
  · refine (performs_clientGet _ _ _).bind fun r ↦ ?_
    cases r with
    | none => trivial
    | some r =>
      show Performs _ (if _ then _ else _)
      split
      · trivial
      · split <;> trivial
  · trivial

theorem performs_addUrls (pre : String) (maxUrls : ℕ) (us found : List String) :
    Performs CrawlOp.IsRobots (addUrls X pre maxUrls us found) := by
  induction us generalizing found with
  | nil => trivial
  | cons u us ih =>
    rw [addUrls]
    split
    · exact ih _
    · split
      · exact ih _
      · refine (performs_isAllowed _).bind fun allowed ↦ ?_
        split
        · exact ih _
        · dsimp only
          split
          · trivial
          · exact ih _

theorem performs_visitSitemaps (fetcher : Fetcher) (pre : String) (maxUrls : ℕ)
    (urls : List String) (s : SitemapRound) :
    Performs CrawlOp.IsPrelude (visitSitemaps X fetcher pre maxUrls urls s) := by
  have hrequest : ∀ o : CrawlOp, o.IsRequest .sitemap → o.IsPrelude := fun o ho ↦ by
    cases o <;> first | exact ho | exact ho.elim
  induction urls generalizing s with
  | nil => trivial
  | cons url urls ih =>
    rw [visitSitemaps]
    split
    · exact ih _
    · dsimp only
      refine ((performs_isAllowed _).mono fun _ ↦ CrawlOp.IsRobots.isPrelude).bind fun allowed ↦ ?_
      split
      · exact ih _
      · refine ((performs_fetchTextRaw _ _ _).mono hrequest).bind fun body ↦ ?_
        split
        · split
          · exact ih _
          · refine ((performs_addUrls _ _ _ _).mono fun _ ↦ CrawlOp.IsRobots.isPrelude).bind
              fun r ↦ ?_
            split
            · trivial
            · exact ih _
          · exact ih _
        · exact ih _

theorem performs_sitemapRounds (fetcher : Fetcher) (pre : String) (maxUrls depth : ℕ)
    (toVisit : List String) (s : SitemapRound) :
    Performs CrawlOp.IsPrelude (sitemapRounds X fetcher pre maxUrls depth toVisit s) := by
  induction depth generalizing toVisit s with
  | zero =>
    refine (performs_visitSitemaps _ _ _ _ _).bind fun s ↦ ?_
    split <;> trivial
  | succ depth ih =>
    refine (performs_visitSitemaps _ _ _ _ _).bind fun s ↦ ?_
    split
    · trivial
    · exact ih _ _

theorem performs_prelude (fetcher : Fetcher) (ctx : PageContext) (config : DriverConfig)
    (seedUrl : String) : Performs CrawlOp.IsPrelude (prelude X fetcher ctx config seedUrl) := by
  have hread : ∀ {α : Type} (url : String) (f : Option (Option Robot) → α),
      Performs CrawlOp.IsPrelude (readEntry X url f) := fun url f ↦
    (performs_readEntry url f).mono fun _ ↦ CrawlOp.IsRobots.isPrelude
  rw [prelude]
  split
  · trivial
  · refine Performs.bind (hread _ _) fun delay ↦ Performs.bind ?_ fun seeds ↦ trivial
    rw [discoverUrls]
    split
    · trivial
    · refine Performs.bind (Performs.bind (hread _ _) fun declared ↦ ?_) fun candidates ↦ ?_
      · dsimp only
        split <;> trivial
      · split
        · trivial
        · exact (performs_sitemapRounds _ _ _ _ _ _).bind fun found ↦ ⟨trivial, fun _ ↦ trivial⟩

theorem performs_recordLinks {S : CrawlOp → Prop} (hS : ∀ c h ex n, S (.recordHit c h ex n))
    (ctx : PageContext) (url : String) (now : Int) (links : List ExtractedLink) :
    Performs S (recordLinks X ctx url now links) := by
  induction links with
  | nil => trivial
  | cons link links ih =>
    rw [recordLinks]
    split
    · exact ih
    · split
      · exact ih.attempt fun _ ↦ trivial
      · split
        · exact ih
        · split
          · exact ih
          · refine ⟨hS _ _ _ _, fun stored ↦ ?_⟩
            cases stored
            · trivial
            · exact ih

/-- Recording a page writes one row of its context. -/
theorem performs_recordFresh {S : CrawlOp → Prop} {ctx : PageContext}
    (hrow : ∀ row : CrawledPageRow, row.collectionId = ctx.collectionId →
      row.crawlTargetId = ctx.crawlTargetId → S (.upsert row))
    (hhit : ∀ c h ex n, S (.recordHit c h ex n)) {url : String} {now : Int}
    {prior : Option CrawledPageRow} {status : ℕ} {body : String} {etag lm : Option String}
    {finalUrl : String} :
    Performs S (recordFresh X ctx url now prior status body etag lm finalUrl) := by
  refine Performs.attempt ⟨hrow _ rfl rfl, fun _ ↦ trivial⟩ fun _ ↦ ?_
  exact (performs_recordLinks hhit _ _ _ _).attempt fun _ ↦ trivial

/-- What follows a fetch sends and writes in the context of the crawl, and requests nothing. -/
theorem performs_handleOutcome (ctx : PageContext) (url : String) (now : Int)
    (prior : Option CrawledPageRow) (outcome : FetchOutcome) :
    Performs (CrawlOp.Records ctx) (handleOutcome X ctx url now prior outcome) := by
  have hrow : ∀ row : CrawledPageRow, row.collectionId = ctx.collectionId →
      row.crawlTargetId = ctx.crawlTargetId →
      Performs (CrawlOp.Records ctx) (upsertRow row) := fun row hc ht ↦
    ⟨⟨hc, ht⟩, fun _ ↦ trivial⟩
  cases outcome with
  | rateLimited _ => trivial
  | notModified => exact (hrow _ rfl rfl).attempt fun _ ↦ trivial
  | otherStatus _ => exact (hrow _ rfl rfl).attempt fun _ ↦ trivial
  | fresh status body etag lm finalUrl =>
    refine Performs.attempt ?_ fun _ ↦ performs_recordFresh (fun _ hc ht ↦ ⟨hc, ht⟩)
      (fun _ _ _ _ ↦ trivial)
    split
    · trivial
    · refine ⟨trivial, fun _ ↦ ⟨⟨rfl, rfl, rfl⟩, fun sent ↦ ?_⟩⟩
      cases sent
      · exact ⟨trivial, fun _ ↦ trivial⟩
      · trivial

/-- **Every job and every row of a crawl carries its context.** -/
theorem performs_crawlPage (fetcher : Fetcher) (ctx : PageContext) (now : Int) (url : String) :
    Performs (CrawlOp.InContext ctx) (crawlPage X fetcher ctx now url) := by
  refine ((performs_isAllowed url).mono fun _ ↦ CrawlOp.IsRobots.inContext ctx).attempt
    fun allowed ↦ ?_
  split
  · trivial
  · refine ⟨trivial, fun row ↦ ?_⟩
    cases row with
    | none => trivial
    | some prior =>
      refine ((performs_fetch _ _ _).mono fun _ ↦ CrawlOp.IsRequest.inContext ctx).attempt
        fun outcome ↦ ?_
      exact (performs_handleOutcome ctx url now prior outcome).mono fun _ ↦
        CrawlOp.Records.inContext

/-! ### The links of a page -/

section Links

variable {σ : Type} {H : σ → (o : CrawlOp) → o.Resp → σ → Prop} {P : σ → CrawlOp → Prop}

theorem wp_recordLinks (hP : ∀ s c h ex n, P s (.recordHit c h ex n)) (ctx : PageContext)
    (url : String) (now : Int) (links : List ExtractedLink) (s : σ) :
    wp (E := CrawlSig) H P (fun r _ ↦ ∀ us, r = .ok us → us = inPrefixLinks X ctx links)
      (recordLinks X ctx url now links) s := by
  induction links generalizing s with
  | nil =>
    rintro us hus
    exact (Except.ok.inj hus).symm
  | cons link links ih =>
    rw [recordLinks]
    -- a link that is dropped is none of the in-prefix links
    have hdrop : (∀ u, normalizeUrl X link.url = some u → isInPrefix X u ctx.urlPrefix = false) →
        inPrefixLinks X ctx (link :: links) = inPrefixLinks X ctx links := fun h ↦ by
      rcases hn : normalizeUrl X link.url with - | u
      · simp [inPrefixLinks, hn]
      · simp [inPrefixLinks, hn, h u hn]
    split
    case h_1 hn =>
      rw [hdrop fun u hu ↦ nomatch hn.symm.trans hu]
      exact ih s
    case h_2 normalized hn =>
      split
      case isTrue hin =>
        refine wp_attempt.2 (wp_mono (fun r s' hr ↦ ?_) (ih s))
        cases r with
        | error err => exact fun _ h ↦ nomatch h
        | ok rest =>
          rintro us hus
          obtain rfl := Except.ok.inj hus
          rw [hr rest rfl]
          simp [inPrefixLinks, hn, hin]
      case isFalse hin =>
        rw [hdrop fun u hu ↦ by
          obtain rfl := Option.some.inj (hn.symm.trans hu)
          exact Bool.eq_false_iff.2 hin]
        split
        · exact ih s
        · split
          · exact ih s
          · refine ⟨hP _ _ _ _ _, fun stored s' _ ↦ ?_⟩
            cases stored
            · exact fun _ h ↦ nomatch h
            · exact ih s'

/-- **The outcome of a fetch decides the links**, whatever the other answers are. -/
theorem wp_handleOutcome_links {ctx : PageContext} (hP : ∀ s o, o.Records ctx → P s o)
    (url : String) (now : Int) (prior : Option CrawledPageRow) (outcome : FetchOutcome) (s : σ) :
    wp (E := CrawlSig) H P
      (fun r _ ↦ ∀ p, r = .ok p → p.inPrefixLinks = outcomeLinks X ctx url outcome)
      (handleOutcome X ctx url now prior outcome) s := by
  have hrow : ∀ (row : CrawledPageRow) (p : PageResult) (s : σ),
      row.collectionId = ctx.collectionId → row.crawlTargetId = ctx.crawlTargetId →
      p.inPrefixLinks = outcomeLinks X ctx url outcome →
      wp (E := CrawlSig) H P
        (fun r _ ↦ ∀ p, r = .ok p → p.inPrefixLinks = outcomeLinks X ctx url outcome)
        ((upsertRow row).attempt fun _ ↦ ret (.ok p)) s := fun row p s hc ht hp ↦ by
    refine ⟨hP _ _ ⟨hc, ht⟩, fun stored s' _ ↦ ?_⟩
    cases stored
    · exact fun _ h ↦ nomatch h
    · exact fun _ h ↦ Except.ok.inj h ▸ hp
  cases outcome with
  | rateLimited _ => exact fun _ h ↦ nomatch h
  | notModified => exact hrow _ _ s rfl rfl rfl
  | otherStatus status => exact hrow _ _ s rfl rfl rfl
  | fresh status body etag lm finalUrl =>
    have hrecord : ∀ s, wp (E := CrawlSig) H P (fun r _ ↦ ∀ p, r = .ok p →
        p.inPrefixLinks = pageLinks X ctx url body finalUrl)
        (recordFresh X ctx url now prior status body etag lm finalUrl) s := fun s ↦ by
      refine ⟨hP _ _ ⟨rfl, rfl⟩, fun stored s' _ ↦ ?_⟩
      cases stored
      · exact fun _ h ↦ nomatch h
      · show wp H P _ ((recordLinks X ctx url now (extractLinks X body finalUrl)).attempt _) s'
        refine wp_attempt.2 (wp_mono (fun r s'' hr ↦ ?_)
          (wp_recordLinks (fun s _ _ _ _ ↦ hP s _ trivial) _ _ _ _ s'))
        cases r with
        | error err => exact fun _ h ↦ nomatch h
        | ok links =>
          rintro p hp
          obtain rfl := Except.ok.inj hp
          rw [hr links rfl]
          rfl
    refine wp_attempt.2 ?_
    split
    · exact hrecord s
    · refine ⟨hP _ _ trivial, fun _ s' _ ↦ ⟨hP _ _ ⟨rfl, rfl, rfl⟩, fun sent s'' _ ↦ ?_⟩⟩
      cases sent
      · exact ⟨hP _ _ trivial, fun _ _ _ _ h ↦ nomatch h⟩
      · exact hrecord s''

end Links

/-! ### The events of a page -/

/-- What the events of a page show. -/
structure Seen (row : Option (Option CrawledPageRow)) (served : Option (Url × HttpResponse))
    (sent : List IndexJob) (refusal : Bool) (h : List CrawlEvent) : Prop where
  row : h.findSome? CrawlEvent.row? = row
  served : servedPage h = served
  sent : sentJobs h = sent
  refused : refused h = refusal

theorem Seen.nil : Seen none none [] false [] := ⟨rfl, rfl, rfl, rfl⟩

section Seen

variable {row : Option (Option CrawledPageRow)} {served : Option (Url × HttpResponse)}
  {sent : List IndexJob} {refusal : Bool} {h : List CrawlEvent}

theorem Seen.append (hs : Seen row served sent refusal h) (e : CrawlEvent) :
    Seen (row.or e.row?) (served.or e.served?) (sent ++ e.sent?.toList)
      (refusal || e.isRefusal) (h ++ [e]) where
  row := by
    rw [List.findSome?_append, hs.row]
    simp
  served := by
    rw [servedPage, List.findSome?_append, ← servedPage, hs.served]
    simp
  sent := by
    rw [sentJobs, List.filterMap_append, ← sentJobs, hs.sent]
    cases he : e.sent? <;> simp [he]
  refused := by
    rw [CommunitySearch.refused, List.any_append, ← CommunitySearch.refused, hs.refused]
    simp

/-- An event that shows nothing. -/
theorem Seen.append_of_none (hs : Seen row served sent refusal h) {e : CrawlEvent}
    (hrow : e.row? = none) (hserved : e.served? = none) (hsent : e.sent? = none)
    (hrefusal : e.isRefusal = false) : Seen row served sent refusal (h ++ [e]) := by
  have := hs.append e
  rw [hrow, hserved, hsent, hrefusal, Option.or_none, Option.or_none, Bool.or_false] at this
  simpa using this

theorem Seen.priorRow_eq (hs : Seen row served sent refusal h) : priorRow h = row.join := by
  rw [priorRow, hs.row]

/-- Operations that show nothing keep what has been seen. -/
theorem Performs.wp_seen {α : Type} {S : CrawlOp → Prop} {p : Crawl α}
    {G : List CrawlEvent → CrawlEvent → Prop} {P : List CrawlEvent → CrawlOp → Prop}
    (hp : Performs S p) (hP : ∀ h o, S o → P h o)
    (hS : ∀ o r, S o → CrawlEvent.row? ⟨o, r⟩ = none ∧ CrawlEvent.served? ⟨o, r⟩ = none ∧
      CrawlEvent.sent? ⟨o, r⟩ = none ∧ CrawlEvent.isRefusal ⟨o, r⟩ = false)
    (hs : Seen row served sent refusal h) :
    wp (history G) P (fun _ ↦ Seen row served sent refusal) p h := by
  refine hp.wp (fun h o _ ho ↦ hP h o ho) ?_ hs
  rintro h o r _ hI ho ⟨-, rfl⟩
  obtain ⟨hrow, hserved, hsent, href⟩ := hS o r ho
  exact hI.append_of_none hrow hserved hsent href

end Seen

section Spec

variable {G : List CrawlEvent → CrawlEvent → Prop}

/-- The response `r` of the hop at `u` was given under `G`, after the row was read. -/
def ServedUnder (G : List CrawlEvent → CrawlEvent → Prop) (row : Option (Option CrawledPageRow))
    (u : Url) (r : HttpResponse) : Prop :=
  ∃ pre spelled v, pre.findSome? CrawlEvent.row? = row ∧
    G pre ⟨.request .page u spelled v, .response r⟩

/-- What is seen when following redirects has ended. -/
def Followed (G : List CrawlEvent → CrawlEvent → Prop) (row : Option (Option CrawledPageRow))
    (res : Option (HttpResponse × Url)) (h : List CrawlEvent) : Prop :=
  match res with
  | none => Seen row none [] false h
  | some (r, u) =>
    (Seen row (some (u, r)) [] false h ∧ ServedUnder G row u r) ∨
      (Seen row none [] false h ∧ r.isPage = false)

/-- What is seen when a fetch has ended. -/
def Outcome (G : List CrawlEvent → CrawlEvent → Prop) (row : Option (Option CrawledPageRow))
    (res : CrawlResult FetchOutcome) (h : List CrawlEvent) : Prop :=
  ∃ served, Seen row served [] false h ∧
    match res with
    | .ok (.fresh _ body _ _ finalUrl) => ∃ u r, served = some (u, r) ∧ r.isPage = true ∧
        r.body = some body ∧ finalUrl = u.toString ∧ ServedUnder G row u r
    | _ => ∀ u r, served = some (u, r) → r.isPage = false

variable {row : Option (Option CrawledPageRow)} {h : List CrawlEvent}
  {P : List CrawlEvent → CrawlOp → Prop}

theorem isPage_response (status : RedirectStatus) : status.response.isPage = false := by
  have hnot : ¬ status.code < 300 := Nat.not_lt.2 status.isRedirect.1
  rw [HttpResponse.isPage, HttpResponse.isSuccess, RedirectStatus.response, decide_eq_false hnot,
    Bool.and_false, Bool.false_and, Bool.false_and]

theorem wp_hop {v : Validators} {current : Url} {spelled : String}
    {onward : Url → Crawl (Option (HttpResponse × Url))}
    (hP : ∀ h u s v, P h (.request .page u s v)) (hs : Seen row none [] false h)
    (honward : ∀ next h', Seen row none [] false h' →
      wp (history G) P (Followed G row) (onward next) h') :
    wp (history G) P (Followed G row) (hop X .page v current spelled onward) h := by
  refine wp_history_op.2 ⟨hP _ _ _ _, fun answer hG ↦ ?_⟩
  cases answer with
  | failed => exact hs.append_of_none rfl rfl rfl rfl
  | response r =>
    refine Or.inl ⟨?_, h, spelled, v, hs.row, hG⟩
    simpa [CrawlEvent.row?, CrawlEvent.served?, CrawlEvent.sent?, CrawlEvent.isRefusal] using
      hs.append (⟨.request .page current spelled v, .response r⟩ : CrawlEvent)
  | redirect status location =>
    have hs' := hs.append_of_none
      (e := ⟨.request .page current spelled v, .redirect status location⟩) rfl rfl rfl rfl
    dsimp only
    split
    · exact Or.inr ⟨hs', isPage_response status⟩
    · exact honward _ _ hs'

theorem wp_follow {v : Validators} {hops : ℕ} {current : Url} {spelled : String}
    (hP : ∀ h u s v, P h (.request .page u s v)) (hs : Seen row none [] false h) :
    wp (history G) P (Followed G row) (follow X .page v hops current spelled) h := by
  induction hops generalizing current spelled h with
  | zero => exact wp_hop hP hs fun _ _ hs' ↦ hs'
  | succ hops ih => exact wp_hop hP hs fun _ _ hs' ↦ ih hs'

/-- The classification of what following redirects ended with. -/
theorem outcome_of_followed {r : HttpResponse} {u : Url}
    (hf : Followed G row (some (r, u)) h) : Outcome G row (classify r u) h := by
  rcases hf with ⟨hs, hserved⟩ | ⟨hs, hpage⟩
  · by_cases hpage : r.isPage = true
    · obtain ⟨body, hbody, hc⟩ := classify_of_isPage hpage u
      rw [hc]
      exact ⟨_, hs, u, r, rfl, hpage, hbody, rfl, hserved⟩
    · refine ⟨_, hs, ?_⟩
      split
      case h_1 status body etag lm finalUrl hc => exact absurd (isPage_of_classify hc).1 hpage
      case h_2 =>
        rintro _ _ ⟨⟩
        exact Bool.eq_false_iff.2 hpage
  · refine ⟨_, hs, ?_⟩
    split
    case h_1 status body etag lm finalUrl hc =>
      rw [(isPage_of_classify hc).1] at hpage
      cases hpage
    case h_2 =>
      rintro _ _ ⟨⟩

theorem wp_fetch {fetcher : Fetcher} {url : String} {v : Validators}
    (hP : ∀ h u s v, P h (.request .page u s v)) (hs : Seen row none [] false h) :
    wp (history G) P (Outcome G row) (fetch X fetcher url v) h := by
  have hnone : ∀ err h', Seen row none [] false h' → Outcome G row (.error err) h' :=
    fun err h' hs' ↦ ⟨none, hs', by rintro _ _ ⟨⟩⟩
  rw [fetch]
  split
  · refine wp_bind.2 ?_
    rw [clientGet]
    split
    · exact hnone .http _ hs
    · refine wp_mono (fun res h' hf ↦ ?_) (wp_follow hP hs)
      cases res with
      | none => exact hnone _ _ hf
      | some res => exact outcome_of_followed hf
  · exact hnone _ _ hs

/-- The job a page is about to send is that of the page served, which is not the one journaled. -/
def SendSpec (X : Crates) (ctx : PageContext) (now : Int) (url : String)
    (G : List CrawlEvent → CrawlEvent → Prop) (h : List CrawlEvent) : CrawlOp → Prop
  | .send job => ∃ u r body, servedPage h = some (u, r) ∧ r.isPage = true ∧ r.body = some body ∧
      alreadyIndexed X (priorRow h) body = false ∧ job = freshJob X ctx url body u.toString now ∧
      ServedUnder G (some (priorRow h)) u r
  | _ => True

/-- The jobs a page has sent when it is done. -/
def ResultSpec (X : Crates) (ctx : PageContext) (now : Int) (url : String)
    (h : List CrawlEvent) : Prop :=
  ∀ job, job ∈ sentJobs h ↔ ∃ u r body, servedPage h = some (u, r) ∧ r.isPage = true ∧
    r.body = some body ∧ alreadyIndexed X (priorRow h) body = false ∧ refused h = false ∧
    job = freshJob X ctx url body u.toString now

theorem resultSpec_of_not_isPage {ctx : PageContext} {now : Int} {url : String}
    {served : Option (Url × HttpResponse)} (hs : Seen row served [] false h)
    (hpage : ∀ u r, served = some (u, r) → r.isPage = false) : ResultSpec X ctx now url h := by
  intro job
  rw [hs.sent]
  constructor
  · exact fun hmem ↦ absurd hmem List.not_mem_nil
  · rintro ⟨u, r, body, hserved, hr, -⟩
    rw [hs.served] at hserved
    rw [hpage u r hserved] at hr
    cases hr

theorem wp_indexFresh {ctx : PageContext} {now : Int} {url body : String}
    {prior : Option CrawledPageRow} {status : ℕ} {etag lm : Option String} {u : Url}
    {r : HttpResponse} (hs : Seen (some prior) (some (u, r)) [] false h) (hpage : r.isPage = true)
    (hbody : r.body = some body) (hserved : ServedUnder G (some prior) u r) :
    wp (history G) (SendSpec X ctx now url G) (fun _ ↦ ResultSpec X ctx now url)
      (indexFresh X ctx url now prior status body etag lm u.toString) h := by
  -- after the send, what remains records the page and shows nothing
  have hrest : ∀ (sent : List IndexJob) (refusal : Bool) (h' : List CrawlEvent),
      Seen (some prior) (some (u, r)) sent refusal h' →
      (∀ h'', Seen (some prior) (some (u, r)) sent refusal h'' → ResultSpec X ctx now url h'') →
      wp (history G) (SendSpec X ctx now url G) (fun _ ↦ ResultSpec X ctx now url)
        (recordFresh X ctx url now prior status body etag lm u.toString) h' := by
    intro sent refusal h' hs' hend
    have hperf : Performs
        (fun o : CrawlOp ↦ (∃ row, o = .upsert row) ∨ ∃ c host ex n, o = .recordHit c host ex n)
        (recordFresh X ctx url now prior status body etag lm u.toString) :=
      performs_recordFresh (fun row _ _ ↦ Or.inl ⟨row, rfl⟩)
        (fun c host ex n ↦ Or.inr ⟨c, host, ex, n, rfl⟩)
    refine wp_mono (fun _ h'' ↦ hend h'') (Performs.wp_seen hperf ?_ ?_ hs')
    · rintro h _ (⟨row, rfl⟩ | ⟨c, host, ex, n, rfl⟩) <;> trivial
    · rintro _ res (⟨row, rfl⟩ | ⟨c, host, ex, n, rfl⟩) <;> exact ⟨rfl, rfl, rfl, rfl⟩
  have hresult : ∀ (sent : List IndexJob) (refusal : Bool) (h' : List CrawlEvent),
      Seen (some prior) (some (u, r)) sent refusal h' →
      (∀ job, job ∈ sent ↔ alreadyIndexed X prior body = false ∧ refusal = false ∧
        job = freshJob X ctx url body u.toString now) → ResultSpec X ctx now url h' := by
    intro sent refusal h' hs' hsent job
    rw [hs'.sent, hsent, hs'.served, hs'.priorRow_eq, hs'.refused]
    constructor
    · exact fun ⟨ha, hr, hj⟩ ↦ ⟨u, r, body, rfl, hpage, hbody, ha, hr, hj⟩
    · rintro ⟨u', r', body', ⟨⟩, -, hb, ha, hr, hj⟩
      obtain rfl : body = body' := Option.some.inj (hbody.symm.trans hb)
      exact ⟨ha, hr, hj⟩
  rw [indexFresh]
  by_cases ha : alreadyIndexed X prior body = true
  · rw [if_pos ha]
    refine wp_attempt.2 (hrest [] false h hs fun h' hs' ↦ hresult _ _ _ hs' fun job ↦ ?_)
    simp [ha]
  · rw [if_neg ha]
    have ha' : alreadyIndexed X prior body = false := Bool.eq_false_iff.2 ha
    refine wp_attempt.2 (wp_history_op.2 ⟨trivial, fun _ _ ↦ ?_⟩)
    have hs₁ := hs.append_of_none (e := ⟨.inflightAdd 1, ()⟩) rfl rfl rfl rfl
    refine wp_history_op.2 ⟨?_, fun sent _ ↦ ?_⟩
    · refine ⟨u, r, body, hs₁.served, hpage, hbody, ?_, rfl, ?_⟩
      · rw [hs₁.priorRow_eq]
        exact ha'
      · rw [hs₁.priorRow_eq]
        exact hserved
    · cases sent with
      | true =>
        have hs₂ := hs₁.append
          (⟨.send (freshJob X ctx url body u.toString now), true⟩ : CrawlEvent)
        refine hrest _ _ _ hs₂ fun h' hs' ↦ hresult _ _ _ hs' fun job ↦ ?_
        simp [ha', CrawlEvent.sent?, CrawlEvent.isRefusal]
      | false =>
        have hs₂ := hs₁.append
          (⟨.send (freshJob X ctx url body u.toString now), false⟩ : CrawlEvent)
        refine wp_history_op.2 ⟨trivial, fun _ _ ↦ ?_⟩
        have hs₃ := hs₂.append_of_none (e := ⟨.inflightAdd (-1), ()⟩) rfl rfl rfl rfl
        refine hresult _ _ _ hs₃ fun job ↦ ?_
        simp [CrawlEvent.sent?, CrawlEvent.isRefusal]

/-- **`crawl_page` up to the answer to its request**: an error ends it before it has sent anything,
and what it makes of an answer is `handleOutcome`. -/
theorem wp_crawlPage_of_outcome {Q : CrawlResult PageResult → List CrawlEvent → Prop}
    {fetcher : Fetcher} {ctx : PageContext} {now : Int} {url : String}
    (hrobots : ∀ h o, CrawlOp.IsRobots o → P h o) (hrow : ∀ h, P h (.getByUrl ctx.collectionId url))
    (hrequest : ∀ h u s v, P h (.request .page u s v))
    (herror : ∀ err row served h, Seen row served [] false h →
      (∀ u r, served = some (u, r) → r.isPage = false) → Q (.error err) h)
    (houtcome : ∀ prior outcome h, Outcome G (some prior) (.ok outcome) h →
      wp (history G) P Q (handleOutcome X ctx url now prior outcome) h) :
    wp (history G) P Q (crawlPage X fetcher ctx now url) [] := by
  have hunserved : ∀ err row h, Seen row none [] false h → Q (.error err) h :=
    fun err row h hs ↦ herror err row none h hs (by rintro _ _ ⟨⟩)
  refine wp_attempt.2 (wp_mono (fun res h hs ↦ ?_) (Performs.wp_seen (performs_isAllowed url)
    hrobots (fun o r ho ↦ ?_) Seen.nil))
  · cases res with
    | error err => exact hunserved _ _ _ hs
    | ok allowed =>
      dsimp only
      split
      · exact hunserved _ _ _ hs
      · refine wp_history_op.2 ⟨hrow h, fun row _ ↦ ?_⟩
        have hs₁ := hs.append (⟨.getByUrl ctx.collectionId url, row⟩ : CrawlEvent)
        simp only [CrawlEvent.row?, CrawlEvent.served?, CrawlEvent.sent?, CrawlEvent.isRefusal,
          Option.or_none, Option.none_or, Option.toList_none, List.append_nil, Bool.or_false]
          at hs₁
        cases row with
        | none => exact hunserved _ _ _ hs₁
        | some prior =>
          refine wp_attempt.2 (wp_mono (fun outcome h' ho ↦ ?_) (wp_fetch hrequest hs₁))
          cases outcome with
          | error err =>
            obtain ⟨served, hs₂, hpage⟩ := ho
            exact herror err _ served h' hs₂ hpage
          | ok outcome => exact houtcome prior outcome h' ho
  · cases o <;> first | exact ho.elim | exact ⟨rfl, rfl, rfl, rfl⟩

/-- **The specification of `crawl_page`** over its events: a job is sent exactly if the page ended
on a 2xx HTML response that is not the version journaled for its row and the indexer is there to
take it, and then it is the job of that response. -/
theorem wp_crawlPage (fetcher : Fetcher) (ctx : PageContext) (now : Int) (url : String) :
    wp (history G) (SendSpec X ctx now url G) (fun _ ↦ ResultSpec X ctx now url)
      (crawlPage X fetcher ctx now url) [] := by
  refine wp_crawlPage_of_outcome (fun h o ho ↦ ?_) (fun _ ↦ trivial) (fun _ _ _ _ ↦ trivial)
    (fun _ _ _ _ hs hpage ↦ resultSpec_of_not_isPage hs hpage) fun prior outcome h ho ↦ ?_
  · cases o <;> trivial
  · obtain ⟨served, hs, ho⟩ := ho
    cases outcome with
    | fresh status body etag lm finalUrl =>
      obtain ⟨u, r, rfl, hpage, hbody, rfl, hserved⟩ := ho
      exact wp_indexFresh hs hpage hbody hserved
    | rateLimited _ => exact resultSpec_of_not_isPage hs ho
    | notModified =>
      refine wp_history_op.2 ⟨trivial, fun stored _ ↦ ?_⟩
      have hs₁ := hs.append_of_none (e := ⟨.upsert _, stored⟩) rfl rfl rfl rfl
      cases stored <;> exact resultSpec_of_not_isPage hs₁ ho
    | otherStatus status =>
      refine wp_history_op.2 ⟨trivial, fun stored _ ↦ ?_⟩
      have hs₁ := hs.append_of_none (e := ⟨.upsert _, stored⟩) rfl rfl rfl rfl
      cases stored <;> exact resultSpec_of_not_isPage hs₁ ho

end Spec

/-! ### The prelude of a run -/

/-- What is left of the prelude is prelude. -/
def CrawlRun.Preluding (run : CrawlRun) : Prop :=
  ∀ p, run.phase = .starting p → Performs CrawlOp.IsPrelude p

theorem CrawlRun.preluding_start (fetcher : Fetcher) (ctx : PageContext) (config : DriverConfig)
    (now : Int) : (CrawlRun.start X fetcher ctx config now).Preluding := by
  rintro _ ⟨⟩
  exact performs_prelude fetcher ctx config ctx.urlPrefix

theorem CrawlRun.Preluding.step {e e' : Engine} {run run' : CrawlRun} {l : CrawlLabel}
    (hI : run.Preluding) (h : run.step X e l = some (e', run')) : run'.Preluding := by
  intro p hphase
  obtain ⟨o, k, a, r, hp, -, -, rfl, -⟩ := prelude_of_step h hphase
  exact (hI _ hp).2 r

theorem CrawlRun.preluding_of_run {e : Engine} {fetcher : Fetcher} {ctx : PageContext}
    {config : DriverConfig} {now : Int} {labels : List RunLabel} {s : Engine × CrawlRun}
    (h : (crawlMachine X).run (e, CrawlRun.start X fetcher ctx config now) labels = some s) :
    s.2.Preluding := by
  refine Machine.invariant (I := fun s ↦ s.2.Preluding) ?_ (preluding_start _ _ _ _) ⟨labels, h⟩
  rintro ⟨e, run⟩ l ⟨e', run'⟩ hI hs
  cases l with
  | other e₁ =>
    obtain ⟨-, rfl⟩ := Prod.mk.inj (Option.some.inj hs)
    exact hI
  | crawl l => exact hI.step hs

/-- An operation of a run is one of the prelude, or one of the page being crawled. -/
theorem CrawlRun.Preluding.of_nextOp {run : CrawlRun} {o : CrawlOp} (hI : run.Preluding)
    (h : run.nextOp = some o) :
    o.IsPrelude ∨ ∃ d url k events, run.phase = .crawling d url (.op o k) events := by
  rw [nextOp] at h
  split at h
  case h_1 o' k hp =>
    obtain rfl : o' = o := Option.some.inj h
    exact Or.inl (hI _ hp).1
  case h_2 d url o' k events hp =>
    obtain rfl : o' = o := Option.some.inj h
    exact Or.inr ⟨d, url, k, events, hp⟩
  case h_3 => cases h

end CommunitySearch
