import CommunitySearch.Crawler.RecrawlCoverage
import CommunitySearch.System
import Mathlib.Logic.Function.Basic

/-!
# Crawling a site twice

One run of a target and the indexer, against a site that answers every request as before. A page is
passed over if the row of **its own** URL has the hash of its content; but the content belongs under
its index URL, and the row has the hash of what was last indexed under the URL, by this page or by
another one that declares it canonical. So the second run may pass over a page whose content it has
just replaced (`not_committed_eq`).

`committed_eq_of_guarded` holds of the sites and runs where this does no harm: pages of one index
URL have one content, and in the first run a page is passed over only if its content is what is
indexed, or on its way, under its index URL.
-/

namespace CommunitySearch

open Prog

/-- The labels of one run and the indexer. -/
inductive IndexedLabel where
  | crawl (l : CrawlLabel)
  /-- A turn of the indexer. -/
  | indexer (event : IndexerEvent) (outcome : FlushOutcome)

/-- One run of `crawl_target` and the indexer. -/
def indexedMachine (X : Crates) : Machine (Engine × CrawlRun) IndexedLabel where
  step s
    | .crawl l => s.2.step X s.1 l
    | .indexer event outcome => (s.1.indexerStep event outcome).map fun e ↦ (e, s.2)

/-- The collections, titles and bodies of the documents of a URL. -/
def committed (docs : List Document) (url : String) : List (String × String × String) :=
  (docs.filter fun d ↦ d.url = url).map fun d ↦ (d.collection, d.title, d.body)

/-- What the index will hold after an operation under a live indexer. -/
def CrawlOp.indexes (docs : List Document) : CrawlOp → List Document
  | .send job => TermCmd.apply Document.url docs (.upsert job.asDocument)
  | _ => docs

/-- The indexer has taken and committed what was sent to it. -/
structure Engine.Drained (e : Engine) : Prop where
  indexer : e.indexer.isSome = true
  upsertQueue : e.upsertQueue = []
  buffered : e.buffered = []

instance (e : Engine) : Decidable e.Drained :=
  decidable_of_iff (e.indexer.isSome = true ∧ e.upsertQueue.isEmpty = true ∧
    e.buffered.isEmpty = true)
    ⟨fun h ↦ ⟨h.1, List.isEmpty_iff.1 h.2.1, List.isEmpty_iff.1 h.2.2⟩,
      fun h ↦ ⟨h.indexer, List.isEmpty_iff.2 h.upsertQueue, List.isEmpty_iff.2 h.buffered⟩⟩

/-- The run has ended with nothing left to crawl: it has neither hit the page limit nor given up
after five 429s. -/
def CrawlRun.exhausted (run : CrawlRun) : Bool :=
  match run.phase with
  | .ended d => d.frontier.queue.isEmpty && d.consecutive429s < 5
  | _ => false

/-! ### What a site serves -/

variable (X : Crates)

/-- What is indexed of a body. -/
def contentOf (ctx : PageContext) (body : String) : String × String × String :=
  (ctx.collectionName, (parseText X body).title, (parseText X body).text)

namespace Site

variable (site : Site) (fetcher : Fetcher) (ctx : PageContext)

/-- The outcome of the fetch of a page, if robots allow it and there is one. -/
def outcome (url : String) : Option FetchOutcome :=
  match eval site.answer (isAllowed X url) with
  | .ok true =>
    if X.isHeaderValue fetcher.userAgent then
      (site.get X url).bind fun p ↦ (classify p.1 p.2).toOption
    else none
  | _ => none

/-- The links the crawler follows from a page. -/
def visible (url : String) : List String :=
  ((site.outcome X fetcher url).map (outcomeLinks X ctx url)).getD []

/-- The body and the final URL of a page, if it is fresh. -/
def fresh (url : String) : Option (String × String) :=
  (site.outcome X fetcher url).bind fun
    | .fresh _ body _ _ finalUrl => some (body, finalUrl)
    | _ => none

/-- The URLs a run comes to. -/
def Reaches (url : String) : Prop :=
  Worklist.Reach (site.visible X fetcher ctx) (site.seeds X fetcher ctx) url

/-- **Pages of one index URL have one content.** -/
def OneContent : Prop :=
  ∀ u v, site.Reaches X fetcher ctx u → site.Reaches X fetcher ctx v →
    ∀ p ∈ site.fresh X fetcher u, ∀ q ∈ site.fresh X fetcher v,
      indexUrl X ctx u p.1 p.2 = indexUrl X ctx v q.1 q.2 →
        contentOf X ctx p.1 = contentOf X ctx q.1

end Site

/-! ### The admissible steps -/

/-- The environment's part of an answer is that of the site, whose servers take no notice of
conditional headers. -/
def Site.AnswersInFull (site : Site) : CrawlOp → Answer → Prop
  | .request _ target _ _, .http a => a = site.serve target
  | .robotsTxt url, .robots robot => robot = site.robots url
  | _, _ => True

/-- A statement has not failed, and the validators it has read can be sent. -/
def CrawlOp.Fulfilled : (o : CrawlOp) → o.Resp → Prop
  | .getByUrl .., row =>
    row.isSome = true ∧ ∀ prior ∈ row.join, prior.etag.all X.isHeaderValue = true ∧
      prior.lastModified.all X.isHeaderValue = true
  | .upsert _, stored => stored = true
  | .recordHit .., stored => stored = true
  | _, _ => True

/-- The site answers, and no statement fails. -/
def Undisturbed (site : Site) (s : Engine × CrawlRun) : IndexedLabel → Prop
  | .crawl (.answer a) => ∀ o ∈ s.2.nextOp, site.AnswersInFull o a ∧
      ∀ p ∈ s.1.perform o a, o.Fulfilled X p.1
  | _ => True

/-- The key of a row that is read. -/
def CrawlOp.rowKey : CrawlOp → Option (Uuid × String)
  | .getByUrl c url => some (c, url)
  | _ => none

/-- **A page is passed over only if** its content is what is indexed, or on its way, under its index
URL. -/
def SkipsSoundly (site : Site) (s : Engine × CrawlRun) : IndexedLabel → Prop
  | .crawl (.answer _) => ∀ k ∈ s.2.nextOp.bind CrawlOp.rowKey,
      ∀ p ∈ site.fresh X s.2.fetcher k.2,
        alreadyIndexed X (s.1.db.getByUrl k.1 k.2) p.1 = true →
          committed s.1.eventual (indexUrl X s.2.ctx k.2 p.1 p.2) = [contentOf X s.2.ctx p.1]
  | _ => True

instance (site : Site) : (o : CrawlOp) → (a : Answer) → Decidable (site.AnswersInFull o a)
  | .request .., .http _ => inferInstanceAs (Decidable (_ = _))
  | .robotsTxt _, .robots _ => inferInstanceAs (Decidable (_ = _))
  | .request .., .robots _ | .request .., .order _ | .request .., .ok | .request .., .sqlError
  | .robotsTxt _, .http _ | .robotsTxt _, .order _ | .robotsTxt _, .ok | .robotsTxt _, .sqlError
  | .cacheGet _, _ | .cacheInsert .., _ | .intoIter _, _ | .getByUrl .., _ | .inflightAdd _, _
  | .send _, _ | .upsert _, _ | .recordHit .., _ => isTrue trivial

instance : (o : CrawlOp) → (r : o.Resp) → Decidable (o.Fulfilled X r)
  | .getByUrl .., row => inferInstanceAs (Decidable (row.isSome = true ∧
      ∀ prior ∈ row.join, prior.etag.all X.isHeaderValue = true ∧
        prior.lastModified.all X.isHeaderValue = true))
  | .upsert _, stored => inferInstanceAs (Decidable (stored = true))
  | .recordHit .., stored => inferInstanceAs (Decidable (stored = true))
  | .request .., _ | .robotsTxt _, _ | .cacheGet _, _ | .cacheInsert .., _ | .intoIter _, _
  | .inflightAdd _, _ | .send _, _ => isTrue trivial

instance (site : Site) (s : Engine × CrawlRun) :
    (l : IndexedLabel) → Decidable (Undisturbed X site s l)
  | .crawl (.answer a) =>
    inferInstanceAs (Decidable (∀ o ∈ s.2.nextOp, site.AnswersInFull o a ∧
      ∀ p ∈ s.1.perform o a, o.Fulfilled X p.1))
  | .crawl .next | .indexer .. => isTrue trivial

instance (site : Site) (s : Engine × CrawlRun) :
    (l : IndexedLabel) → Decidable (SkipsSoundly X site s l)
  | .crawl (.answer _) =>
    inferInstanceAs (Decidable (∀ k ∈ s.2.nextOp.bind CrawlOp.rowKey,
      ∀ p ∈ site.fresh X s.2.fetcher k.2, _ → committed _ _ = _))
  | .crawl .next | .indexer .. => isTrue trivial

variable {X} {site : Site} {fetcher : Fetcher} {ctx : PageContext}

/-! ### What is committed under a URL -/

/-- **An upsert** replaces what is under its URL, and nothing else. -/
theorem committed_apply_upsert (docs : List Document) (d : Document) :
    committed (TermCmd.apply Document.url docs (.upsert d)) =
      Function.update (committed docs) d.url [(d.collection, d.title, d.body)] := by
  funext url
  show ((docs.filter _ ++ [d]).filter _).map _ = _
  rw [List.filter_append, List.filter_filter]
  by_cases hurl : url = d.url
  · subst hurl
    rw [Function.update_self]
    simp
  · rw [Function.update_of_ne hurl]
    have hold : ∀ e : Document, (decide (e.url = url) && !decide (e.url = d.url)) =
        decide (e.url = url) := fun e ↦ by
      by_cases he : e.url = url
      · simp [he, hurl]
      · simp [he]
    simp [committed, hold, Ne.symm hurl]

/-! ### A page of the site -/

namespace Site

variable (X site fetcher ctx) in
/-- The content of a page is indexed, or on its way, under its index URL. -/
def Indexed (docs : List Document) (url : String) : Prop :=
  ∀ p ∈ site.fresh X fetcher url,
    committed docs (indexUrl X ctx url p.1 p.2) = [contentOf X ctx p.1]

variable (X site fetcher ctx) in
/-- How operations are answered while one page is crawled, over the state of the robots cache and
what the index will hold. -/
def serves (w : RobotsCache × List Document) (o : CrawlOp) (r : o.Resp)
    (w' : RobotsCache × List Document) : Prop :=
  site.handles (fun _ ↦ false) w.1 o r w'.1 ∧ o.Fulfilled X r ∧
    w'.2 = o.indexes w.2 ∧
    match o, r with
    | .request _ target _ _, a => a = site.serve target
    | .getByUrl _ url, row => ∀ p ∈ site.fresh X fetcher url,
        alreadyIndexed X row.join p.1 = true →
          committed w.2 (indexUrl X ctx url p.1 p.2) = [contentOf X ctx p.1]
    | .send _, sent => sent = true
    | _, _ => True

variable (X site fetcher ctx) in
/-- What is sent is the content of the page, the row read is its own, and rules are loaded from the
site. -/
def Sends (url : String) (_ : RobotsCache × List Document) : CrawlOp → Prop
  | .send job => ∃ p ∈ site.fresh X fetcher url, ∃ now, job = freshJob X ctx url p.1 p.2 now
  | .getByUrl _ u => u = url
  | .cacheInsert origin robot => robot = site.robots (origin ++ "/robots.txt")
  | _ => True

variable (X site fetcher ctx) in
/-- **The result of a page**: the links the crawler follows, and its content is indexed or on its
way; a page that fails has neither. -/
def Results (url : String) (docs : List Document) : CrawlResult PageResult → Prop
  | .ok p => p.inPrefixLinks = site.visible X fetcher ctx url ∧
      site.Indexed X fetcher ctx docs url
  | .error (.rateLimited _) => True
  | .error _ => site.visible X fetcher ctx url = [] ∧ site.Indexed X fetcher ctx docs url

theorem results_of_outcome_none {url : String} (h : site.outcome X fetcher url = none)
    (docs : List Document) (err : CrawlError) :
    site.Results X fetcher ctx url docs (.error err) := by
  have hnone : site.visible X fetcher ctx url = [] ∧ site.Indexed X fetcher ctx docs url := by
    refine ⟨by rw [visible, h]; rfl, fun p hp ↦ ?_⟩
    rw [fresh, h] at hp
    cases hp
  cases err with
  | rateLimited => trivial
  | _ => exact hnone

theorem eval_follow (v : Validators) (hops : ℕ) (current : Url) (spelled : String) :
    eval site.answer (follow X .page v hops current spelled) = site.resolve X hops current := by
  have hhop : ∀ current spelled onward expected,
      (∀ next, eval site.answer (onward next) = expected next) →
      eval site.answer (hop X .page v current spelled onward) =
        site.resolveHop X current expected := fun current spelled onward expected honward ↦ by
    cases hserve : site.serve current with
    | failed => simp only [hop, eval, answer, resolveHop, hserve]
    | response r => simp only [hop, eval, answer, resolveHop, hserve]
    | redirect status location =>
      simp only [hop, eval, answer, resolveHop, hserve]
      cases X.redirectTarget current status location with
      | none => rfl
      | some next => exact honward next
  induction hops generalizing current spelled with
  | zero => exact hhop _ _ _ _ fun _ ↦ rfl
  | succ hops ih => exact hhop _ _ _ _ fun next ↦ ih next _

/-- **The fetch of a page** has the outcome the site determines. -/
theorem wp_fetch_serves {url : String} {v : Validators} (hetag : v.etag.all X.isHeaderValue = true)
    (hlm : v.lastModified.all X.isHeaderValue = true) (w : RobotsCache × List Document) :
    wp (site.serves X fetcher ctx) (site.Sends X fetcher ctx url)
      (fun r w' ↦ w'.2 = w.2 ∧ r.toOption = if X.isHeaderValue fetcher.userAgent then
        (site.get X url).bind fun p ↦ (classify p.1 p.2).toOption else none)
      (fetch X fetcher url v) w := by
  rw [fetch]
  by_cases hagent : X.isHeaderValue fetcher.userAgent = true
  · have hheaders : (X.isHeaderValue fetcher.userAgent && v.etag.all X.isHeaderValue &&
        v.lastModified.all X.isHeaderValue) = true := by rw [hagent, hetag, hlm]; rfl
    rw [if_pos hheaders]
    simp only [hagent, if_true]
    have hget : wp (site.serves X fetcher ctx) (site.Sends X fetcher ctx url)
        (fun res w' ↦ res = site.get X url ∧ w'.2 = w.2) (clientGet X .page url v) w := by
      have hkeeps := (performs_clientGet (X := X) .page url v).wp
        (H := site.serves X fetcher ctx) (P := site.Sends X fetcher ctx url)
        (I := fun w' ↦ w'.2 = w.2)
        (fun w' o _ ho ↦ by
          cases o with
          | request => trivial
          | _ => exact ho.elim)
        (fun w' o r w'' hw ho h ↦ by
          cases o with
          | request => exact h.2.2.1.trans hw
          | _ => exact ho.elim) rfl
      have hresult : wp (site.serves X fetcher ctx) (site.Sends X fetcher ctx url)
          (fun res _ ↦ res = site.get X url) (clientGet X .page url v) w := by
        rw [clientGet, Site.get]
        split
        case h_1 hparse =>
          rw [hparse]
          exact rfl
        case h_2 u hparse =>
          rw [hparse]
          refine wp_mono (fun res w' h ↦ h.trans ?_)
            (computes_follow (fun _ _ _ _ ↦ trivial) (fun _ _ _ _ _ _ h ↦ h.2.2.2) v _ u url w)
          exact eval_follow v _ u url
      exact wp_mono' (fun _ _ _ _ h ↦ h) (fun _ _ h ↦ h.1) (fun _ _ h ↦ h) (wp_and hresult hkeeps)
    refine wp_bind.2 (wp_mono ?_ hget)
    rintro res w' ⟨rfl, hw'⟩
    cases site.get X url with
    | none => exact ⟨hw', rfl⟩
    | some p => exact ⟨hw', rfl⟩
  · have hheaders : ¬ (X.isHeaderValue fetcher.userAgent && v.etag.all X.isHeaderValue &&
        v.lastModified.all X.isHeaderValue) = true := fun h ↦
      hagent (Bool.and_eq_true_iff.1 (Bool.and_eq_true_iff.1 h).1).1
    rw [if_neg hheaders]
    exact ⟨rfl, (if_neg hagent).symm⟩

/-- With the hits recorded, the links of a page are returned. -/
theorem wp_recordLinks_serves (url page : String) (now : Int) (links : List ExtractedLink)
    (w : RobotsCache × List Document) :
    wp (site.serves X fetcher ctx) (site.Sends X fetcher ctx url)
      (fun r w' ↦ w'.2 = w.2 ∧ r = .ok (inPrefixLinks X ctx links))
      (recordLinks X ctx page now links) w := by
  have hok : wp (site.serves X fetcher ctx) (site.Sends X fetcher ctx url)
      (fun r w' ↦ w'.2 = w.2 ∧ ∃ us, r = .ok us) (recordLinks X ctx page now links) w := by
    induction links generalizing w with
    | nil => exact ⟨rfl, _, rfl⟩
    | cons link links ih =>
      rw [recordLinks]
      split
      · exact ih w
      · split
        · refine wp_attempt.2 (wp_mono (fun r w' hr ↦ ?_) (ih w))
          obtain ⟨hw', us, rfl⟩ := hr
          exact ⟨hw', _, rfl⟩
        · split
          · exact ih w
          · split
            · exact ih w
            · refine ⟨trivial, fun stored w' h ↦ ?_⟩
              obtain rfl : stored = true := h.2.1
              exact wp_mono (fun r w'' hr ↦ ⟨hr.1.trans h.2.2.1, hr.2⟩) (ih w')
  have hlinks := wp_recordLinks (X := X) (H := site.serves X fetcher ctx)
    (P := site.Sends X fetcher ctx url) (fun _ _ _ _ _ ↦ trivial) ctx page now links w
  refine wp_mono' (fun _ _ _ _ h ↦ h) (fun _ _ h ↦ h.1) ?_ (wp_and hok hlinks)
  rintro r w' ⟨⟨hw', us, rfl⟩, hus⟩
  exact ⟨hw', congrArg _ (hus us rfl)⟩

theorem wp_upsertRow_serves {url : String} {row : CrawledPageRow} {p : PageResult}
    {w : RobotsCache × List Document} (h : ∀ w' : RobotsCache × List Document, w'.2 = w.2 →
      site.Results X fetcher ctx url w'.2 (.ok p)) :
    wp (site.serves X fetcher ctx) (site.Sends X fetcher ctx url)
      (fun r w' ↦ site.Results X fetcher ctx url w'.2 r)
      ((upsertRow row).attempt fun _ ↦ ret (.ok p)) w := by
  refine ⟨trivial, fun stored w' hw' ↦ ?_⟩
  have hstored : stored = true := hw'.2.1
  rw [hstored]
  exact h w' hw'.2.2.1

/-- **A fresh page** is sent, or passed over; either way its content is indexed or on its way. -/
theorem wp_indexFresh_serves {url body finalUrl : String} {status : ℕ} {etag lm : Option String}
    {now : Int} {prior : Option CrawledPageRow} {w : RobotsCache × List Document}
    (houtcome : site.outcome X fetcher url = some (.fresh status body etag lm finalUrl))
    (hskip : alreadyIndexed X prior body = true →
      committed w.2 (indexUrl X ctx url body finalUrl) = [contentOf X ctx body]) :
    wp (site.serves X fetcher ctx) (site.Sends X fetcher ctx url)
      (fun r w' ↦ site.Results X fetcher ctx url w'.2 r)
      (indexFresh X ctx url now prior status body etag lm finalUrl) w := by
  have hfresh : site.fresh X fetcher url = some (body, finalUrl) := by
    rw [fresh, houtcome]
    rfl
  have hrecord : ∀ w : RobotsCache × List Document,
      committed w.2 (indexUrl X ctx url body finalUrl) = [contentOf X ctx body] →
      wp (site.serves X fetcher ctx) (site.Sends X fetcher ctx url)
        (fun r w' ↦ site.Results X fetcher ctx url w'.2 r)
        (recordFresh X ctx url now prior status body etag lm finalUrl) w := fun w hw ↦ by
    refine ⟨trivial, fun stored w₁ hw₁ ↦ ?_⟩
    obtain rfl : stored = true := hw₁.2.1
    show wp _ _ _ ((recordLinks X ctx url now (extractLinks X body finalUrl)).attempt _) w₁
    refine wp_attempt.2 (wp_mono ?_ (wp_recordLinks_serves url url now _ w₁))
    rintro r w₂ ⟨hw₂, rfl⟩
    refine ⟨?_, fun p hp ↦ ?_⟩
    · rw [visible, houtcome]
      rfl
    · obtain rfl := Option.some.inj (hfresh.symm.trans hp)
      rw [hw₂, hw₁.2.2.1]
      exact hw
  refine wp_attempt.2 ?_
  split
  case isTrue halready => exact hrecord w (hskip halready)
  case isFalse =>
    refine ⟨trivial, fun _ w₁ hw₁ ↦ ⟨⟨_, hfresh, now, rfl⟩, fun sent w₂ hw₂ ↦ ?_⟩⟩
    obtain rfl : sent = true := hw₂.2.2.2
    refine hrecord w₂ ?_
    rw [hw₂.2.2.1]
    exact (congrFun (committed_apply_upsert ..) _).trans (Function.update_self ..)

/-- **What the outcome of a fetch leads to.** -/
theorem wp_handleOutcome_serves {url : String} {now : Int} {prior : Option CrawledPageRow}
    {outcome : FetchOutcome} {w : RobotsCache × List Document}
    (houtcome : site.outcome X fetcher url = some outcome)
    (hskip : ∀ p ∈ site.fresh X fetcher url, alreadyIndexed X prior p.1 = true →
      committed w.2 (indexUrl X ctx url p.1 p.2) = [contentOf X ctx p.1]) :
    wp (site.serves X fetcher ctx) (site.Sends X fetcher ctx url)
      (fun r w' ↦ site.Results X fetcher ctx url w'.2 r)
      (handleOutcome X ctx url now prior outcome) w := by
  have hempty : outcomeLinks X ctx url outcome = [] → site.fresh X fetcher url = none →
      ∀ docs, site.visible X fetcher ctx url = [] ∧ site.Indexed X fetcher ctx docs url :=
    fun hlinks hfresh docs ↦ by
      refine ⟨by rw [visible, houtcome]; exact hlinks, fun p hp ↦ ?_⟩
      rw [hfresh] at hp
      cases hp
  have hnone : (∀ status body etag lm finalUrl, outcome ≠ .fresh status body etag lm finalUrl) →
      site.fresh X fetcher url = none := fun hne ↦ by
    rw [fresh, houtcome]
    cases outcome with
    | fresh status body etag lm finalUrl => exact absurd rfl (hne _ _ _ _ _)
    | _ => rfl
  cases outcome with
  | rateLimited retryAfter => trivial
  | notModified =>
    refine wp_upsertRow_serves fun w' _ ↦ ?_
    obtain ⟨hlinks, hindexed⟩ := hempty rfl (hnone nofun) w'.2
    exact ⟨hlinks.symm, hindexed⟩
  | otherStatus status =>
    refine wp_upsertRow_serves fun w' _ ↦ ?_
    obtain ⟨hlinks, hindexed⟩ := hempty rfl (hnone nofun) w'.2
    exact ⟨hlinks.symm, hindexed⟩
  | fresh status body etag lm finalUrl =>
    refine wp_indexFresh_serves houtcome (hskip (body, finalUrl) ?_)
    rw [fresh, houtcome]
    rfl

theorem computes_isAllowed (site : Site) (url : String) :
    Computes (site.handles fun _ ↦ false) site.Loads site.answer (isAllowed X url) :=
  computes_readEntry url _

/-- **Against a site that answers in full**, a page has the links the site determines, and its
content is sent or was there. -/
theorem wp_crawlPage_serves (now : Int) (url : String) (w : RobotsCache × List Document) :
    wp (site.serves X fetcher ctx) (site.Sends X fetcher ctx url)
      (fun r w' ↦ site.Results X fetcher ctx url w'.2 r) (crawlPage X fetcher ctx now url) w := by
  have hallowed : wp (site.serves X fetcher ctx) (site.Sends X fetcher ctx url)
      (fun r w' ↦ r = eval site.answer (isAllowed X url) ∧ w'.2 = w.2) (isAllowed X url) w := by
    have hkeeps := (performs_isAllowed (X := X) url).wp (H := site.serves X fetcher ctx)
      (P := fun _ (o : CrawlOp) ↦ o.IsRobots) (I := fun w' ↦ w'.2 = w.2) (fun _ _ _ ho ↦ ho)
      (fun w' o r w'' hw ho h ↦ by
        refine Eq.trans ?_ hw
        cases o with
        | robotsTxt | cacheGet | cacheInsert => exact h.2.2.1
        | _ => exact ho.elim) rfl
    have hresult : wp (site.serves X fetcher ctx) (fun w o ↦ site.Loads w.1 o)
        (fun r _ ↦ r = eval site.answer (isAllowed X url)) (isAllowed X url) w :=
      wp_comap Prod.fst (fun _ _ _ _ h ↦ h.1) (computes_isAllowed site url w.1)
    refine wp_mono' (fun _ _ _ _ h ↦ h) (fun w' o h ↦ ?_) (fun _ _ h ↦ h) (wp_and hresult hkeeps)
    cases o with
    | send | getByUrl => exact h.2.elim
    | cacheInsert => exact h.1
    | _ => trivial
  refine wp_attempt.2 (wp_mono ?_ hallowed)
  rintro r w₁ ⟨hr, hw₁⟩
  have houtcome : r ≠ .ok true → site.outcome X fetcher url = none := fun hne ↦ by
    rw [outcome]
    split
    case h_1 hok => exact absurd (hr.trans hok) hne
    case h_2 => rfl
  cases r with
  | error err => exact results_of_outcome_none (houtcome nofun) _ err
  | ok allowed =>
    cases allowed with
    | false =>
      show site.Results X fetcher ctx url w₁.2 (.error (.robotsDisallowed url))
      exact results_of_outcome_none (houtcome nofun) _ _
    | true =>
      refine ⟨rfl, fun row w₂ hw₂ ↦ ?_⟩
      obtain ⟨-, ⟨hsome, hheaders⟩, hdocs, hskip⟩ := hw₂
      cases row with
      | none => cases hsome
      | some prior =>
        have hetag : (prior.bind CrawledPageRow.etag).all X.isHeaderValue = true := by
          cases prior with
          | none => rfl
          | some prior => exact (hheaders prior rfl).1
        have hlm : (prior.bind CrawledPageRow.lastModified).all X.isHeaderValue = true := by
          cases prior with
          | none => rfl
          | some prior => exact (hheaders prior rfl).2
        refine wp_attempt.2 (wp_mono ?_ (wp_fetch_serves hetag hlm w₂))
        rintro r w₃ ⟨hw₃, hfetched⟩
        have hsite : site.outcome X fetcher url = r.toOption := by
          rw [outcome, ← hr]
          exact hfetched.symm
        cases r with
        | error err => exact results_of_outcome_none hsite _ err
        | ok outcome =>
          refine wp_handleOutcome_serves hsite fun p hp halready ↦ ?_
          rw [hw₃, hdocs]
          exact hskip p hp halready

/-- **A page that is sent** leaves the contents of the others, as pages of one index URL have one
content. -/
theorem Indexed.upsert (hone : site.OneContent X fetcher ctx) {u v : String}
    (hu : site.Reaches X fetcher ctx u) (hv : site.Reaches X fetcher ctx v)
    {docs : List Document} (h : site.Indexed X fetcher ctx docs u) {p : String × String}
    (hp : p ∈ site.fresh X fetcher v) (now : Int) :
    site.Indexed X fetcher ctx (TermCmd.apply Document.url docs
      (.upsert (freshJob X ctx v p.1 p.2 now).asDocument)) u := by
  intro q hq
  rw [committed_apply_upsert]
  by_cases hurl : indexUrl X ctx u q.1 q.2 = indexUrl X ctx v p.1 p.2
  · rw [hurl]
    refine (Function.update_self ..).trans ?_
    rw [hone u v hu hv q hq p hp hurl]
    rfl
  · exact (Function.update_of_ne hurl ..).trans (h q hq)

end Site

/-! ### What an operation does -/

theorem Engine.robotsCache_of_indexerStep {e e' : Engine} {event : IndexerEvent}
    {outcome : FlushOutcome} (h : e.indexerStep event outcome = some e') :
    e'.robotsCache = e.robotsCache := by
  obtain ⟨⟨e₁, ix, flushes⟩, hr, rfl⟩ := Option.map_eq_some_iff.1 h
  obtain ⟨-, -, upserts, deletes, rfl, -⟩ := Engine.receive_cases hr
  have hflush : ∀ (e : Engine) (w : IndexWriter),
      (e.flush w outcome).robotsCache = e.robotsCache := fun e w ↦ by
    cases outcome with
    | journalFails =>
      simp only [Engine.flush]
      split <;> rfl
    | _ => rfl
  dsimp only
  split
  · split
    · exact hflush _ _
    · rfl
  · split
    · exact hflush _ _
    · rfl

/-- A turn of an indexer that stays alive, when nothing is to be deleted. -/
theorem Engine.eventual_of_indexerStep {e e' : Engine} {event : IndexerEvent}
    {outcome : FlushOutcome} (h : e.indexerStep event outcome = some e')
    (hdeletes : e.deleteQueue = []) (halive : e'.indexer.isSome = true) :
    e'.eventual = e.eventual ∧ e'.deleteQueue = [] := by
  obtain ⟨heventual, hqueue⟩ | ⟨batch, hqueue, -⟩ :=
    (Engine.turn_of_indexerStep h).eventual halive
  · exact ⟨heventual, hqueue.trans hdeletes⟩
  · cases hdeletes.symm.trans hqueue

/-- **An operation under a live indexer** sends, or leaves what the index will hold. -/
theorem Engine.eventual_eq_of_perform {e e' : Engine} {o : CrawlOp} {a : Answer} {r : o.Resp}
    (halive : e.indexer.isSome = true) (h : e.perform o a = some (r, e')) :
    e'.eventual = o.indexes e.eventual := by
  obtain ⟨hindex, hbuffered⟩ := Engine.index_of_perform h
  have hsame : e'.outgoing = e.outgoing → e'.eventual = e.eventual := fun hout ↦ by
    rw [eventual, hindex, hout]
    rfl
  by_cases hsend : ∃ job, o = .send job
  · obtain ⟨job, rfl⟩ := hsend
    obtain ⟨ix, hix⟩ := Option.isSome_iff_exists.1 halive
    cases a with
    | ok =>
      simp only [perform, hix] at h
      obtain ⟨-, h⟩ := Option.ite_none_right_eq_some.1 h
      obtain ⟨-, rfl⟩ := Prod.mk.inj (Option.some.inj h)
      rw [eventual, outgoing, hbuffered, List.map_append, ← List.append_assoc]
      exact TermCmd.publish_concat ..
    | _ => cases h
  · have hout : e'.outgoing = e.outgoing := by
      obtain ⟨-, -, ⟨hout, -⟩ | ⟨hout, -⟩ | ⟨hout, -⟩ | ⟨job, ho, -⟩⟩ :=
        Engine.outgoing_of_perform h
      · exact hout
      · exact hout
      · exact hout
      · exact absurd ⟨job, ho⟩ hsend
    cases o with
    | send job => exact absurd ⟨job, rfl⟩ hsend
    | _ => exact hsame hout

/-! ### The invariant of a run -/

variable (X site fetcher ctx) in
/-- The invariant of a run: it searches along the links the crawler follows, and the contents of the
pages that are done are indexed, or on their way. -/
structure Settles (s : Engine × CrawlRun) : Prop where
  covers : Covers X site (fun _ _ ↦ false) fetcher ctx s
  preluding : s.2.Preluding
  crawling : ∀ d url p events, s.2.phase = .crawling d url p events →
    ∃ cache, RobotsCache.Keeps cache s.1.robotsCache ∧
      wp (site.serves X fetcher ctx) (site.Sends X fetcher ctx url)
        (fun r w ↦ site.Results X fetcher ctx url w.2 r) p (cache, s.1.eventual)
  explored : ∀ d ∈ s.2.unfinished, d.consecutive429s < 5 → ∃ done,
    Worklist.Explored (site.visible X fetcher ctx) (site.seeds X fetcher ctx) d.frontier done ∧
      ∀ u ∈ done, site.Indexed X fetcher ctx s.1.eventual u

theorem settles_start {e : Engine} (h : site.Agrees e.robotsCache) (config : DriverConfig)
    (now : Int) : Settles X site fetcher ctx (e, .start X fetcher ctx config now) where
  covers := covers_start h config now
  preluding := CrawlRun.preluding_start _ _ _ _
  crawling _ _ _ _ h := nomatch h
  explored _ h := nomatch h

/-- The page a run is crawling is one it comes to. -/
theorem Settles.reaches {e : Engine} {run : CrawlRun} (hI : Settles X site fetcher ctx (e, run))
    {d : DriverState} {url : String} {p : Crawl (CrawlResult PageResult)}
    {events : List CrawlEvent} (hp : run.phase = .crawling d url p events) :
    site.Reaches X fetcher ctx url := by
  have hd : d.pushFront url ∈ run.unfinished := by
    rw [CrawlRun.unfinished, hp]
    rfl
  have hlt := hI.covers.retries _ hd (by rw [CrawlRun.isOver, hp])
  obtain ⟨done, hexplored, -⟩ := hI.explored _ hd hlt
  exact hexplored.reach url (hexplored.queue_visited url List.mem_cons_self)

theorem Site.pageAnswer_of_eq {target : Url} {a : HttpAnswer} (h : a = site.serve target) :
    site.PageAnswer (fun _ ↦ false) target a := by
  cases a with
  | response r =>
    refine Or.inr ?_
    rw [Bool.and_false, if_neg Bool.false_ne_true]
    exact h.symm
  | _ => exact h.symm

theorem Site.AnswersInFull.answers {o : CrawlOp} {a : Answer} (h : site.AnswersInFull o a) :
    site.Answers (fun _ ↦ false) o a := by
  cases o with
  | request kind target =>
    cases a with
    | http a =>
      cases kind with
      | sitemap => exact h
      | page => exact Site.pageAnswer_of_eq h
    | _ => cases kind <;> trivial
  | robotsTxt =>
    cases a with
    | robots => exact h
    | _ => trivial
  | _ => cases a <;> trivial

theorem Undisturbed.answeredBy {s : Engine × CrawlRun} {l : CrawlLabel}
    (h : Undisturbed X site s (.crawl l)) : AnsweredBy site (fun _ _ ↦ false) s (.crawl l) := by
  cases l with
  | next => trivial
  | answer a => exact fun o ho ↦ (h o ho).1.answers

variable {e e' : Engine} {run run' : CrawlRun}

/-- **An operation of a page** is answered as the page expects. -/
theorem serves_of_perform {o : CrawlOp} {a : Answer} {r : o.Resp} {url : String}
    {cache : RobotsCache} (hkeep : cache.Keeps e.robotsCache) (hagrees : site.Agrees e.robotsCache)
    (halive : e.indexer.isSome = true) (hsends : site.Sends X fetcher ctx url (cache, e.eventual) o)
    (hfull : site.AnswersInFull o a) (hfulfilled : o.Fulfilled X r)
    (hskip : ∀ k ∈ o.rowKey, ∀ p ∈ site.fresh X fetcher k.2,
      alreadyIndexed X (e.db.getByUrl k.1 k.2) p.1 = true →
        committed e.eventual (indexUrl X ctx k.2 p.1 p.2) = [contentOf X ctx p.1])
    (h : e.perform o a = some (r, e')) :
    site.serves X fetcher ctx (cache, e.eventual) o r (e'.robotsCache, e'.eventual) := by
  have hloads : site.Loads cache o := by
    cases o with
    | cacheInsert => exact hsends
    | _ => trivial
  refine ⟨handles_of_perform hkeep hagrees hloads hfull.answers h, hfulfilled,
    Engine.eventual_eq_of_perform halive h, ?_⟩
  cases o with
  | request =>
    obtain ⟨rfl, -⟩ := Engine.performed_of_perform h
    exact hfull
  | getByUrl c u =>
    cases a with
    | ok =>
      obtain ⟨rfl, -⟩ := Prod.mk.inj (Option.some.inj h)
      exact hskip (c, u) rfl
    | sqlError =>
      obtain ⟨rfl, -⟩ := Prod.mk.inj (Option.some.inj h)
      cases hfulfilled.1
    | _ => cases h
  | send =>
    obtain ⟨ix, hix⟩ := Option.isSome_iff_exists.1 halive
    cases a with
    | ok =>
      simp only [Engine.perform, hix] at h
      obtain ⟨-, h⟩ := Option.ite_none_right_eq_some.1 h
      exact (Prod.mk.inj (Option.some.inj h)).1.symm
    | _ => cases h
  | _ => trivial

/-- **The contents of the pages that are done** survive an operation of a page. -/
theorem Settles.indexed_of_perform (hone : site.OneContent X fetcher ctx)
    {o : CrawlOp} {a : Answer} {r : o.Resp} {url : String} {w : RobotsCache × List Document}
    (halive : e.indexer.isSome = true) (hurl : site.Reaches X fetcher ctx url)
    (hsends : site.Sends X fetcher ctx url w o) (h : e.perform o a = some (r, e')) {u : String}
    (hu : site.Reaches X fetcher ctx u) (hindexed : site.Indexed X fetcher ctx e.eventual u) :
    site.Indexed X fetcher ctx e'.eventual u := by
  rw [Engine.eventual_eq_of_perform halive h]
  cases o with
  | send job =>
    obtain ⟨p, hp, now, rfl⟩ := hsends
    exact hindexed.upsert hone hu hurl hp now
  | _ => exact hindexed

/-- They survive any step of the run: the prelude sends nothing. -/
theorem Settles.indexed_step {l : CrawlLabel} (hone : site.OneContent X fetcher ctx)
    (hI : Settles X site fetcher ctx (e, run)) (halive : e.indexer.isSome = true)
    (h : run.step X e l = some (e', run')) {u : String} (hu : site.Reaches X fetcher ctx u)
    (hindexed : site.Indexed X fetcher ctx e.eventual u) :
    site.Indexed X fetcher ctx e'.eventual u := by
  obtain ⟨o, _, _, _, hp, -, hr, -⟩ | ⟨_, _, o, _, _, _, _, hp, -, hr, -⟩ | ⟨-, rfl, -⟩ :=
    CrawlRun.step_cases h
  · have hprelude : o.IsPrelude := (hI.preluding _ hp).1
    rw [Engine.eventual_eq_of_perform halive hr]
    cases o with
    | send => exact hprelude.elim
    | _ => exact hindexed
  · obtain ⟨cache, -, hwp⟩ := hI.crawling _ _ _ _ hp
    exact Settles.indexed_of_perform hone halive (hI.reaches hp) hwp.1 hr hu hindexed
  · exact hindexed

/-- What is left of the page being crawled still makes the site's content known. -/
theorem Settles.crawling_step {l : CrawlLabel} (hI : Settles X site fetcher ctx (e, run))
    (hok : Undisturbed X site (e, run) (.crawl l)) (hskip : SkipsSoundly X site (e, run) (.crawl l))
    (halive : e.indexer.isSome = true) (h : run.step X e l = some (e', run')) :
    ∀ d url p events, run'.phase = .crawling d url p events →
      ∃ cache, RobotsCache.Keeps cache e'.robotsCache ∧
        wp (site.serves X fetcher ctx) (site.Sends X fetcher ctx url)
          (fun r w ↦ site.Results X fetcher ctx url w.2 r) p (cache, e'.eventual) := by
  obtain ⟨hctx, hfetcher⟩ : run.ctx = ctx ∧ run.fetcher = fetcher := hI.covers.context
  intro d url p events hphase
  obtain ⟨rfl, rfl, -⟩ | ⟨d₀, o, k, events₀, a, r, hp, rfl, hr, rfl, rfl, -⟩ :=
    CrawlRun.page_of_step h hphase
  · rw [hctx, hfetcher]
    exact ⟨e'.robotsCache, .refl _, Site.wp_crawlPage_serves _ _ _⟩
  · have hnext : run.nextOp = some o := by rw [CrawlRun.nextOp, hp]
    obtain ⟨cache, hcache, hwp⟩ := hI.crawling _ _ _ _ hp
    obtain ⟨hfull, hfulfilled⟩ := hok o hnext
    have hsound : ∀ key ∈ o.rowKey, ∀ p ∈ site.fresh X fetcher key.2,
        alreadyIndexed X (e.db.getByUrl key.1 key.2) p.1 = true →
          committed e.eventual (indexUrl X ctx key.2 p.1 p.2) = [contentOf X ctx p.1] := by
      intro key hkey p hpage halready
      rw [← hctx]
      exact hskip key (by rw [hnext]; exact hkey) p (hfetcher ▸ hpage) halready
    have hserves := serves_of_perform hcache hI.covers.agrees halive hwp.1 hfull
      (hfulfilled _ hr) hsound hr
    exact ⟨e'.robotsCache, .refl _, wp_op_step hwp hserves⟩

/-- **The search goes on**, and what it has done is indexed. -/
theorem Settles.explored_step {l : CrawlLabel} (hone : site.OneContent X fetcher ctx)
    (hI : Settles X site fetcher ctx (e, run)) (halive : e.indexer.isSome = true)
    (h : run.step X e l = some (e', run')) :
    ∀ d ∈ run'.unfinished, d.consecutive429s < 5 → ∃ done,
      Worklist.Explored (site.visible X fetcher ctx) (site.seeds X fetcher ctx) d.frontier done ∧
        ∀ u ∈ done, site.Indexed X fetcher ctx e'.eventual u := by
  have hkeep : ∀ u, site.Reaches X fetcher ctx u → site.Indexed X fetcher ctx e.eventual u →
      site.Indexed X fetcher ctx e'.eventual u := fun u ↦ hI.indexed_step hone halive h
  intro d' hd' hcons
  obtain ⟨hp, -⟩ | ⟨hd, -, -⟩ | ⟨d, url, r, events, hp, rfl⟩ := CrawlRun.unfinished_of_step h hd'
  · -- the loop is entered
    obtain ⟨-, cache, -, hseeds⟩ := hI.covers.starting _ hp
    obtain ⟨-, -, urls, hfrontier, hmem⟩ := hseeds d' rfl
    refine ⟨[], ?_, fun _ h ↦ absurd h List.not_mem_nil⟩
    rw [hfrontier]
    exact (Worklist.Explored.start _ urls).congr_seeds hmem
  · obtain ⟨done, hexplored, hdone⟩ := hI.explored d' hd hcons
    refine ⟨done, hexplored, fun u hu ↦ ?_⟩
    exact hkeep u (hexplored.reach u (hexplored.done_visited u hu)) (hdone u hu)
  · -- the result of a page is fed back
    obtain ⟨cache, -, hresults⟩ := hI.crawling _ _ _ _ hp
    have hd : d.pushFront url ∈ run.unfinished := by
      rw [CrawlRun.unfinished, hp]
      rfl
    have hlt : (d.pushFront url).consecutive429s < 5 :=
      hI.covers.retries _ hd (by rw [CrawlRun.isOver, hp])
    obtain ⟨done, hexplored, hdone⟩ := hI.explored _ hd hlt
    have hdone : ∀ u ∈ done, site.Indexed X fetcher ctx e'.eventual u := fun u hu ↦
      hkeep u (hexplored.reach u (hexplored.done_visited u hu)) (hdone u hu)
    have hwith : site.Indexed X fetcher ctx e.eventual url →
        ∀ u ∈ done ++ [url], site.Indexed X fetcher ctx e'.eventual u := fun hurl u hu ↦ by
      rcases List.mem_append.1 hu with hu | hu
      · exact hdone u hu
      · exact List.mem_singleton.1 hu ▸ hkeep url (hI.reaches hp) hurl
    obtain ⟨d₁, hd₁, hfed⟩ := feed_cases run.config d url r
    obtain rfl := CrawlRun.unfinished_feed hd₁ hd'
    cases r with
    | ok p =>
      obtain ⟨hlinks, hindexed⟩ := hresults
      refine ⟨done ++ [url], ?_, hwith hindexed⟩
      rw [hfed.1, hlinks]
      exact hexplored.expand rfl
    | error err =>
      cases err with
      | rateLimited retryAfter =>
        obtain ⟨⟨-, -, h5⟩ | ⟨hfrontier, -, -⟩, -⟩ := hfed
        · omega
        · exact ⟨done, hfrontier ▸ hexplored, hdone⟩
      | _ =>
        obtain ⟨hlinks, hindexed⟩ := hresults
        refine ⟨done ++ [url], ?_, hwith hindexed⟩
        have hexpand := hexplored.expand (x := url) rfl
        rw [hlinks] at hexpand
        rw [hfed.1]
        exact hexpand

/-- **A step of the run** keeps the invariant. -/
theorem Settles.crawl {l : CrawlLabel} (hone : site.OneContent X fetcher ctx)
    (hI : Settles X site fetcher ctx (e, run)) (hok : Undisturbed X site (e, run) (.crawl l))
    (hskip : SkipsSoundly X site (e, run) (.crawl l)) (halive : e.indexer.isSome = true)
    (h : run.step X e l = some (e', run')) : Settles X site fetcher ctx (e', run') where
  covers := hI.covers.crawl hok.answeredBy h
  preluding := hI.preluding.step h
  crawling := hI.crawling_step hok hskip halive h
  explored := hI.explored_step hone halive h

/-- **A turn of the indexer** keeps the invariant. -/
theorem Settles.turn {event : IndexerEvent} {outcome : FlushOutcome}
    (hI : Settles X site fetcher ctx (e, run)) (hdeletes : e.deleteQueue = [])
    (h : e.indexerStep event outcome = some e') (halive : e'.indexer.isSome = true) :
    Settles X site fetcher ctx (e', run) ∧ e'.deleteQueue = [] ∧ e'.eventual = e.eventual := by
  obtain ⟨heventual, hqueue⟩ := Engine.eventual_of_indexerStep h hdeletes halive
  have hcache := Engine.robotsCache_of_indexerStep h
  refine ⟨⟨?_, hI.preluding, ?_, ?_⟩, hqueue, heventual⟩
  · refine hI.covers.step (l := .other e') ⟨?_, ?_⟩ rfl
    · rw [hcache]
      exact .refl _
    · rw [hcache]
      exact hI.covers.agrees
  · rw [hcache, heventual]
    exact hI.crawling
  · rw [heventual]
    exact hI.explored

theorem CrawlRun.indexer_of_step {l : CrawlLabel} (h : run.step X e l = some (e', run')) :
    e'.indexer = e.indexer ∧ e'.deleteQueue = e.deleteQueue := by
  obtain ⟨o, k, a, r, -, -, hr, -⟩ | ⟨d, url, o, k, events, a, r, -, -, hr, -⟩ | ⟨-, rfl, -⟩ :=
    CrawlRun.step_cases h
  · exact ⟨(Engine.outgoing_of_perform hr).1, (Engine.outgoing_of_perform hr).2.1⟩
  · exact ⟨(Engine.outgoing_of_perform hr).1, (Engine.outgoing_of_perform hr).2.1⟩
  · exact ⟨rfl, rfl⟩

/-- An indexer that has exited stays so. -/
theorem isSome_of_step {s s' : Engine × CrawlRun} {l : IndexedLabel}
    (h : (indexedMachine X).step s l = some s') (halive : s'.1.indexer.isSome = true) :
    s.1.indexer.isSome = true := by
  cases l with
  | crawl l =>
    obtain ⟨e', run'⟩ := s'
    exact (CrawlRun.indexer_of_step h).1 ▸ halive
  | indexer event outcome =>
    obtain ⟨e₁, hturn, -⟩ := Option.map_eq_some_iff.1 h
    obtain ⟨⟨_, _, _⟩, hr, -⟩ := Option.map_eq_some_iff.1 hturn
    exact (Engine.receive_cases hr).1

/-- **A step** keeps the invariant, as long as the indexer lives. -/
theorem Settles.step {s s' : Engine × CrawlRun} {l : IndexedLabel}
    (hone : site.OneContent X fetcher ctx) (hI : Settles X site fetcher ctx s)
    (hdeletes : s.1.deleteQueue = []) (hok : Undisturbed X site s l)
    (hskip : SkipsSoundly X site s l) (h : (indexedMachine X).step s l = some s')
    (halive : s'.1.indexer.isSome = true) :
    Settles X site fetcher ctx s' ∧ s'.1.deleteQueue = [] := by
  obtain ⟨e, run⟩ := s
  obtain ⟨e', run'⟩ := s'
  cases l with
  | crawl l =>
    obtain ⟨hindexer, hqueue⟩ := CrawlRun.indexer_of_step h
    exact ⟨hI.crawl hone hok hskip (hindexer ▸ halive) h, hqueue.trans hdeletes⟩
  | indexer event outcome =>
    obtain ⟨e₁, hturn, he⟩ := Option.map_eq_some_iff.1 h
    obtain ⟨rfl, rfl⟩ := Prod.mk.inj he
    obtain ⟨hI', hqueue, -⟩ := hI.turn hdeletes hturn halive
    exact ⟨hI', hqueue⟩

/-- **What a run that has nothing left has indexed**: the content of every page it comes to. -/
theorem Settles.indexed {s : Engine × CrawlRun} (hI : Settles X site fetcher ctx s)
    (hdone : s.2.exhausted = true) {u : String} (hu : site.Reaches X fetcher ctx u) :
    site.Indexed X fetcher ctx s.1.eventual u := by
  rw [CrawlRun.exhausted] at hdone
  split at hdone
  case h_1 d hp =>
    obtain ⟨hq, hcons⟩ := Bool.and_eq_true_iff.1 hdone
    obtain ⟨done, hexplored, hindexed⟩ :=
      hI.explored d (by rw [CrawlRun.unfinished, hp]; rfl) (of_decide_eq_true hcons)
    exact hindexed u ((hexplored.mem_done_iff (List.isEmpty_iff.1 hq)).2 hu)
  case h_2 => cases hdone

/-! ### The run that finds everything indexed -/

/-- The content of a page is all that is read off the documents. -/
theorem Site.Indexed.congr {docs docs' : List Document} {url : String}
    (h : site.Indexed X fetcher ctx docs url) (hdocs : committed docs' = committed docs) :
    site.Indexed X fetcher ctx docs' url := by
  intro p hp
  rw [hdocs]
  exact h p hp

/-- Where the contents of all pages are indexed, **a page that is passed over** may be. -/
theorem Settles.skipsSoundly {s : Engine × CrawlRun} (hI : Settles X site fetcher ctx s)
    (hindexed : ∀ u, site.Reaches X fetcher ctx u → site.Indexed X fetcher ctx s.1.eventual u)
    (l : IndexedLabel) : SkipsSoundly X site s l := by
  obtain ⟨hctx, hfetcher⟩ := hI.covers.context
  cases l with
  | indexer => trivial
  | crawl l =>
    cases l with
    | next => trivial
    | answer a =>
      intro key hkey p hp halready
      obtain ⟨o, hnext, hkey⟩ := Option.bind_eq_some_iff.1 hkey
      rcases hI.preluding.of_nextOp hnext with hprelude | ⟨d, url, k, events, hphase⟩
      · cases o with
        | getByUrl => exact hprelude.elim
        | _ => cases hkey
      · obtain ⟨cache, -, hwp⟩ := hI.crawling _ _ _ _ hphase
        have hsends := hwp.1
        cases o with
        | getByUrl c u =>
          obtain rfl : u = url := hsends
          obtain rfl := Option.some.inj hkey
          rw [hctx]
          exact hindexed u (hI.reaches hphase) p (hfetcher ▸ hp)
        | _ => cases hkey

/-- Where the contents of all pages are indexed, **a step of the run** commits nothing new. -/
theorem Settles.committed_of_crawl {l : CrawlLabel} (hI : Settles X site fetcher ctx (e, run))
    (hindexed : ∀ u, site.Reaches X fetcher ctx u → site.Indexed X fetcher ctx e.eventual u)
    (halive : e.indexer.isSome = true) (h : run.step X e l = some (e', run')) :
    committed e'.eventual = committed e.eventual := by
  obtain ⟨o, k, a, r, hp, rfl, hr, rfl⟩ | ⟨d, url, o, k, events, a, r, hp, rfl, hr, rfl⟩ |
    ⟨rfl, rfl, -⟩ := CrawlRun.step_cases h
  · have hprelude : o.IsPrelude := (hI.preluding _ hp).1
    rw [Engine.eventual_eq_of_perform halive hr]
    cases o with
    | send => exact hprelude.elim
    | _ => rfl
  · obtain ⟨cache, -, hwp⟩ := hI.crawling _ _ _ _ hp
    have hsends := hwp.1
    rw [Engine.eventual_eq_of_perform halive hr]
    cases o with
    | send job =>
      obtain ⟨p, hpage, now, rfl⟩ := hsends
      refine (committed_apply_upsert ..).trans ?_
      rw [Function.update_eq_self_iff]
      exact (hindexed url (hI.reaches hp) p hpage).symm
    | _ => rfl
  · rfl

/-- **Re-crawl stability.** Two consecutive runs of a target against a site that answers both
alike, each with the indexer drained after it, commit the same under every URL, whenever the indexer
flushes: if pages of one index URL have one content, and a page of the first run is passed over only
if its content is what is indexed, or on its way, under its index URL. -/
theorem committed_eq_of_guarded (db : Database) {e : Engine}
    (hagrees : site.Agrees e.robotsCache)
    (hdeletes : e.deleteQueue = []) (hone : site.OneContent X fetcher ctx)
    {config₁ config₂ : DriverConfig} {now₁ now₂ : Int} {labels₁ labels₂ : List IndexedLabel}
    {s₁ s₂ : Engine × CrawlRun}
    (hok₁ : (indexedMachine X).Guarded (fun s l ↦ Undisturbed X site s l ∧ SkipsSoundly X site s l)
      (e, .start X fetcher ctx config₁ now₁) labels₁)
    (hrun₁ : (indexedMachine X).run (e, .start X fetcher ctx config₁ now₁) labels₁ = some s₁)
    (hdone₁ : s₁.2.exhausted = true) (hdrained₁ : s₁.1.Drained)
    (hok₂ : (indexedMachine X).Guarded (Undisturbed X site)
      ({ s₁.1 with db := db }, .start X fetcher ctx config₂ now₂) labels₂)
    (hrun₂ : (indexedMachine X).run ({ s₁.1 with db := db },
      .start X fetcher ctx config₂ now₂) labels₂ = some s₂)
    (hdrained₂ : s₂.1.Drained) :
    committed s₂.1.index = committed s₁.1.index := by
  have hfirst : s₁.1.indexer.isSome = true →
      Settles X site fetcher ctx s₁ ∧ s₁.1.deleteQueue = [] :=
    Machine.guarded_invariant
      (I := fun s ↦ s.1.indexer.isSome = true →
        Settles X site fetcher ctx s ∧ s.1.deleteQueue = [])
      (fun s l s' hI hok hstep halive ↦ by
        obtain ⟨hI, hqueue⟩ := hI (isSome_of_step hstep halive)
        exact hI.step hone hqueue hok.1 hok.2 hstep halive)
      (fun _ ↦ ⟨settles_start hagrees config₁ now₁, hdeletes⟩) hok₁ hrun₁
  obtain ⟨hI₁, hqueue₁⟩ := hfirst hdrained₁.indexer
  have hindexed : ∀ u, site.Reaches X fetcher ctx u →
      site.Indexed X fetcher ctx s₁.1.eventual u := fun u hu ↦ hI₁.indexed hdone₁ hu
  have hsecond : s₂.1.indexer.isSome = true →
      Settles X site fetcher ctx s₂ ∧ s₂.1.deleteQueue = [] ∧
        committed s₂.1.eventual = committed s₁.1.eventual :=
    Machine.guarded_invariant (M := indexedMachine X)
      (I := fun s ↦ s.1.indexer.isSome = true → Settles X site fetcher ctx s ∧
        s.1.deleteQueue = [] ∧ committed s.1.eventual = committed s₁.1.eventual)
      (fun s l s' hI hok hstep halive ↦ by
        have halive' := isSome_of_step hstep halive
        obtain ⟨hI, hqueue, hsame⟩ := hI halive'
        have hall : ∀ u, site.Reaches X fetcher ctx u →
            site.Indexed X fetcher ctx s.1.eventual u := fun u hu ↦ (hindexed u hu).congr hsame
        obtain ⟨hI', hqueue'⟩ := hI.step hone hqueue hok (hI.skipsSoundly hall l) hstep halive
        refine ⟨hI', hqueue', Eq.trans ?_ hsame⟩
        cases l with
        | crawl l => exact hI.committed_of_crawl hall halive' hstep
        | indexer event outcome =>
          obtain ⟨e₁, hturn, rfl⟩ := Option.map_eq_some_iff.1 hstep
          exact congrArg committed (hI.turn hqueue hturn halive).2.2)
      (fun _ ↦ ⟨settles_start (e := { s₁.1 with db := db }) hI₁.covers.agrees config₂ now₂,
        hqueue₁, rfl⟩) hok₂ hrun₂
  have hdrain : ∀ {e : Engine}, e.Drained → e.eventual = e.index := fun {e} h ↦ by
    rw [Engine.eventual, Engine.outgoing, h.buffered, h.upsertQueue]
    rfl
  rw [← hdrain hdrained₁, ← hdrain hdrained₂]
  exact (hsecond hdrained₂.indexer).2.2

/-! ### Pages that declare another one canonical -/

namespace Aliases

def url (path : String) : Url := ⟨"https", "", none, some "guide.example", none, path, none, none⟩

/-- The start page links to two others. -/
def crates : Crates := .ofTables
  { urls := ["/", "/print/", "/mirror/", "/sitemap.xml"].map fun path ↦
      ("https://guide.example" ++ path, url path)
    joins := [((url "/", "/print/"), url "/print/"), ((url "/", "/mirror/"), url "/mirror/"),
      ((url "/print/", "/"), url "/"), ((url "/mirror/", "/"), url "/"),
      ((url "/mirror/", "/print/"), url "/print/")]
    documents :=
      [("start", ⟨[⟨"/print/", "Print"⟩, ⟨"/mirror/", "Mirror"⟩], [], [], some [⟨"Guide", false⟩]⟩),
        ("same", ⟨[], [⟨"canonical", "/"⟩], [], some [⟨"Guide", false⟩]⟩),
        ("print", ⟨[], [⟨"canonical", "/"⟩], [], some [⟨"Copy", false⟩]⟩),
        ("mirror", ⟨[], [⟨"canonical", "/print/"⟩], [], some [⟨"Copy", false⟩]⟩)]
    disallowed := []
    digests := [("\x00Guide", "6b914c745c9d46403f3316bc7263ff3ff325d8ace8f199e599839eb62c403445"),
      ("\x00Copy", "78bba4db90e2137f02f5b1344158add44fb9f8e0da1459b347097c1274b059be")] }

def serving (print mirror : String) : Site where
  serve u :=
    if u = url "/" then .response (TwoPages.page "start")
    else if u = url "/print/" then .response (TwoPages.page print)
    else if u = url "/mirror/" then .response (TwoPages.page mirror)
    else .response ⟨404, none, none, none, none, some ""⟩
  robots _ := none

/-- Both pages declare the start page canonical, and have its text. -/
def faithful : Site := serving "same" "same"

/-- The print page has another text than the page it declares canonical, and the mirror page
declares the print page canonical. -/
def tangled : Site := serving "print" "mirror"

def start (e : Engine) (now : Int) : Engine × CrawlRun :=
  (e, .start crates ⟨"search-bot"⟩ TwoPages.target ⟨1000, 100⟩ now)

/-- A page that is passed over. -/
def skipped (body : String) : List CrawlLabel :=
  pageUpToFetch ++ [.answer (.http (.response (TwoPages.page body))), .answer .ok, .next]

/-- Three pages one after the other, and then the indexer takes and commits `n` jobs. -/
def crawled (loaded : Bool) (first second third : List CrawlLabel) (n : ℕ) : List IndexedLabel :=
  (plainPrelude none loaded ++ first ++ [CrawlLabel.next] ++ second ++ [CrawlLabel.next] ++ third ++
    [CrawlLabel.next]).map .crawl ++
      List.replicate n (.indexer .upsert .done) ++ [.indexer .timer .done]

theorem oneContent_faithful :
    faithful.OneContent crates ⟨"search-bot"⟩ TwoPages.target := by
  let pages : List String := ["https://guide.example/", "https://guide.example/print/",
    "https://guide.example/mirror/"]
  have hreach : ∀ u, faithful.Reaches crates ⟨"search-bot"⟩ TwoPages.target u → u ∈ pages := by
    intro u hu
    refine Worklist.Reach.induction (C := fun u ↦ u ∈ pages) (by decide +kernel)
      (fun x y _ hx hy ↦ ?_) hu
    have hlinks : ∀ x ∈ pages,
        ∀ y ∈ faithful.visible crates ⟨"search-bot"⟩ TwoPages.target x, y ∈ pages := by
      decide +kernel
    exact hlinks x hx y hy
  have hcontent : ∀ u ∈ pages, ∀ p ∈ faithful.fresh crates ⟨"search-bot"⟩ u,
      contentOf crates TwoPages.target p.1 = ("guide", "", "Guide") := by
    decide +kernel
  intro u v hu hv p hp q hq _
  rw [hcontent u (hreach u hu) p hp, hcontent v (hreach v hv) q hq]

end Aliases

theorem committed_eq_faithful : ∃ s₁ s₂,
    (indexedMachine Aliases.crates).run (Aliases.start (.start TwoPages.db []) 0)
      (Aliases.crawled false (TwoPages.served "start") (TwoPages.served "same")
        (TwoPages.served "same") 3) = some s₁ ∧
    (indexedMachine Aliases.crates).run (Aliases.start s₁.1 3600)
      (Aliases.crawled true (Aliases.skipped "start") (TwoPages.served "same")
        (TwoPages.served "same") 2) = some s₂ ∧
    committed s₂.1.index = committed s₁.1.index := by
  obtain ⟨s₁, hrun₁, h₁⟩ : ∃ s₁, (indexedMachine Aliases.crates).run
      (Aliases.start (.start TwoPages.db []) 0)
      (Aliases.crawled false (TwoPages.served "start") (TwoPages.served "same")
        (TwoPages.served "same") 3) = some s₁ ∧
      (s₁.2.exhausted && decide s₁.1.Drained &&
        decide ((indexedMachine Aliases.crates).Guarded
          (Undisturbed Aliases.crates Aliases.faithful) (Aliases.start s₁.1 3600)
          (Aliases.crawled true (Aliases.skipped "start") (TwoPages.served "same")
            (TwoPages.served "same") 2)) &&
        ((indexedMachine Aliases.crates).run (Aliases.start s₁.1 3600)
          (Aliases.crawled true (Aliases.skipped "start") (TwoPages.served "same")
            (TwoPages.served "same") 2)).any fun s₂ ↦ decide s₂.1.Drained) = true :=
    Machine.exists_run_of_any (by decide +kernel)
  simp only [Bool.and_eq_true, decide_eq_true_eq] at h₁
  obtain ⟨⟨⟨hdone₁, hdrained₁⟩, hok₂⟩, hany⟩ := h₁
  obtain ⟨s₂, hrun₂, hdrained₂⟩ := Machine.exists_run_of_any hany
  exact ⟨s₁, s₂, hrun₁, hrun₂, committed_eq_of_guarded s₁.1.db (by decide) rfl
    Aliases.oneContent_faithful (by decide +kernel) hrun₁ hdone₁ hdrained₁ hok₂ hrun₂
    (of_decide_eq_true hdrained₂)⟩

/-- The second run passes over the print page, as the row of its URL has its hash; but what it has
just indexed under the URL of the start page is the text of the start page. -/
theorem not_committed_eq : ¬ ∀ labels₁ labels₂ s₁ s₂,
    (indexedMachine Aliases.crates).Guarded (Undisturbed Aliases.crates Aliases.tangled)
      (Aliases.start (.start TwoPages.db []) 0) labels₁ →
    (indexedMachine Aliases.crates).run (Aliases.start (.start TwoPages.db []) 0) labels₁ =
      some s₁ → s₁.2.exhausted = true → s₁.1.Drained →
    (indexedMachine Aliases.crates).Guarded (Undisturbed Aliases.crates Aliases.tangled)
      (Aliases.start s₁.1 3600) labels₂ →
    (indexedMachine Aliases.crates).run (Aliases.start s₁.1 3600) labels₂ = some s₂ →
    s₂.2.exhausted = true → s₂.1.Drained → ∀ url,
      committed s₂.1.index url = committed s₁.1.index url := by
  obtain ⟨s₁, hrun₁, h₁⟩ : ∃ s₁, (indexedMachine Aliases.crates).run
      (Aliases.start (.start TwoPages.db []) 0)
      (Aliases.crawled false (TwoPages.served "start") (TwoPages.served "print")
        (TwoPages.served "mirror") 3) = some s₁ ∧
      (s₁.2.exhausted && decide s₁.1.Drained &&
        decide (committed s₁.1.index "https://guide.example/" = [("guide", "", "Copy")]) &&
        decide ((indexedMachine Aliases.crates).Guarded (Undisturbed Aliases.crates Aliases.tangled)
          (Aliases.start s₁.1 3600) (Aliases.crawled true (TwoPages.served "start")
            (Aliases.skipped "print") (TwoPages.served "mirror") 2)) &&
        ((indexedMachine Aliases.crates).run (Aliases.start s₁.1 3600)
          (Aliases.crawled true (TwoPages.served "start") (Aliases.skipped "print")
            (TwoPages.served "mirror") 2)).any fun s₂ ↦ s₂.2.exhausted && decide s₂.1.Drained &&
              decide (committed s₂.1.index "https://guide.example/" =
                [("guide", "", "Guide")])) = true :=
    Machine.exists_run_of_any (by decide +kernel)
  simp only [Bool.and_eq_true, decide_eq_true_eq] at h₁
  obtain ⟨⟨⟨⟨hdone₁, hdrained₁⟩, hcopy⟩, hok₂⟩, hany⟩ := h₁
  obtain ⟨s₂, hrun₂, h₂⟩ := Machine.exists_run_of_any hany
  simp only [Bool.and_eq_true, decide_eq_true_eq] at h₂
  obtain ⟨⟨hdone₂, hdrained₂⟩, hguide⟩ := h₂
  intro h
  have hsame := h _ _ s₁ s₂ (by decide +kernel) hrun₁ hdone₁ hdrained₁ hok₂ hrun₂ hdone₂ hdrained₂
    "https://guide.example/"
  rw [hcopy, hguide] at hsame
  exact absurd hsame (by decide)

end CommunitySearch
