import CommunitySearch.Crawler.PageSpec

/-!
# The hits a page crawl records

A link that leaves the prefix of a crawl is not followed: `crawl_page` records a hit for its host,
for the admin to review. Each hit is for a link of the body the page ended on
(`wp_crawlPage_hits`), in the collection of the crawl.
-/

namespace CommunitySearch

open Prog

/-- The example is a link to `host` in the body `body` of the page `url`, and it leaves the prefix
of the crawl. -/
structure OutlinkExample.SeenOn (X : Crates) (ctx : PageContext) (url body finalUrl host : String)
    (e : OutlinkExample) : Prop where
  sourceUrl : e.sourceUrl = url
  link : ∃ link ∈ extractLinks X body finalUrl, normalizeUrl X link.url = some e.targetUrl ∧
    link.text = e.linkText
  outside : isInPrefix X e.targetUrl ctx.urlPrefix = false
  welcome : isBlacklistedOutlinkHost X e.targetUrl = false
  host : hostOf X e.targetUrl = some host

variable {X : Crates} {ctx : PageContext} {url : String} {now : Int}

/-- A hit is for the collection of the crawl, and for a link of the page served. -/
def HitSpec (X : Crates) (ctx : PageContext) (url : String) (h : List CrawlEvent) : CrawlOp → Prop
  | .recordHit c host e _ => c = ctx.collectionId ∧
      ∃ u r body, servedPage h = some (u, r) ∧ r.isPage = true ∧ r.body = some body ∧
        e.SeenOn X ctx url body u.toString host
  | _ => True

/-- **The links that are recorded** are those that leave the prefix for a welcome host. -/
theorem performs_recordLinks_seenOn {body finalUrl : String} {links : List ExtractedLink}
    (hlinks : ∀ link ∈ links, link ∈ extractLinks X body finalUrl) :
    Performs (fun o : CrawlOp ↦ ∃ host e, o = .recordHit ctx.collectionId host e now ∧
      e.SeenOn X ctx url body finalUrl host) (recordLinks X ctx url now links) := by
  induction links with
  | nil => trivial
  | cons link links ih =>
    obtain ⟨hlink, hlinks⟩ := List.forall_mem_cons.1 hlinks
    replace ih := ih hlinks
    rw [recordLinks]
    split
    case h_1 => exact ih
    case h_2 normalized hn =>
      split
      case isTrue => exact ih.attempt fun _ ↦ trivial
      case isFalse hout =>
        split
        case isTrue => exact ih
        case isFalse hwelcome =>
          split
          case h_1 => exact ih
          case h_2 host hhost =>
            refine ⟨⟨host, _, rfl, rfl, ⟨link, hlink, hn, rfl⟩, Bool.eq_false_iff.2 hout,
              Bool.eq_false_iff.2 hwelcome, hhost⟩, fun stored ↦ ?_⟩
            cases stored
            · trivial
            · exact ih

section Spec

variable {G : List CrawlEvent → CrawlEvent → Prop} {h : List CrawlEvent}
  {row : Option (Option CrawledPageRow)} {u : Url} {r : HttpResponse} {sent : List IndexJob}
  {refusal : Bool} {prior : Option CrawledPageRow} {status : ℕ} {body : String}
  {etag lm : Option String}

/-- A page that has been served is recorded with hits for its links. -/
theorem wp_recordFresh_hits (hs : Seen row (some (u, r)) sent refusal h) (hpage : r.isPage = true)
    (hbody : r.body = some body) :
    wp (history G) (HitSpec X ctx url) (fun _ _ ↦ True)
      (recordFresh X ctx url now prior status body etag lm u.toString) h := by
  refine wp_attempt.2 (wp_history_op.2 ⟨trivial, fun stored _ ↦ ?_⟩)
  cases stored with
  | false => trivial
  | true =>
    refine wp_attempt.2 (wp_mono (fun res _ _ ↦ ?_)
      ((performs_recordLinks_seenOn fun _ hlink ↦ hlink).wp
        (I := Seen row (some (u, r)) sent refusal) ?_ ?_ (hs.append_of_none rfl rfl rfl rfl)))
    · cases res <;> trivial
    · rintro h' _ hs'' ⟨host, e, rfl, hseen⟩
      exact ⟨rfl, u, r, body, hs''.served, hpage, hbody, hseen⟩
    · rintro h' _ stored _ hs'' ⟨host, e, rfl, -⟩ ⟨-, rfl⟩
      exact hs''.append_of_none rfl rfl rfl rfl

theorem wp_indexFresh_hits (hs : Seen row (some (u, r)) [] false h) (hpage : r.isPage = true)
    (hbody : r.body = some body) :
    wp (history G) (HitSpec X ctx url) (fun _ _ ↦ True)
      (indexFresh X ctx url now prior status body etag lm u.toString) h := by
  rw [indexFresh]
  split
  · exact wp_attempt.2 (wp_recordFresh_hits hs hpage hbody)
  · refine wp_attempt.2 (wp_history_op.2 ⟨trivial, fun _ _ ↦ wp_history_op.2 ⟨trivial,
      fun sent _ ↦ ?_⟩⟩)
    have hs₁ := hs.append_of_none (e := ⟨.inflightAdd 1, ()⟩) rfl rfl rfl rfl
    cases sent with
    | true => exact wp_recordFresh_hits (hs₁.append ⟨.send _, true⟩) hpage hbody
    | false => exact wp_history_op.2 ⟨trivial, fun _ _ ↦ trivial⟩

/-- What follows a row written without a body records no hit. -/
theorem wp_upsertRow_hits {α : Type} {p : CrawledPageRow} {f : Unit → Crawl (CrawlResult α)}
    (hf : ∀ h, wp (history G) (HitSpec X ctx url) (fun _ _ ↦ True) (f ()) h) :
    wp (history G) (HitSpec X ctx url) (fun _ _ ↦ True) ((upsertRow p).attempt f) h := by
  refine wp_attempt.2 (wp_history_op.2 ⟨trivial, fun stored _ ↦ ?_⟩)
  cases stored with
  | false => trivial
  | true => exact hf _

/-- **A page records hits for its links.** -/
theorem wp_crawlPage_hits (fetcher : Fetcher) (ctx : PageContext) (now : Int) (url : String) :
    wp (history G) (HitSpec X ctx url) (fun _ _ ↦ True) (crawlPage X fetcher ctx now url) [] := by
  refine wp_crawlPage_of_outcome (fun h o ho ↦ ?_) (fun _ ↦ trivial) (fun _ _ _ _ ↦ trivial)
    (fun _ _ _ _ _ _ ↦ trivial) fun prior outcome h ho ↦ ?_
  · cases o <;> trivial
  · obtain ⟨served, hs, ho⟩ := ho
    cases outcome with
    | fresh =>
      obtain ⟨u, r, rfl, hpage, hbody, rfl, -⟩ := ho
      exact wp_indexFresh_hits hs hpage hbody
    | rateLimited _ => trivial
    | notModified => exact wp_upsertRow_hits fun _ ↦ trivial
    | otherStatus _ => exact wp_upsertRow_hits fun _ ↦ trivial

end Spec

/-! ### The hits of a run -/

/-- The page being crawled records hits for its links. -/
def CrawlRun.Hits (X : Crates) (run : CrawlRun) : Prop :=
  run.PageMeets (fun _ _ ↦ True) (HitSpec X run.ctx) fun _ _ _ ↦ True

theorem CrawlRun.hits_start (fetcher : Fetcher) (ctx : PageContext) (config : DriverConfig)
    (now : Int) : (CrawlRun.start X fetcher ctx config now).Hits X :=
  pageMeets_start _ _ _ _

theorem CrawlRun.Hits.step {e e' : Engine} {run run' : CrawlRun} {l : CrawlLabel}
    (hI : run.Hits X) (h : run.step X e l = some (e', run')) : run'.Hits X := by
  rw [Hits, (CrawlRun.const_of_step h).1]
  exact PageMeets.step (wp_crawlPage_hits _ _ _) (fun _ _ _ _ _ _ _ _ _ _ ↦ trivial) hI h

/-- **A hit a run is about to record** is for a link of the page it has been served. -/
theorem CrawlRun.Hits.of_nextOp {run : CrawlRun} (hI : run.Hits X) (hprelude : run.Preluding)
    {c : Uuid} {host : String} {e : OutlinkExample} {n : Int}
    (h : run.nextOp = some (.recordHit c host e n)) :
    c = run.ctx.collectionId ∧ ∃ d k, run.phase = .crawling d e.sourceUrl
        (.op (.recordHit c host e n) k) run.events ∧
      ∃ u r body, servedPage run.events = some (u, r) ∧ r.isPage = true ∧ r.body = some body ∧
        e.SeenOn X run.ctx e.sourceUrl body u.toString host := by
  obtain ho | ⟨d, url, k, events, hp⟩ := hprelude.of_nextOp h
  · exact ho.elim
  · have hevents : run.events = events := by rw [CrawlRun.events, hp]
    obtain ⟨hc, u, r, body, hserved, hpage, hbody, hseen⟩ := PageMeets.nextOp hI hp
    obtain rfl := hseen.sourceUrl
    rw [hevents]
    exact ⟨hc, d, k, hp, u, r, body, hserved, hpage, hbody, hseen⟩

end CommunitySearch
