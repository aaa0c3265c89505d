import CommunitySearch.Crawler.PageSpec

/-!
# What a page crawl records

The row of a fresh page is written after its job: when `crawl_page` upserts a row for a body it has
fetched, it has handed that version to the indexer, or has found it journaled in the row it read
before the fetch (`wp_crawlPage_records`).
-/

namespace CommunitySearch

open Prog

variable {X : Crates}

/-- The page has fetched a body. -/
def fetched (h : List CrawlEvent) : Bool :=
  (servedPage h).any fun p ↦ p.2.isPage

/-- The URL the content of the page fetched is indexed under. -/
def servedIndexUrl (X : Crates) (ctx : PageContext) (url : String) (h : List CrawlEvent) : String :=
  match servedPage h with
  | some (target, r) => indexUrl X ctx url (r.body.getD "") target.toString
  | none => url

/-- The version `hash` is journaled in the row the page has read, or has been handed to the
indexer. -/
def Accounted (X : Crates) (ctx : PageContext) (url : String) (h : List CrawlEvent)
    (hash : String) : Prop :=
  (priorRow h).bind CrawledPageRow.indexedContentHash = some hash ∨
    ∃ job ∈ sentJobs h, job.collectionId = ctx.collectionId ∧
      job.url = servedIndexUrl X ctx url h ∧ job.contentHash = hash

/-- A page reads and writes its own row, and the version of the row it writes for a body is
accounted for. -/
def RecordSpec (X : Crates) (ctx : PageContext) (url : String) (h : List CrawlEvent) :
    CrawlOp → Prop
  | .getByUrl c u => c = ctx.collectionId ∧ u = url
  | .upsert row => row.collectionId = ctx.collectionId ∧ row.url = url ∧
      (fetched h = true → ∀ hash ∈ row.contentHash, Accounted X ctx url h hash)
  | _ => True

section Spec

variable {G : List CrawlEvent → CrawlEvent → Prop} {ctx : PageContext} {url : String}
  {h : List CrawlEvent}

theorem Seen.fetched_eq {row : Option (Option CrawledPageRow)}
    {served : Option (Url × HttpResponse)} {sent : List IndexJob} {refusal : Bool}
    (hs : Seen row served sent refusal h) :
    fetched h = served.any fun p ↦ p.2.isPage := by
  rw [fetched, hs.served]

/-- A row that is written without a body. -/
theorem wp_upsertRow_carried {row : Option (Option CrawledPageRow)}
    {served : Option (Url × HttpResponse)} {sent : List IndexJob} {refusal : Bool}
    {α : Type} {r : CrawledPageRow} {f : Unit → Crawl (CrawlResult α)}
    (hs : Seen row served sent refusal h)
    (hpage : ∀ u r, served = some (u, r) → r.isPage = false)
    (hc : r.collectionId = ctx.collectionId) (hurl : r.url = url)
    (hf : ∀ h, wp (history G) (RecordSpec X ctx url) (fun _ _ ↦ True) (f ()) h) :
    wp (history G) (RecordSpec X ctx url) (fun _ _ ↦ True) ((upsertRow r).attempt f) h := by
  refine wp_attempt.2 (wp_history_op.2 ⟨⟨hc, hurl, fun hfetched ↦ ?_⟩, fun stored _ ↦ ?_⟩)
  · rw [hs.fetched_eq] at hfetched
    rcases served with - | ⟨u, resp⟩
    · cases hfetched
    · exact absurd (hfetched.symm.trans (hpage u resp rfl)) (by decide)
  · cases stored with
    | false => trivial
    | true => exact hf _

/-- Once the version is accounted for, the page is recorded. -/
theorem wp_recordFresh {body finalUrl : String} {now : Int} {prior : Option CrawledPageRow}
    {status : ℕ} {etag lm : Option String}
    (haccounted : Accounted X ctx url h (contentHash X body)) :
    wp (history G) (RecordSpec X ctx url) (fun _ _ ↦ True)
      (recordFresh X ctx url now prior status body etag lm finalUrl) h := by
  refine wp_attempt.2 (wp_history_op.2 ⟨⟨rfl, rfl, fun _ hash hhash ↦ ?_⟩, fun stored _ ↦ ?_⟩)
  · obtain rfl := Option.some.inj hhash
    exact haccounted
  · cases stored with
    | false => trivial
    | true =>
      refine wp_attempt.2 (wp_mono (fun r _ _ ↦ ?_)
        ((performs_recordLinks (S := fun o ↦ ∃ c host ex n, o = .recordHit c host ex n)
          (fun c host ex n ↦ ⟨c, host, ex, n, rfl⟩) _ _ _ _).wp (I := fun _ ↦ True) ?_ ?_ trivial))
      · cases r <;> trivial
      · rintro _ _ - ⟨_, _, _, _, rfl⟩
        trivial
      · exact fun _ _ _ _ _ _ _ ↦ trivial

/-- A fresh page hands its version over, or has found it journaled, before it is recorded. -/
theorem wp_indexFresh_records {body : String} {target : Url} {r : HttpResponse} {now : Int}
    {prior : Option CrawledPageRow} {status : ℕ} {etag lm : Option String}
    (hs : Seen (some prior) (some (target, r)) [] false h) (hbody : r.body = some body) :
    wp (history G) (RecordSpec X ctx url) (fun _ _ ↦ True)
      (indexFresh X ctx url now prior status body etag lm target.toString) h := by
  rw [indexFresh]
  by_cases ha : alreadyIndexed X prior body = true
  · rw [if_pos ha]
    refine wp_attempt.2 (wp_recordFresh (Or.inl ?_))
    rw [hs.priorRow_eq]
    exact eq_of_beq ha
  · rw [if_neg ha]
    refine wp_attempt.2 (wp_history_op.2 ⟨trivial, fun _ _ ↦ wp_history_op.2 ⟨trivial,
      fun sent _ ↦ ?_⟩⟩)
    cases sent with
    | true =>
      refine wp_recordFresh
        (Or.inr ⟨freshJob X ctx url body target.toString now, ?_, rfl, ?_, rfl⟩)
      · refine List.mem_filterMap.2
          ⟨⟨.send (freshJob X ctx url body target.toString now), true⟩, ?_, rfl⟩
        exact List.mem_append_right _ (List.mem_singleton.2 rfl)
      · -- counting and sending are no responses
        have hs₂ := (hs.append ⟨.inflightAdd 1, ()⟩).append
          (⟨.send (freshJob X ctx url body target.toString now), true⟩ : CrawlEvent)
        have hserved := hs₂.served
        show indexUrl X ctx url body target.toString = servedIndexUrl X ctx url _
        rw [servedIndexUrl, hserved]
        show _ = indexUrl X ctx url (r.body.getD "") target.toString
        rw [hbody, Option.getD_some]
    | false => exact wp_history_op.2 ⟨trivial, fun _ _ ↦ trivial⟩

/-- **A page records what it has handed over.** -/
theorem wp_crawlPage_records (fetcher : Fetcher) (now : Int) (url : String) :
    wp (history G) (RecordSpec X ctx url) (fun _ _ ↦ True)
      (crawlPage X fetcher ctx now url) [] := by
  refine wp_crawlPage_of_outcome (fun h o ho ↦ ?_) (fun _ ↦ ⟨rfl, rfl⟩) (fun _ _ _ _ ↦ trivial)
    (fun _ _ _ _ _ _ ↦ trivial) fun prior outcome h ho ↦ ?_
  · cases o <;> trivial
  · obtain ⟨served, hs, ho⟩ := ho
    cases outcome with
    | fresh status body etag lm finalUrl =>
      obtain ⟨_, _, rfl, _, hbody, rfl, _⟩ := ho
      exact wp_indexFresh_records hs hbody
    | rateLimited _ => trivial
    | notModified => exact wp_upsertRow_carried hs ho rfl rfl fun _ ↦ trivial
    | otherStatus status => exact wp_upsertRow_carried hs ho rfl rfl fun _ ↦ trivial

end Spec

end CommunitySearch
