import CommunitySearch.System

/-!
# Recovery of the index after a crash

A crash loses what is queued and buffered for the index; the rows of the pages are in the database.
The next crawl of such a page finds a fingerprint that is not journaled, and hands the document over
again — if it gets the body. The validators of the row are stored with it, before the commit, so a
server that answers 304 to them keeps the body from the crawler: a page is handed over exactly if it
is answered with a page that is not the version journaled, and the indexer accepts it
(`handedOver_iff`).
-/

namespace CommunitySearch

/-- The URL and the events of a page whose crawl is done. -/
def CrawlRun.donePage (run : CrawlRun) : Option (String × List CrawlEvent) :=
  match run.phase with
  | .crawling _ url (.ret _) events => some (url, events)
  | _ => none

/-- The row does not record that the version it describes is committed. -/
def CrawledPageRow.Stale (p : CrawledPageRow) : Prop :=
  p.contentHash ≠ p.indexedContentHash

instance (p : CrawledPageRow) : Decidable p.Stale :=
  inferInstanceAs (Decidable (_ ≠ _))

/-- The document of the page served was handed to the indexer. -/
def HandedOver (X : Crates) (run : CrawlRun) (url : String) (events : List CrawlEvent) : Prop :=
  ∃ u r body, servedPage events = some (u, r) ∧ r.body = some body ∧
    freshJob X run.ctx url body u.toString run.now ∈ sentJobs events

/-- The answer is a page, in a version other than the one journaled in the row. -/
def AnsweredAnew (X : Crates) (p : CrawledPageRow) (r : HttpResponse) : Prop :=
  r.isPage = true ∧ ∀ body ∈ r.body, p.indexedContentHash ≠ some (contentHash X body)

variable {X : Crates} {s : Sys}

/-- Every page of every crawl sends what its events call for. -/
theorem resultSpec_of_reachable (h : s.Reachable X) {run : CrawlRun} (hrun : run ∈ s.runs)
    {url : String} {events : List CrawlEvent} (hdone : run.donePage = some (url, events)) :
    ResultSpec X run.ctx run.now url events := by
  have hI : ∀ run ∈ s.runs, run.PageMeets (fun _ _ ↦ True) (fun _ _ _ ↦ True)
      (fun url _ events ↦ ResultSpec X run.ctx run.now url events) := by
    refine Sys.forall_runs (fun _ _ _ _ ↦ CrawlRun.pageMeets_start _ _ _ _) ?_ h
    intro e e' run run' l hI hs
    obtain ⟨hctx, -, -, hnow⟩ := CrawlRun.const_of_step hs
    rw [hctx, hnow]
    refine hI.step (fun url ↦ ?_) (fun _ _ _ _ _ _ _ _ _ _ ↦ trivial) hs
    exact Prog.wp_mono' (fun _ _ _ _ hr ↦ hr) (fun _ _ _ ↦ trivial) (fun _ _ hq ↦ hq)
      (wp_crawlPage run.fetcher run.ctx run.now url)
  rw [CrawlRun.donePage] at hdone
  split at hdone
  case h_1 d url' r events' hp =>
    obtain ⟨rfl, rfl⟩ := Prod.mk.inj (Option.some.inj hdone)
    exact (hI run hrun).result hp
  case h_2 => cases hdone

/-- **Recovery after crashes.** In every reachable state, whatever crashes came before it: a page
whose row is `p` and that is answered with `r` hands its document to the indexer if and only if `r`
is a page in a version other than the one journaled in `p`, and the indexer accepts it. -/
theorem handedOver_iff (h : s.Reachable X) {run : CrawlRun} (hrun : run ∈ s.runs) {url : String}
    {events : List CrawlEvent} (hdone : run.donePage = some (url, events)) {p : CrawledPageRow}
    (hp : priorRow events = some p) {u : Url} {r : HttpResponse}
    (hserved : servedPage events = some (u, r)) :
    HandedOver X run url events ↔ AnsweredAnew X p r ∧ refused events = false := by
  have hresult := resultSpec_of_reachable h hrun hdone
  have halready : ∀ body, alreadyIndexed X (priorRow events) body = false ↔
      p.indexedContentHash ≠ some (contentHash X body) := fun body ↦ by
    rw [hp, alreadyIndexed, Option.bind_some, beq_eq_false_iff_ne]
  constructor
  · rintro ⟨u', r', body, hs, hbody, hsent⟩
    obtain ⟨rfl, rfl⟩ := Prod.mk.inj (Option.some.inj (hserved.symm.trans hs))
    obtain ⟨u'', r'', body', hs', hpage, hbody', hnew, haccepted, -⟩ := (hresult _).1 hsent
    obtain ⟨rfl, rfl⟩ := Prod.mk.inj (Option.some.inj (hserved.symm.trans hs'))
    refine ⟨⟨hpage, fun body'' hbody'' ↦ ?_⟩, haccepted⟩
    obtain rfl : body' = body'' := Option.some.inj (hbody'.symm.trans hbody'')
    exact (halready _).1 hnew
  · rintro ⟨⟨hpage, hnew⟩, haccepted⟩
    obtain ⟨body, hbody, -⟩ := classify_of_isPage hpage u
    exact ⟨u, r, body, hserved, hbody, (hresult _).2
      ⟨u, r, body, hserved, hpage, hbody, (halready _).2 (hnew body hbody), haccepted, rfl⟩⟩

/-- A page that is answered in full and has not changed since its row was written is handed over
again until the row is journaled. -/
theorem handedOver_of_unchanged (h : s.Reachable X) {run : CrawlRun} (hrun : run ∈ s.runs)
    {url : String} {events : List CrawlEvent} (hdone : run.donePage = some (url, events))
    {p : CrawledPageRow} (hp : priorRow events = some p) (hstale : p.Stale) {u : Url}
    {r : HttpResponse} (hserved : servedPage events = some (u, r)) (hpage : r.isPage = true)
    (hsame : ∀ body ∈ r.body, p.contentHash = some (contentHash X body))
    (haccepted : refused events = false) : HandedOver X run url events := by
  refine (handedOver_iff h hrun hdone hp hserved).2 ⟨⟨hpage, fun body hbody hmark ↦ ?_⟩, haccepted⟩
  exact hstale ((hsame body hbody).trans hmark.symm)

/-! ### A page that is lost in a crash -/

namespace LostPage

/-- The page is sent and its row is written; then the process is killed and the crawl is started
again. -/
def crashed : List SysLabel :=
  OnePage.install ++ [OnePage.startRun OnePage.due 0] ++ OnePage.fetch 0 false OnePage.page ++
    OnePage.send 0 ++ OnePage.write 0 ++ [.crash, OnePage.startRun OnePage.due 60]

/-- The answer to the validators of the row. -/
def notModified : HttpResponse := ⟨304, none, none, none, none, none⟩

/-- The crawl after the crash, answered with 304. -/
def unmodified : List SysLabel :=
  crashed ++ OnePage.fetch 0 false notModified ++ OnePage.write 0

/-- The crawl after the crash, answered in full. -/
def full : List SysLabel :=
  crashed ++ OnePage.fetch 0 false OnePage.page ++ OnePage.send 0 ++ OnePage.write 0

/-- The crawl of a page whose row is stale is done; its answer, and whether it sent something. -/
def outcome (run : CrawlRun) : Option (HttpResponse × Bool) :=
  run.donePage.bind fun (_, events) ↦ (priorRow events).bind fun p ↦
    if p.Stale then (servedPage events).map fun (_, r) ↦ (r, !(sentJobs events).isEmpty) else none

end LostPage

/-- The row of the page is stale, and the server answers 304. -/
theorem not_handedOver : ¬ ∀ s, Sys.Reachable OnePage.crates s → ∀ run ∈ s.runs, ∀ url events,
    run.donePage = some (url, events) → ∀ p, priorRow events = some p → p.Stale →
      ∀ u r, servedPage events = some (u, r) → r.status = 200 ∨ r.status = 304 →
        HandedOver OnePage.crates run url events := by
  obtain ⟨s, hrun, hs⟩ : ∃ s, (sysMachine OnePage.crates).run .init LostPage.unmodified = some s ∧
      (s.runs.any fun run ↦
        decide (LostPage.outcome run = some (LostPage.notModified, false))) = true :=
    Machine.exists_run_of_any (by decide +kernel)
  obtain ⟨run, hmem, hout⟩ := List.any_eq_true.1 hs
  obtain ⟨⟨url, events⟩, hdone, hrow⟩ := Option.bind_eq_some_iff.1 (of_decide_eq_true hout)
  obtain ⟨p, hp, hstale⟩ := Option.bind_eq_some_iff.1 hrow
  intro h
  split at hstale
  case isFalse => cases hstale
  case isTrue hst =>
    obtain ⟨⟨u, r⟩, hserved, he⟩ := Option.map_eq_some_iff.1 hstale
    obtain ⟨rfl, hsent⟩ := Prod.mk.inj he
    obtain ⟨_, _, _, -, -, hjob⟩ := h s ⟨_, hrun⟩ run hmem url events hdone p hp hst u _ hserved
      (Or.inr rfl)
    rw [Bool.not_eq_false', List.isEmpty_iff] at hsent
    rw [hsent] at hjob
    exact nomatch hjob

/-- The same page, answered in full after the crash. -/
theorem handedOver_iff_full : ∃ s,
    (sysMachine OnePage.crates).run .init LostPage.full = some s ∧ ∃ run ∈ s.runs,
      ∃ url events p u, run.donePage = some (url, events) ∧ priorRow events = some p ∧ p.Stale ∧
        servedPage events = some (u, OnePage.page) ∧
        (HandedOver OnePage.crates run url events ↔
          AnsweredAnew OnePage.crates p OnePage.page ∧ refused events = false) := by
  obtain ⟨s, hrun, hs⟩ : ∃ s, (sysMachine OnePage.crates).run .init LostPage.full = some s ∧
      (s.runs.any fun run ↦
        decide (LostPage.outcome run = some (OnePage.page, true))) = true :=
    Machine.exists_run_of_any (by decide +kernel)
  obtain ⟨run, hmem, hout⟩ := List.any_eq_true.1 hs
  obtain ⟨⟨url, events⟩, hdone, hrow⟩ := Option.bind_eq_some_iff.1 (of_decide_eq_true hout)
  obtain ⟨p, hp, hstale⟩ := Option.bind_eq_some_iff.1 hrow
  dsimp only at hstale
  split at hstale
  case isFalse => cases hstale
  case isTrue hst =>
    obtain ⟨⟨u, r⟩, hserved, he⟩ := Option.map_eq_some_iff.1 hstale
    obtain ⟨rfl, -⟩ := Prod.mk.inj he
    exact ⟨s, hrun, run, hmem, url, events, p, u, hdone, hp, hst, hserved,
      handedOver_iff ⟨_, hrun⟩ hmem hdone hp hserved⟩

end CommunitySearch
