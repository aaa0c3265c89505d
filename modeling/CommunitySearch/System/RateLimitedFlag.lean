import CommunitySearch.Api.ImportedTargets
import CommunitySearch.System
import CommunitySearch.Foundation.TermStore

/-!
# The rate-limited flag

The admin listing flags a target when some row of its pages has `last_status = 429`, and the flag is
to clear with the next other status of the page. But `crawl_page` writes no row on a 429, and the
fetcher reports a 429 in no other way (`noLimit_of_classify`): no crawl ever writes a row that the
flag looks for, and only an import can bring one.

Against the flag stands a log of the answers to the requests for pages (`Sys.logAnswer`), which the
system does not keep. The flags say what the log says, all along a run, exactly when no page of a
target is answered 429 and no page imported is marked so (`flagsRight_iff_guarded`).
-/

namespace CommunitySearch

open Prog

/-! ### No crawl writes a 429 -/

/-- The operation writes no row with the status 429. -/
def CrawlOp.NoLimit : CrawlOp → Prop
  | .upsert row => row.lastStatus ≠ some 429
  | _ => True

/-- The outcome carries no status 429. -/
def FetchOutcome.NoLimit : FetchOutcome → Prop
  | .fresh status .. | .otherStatus status => status ≠ 429
  | .notModified | .rateLimited _ => True

theorem CrawlOp.IsPrelude.noLimit {o : CrawlOp} (h : o.IsPrelude) : o.NoLimit := by
  cases o <;> trivial

theorem CrawlOp.IsRequest.noLimit {kind : RequestKind} {o : CrawlOp} (h : o.IsRequest kind) :
    o.NoLimit := by
  cases o <;> trivial

section Page

variable {X : Crates}

/-- **A 429 is an outcome of its own.** -/
theorem noLimit_of_classify {r : HttpResponse} {u : Url} {outcome : FetchOutcome}
    (h : classify r u = .ok outcome) : outcome.NoLimit := by
  cases outcome with
  | notModified | rateLimited => trivial
  | fresh status body etag lm finalUrl =>
    obtain ⟨hpage, -, -, rfl⟩ := isPage_of_classify h
    intro h429
    have hsuccess : r.isSuccess = true := by
      rw [HttpResponse.isPage, Bool.and_eq_true, Bool.and_eq_true] at hpage
      exact hpage.1.1
    rw [HttpResponse.isSuccess, h429] at hsuccess
    cases hsuccess
  | otherStatus status =>
    rintro rfl
    rw [classify] at h
    split at h
    · cases h
    · split at h
      · cases h
      case isFalse h429 =>
        split at h
        · exact h429 (FetchOutcome.otherStatus.inj (Except.ok.inj h))
        · simp only at h
          split at h
          · cases h
          · split at h <;> cases h

theorem performs_handleOutcome_noLimit {ctx : PageContext} {url : String} {now : Int}
    {prior : Option CrawledPageRow} {outcome : FetchOutcome} (h : outcome.NoLimit) :
    Performs CrawlOp.NoLimit (handleOutcome X ctx url now prior outcome) := by
  have hrow : ∀ {α : Type} (row : CrawledPageRow) (f : Unit → Crawl (CrawlResult α)),
      row.lastStatus ≠ some 429 → Performs CrawlOp.NoLimit (f ()) →
      Performs CrawlOp.NoLimit ((upsertRow row).attempt f) := fun row f hrow hf ↦ by
    refine ⟨hrow, fun stored ↦ ?_⟩
    cases stored with
    | false => trivial
    | true => exact hf
  have hstatus : ∀ status : Nat, status ≠ 429 → some (status : Int) ≠ some 429 :=
    fun status hne he ↦ hne (Int.ofNat.inj (Option.some.inj he))
  cases outcome with
  | rateLimited _ => trivial
  | notModified => exact hrow _ _ (hstatus 304 (by decide)) trivial
  | otherStatus status => exact hrow _ _ (hstatus status h) trivial
  | fresh status body etag lm finalUrl =>
    refine Performs.attempt ?_ fun _ ↦ hrow _ _ (hstatus status h)
      ((performs_recordLinks (fun _ _ _ _ ↦ trivial) _ _ _ _).attempt fun _ ↦ trivial)
    split
    · trivial
    · refine ⟨trivial, fun _ ↦ ⟨trivial, fun sent ↦ ?_⟩⟩
      cases sent
      · exact ⟨trivial, fun _ ↦ trivial⟩
      · trivial

/-- **No page crawl writes a row with the status 429.** -/
theorem wp_crawlPage_noLimit (fetcher : Fetcher) (ctx : PageContext) (now : Int) (url : String) :
    wp (history fun _ _ ↦ True) (fun _ (o : CrawlOp) ↦ o.NoLimit) (fun _ _ ↦ True)
      (crawlPage X fetcher ctx now url) [] := by
  have hwp : ∀ {α : Type} {p : Crawl α} (h : List CrawlEvent), Performs CrawlOp.NoLimit p →
      wp (history fun _ _ ↦ True) (fun _ (o : CrawlOp) ↦ o.NoLimit) (fun _ _ ↦ True) p h :=
    fun h hp ↦
    hp.wp (I := fun _ ↦ True) (fun _ _ _ ho ↦ ho) (fun _ _ _ _ _ _ _ ↦ trivial) trivial
  refine wp_attempt.2 (wp_mono (fun r h _ ↦ ?_)
    (hwp _ ((performs_isAllowed url).mono fun _ h ↦ h.isPrelude.noLimit)))
  cases r with
  | error err => trivial
  | ok allowed =>
    dsimp only
    split
    · trivial
    · refine wp_history_op.2 ⟨trivial, fun row _ ↦ ?_⟩
      cases row with
      | none => trivial
      | some prior =>
        refine wp_attempt.2 ?_
        rw [fetch]
        split
        · refine wp_bind.2 (wp_mono (fun res h' _ ↦ ?_)
            (hwp _ ((performs_clientGet _ _ _).mono fun _ ↦ CrawlOp.IsRequest.noLimit)))
          cases res with
          | none => trivial
          | some res =>
            rcases hc : classify res.1 res.2 with err | outcome
            · simp only [hc]
              trivial
            · simp only [hc]
              exact hwp _ (performs_handleOutcome_noLimit (noLimit_of_classify hc))
        · trivial

/-- The run writes no row with the status 429. -/
structure CrawlRun.NoLimit (run : CrawlRun) : Prop where
  preluding : run.Preluding
  page : run.PageMeets (fun _ _ ↦ True) (fun _ _ o ↦ o.NoLimit) fun _ _ _ ↦ True

theorem CrawlRun.noLimit_start (fetcher : Fetcher) (ctx : PageContext) (config : DriverConfig)
    (now : Int) : (CrawlRun.start X fetcher ctx config now).NoLimit :=
  ⟨preluding_start _ _ _ _, pageMeets_start _ _ _ _⟩

theorem CrawlRun.NoLimit.step {e e' : Engine} {run run' : CrawlRun} {l : CrawlLabel}
    (hI : run.NoLimit) (h : run.step X e l = some (e', run')) : run'.NoLimit where
  preluding := hI.preluding.step h
  page := hI.page.step (fun _ ↦ wp_crawlPage_noLimit _ _ _ _) (fun _ _ _ _ _ _ _ _ _ _ ↦ trivial) h

theorem CrawlRun.NoLimit.of_nextOp {run : CrawlRun} (hI : run.NoLimit) {o : CrawlOp}
    (h : run.nextOp = some o) : o.NoLimit := by
  obtain ho | ⟨d, url, k, events, hp⟩ := hI.preluding.of_nextOp h
  · exact ho.noLimit
  · exact hI.page.nextOp hp

/-- An import writes no page while it sends. -/
theorem performs_sendImport (report : ImportReport) (jobs : List IndexJob) :
    Performs CrawlOp.NoLimit (sendImport report jobs) := by
  induction jobs with
  | nil => trivial
  | cons job jobs ih =>
    refine ⟨trivial, fun _ ↦ ⟨trivial, fun sent ↦ ?_⟩⟩
    cases sent with
    | true => exact ih
    | false => exact ⟨trivial, fun _ ↦ trivial⟩

end Page

/-! ### The rows a step leaves -/

namespace Database

variable {db db' : Database}

/-- No page has the status 429. -/
def NoLimit (db : Database) : Prop := ∀ p ∈ db.crawledPages, p.lastStatus ≠ some 429

theorem NoLimit.upsertPage (h : db.NoLimit) {row : CrawledPageRow}
    (hrow : row.lastStatus ≠ some 429) (hdb : db.upsertPage row = some db') : db'.NoLimit := by
  intro p' hp'
  obtain ⟨-, -, pages, n, rfl, ⟨-, hmem⟩ | hmem⟩ := upsertPage_cases hdb
  · obtain ⟨p, hp, rfl⟩ := (hmem p').1 hp'
    split
    · exact hrow
    · exact h p hp
  · rcases (hmem p').1 hp' with hold | rfl
    · exact h p' hold
    · exact hrow

theorem NoLimit.cascadeCollection (h : db.NoLimit) (id : Uuid) :
    (db.cascadeCollection id).NoLimit :=
  fun p hp ↦ h p (mem_crawledPages_cascadeCollection.1 hp).1

theorem NoLimit.cascadeTarget (h : db.NoLimit) (id : Uuid) : (db.cascadeTarget id).NoLimit :=
  fun p hp ↦ h p (mem_crawledPages_cascadeTarget.1 hp).1

theorem NoLimit.markIndexedBatch (h : db.NoLimit) (entries : List IndexedEntry) :
    (db.markIndexedBatch entries).NoLimit := by
  induction entries generalizing db with
  | nil => exact h
  | cons e entries ih =>
    refine ih fun p' hp' ↦ ?_
    obtain ⟨p, hp, rfl⟩ := mem_crawledPages_markIndexed.1 hp'
    split
    · exact h p hp
    · exact h p hp

theorem NoLimit.collections (h : db.NoLimit) {ts : String} {action : CollectionAction}
    {r : Option CollectionRecord} (hr : handleCollections db ts action = .ok (db', r)) :
    db'.NoLimit := by
  obtain ⟨_, _, _, -, hc⟩ | ⟨_, _, _, _, -, hu⟩ | ⟨_, _, -, -, rfl⟩ := handleCollections_cases hr
  · obtain ⟨_, rfl⟩ := createItem_eq hc
    exact h
  · obtain ⟨_, rfl⟩ := updateItem_eq hu
    exact h
  · exact h.cascadeCollection _

theorem NoLimit.crawlTargets (h : db.NoLimit) {ts : String} {detected : Option String}
    {action : CrawlTargetAction} {r : CrawlTargetReply}
    (hr : handleCrawlTargets db ts detected action = .ok (db', r)) : db'.NoLimit := by
  obtain ⟨-, _, _, _, _, ha⟩ | ⟨_, _, -, -, -, rfl⟩ | ⟨-, hr⟩ := handleCrawlTargets_cases hr
  · obtain ⟨_, -, _, -, rfl⟩ := addTarget_eq ha
    exact h
  · exact h.cascadeTarget _
  · obtain ⟨_, rfl⟩ := hr.eq
    exact h

end Database

/-! ### The log and the flags -/

/-- The status of an answer to one hop; a redirect is the answer until the next hop has one. -/
def HttpAnswer.status : HttpAnswer → Option Nat
  | .response r => some r.status
  | .redirect status _ => some status.code
  | .failed => none

/-- An answer to a request for a page. -/
structure PageAnswer where
  collectionId : Uuid
  url : String
  /-- The target the page belongs to, if it has not been removed. -/
  crawlTargetId : Option Uuid
  /-- The status of the answer, if there was one. -/
  status : Option Nat
deriving DecidableEq

/-- For some page of the target the most recent fetch was answered 429. -/
def LastAnswered429 (log : List PageAnswer) (target : Uuid) : Prop :=
  ∃ a, log.findLast? (fun b ↦ b.collectionId = a.collectionId ∧ b.url = a.url) = some a ∧
    a.crawlTargetId = some target ∧ a.status = some 429

theorem not_lastAnswered429 {log : List PageAnswer}
    (h : ∀ a ∈ log, a.status = some 429 → a.crawlTargetId = none) (target : Uuid) :
    ¬ LastAnswered429 log target := by
  rintro ⟨a, hlast, htarget, h429⟩
  have hnone := h a (List.mem_of_findLast?_eq_some hlast) h429
  rw [hnone] at htarget
  cases htarget

theorem lastAnswered429_concat (log : List PageAnswer) {a : PageAnswer} {target : Uuid}
    (htarget : a.crawlTargetId = some target) (h429 : a.status = some 429) :
    LastAnswered429 (log ++ [a]) target :=
  ⟨a, by rw [List.findLast?_concat, if_pos (by simp)], htarget, h429⟩

namespace Sys

/-- The answer a step gives to the request for a page. -/
def pageAnswer (s : Sys) : SysLabel → Option PageAnswer
  | .crawl k (.answer (.http a)) =>
    match s.runs[k]? with
    | some run =>
      match run.phase with
      | .crawling _ url (.op (.request .page ..) _) _ =>
        some
          { collectionId := run.ctx.collectionId
            url := url
            crawlTargetId :=
              if s.engine.db.HasTarget run.ctx.crawlTargetId then some run.ctx.crawlTargetId
              else none
            status := a.status }
      | _ => none
    | none => none
  | _ => none

/-- The log of the answers. -/
def logAnswer (log : List PageAnswer) (s : Sys) (l : SysLabel) : List PageAnswer :=
  log ++ (s.pageAnswer l).toList

/-- The flags of the listing say which targets have a page whose most recent fetch was answered
429. -/
def FlagsRight (s : Sys) (log : List PageAnswer) : Prop :=
  ∀ t ∈ s.engine.db.crawlTargets, ∀ item ∈ s.engine.db.listTargets, item.id = t.rowid →
    (item.rateLimited = true ↔ LastAnswered429 log t.id)

/-- The step answers no page of a target with 429. -/
def Unlimited (s : Sys) (l : SysLabel) : Prop :=
  ∀ a ∈ s.pageAnswer l, a.status = some 429 → a.crawlTargetId = none

/-- An import that is accepted brings no page whose last status is 429. -/
def ImportsUnlimited (X : Crates) (s : Sys) : SysLabel → Prop
  | .importEnvelope env ts =>
    ∀ r ∈ (acceptImport X s.engine.db ts (.ok env)).toOption,
      ∀ c ∈ newCollections s.engine.db.collectionNames env.collections,
        ∀ t ∈ c.crawlTargets, ∀ p ∈ t.crawledPages, p.lastStatus ≠ some 429
  | _ => True

variable {X : Crates} {s s' : Sys} {log : List PageAnswer}

/-- Every target has its row in the listing. -/
theorem exists_item (h : s.Reachable X) {t : CrawlTargetRow} (ht : t ∈ s.engine.db.crawlTargets) :
    ∃ item ∈ s.engine.db.listTargets, item.id = t.rowid ∧
      (item.rateLimited = true ↔
        ∃ p ∈ s.engine.db.crawledPages, p.crawlTargetId = t.id ∧ p.lastStatus = some 429) := by
  obtain ⟨c, hc, hid⟩ := (foreignKeys_of_reachable h).target_collection t ht
  exact ⟨_, Database.mem_listTargets.2 ⟨t, ht, c, hc, hid, rfl⟩, rfl,
    Database.rateLimited_listItem⟩

/-- Where no page is marked no flag is set. -/
theorem rateLimited_of_noLimit (h : s.engine.db.NoLimit) {item : CrawlTargetListItem}
    (hitem : item ∈ s.engine.db.listTargets) : item.rateLimited = false := by
  obtain ⟨t, -, c, -, -, rfl⟩ := Database.mem_listTargets.1 hitem
  rw [Bool.eq_false_iff]
  intro hflag
  obtain ⟨p, hp, -, h429⟩ := Database.rateLimited_listItem.1 hflag
  exact h p hp h429

/-- Neither a row nor the log has a 429. -/
structure LimitFree (X : Crates) (s : Sys) (log : List PageAnswer) : Prop where
  reachable : s.Reachable X
  pages : s.engine.db.NoLimit
  imports : ∀ p ∈ s.imports, Performs CrawlOp.NoLimit p
  log : ∀ a ∈ log, a.status = some 429 → a.crawlTargetId = none

theorem LimitFree.runs (h : LimitFree X s log) : ∀ run ∈ s.runs, run.NoLimit :=
  forall_runs (X := X) CrawlRun.noLimit_start (fun _ _ _ _ _ hI hs ↦ hI.step hs) h.reachable

theorem LimitFree.flagsRight (h : LimitFree X s log) : s.FlagsRight log := by
  intro t _ item hitem _
  rw [rateLimited_of_noLimit h.pages hitem]
  exact iff_of_false Bool.false_ne_true (not_lastAnswered429 h.log t.id)

/-- An operation of a task that writes no 429. -/
theorem noLimit_of_perform {e e' : Engine} {o : CrawlOp} {a : Answer} {r : o.Resp}
    (h : e.db.NoLimit) (ho : o.NoLimit) (hr : e.perform o a = some (r, e')) : e'.db.NoLimit := by
  rcases Engine.db_of_perform hr with hdb | ⟨row, rfl, hdb⟩ | hdb
  · rw [hdb]
    exact h
  · exact h.upsertPage ho hdb
  · obtain ⟨_, _, hdb, -⟩ := hdb.eq
    rw [hdb]
    exact h

theorem noLimit_of_turn {e e' : Engine} {event : IndexerEvent} {outcome : FlushOutcome}
    (h : e.db.NoLimit) (hturn : e.Turn event outcome e') : e'.db.NoLimit := by
  rcases hturn.db with hdb | ⟨entries, hdb⟩
  · rw [hdb]
    exact h
  · rw [hdb]
    exact h.markIndexedBatch entries

/-- **An admissible step writes no 429.** -/
theorem LimitFree.pages_of_step (h : LimitFree X s log) {l : SysLabel}
    (hok : ImportsUnlimited X s l) (hstep : (sysMachine X).step s l = some s') :
    s'.engine.db.NoLimit := by
  have hdb := dbStep_of_step hstep
  generalize s'.engine.db = db at hdb ⊢
  cases hdb with
  | same => exact h.pages
  | collections hr => exact h.pages.collections hr
  | crawlTargets hr => exact h.pages.crawlTargets hr
  | imported hr =>
    intro p hp h429
    have hadds := adds_of_committedImport (committedImport_of_acceptImport hr)
    obtain ⟨p, hp, h429⟩ | ⟨t, ht, p, hp, h429⟩ := hadds.mem_statuses.1 ⟨p, hp, h429⟩
    · exact h.pages p hp h429
    · obtain ⟨c, hc, ht⟩ := List.mem_flatMap.1 ht
      exact hok _ (by rw [hr]; rfl) c hc t ht p hp h429
  | performed hdue hr =>
    cases hdue with
    | crawl hk ho =>
      exact noLimit_of_perform h.pages ((h.runs _ (List.mem_of_getElem? hk)).of_nextOp ho) hr
    | import_ hk =>
      exact noLimit_of_perform h.pages (h.imports _ (List.mem_of_getElem? hk)).1 hr
  | timed =>
    unfold runTime
    split
    · exact h.pages
    · exact h.pages
  | turned he => exact noLimit_of_turn h.pages (Engine.turn_of_indexerStep he)

/-- No step makes an import write one. -/
theorem LimitFree.imports_of_step (h : LimitFree X s log) {l : SysLabel}
    (hstep : (sysMachine X).step s l = some s') :
    ∀ p ∈ s'.imports, Performs CrawlOp.NoLimit p := by
  cases change_of_step hstep with
  | imported =>
    intro p hp
    rcases List.mem_append.1 hp with hp | hp
    · exact h.imports p hp
    · obtain rfl := List.mem_singleton.1 hp
      exact performs_sendImport _ _
  | @importStepped _ _ o next r _ hk =>
    intro p hp
    rcases List.mem_or_eq_of_mem_set hp with hp | rfl
    · exact h.imports p hp
    · exact (h.imports _ (List.mem_of_getElem? hk)).2 r
  | importEnded | importDropped => exact fun p hp ↦ h.imports p (List.mem_of_mem_eraseIdx hp)
  | crashed => exact fun _ hp ↦ absurd hp List.not_mem_nil
  | _ => exact h.imports

/-- **One step** that is admissible keeps rows and log free of 429s. -/
theorem LimitFree.step (h : LimitFree X s log) {l : SysLabel} (hanswer : s.Unlimited l)
    (himport : ImportsUnlimited X s l) (hstep : (sysMachine X).step s l = some s') :
    LimitFree X s' (logAnswer log s l) := by
  refine ⟨h.reachable.step hstep, h.pages_of_step himport hstep, h.imports_of_step hstep,
    fun a ha ↦ ?_⟩
  rcases List.mem_append.1 ha with hold | hnew
  · exact h.log a hold
  · exact hanswer a (Option.mem_toList.1 hnew)

/-- A page that is answered belongs to a target that is there, and the answer changes nothing. -/
theorem hasTarget_of_pageAnswer {l : SysLabel} {a : PageAnswer} {target : Uuid}
    (h : s.pageAnswer l = some a) (htarget : a.crawlTargetId = some target)
    (hstep : (sysMachine X).step s l = some s') :
    s.engine.db.HasTarget target ∧ s'.engine.db = s.engine.db := by
  unfold pageAnswer at h
  split at h
  case h_2 => cases h
  case h_1 k x =>
    split at h
    case h_2 => cases h
    case h_1 run hk =>
      split at h
      case h_2 => cases h
      case h_1 d url u spelled v next events hphase =>
        obtain rfl := Option.some.inj h
        have hs : s.step X (.crawl k (.answer (.http x))) = some s' := hstep
        simp only [step, hk] at hs
        obtain ⟨⟨e, run'⟩, hr, rfl⟩ := Option.map_eq_some_iff.1 hs
        replace hr : run.answer s.engine (.http x) = some (e, run') := hr
        rw [CrawlRun.answer, hphase] at hr
        obtain ⟨⟨x', e'⟩, hperform, he⟩ := Option.map_eq_some_iff.1 hr
        obtain ⟨rfl, -⟩ := Prod.mk.inj he
        refine ⟨?_, congrArg Engine.db (Engine.performed_of_perform hperform).2⟩
        obtain ⟨hhas, rfl⟩ : s.engine.db.HasTarget run.ctx.crawlTargetId ∧
            run.ctx.crawlTargetId = target := by simpa using htarget
        exact hhas

/-- **A page of a target that is answered 429** leaves the flag of the target behind. -/
theorem LimitFree.not_flagsRight_of_answer (h : LimitFree X s log) {l : SysLabel}
    (hanswer : ¬ s.Unlimited l) (hstep : (sysMachine X).step s l = some s') :
    ¬ s'.FlagsRight (logAnswer log s l) := by
  intro hright
  rw [Unlimited] at hanswer
  push Not at hanswer
  obtain ⟨a, ha, h429, hsome⟩ := hanswer
  obtain ⟨target, htarget⟩ := Option.ne_none_iff_exists'.1 hsome
  obtain ⟨⟨t, ht, rfl⟩, hdb⟩ := hasTarget_of_pageAnswer ha htarget hstep
  have hpages : s'.engine.db.NoLimit := hdb ▸ h.pages
  have hmem : t ∈ s'.engine.db.crawlTargets := hdb ▸ ht
  obtain ⟨item, hitem, hid, -⟩ := exists_item (h.reachable.step hstep) hmem
  have hlog : LastAnswered429 (logAnswer log s l) t.id := by
    rw [logAnswer, ha]
    exact lastAnswered429_concat log htarget h429
  have hflag := (hright t hmem item hitem hid).2 hlog
  rw [rateLimited_of_noLimit hpages hitem] at hflag
  cases hflag

/-- **A page that is imported with a 429** sets a flag no fetch accounts for. -/
theorem LimitFree.not_flagsRight_of_import (h : LimitFree X s log) {l : SysLabel}
    (himport : ¬ ImportsUnlimited X s l) (hstep : (sysMachine X).step s l = some s') :
    ¬ s'.FlagsRight (logAnswer log s l) := by
  intro hright
  cases l with
  | importEnvelope env ts =>
    rw [ImportsUnlimited] at himport
    push Not at himport
    obtain ⟨⟨db, report, jobs⟩, hr, c, hc, e, he, p, hp, h429⟩ := himport
    have hadds : s.engine.db.Adds s'.engine.db
        ((newCollections s.engine.db.collectionNames env.collections).flatMap
          ExportedCollection.crawlTargets) := by
      cases move_of_step hstep with
      | imported haccept => exact adds_of_committedImport (committedImport_of_acceptImport haccept)
      | importRefused herr =>
        rw [herr] at hr
        cases hr
    obtain ⟨p', hp', h429'⟩ := hadds.mem_statuses.2
      (Or.inr ⟨e, List.mem_flatMap.2 ⟨c, hc, he⟩, p, hp, h429⟩)
    have hreach := h.reachable.step hstep
    obtain ⟨t, ht, hid⟩ := (foreignKeys_of_reachable hreach).page_target p' hp'
    obtain ⟨item, hitem, hitemid, hflag⟩ := exists_item hreach ht
    -- nothing is logged by an import
    have hlog : LastAnswered429 (log ++ []) t.id :=
      (hright t ht item hitem hitemid).1 (hflag.2 ⟨p', hp', hid.symm, h429'⟩)
    rw [List.append_nil] at hlog
    exact not_lastAnswered429 h.log t.id hlog
  | _ => exact himport trivial

/-- The step leaves no 429 out of account. -/
def AccountsForLimits (X : Crates) (s : Sys) (l : SysLabel) : Prop :=
  s.Unlimited l ∧ ImportsUnlimited X s l

instance (s : Sys) (l : SysLabel) : Decidable (ImportsUnlimited X s l) :=
  match l with
  | .importEnvelope _ _ => inferInstanceAs (Decidable (∀ r ∈ Except.toOption _, _))
  | .collections .. | .crawlTargets .. | .sendDeletes _ | .import_ .. | .endImport _ | .hangUp _
  | .startRun .. | .crawl .. | .endRun .. | .indexer .. | .upsertFails | .crash => isTrue trivial

instance (s : Sys) (l : SysLabel) : Decidable (AccountsForLimits X s l) :=
  inferInstanceAs (Decidable ((∀ a ∈ s.pageAnswer l, _) ∧ ImportsUnlimited X s l))

/-- **The rate-limited flag**: over the runs of an installation, the listing flags exactly the
targets that have a page whose most recent fetch was answered 429, all along a run exactly when no
page of a target is answered 429 and no page is imported with that status. -/
theorem flagsRight_iff_guarded (X : Crates) (labels : List SysLabel) (s : Sys)
    (hrun : (sysMachine X).run .init labels = some s) :
    (∀ l₁ l₂ u, labels = l₁ ++ l₂ → (sysMachine X).run .init l₁ = some u →
      u.FlagsRight ((sysMachine X).observe logAnswer [] .init l₁)) ↔
        (sysMachine X).Guarded (AccountsForLimits X) .init labels := by
  refine Machine.observed_iff_guarded (I := LimitFree X) (fun _ _ hI ↦ hI.flagsRight)
    (fun _ _ _ _ hI hok hs ↦ hI.step hok.1 hok.2 hs) (fun u log l u' hI hbad hs ↦ ?_) ?_ hrun
  · rcases not_and_or.1 hbad with hanswer | himport
    · exact hI.not_flagsRight_of_answer hanswer hs
    · exact hI.not_flagsRight_of_import himport hs
  · exact ⟨.refl _, fun _ hp ↦ absurd hp (Table.not_mem_empty _),
      fun _ hp ↦ absurd hp List.not_mem_nil, fun _ ha ↦ absurd ha List.not_mem_nil⟩

end Sys

namespace OnePage

/-- The page is crawled and answered with `r`. -/
def crawled (r : HttpResponse) : List SysLabel :=
  install ++ [startRun due 0] ++ fetch 0 false r

def tooMany : HttpResponse := ⟨429, none, none, none, none, none⟩

end OnePage

/-- The page is served and its row written. -/
theorem Sys.flagsRight_onePage : ∃ s,
    (sysMachine OnePage.crates).run .init
      (OnePage.crawled OnePage.page ++ OnePage.send 0 ++ OnePage.write 0) = some s ∧
    s.engine.db.crawledPages.rows ≠ [] ∧
    s.FlagsRight ((sysMachine OnePage.crates).observe Sys.logAnswer [] .init
      (OnePage.crawled OnePage.page ++ OnePage.send 0 ++ OnePage.write 0)) := by
  obtain ⟨s, hrun, hrows⟩ : ∃ s, (sysMachine OnePage.crates).run .init
      (OnePage.crawled OnePage.page ++ OnePage.send 0 ++ OnePage.write 0) = some s ∧
      (!s.engine.db.crawledPages.rows.isEmpty) = true :=
    Machine.exists_run_of_any (by decide +kernel)
  have hne : s.engine.db.crawledPages.rows ≠ [] := by
    intro hnil
    rw [hnil] at hrows
    cases hrows
  exact ⟨s, hrun, hne, (Sys.flagsRight_iff_guarded _ _ s hrun).2 (by decide +kernel) _ [] s
    (List.append_nil _).symm hrun⟩

/-- The page is answered 429, and the target is not flagged. -/
theorem Sys.not_flagsRight : ¬ ∀ labels s, (sysMachine OnePage.crates).run .init labels = some s →
    s.FlagsRight ((sysMachine OnePage.crates).observe Sys.logAnswer [] .init labels) := by
  obtain ⟨s, hrun, hs⟩ : ∃ s, (sysMachine OnePage.crates).run .init
      (OnePage.crawled OnePage.tooMany) = some s ∧
      (decide (∃ t ∈ s.engine.db.crawlTargets.rows, t.id = ⟨1⟩) &&
        s.engine.db.crawledPages.rows.isEmpty) = true :=
    Machine.exists_run_of_any (by decide +kernel)
  obtain ⟨htarget, hrows⟩ := Bool.and_eq_true_iff.1 hs
  obtain ⟨t, ht, hid⟩ := of_decide_eq_true htarget
  have hlog : (sysMachine OnePage.crates).observe Sys.logAnswer [] .init
      (OnePage.crawled OnePage.tooMany) =
        [⟨⟨0⟩, "https://guide.example/", some ⟨1⟩, some 429⟩] := by decide +kernel
  obtain ⟨item, hitem, hitemid, -⟩ := Sys.exists_item ⟨_, hrun⟩ ht
  intro h
  have hflag := (h _ s hrun t ht item hitem hitemid).2 (by
    rw [hlog, hid]
    exact lastAnswered429_concat [] rfl rfl)
  have hpages : s.engine.db.NoLimit := fun p hp ↦ by
    rw [Table.mem_def, List.isEmpty_iff.1 hrows] at hp
    exact absurd hp List.not_mem_nil
  rw [Sys.rateLimited_of_noLimit hpages hitem] at hflag
  cases hflag

end CommunitySearch
