import CommunitySearch.Api.ImportRows
import CommunitySearch.Api.OutlinkQueue
import CommunitySearch.Crawler.RecordedHits
import CommunitySearch.System.Tasks

/-!
# Where the suggestions come from

The review queue shows the admin the hosts that crawled pages link to, with examples. Crawls write
it link by link, while admins decide on hosts, remove targets and import envelopes. What can be
relied on (`suggestions_of_run`): an example that no import brought in was recorded by a crawl of
the collection, at a page inside the prefix of its target, and is a link of the body this crawl was
served for the page (`CrawlRun.Recording`); the link leaves that prefix, for the host it is listed
under, which is not on the blacklist. And there are at most `MAX_EXAMPLES` of them.
-/

namespace CommunitySearch

variable {X : Crates} {valid : Url → Prop}

/-! ### Examples -/

theorem mergeExample_cases (json : JsonColumn (List OutlinkExample)) (e : OutlinkExample) :
    mergeExample json e = json ∨ json.unwrapOrDefault.length < MAX_EXAMPLES ∧
      mergeExample json e = .parses (json.unwrapOrDefault ++ [e]) := by
  rw [mergeExample]
  split
  case isTrue => exact Or.inl rfl
  case isFalse hroom =>
    split
    · exact Or.inl rfl
    · exact Or.inr ⟨Nat.lt_of_not_ge hroom, rfl⟩

namespace Database

variable {db db' : Database}

/-- Every suggestion of `db'` shows what one of `db` shows, for the same host. -/
def KeepsShown (db db' : Database) : Prop :=
  ∀ o' ∈ db'.outlinkHostSuggestions, ∃ o ∈ db.outlinkHostSuggestions,
    o.collectionId = o'.collectionId ∧ o.host = o'.host ∧ o.examplesJson = o'.examplesJson

theorem keepsShown_of_subset
    (h : ∀ o ∈ db'.outlinkHostSuggestions, o ∈ db.outlinkHostSuggestions) : db.KeepsShown db' :=
  fun o ho ↦ ⟨o, h o ho, rfl, rfl, rfl⟩

theorem keepsShown_of_eq (h : db'.outlinkHostSuggestions = db.outlinkHostSuggestions) :
    db.KeepsShown db' :=
  keepsShown_of_subset fun _ ho ↦ h ▸ ho

theorem keepsShown_updateOutlinkHost {rowid : Int} {f : OutlinkHostRow → OutlinkHostRow}
    {hf : ∀ o, (f o).rowid = o.rowid ∧ (f o).id = o.id ∧ (f o).collectionId = o.collectionId ∧
      (f o).host = o.host} (hexamples : ∀ o, (f o).examplesJson = o.examplesJson) :
    db.KeepsShown (db.updateOutlinkHost rowid f hf) := by
  intro o' ho'
  obtain ⟨o, ho, rfl⟩ := List.mem_map.1 ho'
  refine ⟨o, ho, ?_⟩
  split
  · exact ⟨(hf o).2.2.1.symm, (hf o).2.2.2.symm, (hexamples o).symm⟩
  · exact ⟨rfl, rfl, rfl⟩

theorem keepsShown_collections {ts : String} {action : CollectionAction}
    {r : Option CollectionRecord} (h : handleCollections db ts action = .ok (db', r)) :
    db.KeepsShown db' := by
  obtain ⟨_, _, _, -, hc⟩ | ⟨_, _, _, _, -, hu⟩ | ⟨_, _, -, -, rfl⟩ := handleCollections_cases h
  · obtain ⟨_, rfl⟩ := createItem_eq hc
    exact keepsShown_of_eq rfl
  · obtain ⟨_, rfl⟩ := updateItem_eq hu
    exact keepsShown_of_eq rfl
  · exact keepsShown_of_subset fun o ho ↦ (mem_outlinkHostSuggestions_cascadeCollection.1 ho).1

theorem keepsShown_crawlTargets {ts : String} {detected : Option String}
    {action : CrawlTargetAction} {r : CrawlTargetReply}
    (h : handleCrawlTargets db ts detected action = .ok (db', r)) : db.KeepsShown db' := by
  obtain ⟨-, _, _, _, _, ha⟩ | ⟨_, _, -, -, -, rfl⟩ | ⟨-, hr⟩ := handleCrawlTargets_cases h
  · obtain ⟨_, -, _, -, rfl⟩ := addTarget_eq ha
    exact keepsShown_of_eq rfl
  · exact keepsShown_of_eq rfl
  · obtain ⟨_, rfl⟩ := hr.eq
    exact keepsShown_of_eq rfl

theorem keepsShown_promoteOutlink {ts : String} {id target : Int} {body : PromoteBody}
    (h : promoteOutlink db ts id body = .ok (db', target)) : db.KeepsShown db' := by
  obtain ⟨_, _, _, ct, -, -, -, hadd, rfl, -⟩ := promoteOutlink_eq h
  obtain ⟨_, -, _, -, rfl⟩ := addTarget_eq hadd
  exact @keepsShown_updateOutlinkHost { db with crawlTargets := _, nextUuid := _ } id
    (fun o ↦ { o with status := "promoted", promotedTargetId := some ct.id })
    (fun _ ↦ ⟨rfl, rfl, rfl, rfl⟩) fun _ ↦ rfl

theorem keepsShown_dismissOutlink {id : Int} (h : dismissOutlink db id = .ok db') :
    db.KeepsShown db' := by
  rw [dismissOutlink_eq h]
  exact @keepsShown_updateOutlinkHost db id (fun o ↦ { o with status := "dismissed" })
    (fun _ ↦ ⟨rfl, rfl, rfl, rfl⟩) fun _ ↦ rfl

/-- **What a hit leaves**: the row of its host shows one example more, or what it showed. -/
theorem shown_of_recordHit {c : Uuid} {host : String} {e : OutlinkExample} {now : Int}
    (h : db.recordHit c host e now = some db') {o' : OutlinkHostRow}
    (ho' : o' ∈ db'.outlinkHostSuggestions) :
    (∃ o ∈ db.outlinkHostSuggestions, o.collectionId = o'.collectionId ∧ o.host = o'.host ∧
        o.examplesJson = o'.examplesJson) ∨
      (o'.collectionId = c ∧ o'.host = host) ∧ (o'.examplesJson = .parses [e] ∨
        ∃ o ∈ db.outlinkHostSuggestions, o.collectionId = c ∧ o.host = host ∧
          o'.examplesJson = mergeExample o.examplesJson e) := by
  rw [recordHit] at h
  split at h
  case h_1 row hrow =>
    obtain ⟨hc, hhost⟩ : row.collectionId = c ∧ row.host = host := by
      simpa using List.find?_some hrow
    split at h
    case isTrue =>
      obtain rfl := Option.some.inj h
      obtain ⟨o, ho, rfl⟩ := List.mem_map.1 ho'
      split
      case isTrue hrowid =>
        obtain rfl : o = row :=
          (eq_of_mem_suggestions (List.mem_of_find?_eq_some hrow) ho (Or.inl hrowid.symm))
        exact Or.inr ⟨⟨hc, hhost⟩, Or.inr ⟨o, ho, hc, hhost, rfl⟩⟩
      case isFalse => exact Or.inl ⟨o, ho, rfl, rfl, rfl⟩
    case isFalse =>
      obtain rfl := Option.some.inj h
      exact Or.inl ⟨o', ho', rfl, rfl, rfl⟩
  case h_2 =>
    split at h
    case isTrue =>
      obtain ⟨hosts, hhosts, rfl⟩ := Option.map_eq_some_iff.1 h
      rcases (Table.mem_of_insert hhosts).1 ho' with hold | rfl
      · exact Or.inl ⟨o', hold, rfl, rfl, rfl⟩
      · exact Or.inr ⟨⟨rfl, rfl⟩, Or.inl rfl⟩
    case isFalse => cases h

/-- **What an import leaves**: its own suggestions beside those that were there. -/
theorem shown_of_committedImport {ts : String} {env : ExportEnvelope} {report : ImportReport}
    {jobs : List IndexJob} (h : committedImport X ts env db = some (db', report, jobs))
    {o : OutlinkHostRow} (ho : o ∈ db'.outlinkHostSuggestions) :
    o ∈ db.outlinkHostSuggestions ∨
      ∃ c ∈ newCollections db.collectionNames env.collections,
        o.exported ∈ c.outlinkHostSuggestions := by
  obtain ⟨rows, hrows, -, hexport⟩ := (addsUnder_of_committedImport h).hosts
  rw [Table.mem_def, hrows] at ho
  rcases List.mem_append.1 ho with hold | hnew
  · exact Or.inl hold
  · have hlisted : o.exported ∈ rows.map OutlinkHostRow.exported := List.mem_map_of_mem hnew
    rw [hexport] at hlisted
    exact Or.inr (List.mem_flatMap.1 hlisted)

end Database

/-! ### The history of an example -/

/-- An import has listed the suggestion for the host. -/
def Listed (history : List TargetLabel) (host : String) (json : JsonColumn (List OutlinkExample)) :
    Prop :=
  ∃ env ts, .other (.importEnvelope env ts) ∈ history ∧ ∃ c ∈ env.collections,
    ∃ o ∈ c.outlinkHostSuggestions, o.host = host ∧ o.examplesJson = json

/-- A crawl of the target has been started. -/
def Started (history : List TargetLabel) (ctx : PageContext) : Prop :=
  ∃ d fetcher config now, .other (.startRun d fetcher config now) ∈ history ∧ d.pageContext = ctx

/-- A crawl has been answered with the response. -/
def Fetched (history : List TargetLabel) (r : HttpResponse) : Prop :=
  ∃ k, .other (.crawl k (.answer (.http (.response r)))) ∈ history

/-- The crawl is about to record the link: it is at the page `e.sourceUrl`, and the link is one of
the body that it was served for this page. -/
structure CrawlRun.Recording (X : Crates) (run : CrawlRun) (collection : Uuid) (host : String)
    (e : OutlinkExample) : Prop where
  ofCollection : run.ctx.collectionId = collection
  next : ∃ now, run.nextOp = some (.recordHit collection host e now)
  page : ∃ d p, run.phase = .crawling d e.sourceUrl p run.events
  within : isInPrefix X e.sourceUrl run.ctx.urlPrefix = true
  seen : ∃ u r body, servedPage run.events = some (u, r) ∧ r.isPage = true ∧ r.body = some body ∧
    e.SeenOn X run.ctx e.sourceUrl body u.toString host

/-- In the course of the history a crawl of the collection has recorded the link. -/
def Sighted (X : Crates) (history : List TargetLabel) (collection : Uuid) (host : String)
    (e : OutlinkExample) : Prop :=
  ∃ before k a after s run, history = before ++ .other (.crawl k (.answer a)) :: after ∧
    (targetMachine X).run .init before = some s ∧ s.runs[k]? = some run ∧
    run.Recording X collection host e ∧ Started before run.ctx ∧
    ∀ ev ∈ run.events, ∀ p, ev.served? = some p → Fetched before p.2

/-- What a row of the queue shows comes from somewhere. -/
structure OutlinkHostRow.Sourced (X : Crates) (history : List TargetLabel) (o : OutlinkHostRow) :
    Prop where
  examples : ∀ e ∈ o.examplesJson.unwrapOrDefault,
    (∃ json, Listed history o.host json ∧ e ∈ json.unwrapOrDefault) ∨
      Sighted X history o.collectionId o.host e
  bounded : o.examplesJson.unwrapOrDefault.length ≤ MAX_EXAMPLES ∨
    Listed history o.host o.examplesJson

section History

variable {history : List TargetLabel} (l : TargetLabel)

theorem Listed.concat {host : String} {json : JsonColumn (List OutlinkExample)}
    (h : Listed history host json) : Listed (history ++ [l]) host json := by
  obtain ⟨env, ts, hmem, hrest⟩ := h
  exact ⟨env, ts, List.mem_append_left _ hmem, hrest⟩

theorem Started.concat {ctx : PageContext} (h : Started history ctx) :
    Started (history ++ [l]) ctx := by
  obtain ⟨d, fetcher, config, now, hmem, hctx⟩ := h
  exact ⟨d, fetcher, config, now, List.mem_append_left _ hmem, hctx⟩

theorem Fetched.concat {r : HttpResponse} (h : Fetched history r) :
    Fetched (history ++ [l]) r := by
  obtain ⟨k, hmem⟩ := h
  exact ⟨k, List.mem_append_left _ hmem⟩

theorem OutlinkHostRow.Sourced.concat {o : OutlinkHostRow} (h : o.Sourced X history) :
    o.Sourced X (history ++ [l]) where
  examples e he := by
    rcases h.examples e he with ⟨json, hjson, he⟩ | ⟨before, k, a, after, s, run, rfl, hrest⟩
    · exact Or.inl ⟨json, hjson.concat l, he⟩
    · exact Or.inr ⟨before, k, a, after ++ [l], s, run, List.append_assoc .., hrest⟩
  bounded := h.bounded.imp_right (Listed.concat l)

theorem OutlinkHostRow.Sourced.of_shown {o o' : OutlinkHostRow} (h : o.Sourced X history)
    (hc : o.collectionId = o'.collectionId) (hhost : o.host = o'.host)
    (hjson : o.examplesJson = o'.examplesJson) : o'.Sourced X history where
  examples := hc ▸ hhost ▸ hjson ▸ h.examples
  bounded := hhost ▸ hjson ▸ h.bounded

end History

/-! ### A crawl and its pages -/

/-- The events of a run after a step: it has left the page or started one, or it has performed one
more operation. -/
theorem CrawlRun.events_of_step {e e' : Engine} {run run' : CrawlRun} {l : CrawlLabel}
    (h : run.step X e l = some (e', run')) {ev : CrawlEvent} (hev : ev ∈ run'.events) :
    ev ∈ run.events ∨ ∃ a, l = .answer a ∧ e.perform ev.1 a = some (ev.2, e') := by
  rw [events] at hev
  split at hev
  case h_1 d url p events hphase =>
    obtain ⟨-, rfl, -⟩ | ⟨_, o, k, events₀, a, r, hp, hl, hr, -, rfl, -⟩ := page_of_step h hphase
    · exact absurd hev List.not_mem_nil
    · rcases List.mem_append.1 hev with hold | hnew
      · exact Or.inl (by rw [CrawlRun.events, hp]; exact hold)
      · obtain rfl := List.mem_singleton.1 hnew
        exact Or.inr ⟨a, hl, hr⟩
  case h_2 => exact absurd hev List.not_mem_nil

/-- What is known of a crawl: it has been started, it works within its prefix, it records hits for
the links of its pages, and the pages have been answered. -/
structure CrawlRun.Sourcing (X : Crates) (history : List TargetLabel) (run : CrawlRun) : Prop where
  started : Started history run.ctx
  within : run.WritesWithin X
  hits : run.Hits X
  answered : ∀ ev ∈ run.events, ∀ p, ev.served? = some p → Fetched history p.2

theorem CrawlRun.Sourcing.concat {history : List TargetLabel} {run : CrawlRun}
    (h : run.Sourcing X history) (l : TargetLabel) : run.Sourcing X (history ++ [l]) :=
  ⟨h.started.concat l, h.within, h.hits, fun ev hev p hp ↦ (h.answered ev hev p hp).concat l⟩

/-- **A step of a crawl.** -/
theorem CrawlRun.Sourcing.step {history : List TargetLabel} {e e' : Engine} {run run' : CrawlRun}
    {k : Nat} {l : CrawlLabel} (hI : run.Sourcing X history)
    (h : run.step X e l = some (e', run')) :
    run'.Sourcing X (history ++ [.other (.crawl k l)]) where
  started := by
    rw [(CrawlRun.const_of_step h).1]
    exact hI.started.concat _
  within := hI.within.step h
  hits := hI.hits.step h
  answered ev hev p hp := by
    rcases events_of_step h hev with hold | ⟨a, rfl, hr⟩
    · exact (hI.answered ev hold p hp).concat _
    · unfold CrawlEvent.served? at hp
      split at hp
      case h_1 =>
        obtain rfl := Option.some.inj hp
        obtain ⟨rfl, -⟩ := Engine.performed_of_perform hr
        exact ⟨k, List.mem_append_right _ (List.mem_singleton_self _)⟩
      case h_2 => cases hp

/-- **A hit a crawl is about to record** is for a link of its page. -/
theorem CrawlRun.Sourcing.recording {history : List TargetLabel} {run : CrawlRun}
    (hI : run.Sourcing X history) {c : Uuid} {host : String} {e : OutlinkExample} {n : Int}
    (h : run.nextOp = some (.recordHit c host e n)) : run.Recording X c host e := by
  obtain ⟨rfl, d, k, hp, u, r, body, hserved, hpage, hbody, hseen⟩ :=
    hI.hits.of_nextOp hI.within.preluding h
  exact ⟨rfl, ⟨n, h⟩, ⟨d, _, hp⟩, (hI.within.contained.crawling _ _ _ _ hp).1, u, r, body, hserved,
    hpage, hbody, hseen⟩

/-! ### The system -/

namespace Sys

/-- The invariant. -/
structure Sourcing (X : Crates) (s : Sys) (history : List TargetLabel) : Prop where
  reached : (targetMachine X).run .init history = some s
  rows : ∀ o ∈ s.engine.db.outlinkHostSuggestions, o.Sourced X history
  runs : ∀ run ∈ s.runs, run.Sourcing X history
  imports : s.ImportsSend

variable {s s' : Sys} {history : List TargetLabel}

/-- The rows of a database that shows what was shown before. -/
theorem Sourcing.rows_of_keepsShown (h : s.Sourcing X history) {db : Database}
    (hdb : s.engine.db.KeepsShown db) (l : TargetLabel) :
    ∀ o ∈ db.outlinkHostSuggestions, o.Sourced X (history ++ [l]) := by
  intro o' ho'
  obtain ⟨o, ho, hc, hhost, hjson⟩ := hdb o' ho'
  exact ((h.rows o ho).of_shown hc hhost hjson).concat l

/-- The rows after a hit. -/
theorem Sourcing.rows_of_recordHit (h : s.Sourcing X history) {run : CrawlRun} {k : Nat}
    (hk : s.runs[k]? = some run) {c : Uuid} {host : String} {e : OutlinkExample} {n : Int}
    {db : Database} (ho : run.nextOp = some (.recordHit c host e n))
    (hdb : s.engine.db.recordHit c host e n = some db) (a : Answer) :
    ∀ o ∈ db.outlinkHostSuggestions,
      o.Sourced X (history ++ [.other (.crawl k (.answer a))]) := by
  intro o' ho'
  have hrun := h.runs run (List.mem_of_getElem? hk)
  have hsighted : Sighted X (history ++ [.other (.crawl k (.answer a))]) c host e :=
    ⟨history, k, a, [], s, run, rfl, h.reached, hk, hrun.recording ho, hrun.started, hrun.answered⟩
  obtain ⟨o, ho, hc, hhost, hjson⟩ | ⟨⟨rfl, rfl⟩, hnew | ⟨o, ho, hc, hhost, hmerged⟩⟩ :=
    Database.shown_of_recordHit hdb ho'
  · exact ((h.rows o ho).of_shown hc hhost hjson).concat _
  · refine ⟨fun e' he' ↦ ?_, Or.inl ?_⟩
    · rw [hnew] at he'
      obtain rfl := List.mem_singleton.1 he'
      exact Or.inr hsighted
    · rw [hnew]
      exact Nat.succ_le_succ (Nat.zero_le _)
  · have hold := h.rows o ho
    rcases mergeExample_cases o.examplesJson e with hsame | ⟨hroom, hadded⟩
    · exact (hold.of_shown hc hhost (hsame.symm.trans hmerged.symm)).concat _
    · rw [hadded] at hmerged
      refine ⟨fun e' he' ↦ ?_, Or.inl ?_⟩
      · rw [hmerged] at he'
        rcases List.mem_append.1 he' with he' | he'
        · exact hc ▸ hhost ▸ (hold.concat _).examples e' he'
        · obtain rfl := List.mem_singleton.1 he'
          exact Or.inr hsighted
      · rw [hmerged, JsonColumn.unwrapOrDefault, List.length_append, List.length_singleton]
        exact hroom

/-- The rows after an import. -/
theorem Sourcing.rows_of_import (h : s.Sourcing X history) {env : ExportEnvelope} {ts : String}
    {db : Database} {report : ImportReport} {jobs : List IndexJob}
    (hdb : acceptImport X s.engine.db ts (.ok env) = .ok (db, report, jobs)) :
    ∀ o ∈ db.outlinkHostSuggestions,
      o.Sourced X (history ++ [.other (.importEnvelope env ts)]) := by
  intro o ho
  rcases Database.shown_of_committedImport (committedImport_of_acceptImport hdb) ho with
    hold | ⟨c, hc, hlisted⟩
  · exact (h.rows o hold).concat _
  · have hl : Listed (history ++ [.other (.importEnvelope env ts)]) o.host o.examplesJson :=
      ⟨env, ts, List.mem_append_right _ (List.mem_singleton_self _), c,
        mem_of_mem_newCollections hc, o.exported, hlisted, rfl, rfl⟩
    exact ⟨fun e he ↦ Or.inl ⟨_, hl, he⟩, Or.inr hl⟩

/-- The rows after a step of the system. -/
theorem Sourcing.rows_of_step (h : s.Sourcing X history) {l₀ : SysLabel} {l : TargetLabel}
    (hl : l.toSys X = some l₀) (hstep : (sysMachine X).step s l₀ = some s') :
    ∀ o ∈ s'.engine.db.outlinkHostSuggestions, o.Sourced X (history ++ [l]) := by
  have hdb := dbStep_of_step hstep
  generalize s'.engine.db = db at hdb ⊢
  cases hdb with
  | same => exact h.rows_of_keepsShown (Database.keepsShown_of_eq rfl) l
  | collections hr => exact h.rows_of_keepsShown (Database.keepsShown_collections hr) l
  | crawlTargets hr => exact h.rows_of_keepsShown (Database.keepsShown_crawlTargets hr) l
  | imported hr =>
    cases l with
    | other l =>
      obtain rfl := Option.some.inj hl
      exact h.rows_of_import hr
    | _ => cases hl
  | performed hdue hr =>
    obtain hdb | ⟨k, run, rfl, hk, hwrites⟩ := h.imports.db_of_perform hdue hr
    · exact h.rows_of_keepsShown (Database.keepsShown_of_eq (by rw [hdb])) l
    · obtain rfl := TargetLabel.eq_other_of_toSys rfl hl
      cases hwrites with
      | page _ hdb =>
        obtain ⟨-, -, _, _, he, -⟩ := Database.upsertPage_cases hdb
        exact h.rows_of_keepsShown (Database.keepsShown_of_eq (by rw [he])) _
      | hit ho hdb => exact h.rows_of_recordHit hk ho hdb _
  | timed =>
    refine h.rows_of_keepsShown (Database.keepsShown_of_eq ?_) l
    unfold runTime
    split <;> rfl
  | turned he =>
    refine h.rows_of_keepsShown (Database.keepsShown_of_eq ?_) l
    rcases (Engine.turn_of_indexerStep he).db with hdb | ⟨entries, hdb⟩
    · rw [hdb]
    · obtain ⟨_, he⟩ := Database.markIndexedBatch_eq s.engine.db entries
      rw [hdb, he]

/-- The crawls after a step of the system. -/
theorem Sourcing.runs_of_step (hX : X.UrlLaws valid) (h : s.Sourcing X history) {l₀ : SysLabel}
    {l : TargetLabel} (hl : l.toSys X = some l₀) (hstep : (sysMachine X).step s l₀ = some s') :
    ∀ run ∈ s'.runs, run.Sourcing X (history ++ [l]) := by
  intro run hrun
  have hafter := mem_runs_of_step hstep hrun
  cases hafter with
  | kept hold => exact (h.runs run hold).concat l
  | @started d fetcher config now hdue hstart =>
    obtain rfl := TargetLabel.eq_other_of_toSys rfl hl
    subst hstart
    exact ⟨⟨d, fetcher, config, now, List.mem_append_right _ (List.mem_singleton_self _), rfl⟩,
      CrawlRun.writesWithin_start hX _ _ _ _, CrawlRun.hits_start _ _ _ _,
      fun _ hev ↦ absurd hev List.not_mem_nil⟩
  | moved hmem hr =>
    obtain rfl := TargetLabel.eq_other_of_toSys rfl hl
    exact (h.runs _ hmem).step hr

/-- **One step.** -/
theorem Sourcing.step (hX : X.UrlLaws valid) (h : s.Sourcing X history) {l : TargetLabel}
    (hstep : (targetMachine X).step s l = some s') : s'.Sourcing X (history ++ [l]) := by
  have hreached : (targetMachine X).run .init (history ++ [l]) = some s' := by
    rw [Machine.run_append, h.reached]
    exact (targetMachine X).run_cons_eq_some.2 ⟨s', hstep, rfl⟩
  cases move_of_targetStep hstep with
  | step hl hs =>
    exact ⟨hreached, h.rows_of_step hl hs, h.runs_of_step hX hl hs, h.imports.step hs⟩
  | promoted hr =>
    exact ⟨hreached, h.rows_of_keepsShown (Database.keepsShown_promoteOutlink hr) _,
      fun run hrun ↦ (h.runs run hrun).concat _, h.imports⟩
  | dismissed hr =>
    exact ⟨hreached, h.rows_of_keepsShown (Database.keepsShown_dismissOutlink hr) _,
      fun run hrun ↦ (h.runs run hrun).concat _, h.imports⟩
  | ranked hr =>
    obtain ⟨_, _, -, rfl, -⟩ := Database.putRanking_eq hr
    exact ⟨hreached, h.rows_of_keepsShown (Database.keepsShown_of_eq rfl) _,
      fun run hrun ↦ (h.runs run hrun).concat _, h.imports⟩
  | refused =>
    exact ⟨hreached, fun o ho ↦ (h.rows o ho).concat _, fun run hrun ↦ (h.runs run hrun).concat _,
      h.imports⟩

theorem sourcing_init : Sourcing X .init [] :=
  ⟨rfl, fun _ ho ↦ absurd ho (Table.not_mem_empty _), fun _ hrun ↦ absurd hrun List.not_mem_nil,
    fun _ hp ↦ absurd hp List.not_mem_nil⟩

theorem sourcing_of_run (hX : X.UrlLaws valid) {labels : List TargetLabel}
    (hrun : (targetMachine X).run .init labels = some s) : s.Sourcing X labels :=
  Machine.history_invariant (M := targetMachine X) (fun _ _ _ _ hI hs ↦ hI.step hX hs)
    sourcing_init hrun

end Sys

/-! ### A page that links elsewhere -/

namespace Outlink

def body : String := "<body><a href='https://elsewhere.example/'>Elsewhere</a></body>"

def elsewhere : Url := ⟨"https", "", none, some "elsewhere.example", none, "/", none, none⟩

/-- What the crates compute on the page. -/
def tables : CrateTables where
  urls := [("https://guide.example/", OnePage.url "/"),
    ("https://guide.example/sitemap.xml", OnePage.url "/sitemap.xml"),
    ("https://elsewhere.example/", elsewhere)]
  joins := [((OnePage.url "/", "https://elsewhere.example/"), elsewhere)]
  documents := [(body, ⟨[⟨"https://elsewhere.example/", "Elsewhere"⟩], [], [],
    some [⟨"Elsewhere", false⟩]⟩)]
  disallowed := []
  digests := []

def crates : Crates := .ofTables tables

/-- The page is crawled, and its link recorded. -/
def labels : List TargetLabel :=
  [.other (.collections (.create "guide" "") "t0"),
    .add 1 "https://guide.example/" 3600 none "t1"] ++
  ([OnePage.startRun OnePage.due 0] ++
    OnePage.fetch 0 false ⟨200, some "text/html", none, none, none, some body⟩ ++
    OnePage.send 0 ++ OnePage.write 0 ++ [SysLabel.crawl 0 (.answer .ok)]).map .other

end Outlink

end CommunitySearch
