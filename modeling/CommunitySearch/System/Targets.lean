import CommunitySearch.Api.ImportedTargets
import CommunitySearch.Api.Outlinks
import CommunitySearch.Api.Ranking
import CommunitySearch.Crawler.Canonical
import CommunitySearch.System

/-!
# The targets in the system

The system of `sysMachine`, with the detection made part of adding a target, with the review of
outlink suggestions, and with the saving of rankings. Of all its steps four write more of a target
than the time of its last crawl and its delay: a target is added, by its endpoint or by a promotion;
an interval is set; an envelope is imported (`targetChange_of_step`).
-/

namespace CommunitySearch

namespace Database

variable {db db' : Database} {ts : String}

/-- Every target of `db'` is one of `db`, up to the time of its last crawl and its delay. -/
def KeepsTargets (db db' : Database) : Prop :=
  ∀ t' ∈ db'.crawlTargets, ∃ t ∈ db.crawlTargets,
    t' = { t with lastCrawledAt := t'.lastCrawledAt, crawlDelaySecs := t'.crawlDelaySecs }

theorem keepsTargets_of_subset (h : ∀ t ∈ db'.crawlTargets, t ∈ db.crawlTargets) :
    db.KeepsTargets db' :=
  fun t ht ↦ ⟨t, h t ht, rfl⟩

theorem keepsTargets_of_eq (h : db'.crawlTargets = db.crawlTargets) : db.KeepsTargets db' :=
  keepsTargets_of_subset fun _ ht ↦ h ▸ ht

theorem keepsTargets_suggests (h : db.Suggests db') : db.KeepsTargets db' := by
  obtain ⟨_, _, rfl, -⟩ := h.eq
  exact keepsTargets_of_eq rfl

theorem keepsTargets_markIndexedBatch (entries : List IndexedEntry) :
    db.KeepsTargets (db.markIndexedBatch entries) := by
  obtain ⟨_, he⟩ := markIndexedBatch_eq db entries
  exact keepsTargets_of_eq (by rw [he])

theorem keepsTargets_setLastCrawledAt (id : Uuid) (now : Int) :
    db.KeepsTargets (db.setLastCrawledAt id now) := by
  intro t' ht'
  obtain ⟨t, ht, rfl⟩ := List.mem_map.1 ht'
  exact ⟨t, ht, by split <;> rfl⟩

theorem keepsTargets_setCrawlDelay (rowid : Int) (secs : Option Int) :
    db.KeepsTargets (db.setCrawlDelay rowid secs).1 := by
  intro t' ht'
  obtain ⟨t, ht, rfl⟩ := List.mem_map.1 ht'
  exact ⟨t, ht, by split <;> rfl⟩

theorem keepsTargets_collections {action : CollectionAction} {r : Option CollectionRecord}
    (h : handleCollections db ts action = .ok (db', r)) : db.KeepsTargets db' := by
  obtain ⟨_, _, _, -, hc⟩ | ⟨_, _, _, _, -, hu⟩ | ⟨_, _, -, -, rfl⟩ := handleCollections_cases h
  · obtain ⟨_, rfl⟩ := createItem_eq hc
    exact keepsTargets_of_eq rfl
  · obtain ⟨_, rfl⟩ := updateItem_eq hu
    exact keepsTargets_of_eq rfl
  · exact keepsTargets_of_subset fun t ht ↦ (mem_crawlTargets_cascadeCollection.1 ht).1

end Database

/-- The prefix that a request to the crawl-targets endpoint stores. -/
def CrawlTargetAction.storedPrefixes (detected : Option String) : CrawlTargetAction → List String
  | .add _ urlPrefix _ => [detected.getD urlPrefix]
  | .remove _ | .setInterval .. | .setCrawlDelay .. => []

/-! ### The system with detection and review -/

/-- The steps. -/
inductive TargetLabel where
  /-- POST to the crawl-targets endpoint, to add a target: the detection gets `response`. -/
  | add (collectionId : Int) (urlPrefix : String) (recrawlIntervalSecs : Int)
    (response : Option FinalResponse) (ts : String)
  /-- POST to the endpoint that promotes a host. -/
  | promote (id : Int) (body : PromoteBody) (ts : String)
  /-- POST to the endpoint that dismisses a host. -/
  | dismiss (id : Int)
  /-- PUT to the ranking endpoint. -/
  | putRanking (raw : JsonObject)
  /-- A step of the system that adds no single target. -/
  | other (l : SysLabel)

/-- The request adds a target. -/
def SysLabel.isAdd : SysLabel → Bool
  | .crawlTargets (.add ..) .. => true
  | _ => false

namespace Sys

/-- One step. -/
def targetStep (X : Crates) (s : Sys) : TargetLabel → Option Sys
  | .add collectionId urlPrefix recrawlIntervalSecs response ts =>
    s.step X (.crawlTargets (.add collectionId urlPrefix recrawlIntervalSecs)
      (detectCanonicalPrefix X urlPrefix response) ts)
  | .promote id body ts =>
    match promoteOutlink s.engine.db ts id body with
    | .ok (db, _) => some (s.withDb db)
    | .error _ => some s
  | .dismiss id =>
    match dismissOutlink s.engine.db id with
    | .ok db => some (s.withDb db)
    | .error _ => some s
  | .putRanking raw =>
    match putRanking s.engine.db raw with
    | .ok db => some (s.withDb db)
    | .error _ => some s
  | .other l => if l.isAdd then none else s.step X l

/-- The prefixes a step of the system stores. -/
def storedBy (s : Sys) : SysLabel → List String
  | .crawlTargets action detected _ => action.storedPrefixes detected
  | .importEnvelope env _ =>
    (newCollections s.engine.db.collectionNames env.collections).flatMap fun c ↦
      c.crawlTargets.map ExportedCrawlTarget.urlPrefix
  | _ => []

/-- The prefixes a step stores. -/
def storedPrefixes (X : Crates) (s : Sys) : TargetLabel → List String
  | .add _ urlPrefix _ response _ => [(detectCanonicalPrefix X urlPrefix response).getD urlPrefix]
  | .promote id body _ =>
    (s.engine.db.outlinkHostByRowid id).toList.map fun row ↦ body.targetPrefix row.host
  | .dismiss _ | .putRanking _ => []
  | .other l => s.storedBy l

end Sys

/-- The system as a machine. -/
def targetMachine (X : Crates) : Machine Sys TargetLabel where
  step := Sys.targetStep X

/-! ### What a step does to the targets -/

/-- What a step does to the targets. -/
inductive Sys.TargetChange (X : Crates) (s : Sys) (l : TargetLabel) : Database → Prop
  | kept {db : Database} (h : s.engine.db.KeepsTargets db) : TargetChange X s l db
  | added {db db₁ : Database} {id secs : Int} {pre ts : String} {r : CrawlTargetRecord}
      (hpre : pre ∈ s.storedPrefixes X l)
      (h : s.engine.db.addTarget id pre secs ts = some (db₁, r))
      (htargets : db.crawlTargets = db₁.crawlTargets) : TargetChange X s l db
  | reset {id secs : Int} : TargetChange X s l (s.engine.db.setInterval id secs).1
  | imported {env : ExportEnvelope} {ts : String} {db : Database} {report : ImportReport}
      {jobs : List IndexJob} (hl : l = .other (.importEnvelope env ts))
      (h : acceptImport X s.engine.db ts (.ok env) = .ok (db, report, jobs)) : TargetChange X s l db

variable {X : Crates} {s s' : Sys}

namespace Sys

/-- A request to the crawl-targets endpoint. -/
theorem targetChange_crawlTargets {l : TargetLabel} {ts : String} {detected : Option String}
    {action : CrawlTargetAction} {db : Database} {r : CrawlTargetReply}
    (hstored : ∀ pre ∈ action.storedPrefixes detected, pre ∈ s.storedPrefixes X l)
    (h : handleCrawlTargets s.engine.db ts detected action = .ok (db, r)) :
    s.TargetChange X l db := by
  cases crawlTargetChange_of_ok h with
  | added hadd => exact .added (hstored _ (List.mem_singleton_self _)) hadd rfl
  | removed =>
    exact .kept (Database.keepsTargets_of_subset fun t ht ↦
      (Database.mem_crawlTargets_cascadeTarget.1 ht).1)
  | interval => exact .reset
  | @delay id secs => exact .kept (Database.keepsTargets_setCrawlDelay id secs)

/-- A step of the system, taken as the step `l` here. -/
theorem targetChange_of_dbStep {l₀ : SysLabel} {l : TargetLabel} {db : Database}
    (h : s.DbStep X l₀ db) (hstored : ∀ pre ∈ s.storedBy l₀, pre ∈ s.storedPrefixes X l)
    (himport : ∀ env ts, l₀ = .importEnvelope env ts → l = .other (.importEnvelope env ts)) :
    s.TargetChange X l db := by
  cases h with
  | same => exact .kept (Database.keepsTargets_of_eq rfl)
  | collections hr => exact .kept (Database.keepsTargets_collections hr)
  | crawlTargets hr => exact targetChange_crawlTargets hstored hr
  | imported hr => exact .imported (himport _ _ rfl) hr
  | performed _ hr =>
    rcases Engine.db_of_perform hr with hdb | ⟨row, -, hdb⟩ | hdb
    · exact .kept (Database.keepsTargets_of_eq (by rw [hdb]))
    · obtain ⟨-, -, _, _, he, -⟩ := Database.upsertPage_cases hdb
      exact .kept (Database.keepsTargets_of_eq (by rw [he]))
    · exact .kept (Database.keepsTargets_suggests hdb)
  | timed =>
    refine .kept ?_
    unfold runTime
    split
    · exact Database.keepsTargets_setLastCrawledAt _ _
    · exact Database.keepsTargets_of_eq rfl
  | turned hturn =>
    refine .kept ?_
    rcases (Engine.turn_of_indexerStep hturn).db with hdb | ⟨entries, hdb⟩
    · exact Database.keepsTargets_of_eq (by rw [hdb])
    · rw [hdb]
      exact Database.keepsTargets_markIndexedBatch entries

end Sys

/-- **What a step does to the targets.** -/
theorem targetChange_of_step {l : TargetLabel} (h : (targetMachine X).step s l = some s') :
    s.TargetChange X l s'.engine.db := by
  have hs : s.targetStep X l = some s' := h
  unfold Sys.targetStep at hs
  cases l with
  | add id pre secs response ts =>
    have hstep : (sysMachine X).step s (.crawlTargets (.add id pre secs)
      (detectCanonicalPrefix X pre response) ts) = some s' := hs
    exact Sys.targetChange_of_dbStep (Sys.dbStep_of_step hstep) (fun _ hpre ↦ hpre)
      fun _ _ hl ↦ nomatch hl
  | promote id body ts =>
    dsimp only at hs
    split at hs
    case h_1 db target hr =>
      obtain rfl := Option.some.inj hs
      obtain ⟨row, c, db₁, ct, hrow, -, -, hadd, rfl, -⟩ := promoteOutlink_eq hr
      refine .added ?_ hadd rfl
      rw [Sys.storedPrefixes, hrow]
      exact List.mem_singleton_self _
    case h_2 =>
      obtain rfl := Option.some.inj hs
      exact .kept (Database.keepsTargets_of_eq rfl)
  | dismiss id =>
    dsimp only at hs
    split at hs
    case h_1 db hr =>
      obtain rfl := Option.some.inj hs
      exact .kept (Database.keepsTargets_suggests (suggests_dismissOutlink hr))
    case h_2 =>
      obtain rfl := Option.some.inj hs
      exact .kept (Database.keepsTargets_of_eq rfl)
  | putRanking raw =>
    dsimp only at hs
    split at hs
    case h_1 db hr =>
      obtain rfl := Option.some.inj hs
      obtain ⟨_, _, -, rfl, -⟩ := Database.putRanking_eq hr
      exact .kept (Database.keepsTargets_of_eq rfl)
    case h_2 =>
      obtain rfl := Option.some.inj hs
      exact .kept (Database.keepsTargets_of_eq rfl)
  | other l =>
    dsimp only at hs
    split at hs
    · cases hs
    · have hstep : (sysMachine X).step s l = some s' := hs
      exact Sys.targetChange_of_dbStep (Sys.dbStep_of_step hstep) (fun _ hpre ↦ hpre)
        fun _ _ hl ↦ congrArg TargetLabel.other hl

end CommunitySearch
