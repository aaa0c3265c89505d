import CommunitySearch.System.Targets

/-!
# The tasks of the system

`move_of_targetStep` takes a step of the system with detection and review apart: it is a step of
`sysMachine`, or a decision of the review, or it saves a ranking. What a step does to the crawls and
to the imports is `mem_runs_of_step` and `ImportsSend.step`: a crawl that is there after the step
was there before, has just been started, or has moved on by the step, and an import only sends.
-/

namespace CommunitySearch

open Prog

variable {X : Crates} {s s' : Sys}

/-- The step of the system a label stands for, unless it is one of the review or of the ranking. -/
def TargetLabel.toSys (X : Crates) : TargetLabel → Option SysLabel
  | .add collectionId urlPrefix recrawlIntervalSecs response ts =>
    some (.crawlTargets (.add collectionId urlPrefix recrawlIntervalSecs)
      (detectCanonicalPrefix X urlPrefix response) ts)
  | .promote .. | .dismiss _ | .putRanking _ => none
  | .other l => some l

namespace Sys

/-- The steps of `targetMachine`, with what they check. -/
inductive TargetMove (X : Crates) (s : Sys) : TargetLabel → Sys → Prop
  | step {l : TargetLabel} {l₀ : SysLabel} {s' : Sys} (hl : l.toSys X = some l₀)
      (h : (sysMachine X).step s l₀ = some s') : TargetMove X s l s'
  | promoted {id target : Int} {body : PromoteBody} {ts : String} {db : Database}
      (h : promoteOutlink s.engine.db ts id body = .ok (db, target)) :
      TargetMove X s (.promote id body ts) (s.withDb db)
  | dismissed {id : Int} {db : Database} (h : dismissOutlink s.engine.db id = .ok db) :
      TargetMove X s (.dismiss id) (s.withDb db)
  | ranked {raw : JsonObject} {db : Database} (h : putRanking s.engine.db raw = .ok db) :
      TargetMove X s (.putRanking raw) (s.withDb db)
  /-- A request that is refused. -/
  | refused {l : TargetLabel} : TargetMove X s l s

/-- **What a step of the system with detection and review is.** -/
theorem move_of_targetStep {l : TargetLabel} (h : (targetMachine X).step s l = some s') :
    TargetMove X s l s' := by
  have hs : s.targetStep X l = some s' := h
  unfold targetStep at hs
  cases l with
  | add => exact .step rfl hs
  | promote =>
    dsimp only at hs
    split at hs
    case h_1 hr =>
      obtain rfl := Option.some.inj hs
      exact .promoted hr
    case h_2 =>
      obtain rfl := Option.some.inj hs
      exact .refused
  | dismiss =>
    dsimp only at hs
    split at hs
    case h_1 hr =>
      obtain rfl := Option.some.inj hs
      exact .dismissed hr
    case h_2 =>
      obtain rfl := Option.some.inj hs
      exact .refused
  | putRanking =>
    dsimp only at hs
    split at hs
    case h_1 hr =>
      obtain rfl := Option.some.inj hs
      exact .ranked hr
    case h_2 =>
      obtain rfl := Option.some.inj hs
      exact .refused
  | other l =>
    obtain ⟨-, hs⟩ := Option.ite_none_left_eq_some.1 hs
    exact .step rfl hs

/-- A step of the system that adds no target has its own label. -/
theorem TargetLabel.eq_other_of_toSys {l : TargetLabel} {l₀ : SysLabel} (hadd : l₀.isAdd = false)
    (hl : l.toSys X = some l₀) : l = .other l₀ := by
  cases l with
  | add =>
    obtain rfl := Option.some.inj hl
    cases hadd
  | other => exact congrArg _ (Option.some.inj hl)
  | _ => cases hl

/-! ### The crawls -/

/-- Where a crawl comes from that is there after a step. -/
inductive RunAfter (X : Crates) (s : Sys) (e' : Engine) (run : CrawlRun) : SysLabel → Prop
  | kept {l : SysLabel} (h : run ∈ s.runs) : RunAfter X s e' run l
  | started {d : DueTarget} {fetcher : Fetcher} {config : DriverConfig} {now : Int}
      (hdue : d ∈ s.engine.db.listDueTargets now)
      (h : run = .start X fetcher d.pageContext (d.driverConfig config) now) :
      RunAfter X s e' run (.startRun d fetcher config now)
  | moved {k : Nat} {l : CrawlLabel} {run₀ : CrawlRun} (hk : run₀ ∈ s.runs)
      (h : run₀.step X s.engine l = some (e', run)) : RunAfter X s e' run (.crawl k l)

/-- **What a step does to the crawls.** -/
theorem mem_runs_of_step {l : SysLabel} (h : (sysMachine X).step s l = some s') {run : CrawlRun}
    (hrun : run ∈ s'.runs) : s.RunAfter X s'.engine run l := by
  cases change_of_step h with
  | runStarted hdue =>
    rcases List.mem_append.1 hrun with hrun | hrun
    · exact .kept hrun
    · exact .started hdue (List.mem_singleton.1 hrun)
  | crawled hk hr =>
    rcases List.mem_or_eq_of_mem_set hrun with hrun | rfl
    · exact .kept hrun
    · exact .moved (List.mem_of_getElem? hk) hr
  | runEnded => exact .kept (List.mem_of_mem_eraseIdx hrun)
  | crashed => exact absurd hrun List.not_mem_nil
  | _ => exact .kept hrun

end Sys

/-! ### The imports -/

/-- An operation that sends a job. -/
def CrawlOp.IsSend : CrawlOp → Prop
  | .inflightAdd _ | .send _ => True
  | _ => False

/-- An import has written its rows before it sends, and then it only sends. -/
theorem performs_sendImport_isSend (report : ImportReport) (jobs : List IndexJob) :
    Performs CrawlOp.IsSend (sendImport report jobs) := by
  induction jobs with
  | nil => trivial
  | cons job jobs ih =>
    refine ⟨trivial, fun _ ↦ ⟨trivial, fun sent ↦ ?_⟩⟩
    cases sent with
    | true => exact ih
    | false => exact ⟨trivial, fun _ ↦ trivial⟩

/-- Sending a job leaves the database alone. -/
theorem Engine.db_of_send {e e' : Engine} {o : CrawlOp} {a : Answer} {r : o.Resp}
    (ho : o.IsSend) (h : e.perform o a = some (r, e')) : e'.db = e.db := by
  obtain rfl | ⟨_, rfl⟩ | ⟨_, rfl⟩ | ⟨_, _, -, -, rfl⟩ | ⟨_, _, rfl, -⟩ |
    ⟨_, _, _, _, _, rfl, -⟩ := perform_cases h
  · rfl
  · rfl
  · rfl
  · rfl
  · exact ho.elim
  · exact ho.elim

/-- The crawl upserts a page or records a hit. -/
inductive CrawlRun.Writes (run : CrawlRun) (db db' : Database) : Prop
  | page {row : CrawledPageRow} (ho : run.nextOp = some (.upsert row))
      (h : db.upsertPage row = some db') : Writes run db db'
  | hit {c : Uuid} {host : String} {ex : OutlinkExample} {now : Int}
      (ho : run.nextOp = some (.recordHit c host ex now))
      (h : db.recordHit c host ex now = some db') : Writes run db db'

/-- **What the operation of a crawl does to the database.** -/
theorem CrawlRun.writes_of_perform {run : CrawlRun} {e e' : Engine} {o : CrawlOp} {a : Answer}
    {r : o.Resp} (ho : run.nextOp = some o) (h : e.perform o a = some (r, e')) :
    e'.db = e.db ∨ run.Writes e.db e'.db := by
  obtain rfl | ⟨_, rfl⟩ | ⟨_, rfl⟩ | ⟨_, _, -, -, rfl⟩ | ⟨_, _, rfl, hdb, rfl⟩ |
    ⟨_, _, _, _, _, rfl, hdb, rfl⟩ := Engine.perform_cases h
  · exact Or.inl rfl
  · exact Or.inl rfl
  · exact Or.inl rfl
  · exact Or.inl rfl
  · exact Or.inr (.page ho hdb)
  · exact Or.inr (.hit ho hdb)

/-- **What a step of a crawl does to the database.** -/
theorem CrawlRun.writes_of_step {run run' : CrawlRun} {e e' : Engine} {l : CrawlLabel}
    (h : run.step X e l = some (e', run')) : e'.db = e.db ∨ run.Writes e.db e'.db := by
  obtain rfl | ⟨o, a, r, -, ho, hr⟩ := perform_of_step h
  · exact Or.inl rfl
  · exact writes_of_perform ho hr

namespace Sys

/-- The imports send, and do nothing else. -/
def ImportsSend (s : Sys) : Prop := ∀ p ∈ s.imports, Performs CrawlOp.IsSend p

/-- **What a step does to the imports.** -/
theorem ImportsSend.step {l : SysLabel} (hI : s.ImportsSend)
    (h : (sysMachine X).step s l = some s') : s'.ImportsSend := by
  cases change_of_step h with
  | imported =>
    intro p hp
    rcases List.mem_append.1 hp with hp | hp
    · exact hI p hp
    · obtain rfl := List.mem_singleton.1 hp
      exact performs_sendImport_isSend _ _
  | @importStepped _ _ o next r _ hk =>
    intro p hp
    rcases List.mem_or_eq_of_mem_set hp with hp | rfl
    · exact hI p hp
    · exact (hI _ (List.mem_of_getElem? hk)).2 r
  | importEnded | importDropped => exact fun p hp ↦ hI p (List.mem_of_mem_eraseIdx hp)
  | crashed => exact fun _ hp ↦ absurd hp List.not_mem_nil
  | _ => exact hI

/-- **What the operation a task waits for does to the database**: nothing, unless it is a crawl's,
and then it upserts a page or records a hit. -/
theorem ImportsSend.db_of_perform {o : CrawlOp} {a : Answer} {r : o.Resp} {e : Engine}
    {l : SysLabel} (hI : s.ImportsSend) (hdue : s.Awaits o a l)
    (h : s.engine.perform o a = some (r, e)) :
    e.db = s.engine.db ∨ ∃ k run, l = .crawl k (.answer a) ∧ s.runs[k]? = some run ∧
      run.Writes s.engine.db e.db := by
  cases hdue with
  | @crawl k run hk ho =>
    exact (CrawlRun.writes_of_perform ho h).imp_right fun hw ↦ ⟨k, run, rfl, hk, hw⟩
  | import_ hk => exact Or.inl (Engine.db_of_send (hI _ (List.mem_of_getElem? hk)).1 h)

end Sys

end CommunitySearch
