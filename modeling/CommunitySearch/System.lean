import CommunitySearch.Api.ImportEffect
import CommunitySearch.Crawler.PageSpec
import CommunitySearch.Index.Indexer

/-!
# The system

One process and its crashes: the engine, the crawls the scheduler has started, and the admin
requests that have changed the database and still have messages to send — the removals of targets
and the imports. A step is one locked section, one operation of a task, one turn of the indexer,
or a crash, so that every interleaving of these is a run of `sysMachine`.

A request that fails leaves the system as it was. `move_of_step` takes a step apart into what it
checks and what it leaves; `change_of_step` lists what a step that changes something can do. The
properties below are proved by cases on these.
-/

namespace CommunitySearch

/-- The state of the system. -/
structure Sys where
  engine : Engine
  /-- Batches of removals that are committed in the database and not yet sent. -/
  removals : List DeleteBatch
  /-- Imports that are committed in the database and still sending. -/
  imports : List (Crawl (Except ApiError ImportReport))
  /-- The crawls that are running. -/
  runs : List CrawlRun

/-- The steps of the system. -/
inductive SysLabel where
  /-- POST to the collections endpoint, at the time `ts`. -/
  | collections (action : CollectionAction) (ts : String)
  /-- POST to the crawl-targets endpoint. -/
  | crawlTargets (action : CrawlTargetAction) (detected : Option String) (ts : String)
  /-- The `k`-th removal sends its batch and returns. -/
  | sendDeletes (k : Nat)
  /-- POST to the import endpoint. -/
  | importEnvelope (env : ExportEnvelope) (ts : String)
  /-- The `k`-th import performs its next operation. -/
  | import_ (k : Nat) (a : Answer)
  /-- The `k`-th import returns. -/
  | endImport (k : Nat)
  /-- The client of the `k`-th import hangs up: the handler, which waits to send a job it has
  counted, is dropped. -/
  | hangUp (k : Nat)
  /-- The scheduler starts the crawl of a target that is due. -/
  | startRun (d : DueTarget) (fetcher : Fetcher) (config : DriverConfig) (now : Int)
  /-- A step of the `k`-th crawl. -/
  | crawl (k : Nat) (l : CrawlLabel)
  /-- The `k`-th crawl is over; `saved` says that SQLite accepts the time of it. -/
  | endRun (k : Nat) (saved : Bool)
  /-- A turn of the indexer. -/
  | indexer (event : IndexerEvent) (outcome : FlushOutcome)
  /-- The index writer refuses a document. -/
  | upsertFails
  /-- The process is killed and started again. -/
  | crash

/-- The context of the crawl of a target. -/
def DueTarget.pageContext (d : DueTarget) : PageContext where
  collectionId := d.collectionId
  crawlTargetId := d.id
  urlPrefix := d.urlPrefix
  collectionName := d.collectionName

/-- The configuration of the crawl of a target: its own delay, if it has one, replaces the
default. -/
def DueTarget.driverConfig (d : DueTarget) (config : DriverConfig) : DriverConfig :=
  match d.crawlDelaySecs with
  | some secs =>
    if 0 < secs then { config with politenessDelay := .fromSecs secs.toNat } else config
  | none => config

namespace Sys

/-- A fresh installation. -/
def init : Sys := ⟨.init, [], [], []⟩

/-- The system over another database. -/
def withDb (s : Sys) (db : Database) : Sys :=
  { s with engine := { s.engine with db := db } }

/-- A crawl is over: its target gets the time it was started, if it did not fail. -/
def runTime (s : Sys) (run : CrawlRun) (saved : Bool) : Database :=
  match run.phase, saved with
  | .ended _, true => s.engine.db.setLastCrawledAt run.ctx.crawlTargetId run.now
  | _, _ => s.engine.db

/-- One step. -/
def step (X : Crates) (s : Sys) : SysLabel → Option Sys
  | .collections action ts =>
    match handleCollections s.engine.db ts action with
    | .ok (db, _) => some (s.withDb db)
    | .error _ => some s
  | .crawlTargets action detected ts =>
    match handleCrawlTargets s.engine.db ts detected action with
    | .ok (db, reply) =>
      some { s.withDb db with removals := s.removals ++ reply.deletions.toList }
    | .error _ => some s
  | .sendDeletes k =>
    match s.removals[k]?, s.engine.indexer with
    | none, _ => none
    -- the channel is closed: the deletions are lost
    | some _, none => some { s with removals := s.removals.eraseIdx k }
    | some batch, some _ =>
      if s.engine.deleteQueue.length < DELETE_CAPACITY then
        some { s with
          engine := { s.engine with deleteQueue := s.engine.deleteQueue ++ [batch] }
          removals := s.removals.eraseIdx k }
      else none
  | .importEnvelope env ts =>
    match acceptImport X s.engine.db ts (.ok env) with
    | .ok (db, report, jobs) =>
      some { s.withDb db with imports := s.imports ++ [sendImport report jobs] }
    | .error _ => some s
  | .import_ k a =>
    match s.imports[k]? with
    | some (.op o next) =>
      (s.engine.perform o a).map fun (r, e) ↦
        { s with engine := e, imports := s.imports.set k (next r) }
    | _ => none
  | .endImport k =>
    match s.imports[k]? with
    | some (.ret _) => some { s with imports := s.imports.eraseIdx k }
    | _ => none
  | .hangUp k =>
    -- the send is the only operation of an import that suspends
    match s.imports[k]? with
    | some (.op (.send _) _) => some { s with imports := s.imports.eraseIdx k }
    | _ => none
  | .startRun d fetcher config now =>
    if d ∈ s.engine.db.listDueTargets now ∧ ∀ run ∈ s.runs, run.ctx.crawlTargetId ≠ d.id then
      some { s with
        runs := s.runs ++ [.start X fetcher d.pageContext (d.driverConfig config) now] }
    else none
  | .crawl k l =>
    match s.runs[k]? with
    | some run =>
      (run.step X s.engine l).map fun (e, run') ↦
        { s with engine := e, runs := s.runs.set k run' }
    | none => none
  | .endRun k saved =>
    match s.runs[k]? with
    | some run =>
      if run.isOver then
        some { s.withDb (s.runTime run saved) with runs := s.runs.eraseIdx k }
      else none
    | none => none
  | .indexer event outcome =>
    -- the channel closes when no task holds a sender
    if event = .closed ∧ (s.runs ≠ [] ∨ s.imports.length ≠ 0) then none
    else (s.engine.indexerStep event outcome).map fun e ↦ { s with engine := e }
  | .upsertFails => s.engine.upsertFails.map fun e ↦ { s with engine := e }
  | .crash => some ⟨.start s.engine.db s.engine.index, [], [], []⟩

end Sys

/-- The system as a machine. -/
def sysMachine (X : Crates) : Machine Sys SysLabel where
  step := Sys.step X

/-- The states of the system. -/
def Sys.Reachable (X : Crates) (s : Sys) : Prop :=
  (sysMachine X).Reachable .init s

/-! ### What a step can do -/

namespace Sys

/-- The steps with all that they check: the inversion of `step`. -/
inductive Move (X : Crates) (s : Sys) : SysLabel → Sys → Prop
  | collections {action : CollectionAction} {ts : String} {db : Database}
      {r : Option CollectionRecord} (h : handleCollections s.engine.db ts action = .ok (db, r)) :
      Move X s (.collections action ts) (s.withDb db)
  | collectionsRefused {action : CollectionAction} {ts : String} {err : ApiError}
      (h : handleCollections s.engine.db ts action = .error err) :
      Move X s (.collections action ts) s
  | crawlTargets {action : CrawlTargetAction} {detected : Option String} {ts : String}
      {db : Database} {reply : CrawlTargetReply}
      (h : handleCrawlTargets s.engine.db ts detected action = .ok (db, reply)) :
      Move X s (.crawlTargets action detected ts)
        { s.withDb db with removals := s.removals ++ reply.deletions.toList }
  | crawlTargetsRefused {action : CrawlTargetAction} {detected : Option String} {ts : String}
      {err : ApiError} (h : handleCrawlTargets s.engine.db ts detected action = .error err) :
      Move X s (.crawlTargets action detected ts) s
  | deletesSent {k : Nat} {batch : DeleteBatch} {ix : Indexer}
      (hk : s.removals[k]? = some batch) (hix : s.engine.indexer = some ix)
      (hroom : s.engine.deleteQueue.length < DELETE_CAPACITY) :
      Move X s (.sendDeletes k)
        { s with
          engine := { s.engine with deleteQueue := s.engine.deleteQueue ++ [batch] }
          removals := s.removals.eraseIdx k }
  | deletesLost {k : Nat} {batch : DeleteBatch} (hk : s.removals[k]? = some batch)
      (hix : s.engine.indexer = none) :
      Move X s (.sendDeletes k) { s with removals := s.removals.eraseIdx k }
  | imported {env : ExportEnvelope} {ts : String} {db : Database} {report : ImportReport}
      {jobs : List IndexJob}
      (h : acceptImport X s.engine.db ts (.ok env) = .ok (db, report, jobs)) :
      Move X s (.importEnvelope env ts)
        { s.withDb db with imports := s.imports ++ [sendImport report jobs] }
  | importRefused {env : ExportEnvelope} {ts : String} {err : ApiError}
      (h : acceptImport X s.engine.db ts (.ok env) = .error err) :
      Move X s (.importEnvelope env ts) s
  | importStepped {k : Nat} {a : Answer} {o : CrawlOp}
      {next : o.Resp → Crawl (Except ApiError ImportReport)} {r : o.Resp} {e : Engine}
      (hk : s.imports[k]? = some (.op o next)) (h : s.engine.perform o a = some (r, e)) :
      Move X s (.import_ k a) { s with engine := e, imports := s.imports.set k (next r) }
  | importEnded {k : Nat} {r : Except ApiError ImportReport}
      (hk : s.imports[k]? = some (.ret r)) :
      Move X s (.endImport k) { s with imports := s.imports.eraseIdx k }
  | importDropped {k : Nat} {job : IndexJob}
      {next : Bool → Crawl (Except ApiError ImportReport)}
      (hk : s.imports[k]? = some (.op (.send job) next)) :
      Move X s (.hangUp k) { s with imports := s.imports.eraseIdx k }
  | runStarted {d : DueTarget} {fetcher : Fetcher} {config : DriverConfig} {now : Int}
      (hdue : d ∈ s.engine.db.listDueTargets now)
      (hfree : ∀ run ∈ s.runs, run.ctx.crawlTargetId ≠ d.id) :
      Move X s (.startRun d fetcher config now)
        { s with
          runs := s.runs ++ [.start X fetcher d.pageContext (d.driverConfig config) now] }
  | crawled {k : Nat} {l : CrawlLabel} {run run' : CrawlRun} {e : Engine}
      (hk : s.runs[k]? = some run) (h : run.step X s.engine l = some (e, run')) :
      Move X s (.crawl k l) { s with engine := e, runs := s.runs.set k run' }
  | runEnded {k : Nat} {saved : Bool} {run : CrawlRun} (hk : s.runs[k]? = some run)
      (hover : run.isOver = true) :
      Move X s (.endRun k saved)
        { s.withDb (s.runTime run saved) with runs := s.runs.eraseIdx k }
  | indexed {event : IndexerEvent} {outcome : FlushOutcome} {e : Engine}
      (hopen : ¬ (event = .closed ∧ (s.runs ≠ [] ∨ s.imports.length ≠ 0)))
      (h : s.engine.indexerStep event outcome = some e) :
      Move X s (.indexer event outcome) { s with engine := e }
  | upsertFailed {e : Engine} (h : s.engine.upsertFails = some e) :
      Move X s .upsertFails { s with engine := e }
  | crashed : Move X s .crash ⟨.start s.engine.db s.engine.index, [], [], []⟩

/-- What a step that changes something does. -/
inductive Change (X : Crates) (s : Sys) : SysLabel → Sys → Prop
  /-- The database gains rows. -/
  | extended {l : SysLabel} {db : Database} (h : s.engine.db.Extends db) :
      Change X s l (s.withDb db)
  /-- An import gains rows, and jobs to send. -/
  | imported {env : ExportEnvelope} {ts : String} {db : Database} {report : ImportReport}
      {jobs : List IndexJob} (h : committedImport X ts env s.engine.db = some (db, report, jobs)) :
      Change X s (.importEnvelope env ts)
        { s.withDb db with imports := s.imports ++ [sendImport report jobs] }
  | renamed {id : Int} {name description ts : String} {db : Database}
      {record : CollectionRecord}
      (h : s.engine.db.updateItem id name description ts = some (db, some record)) :
      Change X s (.collections (.update id name description) ts) (s.withDb db)
  | deleted {id : Int} {ts : String} {c : CollectionRow}
      (h : s.engine.db.collectionByRowid id = some c) :
      Change X s (.collections (.delete id) ts) (s.withDb (s.engine.db.cascadeCollection c.id))
  | removed {id : Int} {detected : Option String} {ts : String} {t : CrawlTargetRow}
      (h : s.engine.db.targetByRowid id = some t) :
      Change X s (.crawlTargets (.remove id) detected ts)
        { s.withDb (s.engine.db.cascadeTarget t.id) with
          removals := s.removals ++ (removalBatch s.engine.db id).toList }
  | retuned {l : SysLabel} {db : Database} (h : s.engine.db.Retunes db) :
      Change X s l (s.withDb db)
  | deletesSent {k : Nat} {batch : DeleteBatch} {ix : Indexer}
      (hk : s.removals[k]? = some batch) (hix : s.engine.indexer = some ix) :
      Change X s (.sendDeletes k)
        { s with
          engine := { s.engine with deleteQueue := s.engine.deleteQueue ++ [batch] }
          removals := s.removals.eraseIdx k }
  | deletesLost {k : Nat} (hix : s.engine.indexer = none) :
      Change X s (.sendDeletes k) { s with removals := s.removals.eraseIdx k }
  | importStepped {k : Nat} {a : Answer} {o : CrawlOp}
      {next : o.Resp → Crawl (Except ApiError ImportReport)} {r : o.Resp} {e : Engine}
      (hk : s.imports[k]? = some (.op o next))
      (h : s.engine.perform o a = some (r, e)) :
      Change X s (.import_ k a) { s with engine := e, imports := s.imports.set k (next r) }
  | importEnded {k : Nat} : Change X s (.endImport k) { s with imports := s.imports.eraseIdx k }
  | importDropped {k : Nat} : Change X s (.hangUp k) { s with imports := s.imports.eraseIdx k }
  | runStarted {d : DueTarget} {fetcher : Fetcher} {config : DriverConfig} {now : Int}
      (h : d ∈ s.engine.db.listDueTargets now) :
      Change X s (.startRun d fetcher config now)
        { s with
          runs := s.runs ++ [.start X fetcher d.pageContext (d.driverConfig config) now] }
  | crawled {k : Nat} {l : CrawlLabel} {run run' : CrawlRun} {e : Engine}
      (hk : s.runs[k]? = some run) (h : run.step X s.engine l = some (e, run')) :
      Change X s (.crawl k l) { s with engine := e, runs := s.runs.set k run' }
  | runEnded {k : Nat} {saved : Bool} {db : Database} (h : s.engine.db.Retunes db) :
      Change X s (.endRun k saved) { s.withDb db with runs := s.runs.eraseIdx k }
  | indexed {event : IndexerEvent} {outcome : FlushOutcome} {e : Engine}
      (h : s.engine.indexerStep event outcome = some e) :
      Change X s (.indexer event outcome) { s with engine := e }
  | refused : Change X s .upsertFails { s with engine := s.engine.exitIndexer }
  | crashed : Change X s .crash ⟨.start s.engine.db s.engine.index, [], [], []⟩

end Sys

theorem Database.retunes_refl (db : Database) : db.Retunes db where
  eq := ⟨db.crawlTargets, rfl⟩
  of_mem t ht := ⟨t, ht, rfl, rfl⟩
  exists_mem t ht := ⟨t, ht, rfl⟩

variable {X : Crates} {s s' : Sys}

/-- **What a step is.** -/
theorem Sys.move_of_step {l : SysLabel} (h : (sysMachine X).step s l = some s') :
    Move X s l s' := by
  replace h : s.step X l = some s' := h
  unfold step at h
  cases l with
  | collections action ts =>
    dsimp only at h
    split at h
    case h_1 db r hr =>
      obtain rfl := Option.some.inj h
      exact .collections hr
    case h_2 err herr =>
      obtain rfl := Option.some.inj h
      exact .collectionsRefused herr
  | crawlTargets action detected ts =>
    dsimp only at h
    split at h
    case h_1 db reply hr =>
      obtain rfl := Option.some.inj h
      exact .crawlTargets hr
    case h_2 err herr =>
      obtain rfl := Option.some.inj h
      exact .crawlTargetsRefused herr
  | sendDeletes k =>
    dsimp only at h
    split at h
    case h_1 => cases h
    case h_2 batch hk hix =>
      obtain rfl := Option.some.inj h
      exact .deletesLost hk hix
    case h_3 batch ix hk hix =>
      obtain ⟨hroom, h⟩ := Option.ite_none_right_eq_some.1 h
      obtain rfl := Option.some.inj h
      exact .deletesSent hk hix hroom
  | importEnvelope env ts =>
    dsimp only at h
    split at h
    case h_1 db report jobs hr =>
      obtain rfl := Option.some.inj h
      exact .imported hr
    case h_2 err herr =>
      obtain rfl := Option.some.inj h
      exact .importRefused herr
  | import_ k a =>
    dsimp only at h
    split at h
    case h_1 o next hk =>
      obtain ⟨⟨r, e⟩, hr, rfl⟩ := Option.map_eq_some_iff.1 h
      exact .importStepped hk hr
    case h_2 => cases h
  | endImport k =>
    dsimp only at h
    split at h
    case h_1 r hk =>
      obtain rfl := Option.some.inj h
      exact .importEnded hk
    case h_2 => cases h
  | hangUp k =>
    dsimp only at h
    split at h
    case h_1 job next hk =>
      obtain rfl := Option.some.inj h
      exact .importDropped hk
    case h_2 => cases h
  | startRun d fetcher config now =>
    obtain ⟨⟨hdue, hfree⟩, h⟩ := Option.ite_none_right_eq_some.1 h
    obtain rfl := Option.some.inj h
    exact .runStarted hdue hfree
  | crawl k l =>
    dsimp only at h
    split at h
    case h_1 run hk =>
      obtain ⟨⟨e, run'⟩, hr, rfl⟩ := Option.map_eq_some_iff.1 h
      exact .crawled hk hr
    case h_2 => cases h
  | endRun k saved =>
    dsimp only at h
    split at h
    case h_1 run hk =>
      obtain ⟨hover, h⟩ := Option.ite_none_right_eq_some.1 h
      obtain rfl := Option.some.inj h
      exact .runEnded hk hover
    case h_2 => cases h
  | indexer event outcome =>
    obtain ⟨hopen, h⟩ := Option.ite_none_left_eq_some.1 h
    obtain ⟨e, he, rfl⟩ := Option.map_eq_some_iff.1 h
    exact .indexed hopen he
  | upsertFails =>
    obtain ⟨e, he, rfl⟩ := Option.map_eq_some_iff.1 h
    exact .upsertFailed he
  | crash =>
    obtain rfl := Option.some.inj h
    exact .crashed

/-- A step of a crawl. -/
theorem Sys.crawl_cases {k : ℕ} {l : CrawlLabel} (h : s.step X (.crawl k l) = some s') :
    ∃ run run' e, s.runs[k]? = some run ∧ run.step X s.engine l = some (e, run') ∧
      s' = { s with engine := e, runs := s.runs.set k run' } := by
  have hstep : (sysMachine X).step s (.crawl k l) = some s' := h
  cases move_of_step hstep with
  | crawled hk hr => exact ⟨_, _, _, hk, hr, rfl⟩

/-- **What a step does.** -/
theorem Sys.change_of_step {l : SysLabel} (h : (sysMachine X).step s l = some s') :
    Change X s l s' := by
  cases move_of_step h with
  | collections hr =>
    obtain ⟨_, _, _, rfl, hc⟩ | ⟨_, _, _, _, rfl, hu⟩ | ⟨_, _, rfl, hd, rfl⟩ :=
      handleCollections_cases hr
    · exact .extended (Database.extends_createItem hc)
    · exact .renamed hu
    · exact .deleted hd
  | crawlTargets hr =>
    obtain ⟨hnone, _, _, _, _, ha⟩ | ⟨_, _, rfl, ht, hdel, rfl⟩ | ⟨hnone, hr⟩ :=
      handleCrawlTargets_cases hr
    · rw [hnone, Option.toList_none, List.append_nil]
      exact .extended (Database.extends_addTarget ha)
    · rw [hdel]
      exact .removed ht
    · rw [hnone, Option.toList_none, List.append_nil]
      exact .retuned hr
  | collectionsRefused | crawlTargetsRefused | importRefused => exact .extended (.refl _)
  | deletesSent hk hix => exact .deletesSent hk hix
  | deletesLost _ hix => exact .deletesLost hix
  | imported hr => exact .imported (committedImport_of_acceptImport hr)
  | importStepped hk hr => exact .importStepped hk hr
  | importEnded => exact .importEnded
  | importDropped => exact .importDropped
  | runStarted hdue => exact .runStarted hdue
  | crawled hk hr => exact .crawled hk hr
  | runEnded =>
    refine .runEnded ?_
    unfold runTime
    split
    · exact Database.retunes_setLastCrawledAt _ _
    · exact Database.retunes_refl _
  | indexed _ he => exact .indexed he
  | upsertFailed he =>
    rw [Engine.upsertFails_eq he]
    exact .refused
  | crashed => exact .crashed

/-- A step of a crawl leaves the engine alone or performs the operation the crawl waits for. -/
theorem CrawlRun.perform_of_step {e e' : Engine} {run run' : CrawlRun} {l : CrawlLabel}
    (h : run.step X e l = some (e', run')) :
    e' = e ∨ ∃ o a r, l = .answer a ∧ run.nextOp = some o ∧ e.perform o a = some (r, e') := by
  obtain ⟨o, k, a, r, hp, rfl, hr, -⟩ | ⟨_, _, o, k, _, a, r, hp, rfl, hr, -⟩ | ⟨-, he, -⟩ :=
    step_cases h
  · exact Or.inr ⟨o, a, r, rfl, by rw [nextOp, hp], hr⟩
  · exact Or.inr ⟨o, a, r, rfl, by rw [nextOp, hp], hr⟩
  · exact Or.inl he

/-- An operation of a task leaves the index and the buffer alone. -/
theorem Engine.index_of_perform {e e' : Engine} {o : CrawlOp} {a : Answer} {r : o.Resp}
    (h : e.perform o a = some (r, e')) : e'.index = e.index ∧ e'.buffered = e.buffered := by
  obtain rfl | ⟨_, rfl⟩ | ⟨_, rfl⟩ | ⟨_, _, -, -, rfl⟩ | ⟨_, _, -, -, rfl⟩ |
    ⟨_, _, _, _, _, -, -, rfl⟩ := perform_cases h
  all_goals exact ⟨rfl, rfl⟩

/-- **What an operation of a task leaves on its way**: an upsert and a hit change the database, a
send to a live indexer adds its document, and the other operations neither. -/
theorem Engine.outgoing_of_perform {e e' : Engine} {o : CrawlOp} {a : Answer} {r : o.Resp}
    (h : e.perform o a = some (r, e')) :
    e'.indexer = e.indexer ∧ e'.deleteQueue = e.deleteQueue ∧
      ((e'.outgoing = e.outgoing ∧ e'.db = e.db) ∨
        (e'.outgoing = e.outgoing ∧ ∃ row, o = .upsert row ∧
          e.db.upsertPage row = some e'.db) ∨
        (e'.outgoing = e.outgoing ∧ e.db.Suggests e'.db) ∨
        ∃ job, o = .send job ∧ e'.outgoing = e.outgoing ++ [.upsert job.asDocument] ∧
          e'.db = e.db) := by
  obtain rfl | ⟨_, rfl⟩ | ⟨_, rfl⟩ | ⟨job, _, ho, -, rfl⟩ | ⟨row, _, ho, hdb, rfl⟩ |
    ⟨_, _, _, _, _, -, hdb, rfl⟩ := perform_cases h
  · exact ⟨rfl, rfl, Or.inl ⟨rfl, rfl⟩⟩
  · exact ⟨rfl, rfl, Or.inl ⟨rfl, rfl⟩⟩
  · exact ⟨rfl, rfl, Or.inl ⟨rfl, rfl⟩⟩
  · refine ⟨rfl, rfl, Or.inr (Or.inr (Or.inr ⟨job, ho, ?_, rfl⟩))⟩
    rw [outgoing, outgoing, List.map_append, ← List.append_assoc]
    rfl
  · exact ⟨rfl, rfl, Or.inr (Or.inl ⟨rfl, row, ho, hdb⟩)⟩
  · exact ⟨rfl, rfl, Or.inr (Or.inr (Or.inl ⟨rfl, Database.suggests_recordHit hdb⟩))⟩

/-- Only the indexer commits; the other steps keep the buffer or lose it. -/
theorem Sys.index_of_step {l : SysLabel} (h : (sysMachine X).step s l = some s')
    (hl : ∀ event outcome, l ≠ .indexer event outcome) :
    s'.engine.index = s.engine.index ∧
      (s'.engine.buffered = s.engine.buffered ∨ s'.engine.buffered = []) := by
  cases change_of_step h with
  | refused | crashed => exact ⟨rfl, Or.inr rfl⟩
  | importStepped _ hr =>
    obtain ⟨hindex, hbuffered⟩ := Engine.index_of_perform hr
    exact ⟨hindex, Or.inl hbuffered⟩
  | crawled _ hr =>
    obtain rfl | ⟨_, _, _, -, -, hr⟩ := CrawlRun.perform_of_step hr
    · exact ⟨rfl, Or.inl rfl⟩
    · obtain ⟨hindex, hbuffered⟩ := Engine.index_of_perform hr
      exact ⟨hindex, Or.inl hbuffered⟩
  | indexed => exact absurd rfl (hl _ _)
  | _ => exact ⟨rfl, Or.inl rfl⟩

/-- The job a step sends. -/
def Sys.sending (s : Sys) : SysLabel → Option IndexJob
  | .crawl k (.answer _) => s.runs[k]?.bind CrawlRun.sending
  | .import_ k _ =>
    match s.imports[k]? with
    | some (.op (.send job) _) => some job
    | _ => none
  | _ => none

/-! ### The database -/

/-- **What an operation of a task does to the database**: nothing, or it upserts a page, or it
records a hit. -/
theorem Engine.db_of_perform {e e' : Engine} {o : CrawlOp} {a : Answer} {r : o.Resp}
    (h : e.perform o a = some (r, e')) :
    e'.db = e.db ∨ (∃ row, o = .upsert row ∧ e.db.upsertPage row = some e'.db) ∨
      e.db.Suggests e'.db := by
  obtain ⟨-, -, ⟨-, hdb⟩ | ⟨-, row, ho, hdb⟩ | ⟨-, hdb⟩ | ⟨_, -, -, hdb⟩⟩ := outgoing_of_perform h
  · exact Or.inl hdb
  · exact Or.inr (Or.inl ⟨row, ho, hdb⟩)
  · exact Or.inr (Or.inr hdb)
  · exact Or.inl hdb

/-- What a step does to the database. -/
inductive Sys.DbChange (s : Sys) : SysLabel → Database → Prop
  | same {l : SysLabel} : DbChange s l s.engine.db
  | extended {l : SysLabel} {db : Database} (h : s.engine.db.Extends db) : DbChange s l db
  | renamed {id : Int} {name description ts : String} {db : Database} {record : CollectionRecord}
      (h : s.engine.db.updateItem id name description ts = some (db, some record)) :
      DbChange s (.collections (.update id name description) ts) db
  | deleted {id : Int} {ts : String} {c : CollectionRow}
      (h : s.engine.db.collectionByRowid id = some c) :
      DbChange s (.collections (.delete id) ts) (s.engine.db.cascadeCollection c.id)
  | removed {id : Int} {detected : Option String} {ts : String} {t : CrawlTargetRow}
      (h : s.engine.db.targetByRowid id = some t) :
      DbChange s (.crawlTargets (.remove id) detected ts) (s.engine.db.cascadeTarget t.id)
  | retuned {l : SysLabel} {db : Database} (h : s.engine.db.Retunes db) : DbChange s l db
  | upserted {l : SysLabel} {row : CrawledPageRow} {db : Database}
      (h : s.engine.db.upsertPage row = some db) : DbChange s l db
  | suggested {l : SysLabel} {db : Database} (h : s.engine.db.Suggests db) : DbChange s l db
  | journaled {event : IndexerEvent} {outcome : FlushOutcome} {entries : List IndexedEntry} :
      DbChange s (.indexer event outcome) (s.engine.db.markIndexedBatch entries)

/-- **What a step does to the database.** -/
theorem Sys.dbChange_of_step {l : SysLabel} (h : (sysMachine X).step s l = some s') :
    s.DbChange l s'.engine.db := by
  have hperform : ∀ {e : Engine} {o : CrawlOp} {a : Answer} {r : o.Resp} {l : SysLabel},
      s.engine.perform o a = some (r, e) → s.DbChange l e.db := by
    intro e o a r l hr
    rcases Engine.db_of_perform hr with hdb | ⟨row, -, hdb⟩ | hdb
    · rw [hdb]
      exact .same
    · exact .upserted hdb
    · exact .suggested hdb
  cases change_of_step h with
  | extended hext => exact .extended hext
  | imported himport => exact .extended (imported_of_committedImport himport).ext
  | renamed hupdate => exact .renamed hupdate
  | deleted hc => exact .deleted hc
  | removed ht => exact .removed ht
  | retuned hr => exact .retuned hr
  | importStepped _ hr => exact hperform hr
  | crawled _ hr =>
    obtain rfl | ⟨_, _, _, -, -, hr⟩ := CrawlRun.perform_of_step hr
    · exact .same
    · exact hperform hr
  | runEnded hr => exact .retuned hr
  | indexed hturn =>
    rcases (Engine.turn_of_indexerStep hturn).db with hdb | ⟨entries, hdb⟩
    · show s.DbChange _ _
      rw [hdb]
      exact .same
    · show s.DbChange _ _
      rw [hdb]
      exact .journaled
  | _ => exact .same

/-- The step performs the operation: a crawl waits for its answer, or an import. -/
inductive Sys.Awaits (s : Sys) (o : CrawlOp) (a : Answer) : SysLabel → Prop
  | crawl {k : Nat} {run : CrawlRun} (hk : s.runs[k]? = some run) (ho : run.nextOp = some o) :
      Awaits s o a (.crawl k (.answer a))
  | import_ {k : Nat} {next : o.Resp → Crawl (Except ApiError ImportReport)}
      (hk : s.imports[k]? = some (.op o next)) : Awaits s o a (.import_ k a)

/-- The statements a step runs on the database. -/
inductive Sys.DbStep (X : Crates) (s : Sys) : SysLabel → Database → Prop
  | same {l : SysLabel} : DbStep X s l s.engine.db
  | collections {action : CollectionAction} {ts : String} {db : Database}
      {r : Option CollectionRecord} (h : handleCollections s.engine.db ts action = .ok (db, r)) :
      DbStep X s (.collections action ts) db
  | crawlTargets {action : CrawlTargetAction} {detected : Option String} {ts : String}
      {db : Database} {reply : CrawlTargetReply}
      (h : handleCrawlTargets s.engine.db ts detected action = .ok (db, reply)) :
      DbStep X s (.crawlTargets action detected ts) db
  | imported {env : ExportEnvelope} {ts : String} {db : Database} {report : ImportReport}
      {jobs : List IndexJob}
      (h : acceptImport X s.engine.db ts (.ok env) = .ok (db, report, jobs)) :
      DbStep X s (.importEnvelope env ts) db
  | performed {l : SysLabel} {o : CrawlOp} {a : Answer} {r : o.Resp} {e : Engine}
      (hdue : s.Awaits o a l) (h : s.engine.perform o a = some (r, e)) : DbStep X s l e.db
  | timed {k : Nat} {saved : Bool} {run : CrawlRun} :
      DbStep X s (.endRun k saved) (s.runTime run saved)
  | turned {event : IndexerEvent} {outcome : FlushOutcome} {e : Engine}
      (h : s.engine.indexerStep event outcome = some e) : DbStep X s (.indexer event outcome) e.db

/-- **What a step runs on the database.** -/
theorem Sys.dbStep_of_step {l : SysLabel} (h : (sysMachine X).step s l = some s') :
    s.DbStep X l s'.engine.db := by
  cases move_of_step h with
  | collections hr => exact .collections hr
  | crawlTargets hr => exact .crawlTargets hr
  | imported hr => exact .imported hr
  | importStepped hk hr => exact .performed (.import_ hk) hr
  | crawled hk hr =>
    obtain rfl | ⟨o, a, r, rfl, ho, hr⟩ := CrawlRun.perform_of_step hr
    · exact .same
    · exact .performed (.crawl hk ho) hr
  | runEnded => exact .timed
  | indexed _ he => exact .turned he
  | upsertFailed he =>
    rw [Engine.upsertFails_eq he]
    exact .same
  | _ => exact .same

/-- **A step of the system** leaves no row that refers to one that is gone. -/
theorem Sys.foreignKeys_of_step {l : SysLabel} (hI : s.engine.db.ForeignKeys)
    (h : (sysMachine X).step s l = some s') : s'.engine.db.ForeignKeys := by
  have hchange := dbChange_of_step h
  generalize s'.engine.db = db at hchange ⊢
  cases hchange with
  | same => exact hI
  | extended hext => exact hext.foreignKeys hI
  | renamed hupdate => exact hI.updateItem hupdate
  | deleted _ => exact hI.cascadeCollection _
  | removed _ => exact hI.cascadeTarget _
  | retuned hr => exact hI.retunes hr
  | upserted hdb => exact hI.upsertPage hdb
  | suggested hdb => exact hI.suggests hdb
  | journaled => exact hI.markIndexedBatch _

/-- No row of a reachable state refers to one that is gone. -/
theorem Sys.foreignKeys_of_reachable (h : s.Reachable X) : s.engine.db.ForeignKeys :=
  Machine.invariant (I := fun s ↦ s.engine.db.ForeignKeys)
    (fun _ _ _ hI hs ↦ foreignKeys_of_step hI hs) Database.foreignKeys_empty h

/-! ### What holds of every crawl -/

/-- **The principle of crawl invariants**: what holds of a crawl when it starts and is kept by its
steps holds of every crawl of a reachable state. -/
theorem Sys.forall_runs {I : CrawlRun → Prop}
    (hstart : ∀ fetcher ctx config now, I (.start X fetcher ctx config now))
    (hstep : ∀ e e' run run' l, I run → run.step X e l = some (e', run') → I run')
    (h : s.Reachable X) : ∀ run ∈ s.runs, I run := by
  refine Machine.invariant (I := fun s ↦ ∀ run ∈ s.runs, I run) (fun s l s' hI hs ↦ ?_)
    (fun _ hrun ↦ absurd hrun List.not_mem_nil) h
  cases Sys.change_of_step hs with
  | runStarted _ =>
    intro run hrun
    rcases List.mem_append.1 hrun with hrun | hrun
    · exact hI run hrun
    · obtain rfl := List.mem_singleton.1 hrun
      exact hstart _ _ _ _
  | crawled hk hr =>
    intro run hrun
    rcases List.mem_or_eq_of_mem_set hrun with hrun | rfl
    · exact hI run hrun
    · exact hstep _ _ _ _ _ (hI _ (List.mem_of_getElem? hk)) hr
  | runEnded _ => exact fun run hrun ↦ hI run (List.mem_of_mem_eraseIdx hrun)
  | crashed => exact fun _ hrun ↦ absurd hrun List.not_mem_nil
  | _ => exact hI

/-! ### A site with one page -/

namespace OnePage

def url (path : String) : Url := ⟨"https", "", none, some "guide.example", none, path, none, none⟩

def body : String := "<body>Welcome</body>"

/-- The fingerprint of the page. -/
def hash : String := "ea2fd09f68f4d9a37709e93039a3471a28f30129bc99c2e7f56688370c1f7cb7"

/-- What the crates compute on the page. -/
def crates : Crates := .ofTables
  { urls := ["/", "/sitemap.xml"].map fun path ↦ ("https://guide.example" ++ path, url path)
    joins := []
    documents := [(body, ⟨[], [], [], some [⟨"Welcome", false⟩]⟩)]
    disallowed := []
    digests := [("\x00Welcome", hash),
      -- the body of a document that is imported
      ("Copy", "e21f935f11d7e966dbbae78da9daa378fe8142a14e7c0cd7434183005faa6c5c")] }

/-- The page in full. -/
def page : HttpResponse := ⟨200, some "text/html", some "\"v1\"", none, none, some body⟩

/-- The target of the first collection, when it is due. -/
def due : DueTarget := ⟨⟨1⟩, ⟨0⟩, "guide", "https://guide.example/", 3600, none⟩

/-- A collection with the site as its target. -/
def install : List SysLabel :=
  [.collections (.create "guide" "") "t0",
    .crawlTargets (.add 1 "https://guide.example/" 3600) none "t1"]

/-- The scheduler starts the crawl of the target as the `k`-th. -/
def startRun (d : DueTarget) (now : Int) : SysLabel :=
  .startRun d ⟨"search-bot"⟩ ⟨1000, 1000⟩ now

/-- The `k`-th crawl up to the answer to its first page. -/
def fetch (k : Nat) (loaded : Bool) (r : HttpResponse) : List SysLabel :=
  (plainPrelude none loaded ++ pageUpToFetch ++ [CrawlLabel.answer (.http (.response r))]).map
    (.crawl k)

/-- The `k`-th crawl counts and sends its job. -/
def send (k : Nat) : List SysLabel :=
  [CrawlLabel.answer .ok, CrawlLabel.answer .ok].map (.crawl k)

/-- The `k`-th crawl writes the row. -/
def write (k : Nat) : List SysLabel :=
  [.crawl k (.answer .ok)]

/-- The indexer takes a job and commits. -/
def flush : List SysLabel :=
  [.indexer .upsert .done, .indexer .timer .done]

end OnePage

end CommunitySearch
