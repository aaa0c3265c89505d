import CommunitySearch.System.CrawlTimes
import CommunitySearch.System.IntervalColumns
import CommunitySearch.System.SingleFlight

/-!
# The recrawl schedule

When a target is crawled again depends on a column that is written at the end of a crawl, in a
statement of its own, with the time the crawl was started. In between the target may have been
removed, its interval may have been set, the process may have been killed, and the crawl may panic,
fail, or end without SQLite taking the time of it.

`flights` reads off a run what was started and what was recorded. By this log alone it is decided
what a tick starts (`schedule_of_run`): the enabled targets with no crawl live whose last recorded
crawl was started at least their present interval before, and those with none. So the crawls of a
target that are recorded are an interval apart (`OnSchedule`), whatever clock the ticks go by.
-/

namespace CommunitySearch

/-- What can happen to an installation. -/
inductive InstallationLabel where
  /-- The scheduler, and what runs beside it. -/
  | scheduler (l : SchedulerLabel)
  /-- A request that reviews a host, or that adds a target after the detection of its prefix. -/
  | request (l : TargetLabel)

/-- What the scheduler has done. -/
inductive Flight where
  /-- The crawl of a target is started by a tick at the time `now`. -/
  | dispatched (d : DueTarget) (now : Int)
  /-- A crawl of the target that was started at `start` has its time saved. -/
  | recorded (id : Uuid) (start : Int)
deriving DecidableEq

namespace Flight

/-- When the crawl was started, if a crawl of the target is recorded. -/
def start? (id : Uuid) : Flight → Option Int
  | recorded id' start => if id' = id then some start else none
  | dispatched .. => none

/-- When the last crawl of the target was started that is recorded. -/
def lastRecorded (log : List Flight) (id : Uuid) : Option Int :=
  (log.filterMap (start? id)).getLast?

/-- **The log of a scheduler that keeps the intervals**: a crawl is started when the interval of the
target has passed since its last crawl that is recorded, and what is recorded is a crawl for which
this is still so. -/
inductive OnSchedule : List Flight → Prop
  | nil : OnSchedule []
  | dispatched {log : List Flight} {d : DueTarget} {now : Int} (h : OnSchedule log)
      (hdue : ∀ last, lastRecorded log d.id = some last → last + d.recrawlIntervalSecs ≤ now) :
      OnSchedule (log ++ [.dispatched d now])
  | recorded {log : List Flight} {d : DueTarget} {start : Int} (h : OnSchedule log)
      (hstarted : .dispatched d start ∈ log)
      (hdue : ∀ last, lastRecorded log d.id = some last → last + d.recrawlIntervalSecs ≤ start) :
      OnSchedule (log ++ [.recorded d.id start])

end Flight

/-- What the end of a crawl records. -/
def CrawlRun.record (run : CrawlRun) (saved : Bool) : List Flight :=
  match run.phase, saved with
  | .ended _, true => [.recorded run.ctx.crawlTargetId run.now]
  | _, _ => []

namespace Scheduler

/-- One step. -/
def serve (X : Crates) (fetcher : Fetcher) (config : DriverConfig) (s : Scheduler) :
    InstallationLabel → Option Scheduler
  | .scheduler l => s.step X fetcher config l
  | .request (.other _) => none
  | .request l => (s.sys.targetStep X l).map fun sys ↦ { s with sys := sys }

/-- The targets of the loop of a tick that have no crawl when their turn comes. -/
def idle : List Uuid → List DueTarget → List DueTarget
  | _, [] => []
  | running, d :: order =>
    if d.id ∈ running then idle running order else d :: idle (d.id :: running) order

/-- What a step adds to the log. -/
def noteFlights (log : List Flight) (s : Scheduler) : InstallationLabel → List Flight
  | .scheduler (.tick now (.due order)) =>
    if s.paused then log else log ++ (idle s.running order).map (.dispatched · now)
  | .scheduler (.finish k saved) =>
    log ++ (s.sys.runs[k]?).toList.flatMap fun run ↦ run.record saved
  | _ => log

end Scheduler

/-- The installation as a machine. -/
def installationMachine (X : Crates) (fetcher : Fetcher) (config : DriverConfig) :
    Machine Scheduler InstallationLabel where
  step := Scheduler.serve X fetcher config

/-- The log of a run of a fresh installation. -/
def flights (X : Crates) (fetcher : Fetcher) (config : DriverConfig)
    (labels : List InstallationLabel) : List Flight :=
  (installationMachine X fetcher config).observe Scheduler.noteFlights [] (.start .empty []) labels

/-- The target is due at the time `now`, by the log. -/
structure CrawlTargetRow.DueBy (t : CrawlTargetRow) (log : List Flight) (now : Int) : Prop where
  enabled : t.enabled = 1
  passed : ∀ last, Flight.lastRecorded log t.id = some last → last + t.recrawlIntervalS ≤ now

/-- **The recrawl schedule.** -/
structure Scheduler.KeepsSchedule (X : Crates) (fetcher : Fetcher) (config : DriverConfig)
    (s : Scheduler) (log : List Flight) : Prop where
  onSchedule : Flight.OnSchedule log
  /-- A tick that gets to its loop starts a crawl of exactly the targets that are due and have
  none. -/
  tick : ∀ now order s', s.paused = false →
    (installationMachine X fetcher config).step s (.scheduler (.tick now (.due order))) = some s' →
    ∀ id, id ∈ s'.live ∧ id ∉ s.live ↔
      id ∉ s.live ∧ ∃ t ∈ s.sys.engine.db.crawlTargets, t.id = id ∧ t.DueBy log now

/-! ### The requests -/

namespace Sys

variable {X : Crates} {s s' : Sys}

/-- A request that reviews a host, saves a ranking or adds a target is no business of the crawls. -/
theorem runs_of_request {l : TargetLabel} (hl : ∀ l₀, l ≠ .other l₀)
    (h : (targetMachine X).step s l = some s') : s'.runs = s.runs := by
  cases move_of_targetStep h with
  | step htoSys hs =>
    cases l with
    | add =>
      obtain rfl := Option.some.inj htoSys
      cases move_of_step hs with
      | crawlTargets => rfl
      | crawlTargetsRefused => rfl
    | promote | dismiss | putRanking => cases htoSys
    | other l₀ => exact absurd rfl (hl l₀)
  | promoted | dismissed | ranked | refused => rfl

/-- **A step** of the system with detection and review leaves no row that refers to one that is
gone. -/
theorem foreignKeys_of_targetStep {l : TargetLabel} (hI : s.engine.db.ForeignKeys)
    (h : (targetMachine X).step s l = some s') : s'.engine.db.ForeignKeys := by
  cases move_of_targetStep h with
  | step _ hs => exact foreignKeys_of_step hI hs
  | promoted hr =>
    obtain ⟨_, _, db, target, -, -, -, hadd, rfl, -⟩ := promoteOutlink_eq hr
    refine (hI.addTarget hadd).suggests ?_
    exact @Database.suggests_updateOutlinkHost db _
      (fun o ↦ { o with status := "promoted", promotedTargetId := some target.id })
      fun _ ↦ ⟨rfl, rfl, rfl, rfl⟩
  | dismissed hr => exact hI.suggests (suggests_dismissOutlink hr)
  | ranked hr =>
    obtain ⟨_, _, -, rfl, -⟩ := Database.putRanking_eq hr
    exact ⟨hI.target_collection, hI.page_collection, hI.page_target, hI.host_collection,
      hI.peer_node⟩
  | refused => exact hI

/-- The time of a crawl is saved when the log has it. -/
theorem runTime_cases (s : Sys) (run : CrawlRun) (saved : Bool) :
    s.runTime run saved = s.engine.db.setLastCrawledAt run.ctx.crawlTargetId run.now ∧
        run.record saved = [.recorded run.ctx.crawlTargetId run.now] ∨
      s.runTime run saved = s.engine.db ∧ run.record saved = [] := by
  unfold runTime CrawlRun.record
  generalize run.phase = phase
  cases phase with
  | ended d =>
    cases saved with
    | true => exact Or.inl ⟨rfl, rfl⟩
    | false => exact Or.inr ⟨rfl, rfl⟩
  | _ => exact Or.inr ⟨rfl, rfl⟩

end Sys

/-! ### The log -/

namespace Flight

variable {log : List Flight} {id : Uuid}

theorem lastRecorded_dispatched (ds : List DueTarget) (now : Int) :
    lastRecorded (log ++ ds.map (dispatched · now)) id = lastRecorded log id := by
  have hnone : (ds.map (dispatched · now)).filterMap (start? id) = [] := by
    rw [List.filterMap_map]
    exact List.filterMap_eq_nil_iff.2 fun _ _ ↦ rfl
  rw [lastRecorded, List.filterMap_append, hnone, List.append_nil, lastRecorded]

theorem lastRecorded_recorded (id' : Uuid) (start : Int) :
    lastRecorded (log ++ [recorded id' start]) id =
      if id' = id then some start else lastRecorded log id := by
  rw [lastRecorded, List.filterMap_append]
  by_cases h : id' = id
  · have hone : [recorded id' start].filterMap (start? id) = [start] := by simp [start?, h]
    rw [if_pos h, hone, List.getLast?_concat]
  · have hnone : [recorded id' start].filterMap (start? id) = [] := by simp [start?, h]
    rw [if_neg h, hnone, List.append_nil, lastRecorded]

/-- Crawls are started that are due. -/
theorem OnSchedule.append {ds : List DueTarget} {now : Int} (h : OnSchedule log)
    (hdue : ∀ d ∈ ds, ∀ last, lastRecorded log d.id = some last →
      last + d.recrawlIntervalSecs ≤ now) :
    OnSchedule (log ++ ds.map (Flight.dispatched · now)) := by
  induction ds generalizing log with
  | nil => rwa [List.map_nil, List.append_nil]
  | cons d ds ih =>
    obtain ⟨hd, hds⟩ := List.forall_mem_cons.1 hdue
    rw [List.map_cons, List.append_cons]
    refine ih (h.dispatched hd) fun d' hd' last hlast ↦ hds d' hd' last ?_
    exact (lastRecorded_dispatched [d] now).symm.trans hlast

end Flight

namespace Scheduler

variable {X : Crates} {fetcher : Fetcher} {config : DriverConfig} {s s' : Scheduler}
  {log : List Flight}

/-! ### The loop of a tick -/

theorem mem_idle {running : List Uuid} {order : List DueTarget} {d : DueTarget}
    (h : d ∈ idle running order) : d ∈ order ∧ d.id ∉ running := by
  induction order generalizing running with
  | nil => exact absurd h List.not_mem_nil
  | cons d₀ order ih =>
    rw [idle] at h
    split at h
    · obtain ⟨hd, hnot⟩ := ih h
      exact ⟨List.mem_cons_of_mem _ hd, hnot⟩
    case isFalse hfree =>
      rcases List.mem_cons.1 h with rfl | h
      · exact ⟨List.mem_cons_self .., hfree⟩
      · obtain ⟨hd, hnot⟩ := ih h
        exact ⟨List.mem_cons_of_mem _ hd, fun hmem ↦ hnot (List.mem_cons_of_mem _ hmem)⟩

/-- What the loop of a tick does to the system. -/
theorem sys_foldl_dispatch (now : Int) (order : List DueTarget) :
    (order.foldl (dispatch X fetcher config now) s).sys = { s.sys with
      runs := s.sys.runs ++ (idle s.running order).map fun d ↦
        .start X fetcher d.pageContext (d.driverConfig config) now } := by
  induction order generalizing s with
  | nil =>
    show s.sys = { s.sys with runs := s.sys.runs ++ [] }
    rw [List.append_nil]
  | cons d order ih =>
    rw [List.foldl_cons, ih, dispatch, idle]
    split
    case isTrue => rfl
    case isFalse =>
      dsimp only
      rw [List.map_cons, List.append_assoc]
      rfl

/-! ### The invariant -/

/-- The crawl has been started on schedule, and no crawl of its target has been recorded since. -/
def StartedOnSchedule (log : List Flight) (run : CrawlRun) : Prop :=
  ∃ d : DueTarget, d.id = run.ctx.crawlTargetId ∧ .dispatched d run.now ∈ log ∧
    ∀ last, Flight.lastRecorded log d.id = some last → last + d.recrawlIntervalSecs ≤ run.now

/-- What holds of the scheduler and the log of its run. -/
structure Timing (s : Scheduler) (log : List Flight) : Prop where
  flight : s.SingleFlight
  keys : s.sys.engine.db.ForeignKeys
  onSchedule : Flight.OnSchedule log
  drawn : ∀ t ∈ s.sys.engine.db.crawlTargets, t.id.serial < s.sys.engine.db.nextUuid
  recorded : ∀ id, s.sys.engine.db.nextUuid ≤ id.serial → Flight.lastRecorded log id = none
  runs : ∀ run ∈ s.sys.runs, run.ctx.crawlTargetId.serial < s.sys.engine.db.nextUuid ∧
    StartedOnSchedule log run
  times : ∀ t ∈ s.sys.engine.db.crawlTargets, t.lastCrawledAt = Flight.lastRecorded log t.id

theorem timing_start : (start .empty []).Timing [] where
  flight := ⟨List.nodup_nil, fun _ ↦ Iff.rfl⟩
  keys := Database.foreignKeys_empty
  onSchedule := .nil
  drawn _ ht := absurd ht (Table.not_mem_empty _)
  recorded _ _ := rfl
  runs _ hrun := absurd hrun List.not_mem_nil
  times _ ht := absurd ht (Table.not_mem_empty _)

/-- **The database moves** and keeps the times, and the crawls go on or are gone. -/
theorem Timing.keeps (hI : s.Timing log) (hflight : s'.SingleFlight)
    (hkeys : s'.sys.engine.db.ForeignKeys)
    (hdb : s.sys.engine.db.KeepsTimes s'.sys.engine.db)
    (hruns : ∀ run' ∈ s'.sys.runs, ∃ run ∈ s.sys.runs, run'.ctx = run.ctx ∧ run'.now = run.now) :
    s'.Timing log where
  flight := hflight
  keys := hkeys
  onSchedule := hI.onSchedule
  drawn t' ht' := by
    rcases hdb.time t' ht' with ⟨t, ht, hid, -⟩ | ⟨-, -, hlt⟩
    · exact hid ▸ Nat.lt_of_lt_of_le (hI.drawn t ht) hdb.supply
    · exact hlt
  recorded id hid := hI.recorded id (Nat.le_trans hdb.supply hid)
  runs run' hrun' := by
    obtain ⟨run, hrun, hctx, hnow⟩ := hruns run' hrun'
    obtain ⟨hlt, hstarted⟩ := hI.runs run hrun
    rw [StartedOnSchedule, hctx, hnow]
    exact ⟨Nat.lt_of_lt_of_le hlt hdb.supply, hstarted⟩
  times t' ht' := by
    rcases hdb.time t' ht' with ⟨t, ht, hid, htime⟩ | ⟨hnone, hge, -⟩
    · rw [← htime, ← hid]
      exact hI.times t ht
    · rw [hnone, hI.recorded t'.id hge]

/-- The target of a crawl that is due has been crawled by the log as its row says. -/
theorem Timing.due (hI : s.Timing log) {now : Int} {d : DueTarget}
    (hd : d ∈ s.sys.engine.db.listDueTargets now) :
    d.id.serial < s.sys.engine.db.nextUuid ∧
      ∀ last, Flight.lastRecorded log d.id = some last → last + d.recrawlIntervalSecs ≤ now := by
  obtain ⟨t, ht, ⟨-, hpassed⟩, _, -, rfl⟩ := Database.mem_listDueTargets.1 hd
  refine ⟨hI.drawn t ht, fun last hlast ↦ ?_⟩
  rw [hI.times t ht, hlast] at hpassed
  exact of_decide_eq_true hpassed

/-- **A tick** starts what is due. -/
theorem Timing.tick (hI : s.Timing log) {now : Int} {order : List DueTarget}
    (horder : order.Perm (s.sys.engine.db.listDueTargets now)) :
    (order.foldl (dispatch X fetcher config now) s).Timing
      (log ++ (idle s.running order).map (.dispatched · now)) := by
  have hdue : ∀ d ∈ idle s.running order, d.id.serial < s.sys.engine.db.nextUuid ∧
      ∀ last, Flight.lastRecorded log d.id = some last → last + d.recrawlIntervalSecs ≤ now :=
    fun d hd ↦ hI.due (horder.mem_iff.1 (mem_idle hd).1)
  have hlast : ∀ id, Flight.lastRecorded
      (log ++ (idle s.running order).map (Flight.dispatched · now)) id =
        Flight.lastRecorded log id := fun id ↦ Flight.lastRecorded_dispatched _ now
  have hengine : (order.foldl (dispatch X fetcher config now) s).sys.engine = s.sys.engine := by
    rw [sys_foldl_dispatch]
  refine ⟨hI.flight.foldl_dispatch now order, hengine ▸ hI.keys,
    hI.onSchedule.append fun d hd ↦ (hdue d hd).2, ?_, fun id hid ↦ ?_, fun run hrun ↦ ?_,
    fun t ht ↦ ?_⟩
  · rw [hengine]
    exact hI.drawn
  · rw [hlast]
    rw [hengine] at hid
    exact hI.recorded id hid
  · rw [hengine]
    rw [sys_foldl_dispatch] at hrun
    rcases List.mem_append.1 hrun with hrun | hrun
    · obtain ⟨hlt, d, hid, hmem, hpassed⟩ := hI.runs run hrun
      exact ⟨hlt, d, hid, List.mem_append_left _ hmem, fun last h ↦ hpassed last (hlast _ ▸ h)⟩
    · obtain ⟨d, hd, rfl⟩ := List.mem_map.1 hrun
      exact ⟨(hdue d hd).1, d, rfl, List.mem_append_right _ (List.mem_map_of_mem hd),
        fun last h ↦ (hdue d hd).2 last (hlast _ ▸ h)⟩
  · rw [hengine] at ht
    rw [hlast]
    exact hI.times t ht

/-- The crawl of the target `id` is started on schedule also after one of another target is
recorded. -/
theorem StartedOnSchedule.recorded {run : CrawlRun} (h : StartedOnSchedule log run) {id : Uuid}
    (hid : run.ctx.crawlTargetId ≠ id) (start : Int) :
    StartedOnSchedule (log ++ [.recorded id start]) run := by
  obtain ⟨d, hd, hmem, hdue⟩ := h
  refine ⟨d, hd, List.mem_append_left _ hmem, fun last hlast ↦ hdue last ?_⟩
  rwa [Flight.lastRecorded_recorded, if_neg fun he ↦ hid (hd.symm.trans he.symm)] at hlast

/-- **The end of a crawl** whose time is saved. -/
theorem Timing.saved (hI : s.Timing log) {k : ℕ} {run : CrawlRun} {sys : Sys}
    (hk : s.sys.runs[k]? = some run) (hruns : sys.runs = s.sys.runs.eraseIdx k)
    (hdb : sys.engine.db = s.sys.engine.db.setLastCrawledAt run.ctx.crawlTargetId run.now) :
    (s.release sys run.ctx.crawlTargetId).Timing
      (log ++ [.recorded run.ctx.crawlTargetId run.now]) := by
  have hflight : (s.release sys run.ctx.crawlTargetId).SingleFlight := hI.flight.release hk hruns
  obtain ⟨hlt, hstarted⟩ := hI.runs run (List.mem_of_getElem? hk)
  have hretunes : s.sys.engine.db.Retunes sys.engine.db :=
    hdb ▸ Database.retunes_setLastCrawledAt _ _
  have hsupply : sys.engine.db.nextUuid = s.sys.engine.db.nextUuid := by rw [hdb]; rfl
  refine ⟨hflight, hI.keys.retunes hretunes, ?_, fun t' ht' ↦ ?_, fun id hid ↦ ?_,
    fun run' hrun' ↦ ?_, fun t' ht' ↦ ?_⟩
  · obtain ⟨d, hd, hmem, hdue⟩ := hstarted
    rw [← hd]
    exact .recorded hI.onSchedule hmem hdue
  · obtain ⟨t, ht, hid, -⟩ := hretunes.of_mem t' ht'
    show _ < sys.engine.db.nextUuid
    rw [hsupply, ← hid]
    exact hI.drawn t ht
  · have hge : s.sys.engine.db.nextUuid ≤ id.serial := hsupply ▸ hid
    rw [Flight.lastRecorded_recorded, if_neg fun he ↦ ?_]
    · exact hI.recorded id hge
    · exact absurd (he ▸ hlt) (Nat.not_lt.2 hge)
  · -- no other crawl of the target is live
    have hother : run'.ctx.crawlTargetId ≠ run.ctx.crawlTargetId := fun he ↦ by
      have hlive : run'.ctx.crawlTargetId ∈ (s.release sys run.ctx.crawlTargetId).live :=
        List.mem_map_of_mem hrun'
      have hmem := (hflight.running _).2 hlive
      exact of_decide_eq_true (List.mem_filter.1 hmem).2 he
    have hrun : run' ∈ s.sys.runs := List.mem_of_mem_eraseIdx (hruns ▸ hrun' : run' ∈ _)
    obtain ⟨hlt', hstarted'⟩ := hI.runs run' hrun
    exact ⟨hsupply.symm ▸ hlt', hstarted'.recorded hother _⟩
  · replace ht' : t' ∈ sys.engine.db.crawlTargets := ht'
    rw [hdb] at ht'
    obtain ⟨t, ht, rfl⟩ := List.mem_map.1 ht'
    rw [Flight.lastRecorded_recorded]
    by_cases hid : t.id = run.ctx.crawlTargetId
    · rw [if_pos hid, if_pos hid.symm]
    · rw [if_neg hid, if_neg (Ne.symm hid)]
      exact hI.times t ht

/-- **A crawl returns.** -/
theorem Timing.finish (hI : s.Timing log) {k : ℕ} {saved : Bool}
    (h : s.step X fetcher config (.finish k saved) = some s') :
    s'.Timing (noteFlights log s (.scheduler (.finish k saved))) := by
  obtain ⟨run, hk, h⟩ := Option.bind_eq_some_iff.1 h
  obtain ⟨sys, hsys, rfl⟩ := Option.map_eq_some_iff.1 h
  have hlog : noteFlights log s (.scheduler (.finish k saved)) = log ++ run.record saved := by
    show log ++ (s.sys.runs[k]?).toList.flatMap _ = _
    rw [hk]
    exact congrArg (log ++ ·) (List.append_nil _)
  have hstep : (sysMachine X).step s.sys (.endRun k saved) = some sys := hsys
  have hruns := runs_of_endRun hsys
  rw [hlog]
  cases Sys.move_of_step hstep with
  | @runEnded _ _ run' hk' =>
    obtain rfl := Option.some.inj (hk.symm.trans hk')
    rcases Sys.runTime_cases s.sys run saved with ⟨htime, hrecord⟩ | ⟨htime, hrecord⟩
    · rw [hrecord]
      exact hI.saved hk hruns htime
    · rw [hrecord, List.append_nil]
      refine hI.keeps (hI.flight.release hk hruns) ?_ ?_ fun run' hrun' ↦ ?_
      · show (s.sys.runTime run saved).ForeignKeys
        exact htime ▸ hI.keys
      · show s.sys.engine.db.KeepsTimes (s.sys.runTime run saved)
        exact htime ▸ Database.keepsTimes_refl _
      · exact ⟨run', List.mem_of_mem_eraseIdx hrun', rfl, rfl⟩

/-- **The rest of the system moves**, or the process is killed. -/
theorem step_sys {l : SysLabel} (h : s.step X fetcher config (.sys l) = some s') :
    s'.sys.runs = [] ∧ s'.sys.engine.db = s.sys.engine.db ∨
      ∃ sys, (sysMachine X).step s.sys l = some sys ∧ s' = { s with sys := sys } ∧
        (∀ d fetcher config now, l ≠ .startRun d fetcher config now) ∧
        ∀ k saved, l ≠ .endRun k saved := by
  cases l with
  | startRun => cases h
  | endRun => cases h
  | crash =>
    obtain rfl := Option.some.inj h
    exact Or.inl ⟨rfl, rfl⟩
  | _ =>
    obtain ⟨sys, hsys, rfl⟩ := Option.map_eq_some_iff.1 h
    exact Or.inr ⟨sys, hsys, rfl, nofun, nofun⟩

theorem Timing.sys (hI : s.Timing log) {l : SysLabel}
    (h : s.step X fetcher config (.sys l) = some s') : s'.Timing log := by
  have hflight : s'.SingleFlight := hI.flight.step (l := .sys l) h
  rcases step_sys h with ⟨hruns, hdb⟩ | ⟨sys, hsys, rfl, hstart, hend⟩
  · refine hI.keeps hflight (hdb ▸ hI.keys) (hdb ▸ Database.keepsTimes_refl _) fun _ hrun ↦ ?_
    rw [hruns] at hrun
    exact absurd hrun List.not_mem_nil
  · refine hI.keeps hflight (Sys.foreignKeys_of_step hI.keys hsys)
      (Sys.keepsTimes_of_sysStep hend hsys) fun run' hrun' ↦ ?_
    cases Sys.mem_runs_of_step hsys hrun' with
    | kept hrun => exact ⟨run', hrun, rfl, rfl⟩
    | started => exact absurd rfl (hstart _ _ _ _)
    | moved hrun hr =>
      obtain ⟨hctx, -, -, hnow⟩ := CrawlRun.const_of_step hr
      exact ⟨_, hrun, hctx, hnow⟩

/-- **A request** that reviews a host or adds a target. -/
theorem Timing.request (hI : s.Timing log) {l : TargetLabel}
    (h : s.serve X fetcher config (.request l) = some s') : s'.Timing log := by
  have hl : ∀ l₀, l ≠ .other l₀ := by
    rintro l₀ rfl
    cases h
  obtain ⟨sys, hsys, rfl⟩ :
      ∃ sys, s.sys.targetStep X l = some sys ∧ { s with sys := sys } = s' := by
    cases l with
    | other l₀ => exact absurd rfl (hl l₀)
    | _ => exact Option.map_eq_some_iff.1 h
  have hstep : (targetMachine X).step s.sys l = some sys := hsys
  have hruns : sys.runs = s.sys.runs := Sys.runs_of_request hl hstep
  refine hI.keeps ?_ (Sys.foreignKeys_of_targetStep hI.keys hstep) (Sys.keepsTimes_of_step hl hstep)
    fun run hrun ↦ ⟨run, hruns ▸ hrun, rfl, rfl⟩
  have hlive : Scheduler.live { s with sys := sys } = s.live := by rw [live, live, hruns]
  exact ⟨hlive ▸ hI.flight.once, fun id ↦ hlive ▸ hI.flight.running id⟩

/-- **One step** of the installation. -/
theorem Timing.step (hI : s.Timing log) {l : InstallationLabel}
    (h : (installationMachine X fetcher config).step s l = some s') :
    s'.Timing (noteFlights log s l) := by
  replace h : s.serve X fetcher config l = some s' := h
  cases l with
  | request l => exact hI.request h
  | scheduler l =>
    cases l with
    | sys l =>
      have hs : s.step X fetcher config (.sys l) = some s' := h
      exact hI.sys hs
    | finish k saved =>
      have hs : s.step X fetcher config (.finish k saved) = some s' := h
      exact hI.finish hs
    | setPaused paused =>
      obtain rfl := Option.some.inj h
      exact hI.keeps ⟨hI.flight.once, hI.flight.running⟩ hI.keys (Database.keepsTimes_refl _)
        fun run hrun ↦ ⟨run, hrun, rfl, rfl⟩
    | panic k =>
      obtain ⟨run, hk, rfl⟩ := Option.map_eq_some_iff.1 h
      exact hI.keeps (hI.flight.release hk rfl) hI.keys (Database.keepsTimes_refl _)
        fun run' hrun' ↦ ⟨run', List.mem_of_mem_eraseIdx hrun', rfl, rfl⟩
    | tick now event =>
      replace h : (if s.paused then some s
        else s.tickOnce X fetcher config now event) = some s' := h
      cases event with
      | overCapacity | fails =>
        have hsame : s' = s := by
          split at h <;> exact (Option.some.inj h).symm
        exact hsame ▸ hI
      | due order =>
        show s'.Timing (if s.paused then log else _)
        split at h
        · rw [if_pos ‹_›]
          exact Option.some.inj h ▸ hI
        · rw [if_neg ‹_›]
          obtain ⟨horder, h⟩ := Option.ite_none_right_eq_some.1 h
          exact Option.some.inj h ▸ hI.tick horder

/-! ### Every run -/

/-- **A tick** of a scheduler with the invariant goes by the log. -/
theorem Timing.keepsSchedule (hI : s.Timing log) : s.KeepsSchedule X fetcher config log where
  onSchedule := hI.onSchedule
  tick now order s' hpaused h id := by
    replace h : (if s.paused then some s
      else s.tickOnce X fetcher config now (.due order)) = some s' := h
    rw [hpaused, if_neg Bool.false_ne_true] at h
    obtain ⟨horder, h⟩ := Option.ite_none_right_eq_some.1 h
    obtain rfl := Option.some.inj h
    rw [← (hI.flight.foldl_dispatch now order).running, mem_running_foldl_dispatch,
      hI.flight.running, and_comm]
    refine and_congr_right fun hfree ↦ ?_
    rw [or_iff_left hfree]
    constructor
    · rintro ⟨d, hd, rfl⟩
      obtain ⟨t, ht, ⟨henabled, -⟩, _, -, rfl⟩ :=
        Database.mem_listDueTargets.1 (horder.mem_iff.1 hd)
      exact ⟨t, ht, rfl, henabled, (hI.due (horder.mem_iff.1 hd)).2⟩
    · rintro ⟨t, ht, rfl, henabled, hpassed⟩
      have hdue : (t.lastCrawledAt.all fun last ↦ last + t.recrawlIntervalS ≤ now) = true := by
        rw [hI.times t ht, Option.all_eq_true]
        exact fun last hlast ↦ decide_eq_true (hpassed last hlast)
      obtain ⟨d, hd, hid⟩ := (Database.exists_mem_listDueTargets_iff ht
        (hI.keys.target_collection t ht)).2 ⟨henabled, hdue⟩
      exact ⟨d, horder.mem_iff.2 hd, hid.symm⟩

/-- **The recrawl schedule**, in every run of a fresh installation: crawls are started and recorded
on schedule, and each tick that gets to its loop starts a crawl of exactly the targets that have
none and are due by the log. -/
theorem schedule_of_run {labels : List InstallationLabel}
    (hrun : (installationMachine X fetcher config).run (.start .empty []) labels = some s) :
    s.KeepsSchedule X fetcher config (flights X fetcher config labels) :=
  (Machine.observed_invariant (I := fun s log ↦ Timing s log) (fun _ _ _ _ hI _ h ↦ hI.step h)
    timing_start (Machine.guarded_true _ _) hrun).keepsSchedule

/-- The crawl of the page, to its end. -/
def crawled : List SysLabel :=
  OnePage.fetch 0 false OnePage.page ++ OnePage.send 0 ++ OnePage.write 0 ++
    [.crawl 0 .next, .crawl 0 .next]

/-- The page is crawled. The tick a second before its interval has passed finds it not due; the
next one starts it again. -/
def recrawled : List SchedulerLabel :=
  OnePage.install.map .sys ++ [.tick 1000 (.due [OnePage.due])] ++ crawled.map .sys ++
    [.finish 0 true, .tick 4599 (.due []), .tick 4600 (.due [OnePage.due])]

theorem schedule_recrawled :
    ∃ s, (installationMachine OnePage.crates ⟨"search-bot"⟩ ⟨1000, 1000⟩).run (.start .empty [])
      (recrawled.map .scheduler) = some s ∧
    flights OnePage.crates ⟨"search-bot"⟩ ⟨1000, 1000⟩ (recrawled.map .scheduler) =
      [.dispatched OnePage.due 1000, .recorded OnePage.due.id 1000,
        .dispatched OnePage.due 4600] ∧
    s.KeepsSchedule OnePage.crates ⟨"search-bot"⟩ ⟨1000, 1000⟩
      (flights OnePage.crates ⟨"search-bot"⟩ ⟨1000, 1000⟩ (recrawled.map .scheduler)) := by
  have hany : ((installationMachine OnePage.crates ⟨"search-bot"⟩ ⟨1000, 1000⟩).run
      (.start .empty []) (recrawled.map .scheduler)).any
      (fun s ↦ s.live = [OnePage.due.id]) = true := by decide +kernel
  obtain ⟨s, hrun, -⟩ := Machine.exists_run_of_any hany
  exact ⟨s, hrun, by decide +kernel, schedule_of_run hrun⟩

end Scheduler

end CommunitySearch
