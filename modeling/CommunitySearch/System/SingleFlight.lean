import CommunitySearch.Foundation.Machine
import CommunitySearch.System
import Mathlib.Data.List.InsertIdx
import Mathlib.Data.List.Nodup

/-!
# The scheduler

The ticker starts a crawl for every target that is due and not `running`; the task of a crawl takes
its target out of `running` when the crawl returns, fails or panics. All tasks are on one thread
and a tick has no suspension point, so a tick is one step.

The system of `System` asks at the start of a crawl that no other crawl of the target is live.
`sys_of_step` says that this is what the set is for: a step of the scheduler is a run of the system.
-/

namespace CommunitySearch

/-- The system with its scheduler. -/
structure Scheduler where
  sys : Sys
  /-- The targets in flight, a hash set. -/
  running : List Uuid
  paused : Bool

/-- What a tick meets with. -/
inductive TickEvent where
  /-- The index is too large. -/
  | overCapacity
  /-- The targets cannot be listed: an SQL error, or a panic. -/
  | fails
  /-- The targets that are due, in any order. -/
  | due (order : List DueTarget)

/-- What can happen. -/
inductive SchedulerLabel where
  /-- The rest of the system moves: crawls, requests, the indexer, a crash. -/
  | sys (l : SysLabel)
  /-- Pause or resume. -/
  | setPaused (paused : Bool)
  | tick (now : Int) (event : TickEvent)
  /-- The `k`-th crawl returns; `saved` says that SQLite accepts the time of it. -/
  | finish (k : ℕ) (saved : Bool)
  /-- The `k`-th crawl panics. -/
  | panic (k : ℕ)

namespace Scheduler

variable (X : Crates) (fetcher : Fetcher) (config : DriverConfig)

/-- The process just started. -/
def start (db : Database) (index : List Document) : Scheduler :=
  ⟨⟨.start db index, [], [], []⟩, [], false⟩

/-- One round of the loop over the due targets. -/
def dispatch (now : Int) (s : Scheduler) (d : DueTarget) : Scheduler :=
  if d.id ∈ s.running then s
  else
    { s with
      sys := { s.sys with
        runs := s.sys.runs ++ [.start X fetcher d.pageContext (d.driverConfig config) now] }
      running := d.id :: s.running }

/-- `tick_once`. -/
def tickOnce (s : Scheduler) (now : Int) : TickEvent → Option Scheduler
  | .overCapacity => some s
  | .fails => some s
  | .due order =>
    if order.Perm (s.sys.engine.db.listDueTargets now) then
      some (order.foldl (dispatch X fetcher config now) s)
    else none

/-- The task of a crawl of `id` is over. -/
def release (s : Scheduler) (sys : Sys) (id : Uuid) : Scheduler :=
  ⟨sys, s.running.filter (· ≠ id), s.paused⟩

/-- One step. -/
def step (s : Scheduler) : SchedulerLabel → Option Scheduler
  | .sys (.startRun ..) => none
  | .sys (.endRun ..) => none
  | .sys .crash => (s.sys.step X .crash).map fun sys ↦ ⟨sys, [], false⟩
  | .sys l => (s.sys.step X l).map fun sys ↦ { s with sys := sys }
  | .setPaused paused => some { s with paused := paused }
  | .tick now event => if s.paused then some s else s.tickOnce X fetcher config now event
  | .finish k saved =>
    (s.sys.runs[k]?).bind fun run ↦
      (s.sys.step X (.endRun k saved)).map fun sys ↦ s.release sys run.ctx.crawlTargetId
  | .panic k =>
    (s.sys.runs[k]?).map fun run ↦
      s.release { s.sys with runs := s.sys.runs.eraseIdx k } run.ctx.crawlTargetId

end Scheduler

/-- The scheduler as a machine. -/
def schedulerMachine (X : Crates) (fetcher : Fetcher) (config : DriverConfig) :
    Machine Scheduler SchedulerLabel where
  step := Scheduler.step X fetcher config

namespace Scheduler

/-- The targets of the live crawls. -/
def live (s : Scheduler) : List Uuid := s.sys.runs.map fun run ↦ run.ctx.crawlTargetId

/-- At most one crawl of a target is live, and `running` is what is live. -/
structure SingleFlight (s : Scheduler) : Prop where
  once : s.live.Nodup
  running : ∀ id, id ∈ s.running ↔ id ∈ s.live

variable {X : Crates} {fetcher : Fetcher} {config : DriverConfig} {s s' : Scheduler}

/-! ### The steps of the system -/

theorem live_of_change {sys : Sys} {l : SysLabel} (h : Sys.Change X s.sys l sys)
    (hstart : ∀ d fetcher config now, l ≠ .startRun d fetcher config now)
    (hend : ∀ k saved, l ≠ .endRun k saved) (hcrash : l ≠ .crash) :
    (sys.runs.map fun run ↦ run.ctx.crawlTargetId) = s.live := by
  cases h with
  | runStarted => exact absurd rfl (hstart _ _ _ _)
  | runEnded => exact absurd rfl (hend _ _)
  | crashed => exact absurd rfl hcrash
  | @crawled k l run run' e hk h =>
    obtain ⟨hlt, rfl⟩ := List.getElem?_eq_some_iff.1 hk
    have hk' : k < s.live.length := by rwa [live, List.length_map]
    have hid : s.sys.runs[k].ctx.crawlTargetId = s.live[k] := by simp only [live, List.getElem_map]
    show (s.sys.runs.set k run').map _ = s.sys.runs.map _
    rw [List.map_set, (CrawlRun.const_of_step h).1, hid]
    exact List.set_getElem_self hk'
  | _ => rfl

/-! ### The tick -/

theorem live_dispatch {now : Int} {d : DueTarget} :
    (s.dispatch X fetcher config now d).live =
      if d.id ∈ s.running then s.live else s.live ++ [d.id] := by
  rw [dispatch]
  split
  · rfl
  · show (s.sys.runs ++ [_]).map _ = s.sys.runs.map _ ++ [d.id]
    rw [List.map_append]
    rfl

theorem mem_running_dispatch {now : Int} {d : DueTarget} {id : Uuid} :
    id ∈ (s.dispatch X fetcher config now d).running ↔ id = d.id ∨ id ∈ s.running := by
  rw [dispatch]
  split
  case isTrue h => exact ⟨Or.inr, fun hid ↦ hid.elim (fun he ↦ he ▸ h) fun hid ↦ hid⟩
  case isFalse => exact List.mem_cons

/-- **A round of the tick** starts a crawl for a target that has none. -/
theorem SingleFlight.dispatch (hs : s.SingleFlight) (now : Int) (d : DueTarget) :
    (s.dispatch X fetcher config now d).SingleFlight := by
  refine ⟨?_, fun id ↦ ?_⟩
  · rw [live_dispatch]
    split
    · exact hs.once
    case isFalse hid =>
      refine List.nodup_append.2 ⟨hs.once, List.nodup_singleton _, fun a ha b hb ↦ ?_⟩
      rintro rfl
      obtain rfl := List.mem_singleton.1 hb
      exact hid ((hs.running _).2 ha)
  · rw [mem_running_dispatch, hs.running, live_dispatch]
    split
    case isTrue h =>
      rw [hs.running] at h
      exact ⟨fun hid ↦ hid.elim (fun he ↦ he ▸ h) fun hid ↦ hid, Or.inr⟩
    case isFalse => rw [List.mem_append, List.mem_singleton, or_comm]

theorem SingleFlight.foldl_dispatch (hs : s.SingleFlight) (now : Int) (order : List DueTarget) :
    (order.foldl (Scheduler.dispatch X fetcher config now) s).SingleFlight := by
  induction order generalizing s with
  | nil => exact hs
  | cons d order ih => exact ih (hs.dispatch now d)

/-- **A tick** leaves a crawl of each target it has found due. -/
theorem mem_running_foldl_dispatch {now : Int} {order : List DueTarget} {id : Uuid} :
    id ∈ (order.foldl (Scheduler.dispatch X fetcher config now) s).running ↔
      (∃ d ∈ order, id = d.id) ∨ id ∈ s.running := by
  induction order generalizing s with
  | nil => simp
  | cons d order ih =>
    rw [List.foldl_cons, ih, mem_running_dispatch]
    simp only [List.mem_cons, exists_eq_or_imp]
    rw [or_assoc]
    exact or_left_comm

variable (X fetcher config) in
/-- A round of the tick is a step of the system, or changes nothing. -/
theorem run_dispatch (hs : s.SingleFlight) {now : Int} {d : DueTarget}
    (hd : d ∈ s.sys.engine.db.listDueTargets now) :
    ∃ ls, (sysMachine X).run s.sys ls = some (s.dispatch X fetcher config now d).sys := by
  rw [dispatch]
  split
  case isTrue => exact ⟨[], rfl⟩
  case isFalse hid =>
    refine ⟨[.startRun d fetcher config now], Machine.run_cons_eq_some _ |>.2 ⟨_, ?_, rfl⟩⟩
    refine if_pos ⟨hd, fun run hrun hsame ↦ hid ((hs.running _).2 ?_)⟩
    exact List.mem_map.2 ⟨run, hrun, hsame⟩

theorem engine_dispatch {now : Int} {d : DueTarget} :
    (s.dispatch X fetcher config now d).sys.engine = s.sys.engine := by
  rw [dispatch]
  split <;> rfl

theorem run_foldl_dispatch (hs : s.SingleFlight) {now : Int} {order : List DueTarget}
    (horder : ∀ d ∈ order, d ∈ s.sys.engine.db.listDueTargets now) :
    ∃ ls, (sysMachine X).run s.sys ls =
      some (order.foldl (Scheduler.dispatch X fetcher config now) s).sys := by
  induction order generalizing s with
  | nil => exact ⟨[], rfl⟩
  | cons d order ih =>
    obtain ⟨hd, horder⟩ := List.forall_mem_cons.1 horder
    obtain ⟨ls, hls⟩ := run_dispatch X fetcher config hs hd
    have hengine : (s.dispatch X fetcher config now d).sys.engine = s.sys.engine := engine_dispatch
    have hrest := ih (s := s.dispatch X fetcher config now d) (hs.dispatch now d)
    rw [hengine] at hrest
    obtain ⟨ls', hls'⟩ := hrest horder
    refine ⟨ls ++ ls', ?_⟩
    rw [Machine.run_append, hls, Option.bind_some]
    exact hls'

/-! ### The end of a crawl -/

/-- **The task of a crawl is over**, however it ends. -/
theorem SingleFlight.release (hs : s.SingleFlight) {k : ℕ} {run : CrawlRun}
    (hk : s.sys.runs[k]? = some run) {sys : Sys} (hruns : sys.runs = s.sys.runs.eraseIdx k) :
    (s.release sys run.ctx.crawlTargetId).SingleFlight := by
  obtain ⟨hlt, rfl⟩ := List.getElem?_eq_some_iff.1 hk
  have hlive : (s.release sys s.sys.runs[k].ctx.crawlTargetId).live = s.live.eraseIdx k := by
    show sys.runs.map _ = (s.sys.runs.map _).eraseIdx k
    rw [hruns, List.eraseIdx_map]
  have hk' : k < s.live.length := by rwa [live, List.length_map]
  have hid : s.sys.runs[k].ctx.crawlTargetId = s.live[k] := by simp only [live, List.getElem_map]
  refine ⟨?_, fun id ↦ ?_⟩
  · rw [hlive]
    exact hs.once.eraseIdx k
  · rw [hlive, hid]
    show id ∈ s.running.filter _ ↔ _
    rw [List.mem_filter, hs.running, decide_eq_true_iff, ← hs.once.erase_getElem k hk',
      hs.once.mem_erase_iff, and_comm]

theorem runs_of_endRun {k : ℕ} {saved : Bool} {sys : Sys}
    (h : s.sys.step X (.endRun k saved) = some sys) :
    sys.runs = s.sys.runs.eraseIdx k := by
  have hstep : (sysMachine X).step s.sys (.endRun k saved) = some sys := h
  cases Sys.move_of_step hstep with
  | runEnded => rfl

/-- A step of the rest of the system, or a crash. -/
theorem step_sys_cases {l : SysLabel}
    (h : (schedulerMachine X fetcher config).step s (.sys l) = some s') :
    s'.sys.runs = [] ∧ s'.running = [] ∨
      ∃ sys, Sys.Change X s.sys l sys ∧ s' = { s with sys := sys } ∧
        (∀ d fetcher config now, l ≠ .startRun d fetcher config now) ∧
        (∀ k saved, l ≠ .endRun k saved) ∧ l ≠ .crash := by
  cases l with
  | startRun => cases h
  | endRun => cases h
  | crash =>
    obtain rfl := Option.some.inj h
    exact Or.inl ⟨rfl, rfl⟩
  | _ =>
    obtain ⟨sys, hsys, rfl⟩ := Option.map_eq_some_iff.1 h
    exact Or.inr ⟨sys, Sys.change_of_step hsys, rfl, nofun, nofun, nofun⟩

/-- **A step** keeps the flights single. -/
theorem SingleFlight.step {l : SchedulerLabel} (hs : s.SingleFlight)
    (h : (schedulerMachine X fetcher config).step s l = some s') : s'.SingleFlight := by
  cases l with
  | sys l =>
    obtain ⟨hruns, hrunning⟩ | ⟨sys, hchange, rfl, hstart, hend, hcrash⟩ := step_sys_cases h
    · refine ⟨?_, fun id ↦ ?_⟩
      · rw [live, hruns]
        exact List.nodup_nil
      · rw [live, hruns, hrunning]
        exact Iff.rfl
    · have hlive : Scheduler.live { s with sys := sys } = s.live :=
        live_of_change hchange hstart hend hcrash
      exact ⟨hlive ▸ hs.once, fun id ↦ hlive ▸ hs.running id⟩
  | setPaused paused =>
    obtain rfl := Option.some.inj h
    exact ⟨hs.once, hs.running⟩
  | tick now event =>
    replace h : (if s.paused then some s
      else s.tickOnce X fetcher config now event) = some s' := h
    split at h
    · exact Option.some.inj h ▸ hs
    cases event with
    | overCapacity => exact Option.some.inj h ▸ hs
    | fails => exact Option.some.inj h ▸ hs
    | due order =>
      obtain ⟨-, h⟩ := Option.ite_none_right_eq_some.1 h
      obtain rfl := Option.some.inj h
      exact hs.foldl_dispatch now order
  | finish k saved =>
    obtain ⟨run, hk, h⟩ := Option.bind_eq_some_iff.1 h
    obtain ⟨sys, hsys, rfl⟩ := Option.map_eq_some_iff.1 h
    exact hs.release hk (runs_of_endRun hsys)
  | panic k =>
    obtain ⟨run, hk, rfl⟩ := Option.map_eq_some_iff.1 h
    exact hs.release hk rfl

/-- **The scheduler runs the system**: every step is a run of it, but for a crawl that panics. -/
theorem sys_of_step {l : SchedulerLabel} (hs : s.SingleFlight) (hl : ∀ k, l ≠ .panic k)
    (h : (schedulerMachine X fetcher config).step s l = some s') :
    ∃ ls, (sysMachine X).run s.sys ls = some s'.sys := by
  have hone : ∀ {l sys}, s.sys.step X l = some sys → ∃ ls, (sysMachine X).run s.sys ls = some sys :=
    fun {l sys} hstep ↦ ⟨[l], Machine.run_cons_eq_some _ |>.2 ⟨sys, hstep, rfl⟩⟩
  cases l with
  | sys l =>
    cases l with
    | startRun => cases h
    | endRun => cases h
    | crash =>
      obtain rfl := Option.some.inj h
      exact hone (l := .crash) rfl
    | _ =>
      obtain ⟨sys, hsys, rfl⟩ := Option.map_eq_some_iff.1 h
      exact hone hsys
  | setPaused paused =>
    obtain rfl := Option.some.inj h
    exact ⟨[], rfl⟩
  | tick now event =>
    replace h : (if s.paused then some s
      else s.tickOnce X fetcher config now event) = some s' := h
    split at h
    · exact ⟨[], congrArg _ (congrArg _ (Option.some.inj h))⟩
    cases event with
    | overCapacity => exact ⟨[], congrArg _ (congrArg _ (Option.some.inj h))⟩
    | fails => exact ⟨[], congrArg _ (congrArg _ (Option.some.inj h))⟩
    | due order =>
      obtain ⟨horder, h⟩ := Option.ite_none_right_eq_some.1 h
      obtain rfl := Option.some.inj h
      exact run_foldl_dispatch hs fun d hd ↦ horder.mem_iff.1 hd
  | finish k saved =>
    obtain ⟨run, -, h⟩ := Option.bind_eq_some_iff.1 h
    obtain ⟨sys, hsys, rfl⟩ := Option.map_eq_some_iff.1 h
    exact hone hsys
  | panic k => exact absurd rfl (hl k)

/-! ### Every run -/

/-- The ticker takes the target for one that has no crawl. -/
def Eligible (s : Scheduler) (id : Uuid) : Prop := id ∉ s.running

/-- The crawl `k` ends with the step. -/
def Ends (k : ℕ) : SchedulerLabel → Prop
  | .finish k' _ => k' = k
  | .panic k' => k' = k
  | _ => False

theorem eligible_of_ends {l : SchedulerLabel} {k : ℕ} {run : CrawlRun}
    (hk : s.sys.runs[k]? = some run) (hl : Ends k l)
    (h : (schedulerMachine X fetcher config).step s l = some s') :
    s'.Eligible run.ctx.crawlTargetId := by
  have hrelease : ∀ sys, (s.release sys run.ctx.crawlTargetId).Eligible run.ctx.crawlTargetId :=
    fun sys hmem ↦ of_decide_eq_true (List.mem_filter.1 hmem).2 rfl
  cases l with
  | finish k' saved =>
    obtain rfl : k' = k := hl
    obtain ⟨run', hk', h⟩ := Option.bind_eq_some_iff.1 h
    obtain rfl := Option.some.inj (hk.symm.trans hk')
    obtain ⟨sys, -, rfl⟩ := Option.map_eq_some_iff.1 h
    exact hrelease sys
  | panic k' =>
    obtain rfl : k' = k := hl
    obtain ⟨run', hk', rfl⟩ := Option.map_eq_some_iff.1 h
    obtain rfl := Option.some.inj (hk.symm.trans hk')
    exact hrelease _
  | _ => exact hl.elim

/-- **Single flight**, in every run from any database and index: at most one crawl of a target is
live, and `running` is what is live; a crawl that ends in any way makes its target eligible; and a
tick that gets to its loop leaves a crawl of every target that is due. -/
theorem singleFlight (db : Database) (index : List Document)
    (h : (schedulerMachine X fetcher config).Reachable (start db index) s) :
    s.SingleFlight ∧
      (∀ l s' k run, s.sys.runs[k]? = some run → Ends k l →
        (schedulerMachine X fetcher config).step s l = some s' →
        s'.Eligible run.ctx.crawlTargetId) ∧
      ∀ now order s', s.paused = false →
        (schedulerMachine X fetcher config).step s (.tick now (.due order)) = some s' →
        ∀ d ∈ s.sys.engine.db.listDueTargets now, d.id ∈ s'.live := by
  have hs : s.SingleFlight := Machine.invariant (fun _ _ _ hs h ↦ hs.step h)
    (show (start db index).SingleFlight from ⟨List.nodup_nil, fun _ ↦ Iff.rfl⟩) h
  refine ⟨hs, fun l s' k run hk hl hstep ↦ eligible_of_ends hk hl hstep, ?_⟩
  intro now order s' hpaused hstep d hd
  refine ((hs.step hstep).running _).1 ?_
  replace hstep : (if s.paused then some s
    else s.tickOnce X fetcher config now (.due order)) = some s' := hstep
  rw [hpaused, if_neg Bool.false_ne_true] at hstep
  obtain ⟨horder, hstep⟩ := Option.ite_none_right_eq_some.1 hstep
  obtain rfl := Option.some.inj hstep
  exact mem_running_foldl_dispatch.2 (Or.inl ⟨d, horder.mem_iff.2 hd, rfl⟩)

/-- The crawl of the page panics, and the next tick starts it again. -/
def panicked : List SchedulerLabel :=
  OnePage.install.map .sys ++
    [.tick 1000 (.due [OnePage.due]), .panic 0, .tick 1060 (.due [OnePage.due])]

theorem singleFlight_panicked :
    ∃ s, (schedulerMachine OnePage.crates ⟨"search-bot"⟩ ⟨1000, 1000⟩).run (start .empty [])
      panicked = some s ∧ s.SingleFlight ∧ s.live = [OnePage.due.id] := by
  have hany : ((schedulerMachine OnePage.crates ⟨"search-bot"⟩ ⟨1000, 1000⟩).run (start .empty [])
      panicked).any (fun s ↦ s.live = [OnePage.due.id]) = true := by decide +kernel
  obtain ⟨s, hs, hlive⟩ := Machine.exists_run_of_any hany
  exact ⟨s, hs, (singleFlight .empty [] ⟨panicked, hs⟩).1, of_decide_eq_true hlive⟩

end Scheduler

end CommunitySearch
