import CommunitySearch.Foundation.Json
import CommunitySearch.System.JobConservation

/-!
# Pausing the crawler

The scheduler has a switch that only its ticker reads, once, at the start of a tick: a tick that
found the switch off goes on to dispatch the targets that are due, and the crawls that are running
go on to their end. The status of the system reports the switch and the counter of jobs in flight;
an administrator waits for "paused" and zero before taking an export, and the admin page offers the
export under the same condition.
-/

namespace CommunitySearch

/-- `i64::MAX`. -/
def I64_MAX : Nat := 9223372036854775807

/-- The system with the switch of its scheduler. -/
structure PausableSys where
  sys : Sys
  /-- `crawl_paused`. -/
  crawlPaused : Bool
  /-- A tick that has read the switch and found it off is dispatching. -/
  dispatching : Bool

/-- The steps of the system, of its ticker, and of the admin requests about both. -/
inductive PauseLabel where
  | sys (l : SysLabel)
  /-- POST to the crawl endpoint. -/
  | setPaused (paused : Bool)
  /-- A tick begins. -/
  | tick
  /-- The tick has dispatched the targets it found due. -/
  | endTick
  /-- GET of the status. -/
  | status

structure StatusResponse where
  indexSizeBytes : Nat
  maxIndexBytes : Nat
  crawlTargetsTotal : Nat
  crawlsActive : Nat
  crawlsQueued : Nat
  peers : List Json
  crawlPaused : Bool
  indexingPendingCount : Int

namespace PausableSys

/-- A fresh installation. -/
def init : PausableSys := ⟨.init, false, false⟩

/-- `get_status`; `size` is the size of the index on disk, if it can be read. The numbers of crawls
and the peers are placeholders. -/
def getStatus (size : Option Nat) (maxIndexBytes : Nat) (s : PausableSys) : StatusResponse where
  indexSizeBytes := min (size.getD 0) I64_MAX
  maxIndexBytes := min maxIndexBytes I64_MAX
  crawlTargetsTotal := s.sys.engine.db.crawlTargets.rows.length
  crawlsActive := 0
  crawlsQueued := 0
  peers := []
  crawlPaused := s.crawlPaused
  indexingPendingCount := max s.sys.engine.inflight 0

/-- `handle_pause`. -/
def handlePause (s : PausableSys) (paused : Bool) : PausableSys :=
  { s with crawlPaused := paused }

/-- One step. A process that starts again is not paused. -/
def step (X : Crates) (s : PausableSys) : PauseLabel → Option PausableSys
  | .sys (.startRun d fetcher config now) =>
    if s.dispatching then
      (s.sys.step X (.startRun d fetcher config now)).map fun sys ↦ { s with sys := sys }
    else none
  | .sys .crash => (s.sys.step X .crash).map fun sys ↦ ⟨sys, false, false⟩
  | .sys l => (s.sys.step X l).map fun sys ↦ { s with sys := sys }
  | .setPaused paused => some (s.handlePause paused)
  | .tick => if s.dispatching then none else some { s with dispatching := !s.crawlPaused }
  | .endTick => some { s with dispatching := false }
  | .status => some s

end PausableSys

/-- The system with its switch as a machine. -/
def pausableMachine (X : Crates) : Machine PausableSys PauseLabel where
  step := PausableSys.step X

namespace PausableSys

variable {X : Crates} {s s' : PausableSys}

/-- The status reports that the crawler is paused and nothing is pending. -/
def ReportsQuiet (s : PausableSys) : Prop :=
  s.crawlPaused = true ∧ s.sys.engine.inflight ≤ 0

theorem reportsQuiet_iff (size : Option Nat) (maxIndexBytes : Nat) :
    s.ReportsQuiet ↔ (s.getStatus size maxIndexBytes).crawlPaused = true ∧
      (s.getStatus size maxIndexBytes).indexingPendingCount = 0 := by
  refine and_congr_right fun _ ↦ ?_
  show s.sys.engine.inflight ≤ 0 ↔ max s.sys.engine.inflight 0 = 0
  omega

instance (s : PausableSys) : Decidable s.ReportsQuiet :=
  inferInstanceAs (Decidable (_ ∧ _))

/-- A step of the system inside. -/
theorem sys_of_step {l : SysLabel} (h : (pausableMachine X).step s (.sys l) = some s') :
    (sysMachine X).step s.sys l = some s'.sys ∧
      (s'.crawlPaused = s.crawlPaused ∧ s'.dispatching = s.dispatching ∨ l = .crash) ∧
      ∀ d fetcher config now, l = .startRun d fetcher config now → s.dispatching = true := by
  replace h : s.step X (.sys l) = some s' := h
  cases l with
  | startRun d fetcher config now =>
    obtain ⟨hdispatching, h⟩ := Option.ite_none_right_eq_some.1 h
    obtain ⟨sys, hsys, rfl⟩ := Option.map_eq_some_iff.1 h
    exact ⟨hsys, Or.inl ⟨rfl, rfl⟩, fun _ _ _ _ _ ↦ hdispatching⟩
  | crash =>
    rw [step] at h
    obtain ⟨sys, hsys, rfl⟩ := Option.map_eq_some_iff.1 h
    exact ⟨hsys, Or.inr rfl, fun _ _ _ _ hl ↦ by cases hl⟩
  | _ =>
    obtain ⟨sys, hsys, rfl⟩ := Option.map_eq_some_iff.1 h
    exact ⟨hsys, Or.inl ⟨rfl, rfl⟩, fun _ _ _ _ hl ↦ by cases hl⟩

end PausableSys

end CommunitySearch
