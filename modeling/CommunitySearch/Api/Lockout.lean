import CommunitySearch.Api.Auth
import CommunitySearch.Foundation.Machine

/-!
# The lockout under concurrency

The middleware of the admin routes takes the lock of the database twice: once to look the attempts
of a client up and once to record the outcome. In between it validates the token without the lock,
and the server's threads run other requests. Here every request is a task of its own that takes
these three steps one at a time, and `LockoutState.machine` runs any number of tasks in any order;
the clock moves on in between. Both statements on the database may fail, and then the middleware
goes on: with no attempts in the first case, without a record in the second.

The log of the state is for the statements only. It says for each client which tokens were
evaluated, when a lockout was imposed and when the attempts were cleared.

What the lockout promises (`LockoutHolds`) is about counters, and the proof is too: a `Tally` is
what one client's requests, records and evaluations add up to, and `Tally.Bounded` is the invariant.
It needs room at the check (`LeavesRoom`): nothing in the middleware reserves a place for a request
that has passed the check and has not recorded its failure yet.
-/

namespace CommunitySearch

deriving instance DecidableEq for Request

/-- A request on an admin route, with the time the middleware read when it came in. -/
structure Attempt where
  now : Int
  req : Request
deriving DecidableEq

namespace Attempt

variable (adminToken : String) (a : Attempt)

/-- The client of a request. -/
def ip : String := clientIp a.req

/-- The outcome of the validation. -/
def authorized : Bool := isAuthorized adminToken a.req.headers

/-- The request presents a token, and not the stored one. -/
def wrong : Bool := (presentedToken a.req.headers).isSome && !a.authorized adminToken

/-- A request of `ip` that fails the validation. -/
def failing (ip : String) : Bool := decide (a.ip = ip) && !a.authorized adminToken

/-- A request of `ip` that presents a wrong token. -/
def guessing (ip : String) : Bool := decide (a.ip = ip) && a.wrong adminToken

variable {adminToken} {a} {ip : String}

theorem failing_of_guessing (h : a.guessing adminToken ip = true) :
    a.failing adminToken ip = true := by
  rw [guessing, wrong, Bool.and_eq_true, Bool.and_eq_true] at h
  rw [failing, h.1, h.2.2]
  rfl

end Attempt

/-! ### The tasks -/

/-- What the log of a client says. -/
inductive Mark where
  /-- A wrong token was evaluated against the stored one. -/
  | wrong
  /-- The attempts were cleared. -/
  | cleared
  /-- A lockout was imposed. -/
  | locked
deriving DecidableEq

/-- The tokens evaluated for a client since it was last locked out or its attempts were cleared. -/
def wrongSince (ip : String) (log : List (String × Mark)) : Nat :=
  ((log.filter fun e ↦ e.1 = ip).takeWhile fun e ↦ e.2 = .wrong).length

/-- The database, and the tasks by the next step they take. -/
structure LockoutState where
  attempts : AuthAttempts
  /-- Seconds since the epoch. -/
  clock : Nat
  arrived : List Attempt
  admitted : List Attempt
  validated : List Attempt
  /-- The latest first. -/
  log : List (String × Mark)

/-- The steps of the tasks, and of the clock. In `check` and `record`, `ok` says whether the
statement on the database succeeds. -/
inductive LockoutStep where
  | tick (seconds : Nat)
  | arrive (req : Request)
  | check (a : Attempt) (ok : Bool)
  | validate (a : Attempt)
  | record (a : Attempt) (ok : Bool)

namespace LockoutState

variable (adminToken : String) (s : LockoutState)

/-- No tasks yet. -/
def start (attempts : AuthAttempts) (clock : Nat) : LockoutState :=
  ⟨attempts, clock, [], [], [], []⟩

/-- Step 1: is the request let through? -/
def passes (a : Attempt) (ok : Bool) : Bool :=
  !isLockedOut (if ok then s.attempts.currentState a.ip else ⟨0, 0⟩) a.now

/-- What recording the outcome of a request is in the log. -/
def mark (a : Attempt) : List (String × Mark) :=
  if a.authorized adminToken then (a.ip, .cleared) :: s.log
  else if (s.attempts.recordFailure a.ip a.now).1.failedCount ≥ MAX_FAILURES then
    (a.ip, .locked) :: s.log
  else s.log

/-- One step. -/
def step : LockoutStep → Option LockoutState
  | .tick seconds => some { s with clock := s.clock + seconds }
  | .arrive req => some { s with arrived := ⟨s.clock, req⟩ :: s.arrived }
  | .check a ok =>
    if a ∈ s.arrived then some { s with
      arrived := s.arrived.erase a
      admitted := if s.passes a ok then a :: s.admitted else s.admitted }
    else none
  | .validate a =>
    if a ∈ s.admitted then some { s with
      admitted := s.admitted.erase a
      validated := a :: s.validated
      log := if a.wrong adminToken then (a.ip, .wrong) :: s.log else s.log }
    else none
  | .record a ok =>
    if a ∈ s.validated then some { s with
      validated := s.validated.erase a
      attempts := if ok then recordOutcome s.attempts a.ip a.now (a.authorized adminToken)
        else s.attempts
      log := if ok then s.mark adminToken a else s.log }
    else none

/-- The tasks of the middleware. -/
def machine : Machine LockoutState LockoutStep := ⟨step adminToken⟩

/-- The steps of one request with no other step in between; a count that is no `u32` fails the
lookup. -/
def alone (req : Request) : List LockoutStep :=
  let a : Attempt := ⟨s.clock, req⟩
  let ok := (s.attempts.checkedCurrentState a.ip).isSome
  .arrive req :: .check a ok :: if s.passes a ok then [.validate a, .record a true] else []

/-- **A request that runs alone is the middleware.** -/
theorem attempts_alone (req : Request) :
    ((machine adminToken).run s (s.alone req)).map attempts =
      some (requireAdminToken adminToken s.attempts s.clock req).2 := by
  generalize hok : (s.attempts.checkedCurrentState (clientIp req)).isSome = ok
  have hseen : (if ok then s.attempts.currentState (clientIp req) else ⟨0, 0⟩) =
      (s.attempts.checkedCurrentState (clientIp req)).getD ⟨0, 0⟩ := by
    rw [← hok, AuthAttempts.checkedCurrentState]
    split <;> rfl
  have hpasses : s.passes ⟨s.clock, req⟩ ok =
      !isLockedOut ((s.attempts.checkedCurrentState (clientIp req)).getD ⟨0, 0⟩) s.clock := by
    rw [← hseen]
    rfl
  have halone : s.alone req = .arrive req :: .check ⟨s.clock, req⟩ ok ::
      if s.passes ⟨s.clock, req⟩ ok then
        [.validate ⟨s.clock, req⟩, .record ⟨s.clock, req⟩ true] else [] := by
    subst hok
    rfl
  have harrived : ({ s with arrived := ⟨s.clock, req⟩ :: s.arrived } : LockoutState).passes
      ⟨s.clock, req⟩ ok =
      !isLockedOut ((s.attempts.checkedCurrentState (clientIp req)).getD ⟨0, 0⟩) s.clock := hpasses
  rw [halone, requireAdminToken, hpasses]
  dsimp only
  cases hl : isLockedOut ((s.attempts.checkedCurrentState (clientIp req)).getD ⟨0, 0⟩) s.clock with
  | true => simp [Machine.run_cons, machine, step]
  | false => simp [Machine.run_cons, machine, step, hl, harrived, Attempt.ip, Attempt.authorized]

end LockoutState

/-! ### What the lockout promises -/

/-- The promise: at most `MAX_FAILURES` wrong tokens of a client are evaluated before it is locked
out or its attempts are cleared, and none is evaluated while it is locked out. -/
structure LockoutHolds (adminToken : String) (s : LockoutState) : Prop where
  wrongSince_le : ∀ ip, wrongSince ip s.log ≤ MAX_FAILURES
  refused : ∀ a s', s.step adminToken (.validate a) = some s' → a.wrong adminToken = true →
    isLockedOut (s.attempts.currentState a.ip) s.clock = false

/-- The requests of a client between check and record that fail the validation. -/
def LockoutState.underway (adminToken : String) (s : LockoutState) (ip : String) : List Attempt :=
  (s.admitted ++ s.validated).filter (·.failing adminToken ip)

/-- There is room for one more failing request of a client: it is not locked out, and if others are
between check and record, all of them together do not exceed `MAX_FAILURES`. -/
def LockoutState.HasRoom (adminToken : String) (s : LockoutState) (ip : String) : Prop :=
  isLockedOut (s.attempts.currentState ip) s.clock = false ∧
    (s.underway adminToken ip = [] ∨
      (s.attempts.currentState ip).failedCount + (s.underway adminToken ip).length < MAX_FAILURES)

/-- The condition on a step. A request that fails the validation passes the check only when there
is room, unless no token is presented by it or by those underway; and a wrong token is recorded. -/
def LeavesRoom (adminToken : String) (s : LockoutState) : LockoutStep → Prop
  | .check a ok => s.passes a ok = true → a.authorized adminToken = false →
      (∀ b ∈ a :: s.underway adminToken a.ip, b.wrong adminToken = false) ∨
        s.HasRoom adminToken a.ip
  | .record a ok => ok = false → a.wrong adminToken = false
  | _ => True

instance (adminToken : String) (s : LockoutState) (ip : String) :
    Decidable (s.HasRoom adminToken ip) :=
  inferInstanceAs (Decidable (_ ∧ (_ ∨ _)))

instance (adminToken : String) (s : LockoutState) :
    (l : LockoutStep) → Decidable (LeavesRoom adminToken s l)
  | .check _ _ => inferInstanceAs (Decidable (_ → _ → _ ∨ _))
  | .record _ _ => inferInstanceAs (Decidable (_ → _))
  | .tick _ | .arrive _ | .validate _ => isTrue trivial

/-! ### Counting -/

theorem countP_of_mem {α : Type*} [DecidableEq α] {a : α} {l : List α} (h : a ∈ l) (p : α → Bool) :
    l.countP p = (l.erase a).countP p + if p a = true then 1 else 0 := by
  rw [(List.perm_cons_erase h).countP_eq, List.countP_cons]

theorem wrongSince_cons (ip : String) (ip' : String) (m : Mark) (log : List (String × Mark)) :
    wrongSince ip ((ip', m) :: log) =
      if ip' = ip then (if m = .wrong then wrongSince ip log + 1 else 0)
      else wrongSince ip log := by
  unfold wrongSince
  rw [List.filter_cons]
  by_cases h : ip' = ip
  · rw [if_pos (by simpa using h), if_pos h, List.takeWhile_cons]
    by_cases hm : m = .wrong
    · rw [if_pos (by simpa using hm), if_pos hm, List.length_cons]
    · rw [if_neg (by simpa using hm), if_neg hm, List.length_nil]
  · rw [if_neg (by simpa using h), if_neg h]

/-- What the requests and records of one client add up to. -/
structure Tally where
  failed : Nat
  lockoutUntil : Int
  /-- Requests between check and record that fail the validation. -/
  failing : Nat
  /-- Those that present a token. -/
  guessing : Nat
  /-- Those whose token has been evaluated. -/
  evaluated : Nat
  /-- Wrong tokens evaluated since the last lockout or clearance. -/
  streak : Nat

/-- The tally of a client. -/
def LockoutState.tally (adminToken : String) (s : LockoutState) (ip : String) : Tally where
  failed := (s.attempts.currentState ip).failedCount
  lockoutUntil := (s.attempts.currentState ip).lockoutUntil
  failing := (s.admitted ++ s.validated).countP (·.failing adminToken ip)
  guessing := (s.admitted ++ s.validated).countP (·.guessing adminToken ip)
  evaluated := s.validated.countP (·.guessing adminToken ip)
  streak := wrongSince ip s.log

/-- The invariant of a tally. -/
structure Tally.Bounded (t : Tally) (clock : Nat) : Prop where
  guessing_le : t.guessing ≤ t.failing
  evaluated_le : t.evaluated ≤ t.guessing
  /-- As long as a token is underway, either one request is, or there is room for all of them. -/
  room : 0 < t.guessing → t.failing ≤ 1 ∨ t.failed + t.failing ≤ MAX_FAILURES
  unlocked : 0 < t.guessing → t.lockoutUntil ≤ clock
  /-- A token evaluated is recorded or underway; after a lockout the recorded ones are forgotten. -/
  streak_le : t.streak ≤ (if t.failed < MAX_FAILURES then t.failed else 0) + t.evaluated

namespace Tally

variable {t : Tally} {clock : Nat}

theorem Bounded.streak_le_max (h : t.Bounded clock) : t.streak ≤ MAX_FAILURES := by
  have hmax : MAX_FAILURES = 5 := rfl
  have hroom := h.room
  have hle := h.streak_le
  have hg := h.guessing_le
  have he := h.evaluated_le
  split at hle <;> omega

/-- The clock moves on. -/
theorem Bounded.tick (h : t.Bounded clock) (seconds : Nat) : t.Bounded (clock + seconds) where
  guessing_le := h.guessing_le
  evaluated_le := h.evaluated_le
  room := h.room
  unlocked hg := by
    have := h.unlocked hg
    omega
  streak_le := h.streak_le

/-- A failing request passes the check: `n` is `1` when it presents a token. -/
theorem Bounded.enter (h : t.Bounded clock) {n : Nat} (hn : n ≤ 1)
    (hroom : t.guessing + n = 0 ∨
      t.lockoutUntil ≤ clock ∧ (t.failing = 0 ∨ t.failed + t.failing < MAX_FAILURES)) :
    Bounded { t with failing := t.failing + 1, guessing := t.guessing + n } clock where
  guessing_le := Nat.add_le_add h.guessing_le hn
  evaluated_le := Nat.le_add_right_of_le h.evaluated_le
  room hg := by
    dsimp only at hg ⊢
    omega
  unlocked hg := by
    dsimp only at hg ⊢
    omega
  streak_le := h.streak_le

/-- A wrong token is evaluated. -/
theorem Bounded.evaluate (h : t.Bounded clock) (hlt : t.evaluated < t.guessing) :
    Bounded { t with evaluated := t.evaluated + 1, streak := t.streak + 1 } clock where
  guessing_le := h.guessing_le
  evaluated_le := hlt
  room := h.room
  unlocked := h.unlocked
  streak_le := Nat.succ_le_succ h.streak_le

/-- A request without a token leaves without a record. -/
theorem Bounded.leave (h : t.Bounded clock) (hlt : t.guessing < t.failing) :
    Bounded { t with failing := t.failing - 1 } clock where
  guessing_le := by
    dsimp only
    omega
  evaluated_le := h.evaluated_le
  room hg := by
    have := h.room hg
    dsimp only
    omega
  unlocked := h.unlocked
  streak_le := h.streak_le

/-- A success is recorded. -/
theorem Bounded.clear (h : t.Bounded clock) :
    Bounded { t with failed := 0, lockoutUntil := 0, streak := 0 } clock where
  guessing_le := h.guessing_le
  evaluated_le := h.evaluated_le
  room hg := by
    have := h.room hg
    dsimp only
    omega
  unlocked _ := Int.natCast_nonneg clock
  streak_le := Nat.zero_le _

/-- A failure is recorded: `n` is `1` when its request presented a token. A lockout is imposed only
when no other token is underway. -/
theorem Bounded.fail (h : t.Bounded clock) {n : Nat} (hn : n ≤ 1) (hevaluated : n ≤ t.evaluated)
    (hfailing : t.guessing - n < t.failing) (until_ : Int) :
    Bounded { t with
      failed := t.failed + 1
      lockoutUntil := if t.failed + 1 ≥ MAX_FAILURES then until_ else t.lockoutUntil
      failing := t.failing - 1
      guessing := t.guessing - n
      evaluated := t.evaluated - n
      streak := if t.failed + 1 ≥ MAX_FAILURES then 0 else t.streak } clock := by
  have hmax : MAX_FAILURES = 5 := rfl
  have hroom := h.room
  have hunlocked := h.unlocked
  have hle := h.streak_le
  have hg := h.guessing_le
  have he := h.evaluated_le
  constructor <;> dsimp only
  case guessing_le => omega
  case evaluated_le => omega
  case room => omega
  case unlocked => split <;> omega
  case streak_le => split <;> split at hle <;> split <;> omega

end Tally

/-! ### One step -/

section Steps

variable {adminToken : String} {s : LockoutState} {ip : String} {a : Attempt}

/-- One more for a request that the tally counts. -/
def one (b : Bool) : Nat := if b = true then 1 else 0

theorem one_le (b : Bool) : one b ≤ 1 := by cases b <;> decide

theorem tally_enter (arrived : List Attempt) :
    LockoutState.tally adminToken { s with arrived := arrived, admitted := a :: s.admitted } ip =
      { s.tally adminToken ip with
        failing := (s.tally adminToken ip).failing + one (a.failing adminToken ip)
        guessing := (s.tally adminToken ip).guessing + one (a.guessing adminToken ip) } := by
  simp only [LockoutState.tally, List.cons_append, List.countP_cons, one]

theorem tally_validate (h : a ∈ s.admitted) (log : List (String × Mark)) :
    LockoutState.tally adminToken { s with
        admitted := s.admitted.erase a, validated := a :: s.validated, log := log } ip =
      { s.tally adminToken ip with
        evaluated := (s.tally adminToken ip).evaluated + one (a.guessing adminToken ip)
        streak := wrongSince ip log } := by
  simp only [LockoutState.tally, List.countP_append, List.countP_cons, one,
    countP_of_mem h (·.failing adminToken ip), countP_of_mem h (·.guessing adminToken ip),
    Tally.mk.injEq, true_and, and_true]
  omega

theorem tally_record (h : a ∈ s.validated) (attempts : AuthAttempts) (log : List (String × Mark)) :
    LockoutState.tally adminToken { s with
        validated := s.validated.erase a, attempts := attempts, log := log } ip =
      ⟨(attempts.currentState ip).failedCount, (attempts.currentState ip).lockoutUntil,
        (s.tally adminToken ip).failing - one (a.failing adminToken ip),
        (s.tally adminToken ip).guessing - one (a.guessing adminToken ip),
        (s.tally adminToken ip).evaluated - one (a.guessing adminToken ip), wrongSince ip log⟩ := by
  simp only [LockoutState.tally, List.countP_append, one,
    countP_of_mem h (·.failing adminToken ip), countP_of_mem h (·.guessing adminToken ip),
    Tally.mk.injEq, true_and, and_true]
  omega

theorem guessing_lt (h : a ∈ s.validated) (ha : a.failing adminToken ip = true) :
    (s.tally adminToken ip).guessing - one (a.guessing adminToken ip) <
      (s.tally adminToken ip).failing := by
  have hmono (l : List Attempt) :
      l.countP (·.guessing adminToken ip) ≤ l.countP (·.failing adminToken ip) :=
    List.countP_mono_left fun b _ ↦ Attempt.failing_of_guessing
  have hadmitted := hmono s.admitted
  have hrest := hmono (s.validated.erase a)
  simp only [LockoutState.tally, List.countP_append, one,
    countP_of_mem h (·.guessing adminToken ip), countP_of_mem h (·.failing adminToken ip), ha,
    if_true]
  omega

theorem evaluated_lt (h : a ∈ s.admitted) (ha : a.guessing adminToken ip = true) :
    (s.tally adminToken ip).evaluated < (s.tally adminToken ip).guessing := by
  simp only [LockoutState.tally, List.countP_append, countP_of_mem h (·.guessing adminToken ip), ha,
    if_true]
  omega

theorem one_le_evaluated (h : a ∈ s.validated) :
    one (a.guessing adminToken ip) ≤ (s.tally adminToken ip).evaluated := by
  simp only [LockoutState.tally, countP_of_mem h (·.guessing adminToken ip), one]
  omega

theorem length_underway :
    (s.underway adminToken ip).length = (s.tally adminToken ip).failing :=
  List.countP_eq_length_filter.symm

/-- Nothing is counted when no token is underway. -/
theorem guessing_eq_zero (h : ∀ b ∈ s.underway adminToken ip, b.wrong adminToken = false) :
    (s.tally adminToken ip).guessing = 0 := by
  refine List.countP_eq_zero.2 fun b hb hguess ↦ ?_
  have hunder : b ∈ s.underway adminToken ip :=
    List.mem_filter.2 ⟨hb, Attempt.failing_of_guessing hguess⟩
  rw [Attempt.guessing, h b hunder, Bool.and_false] at hguess
  cases hguess

theorem guessing_of_ne (h : a.ip ≠ ip) : a.guessing adminToken ip = false := by
  rw [Attempt.guessing, decide_eq_false h, Bool.false_and]

theorem failing_of_ne (h : a.ip ≠ ip) : a.failing adminToken ip = false := by
  rw [Attempt.failing, decide_eq_false h, Bool.false_and]

theorem guessing_self : a.guessing adminToken a.ip = a.wrong adminToken := by
  rw [Attempt.guessing, decide_eq_true rfl, Bool.true_and]

theorem failing_self : a.failing adminToken a.ip = !a.authorized adminToken := by
  rw [Attempt.failing, decide_eq_true rfl, Bool.true_and]

theorem wrong_of_authorized (h : a.authorized adminToken = true) : a.wrong adminToken = false := by
  rw [Attempt.wrong, h, Bool.not_true, Bool.and_false]

theorem isLockedOut_eq_false {st : AttemptState} {now : Int} :
    isLockedOut st now = false ↔ st.lockoutUntil ≤ now := by
  rw [isLockedOut, decide_eq_false_iff_not, gt_iff_lt, Int.not_lt]

/-- **The check.** -/
theorem Tally.Bounded.check (h : (s.tally adminToken ip).Bounded s.clock) {ok : Bool}
    (hpasses : s.passes a ok = true) (hroom : LeavesRoom adminToken s (.check a ok))
    (arrived : List Attempt) :
    (LockoutState.tally adminToken { s with
      arrived := arrived
      admitted := a :: s.admitted } ip).Bounded s.clock := by
  rw [tally_enter]
  by_cases hfail : a.failing adminToken ip = true
  · obtain ⟨hip, hauth⟩ : a.ip = ip ∧ a.authorized adminToken = false := by
      simpa [Attempt.failing] using hfail
    subst hip
    rw [hfail]
    refine h.enter (one_le _) ?_
    rcases hroom hpasses hauth with hquiet | ⟨hopen, hfree⟩
    · rw [List.forall_mem_cons] at hquiet
      have hzero := guessing_eq_zero hquiet.2
      refine .inl ?_
      rw [hzero, guessing_self, hquiet.1]
      rfl
    · refine .inr ⟨isLockedOut_eq_false.1 hopen, ?_⟩
      rw [← length_underway]
      exact hfree.imp_left List.length_eq_zero_iff.2
  · have hguess : a.guessing adminToken ip = false :=
      Bool.eq_false_iff.2 fun hg ↦ hfail (Attempt.failing_of_guessing hg)
    rw [hguess, Bool.eq_false_iff.2 hfail]
    exact h

/-- **The validation.** -/
theorem Tally.Bounded.validate (h : (s.tally adminToken ip).Bounded s.clock) (ha : a ∈ s.admitted) :
    (LockoutState.tally adminToken { s with
      admitted := s.admitted.erase a
      validated := a :: s.validated
      log := if a.wrong adminToken then (a.ip, .wrong) :: s.log else s.log } ip).Bounded
        s.clock := by
  have hstreak : wrongSince ip (if a.wrong adminToken then (a.ip, .wrong) :: s.log else s.log) =
      (s.tally adminToken ip).streak + one (a.guessing adminToken ip) := by
    by_cases hip : a.ip = ip
    · subst hip
      rw [guessing_self]
      cases a.wrong adminToken with
      | true => exact (wrongSince_cons ..).trans ((if_pos rfl).trans (if_pos rfl))
      | false => rfl
    · rw [guessing_of_ne hip]
      split
      · exact (wrongSince_cons ..).trans (if_neg hip)
      · rfl
  rw [tally_validate ha, hstreak]
  by_cases hguess : a.guessing adminToken ip = true
  · rw [hguess]
    exact h.evaluate (evaluated_lt ha hguess)
  · rw [Bool.eq_false_iff.2 hguess]
    exact h

/-- **The record.** -/
theorem Tally.Bounded.record (h : (s.tally adminToken ip).Bounded s.clock) (ha : a ∈ s.validated) :
    (LockoutState.tally adminToken { s with
      validated := s.validated.erase a
      attempts := recordOutcome s.attempts a.ip a.now (a.authorized adminToken)
      log := s.mark adminToken a } ip).Bounded s.clock := by
  rw [tally_record ha, currentState_recordOutcome]
  by_cases hip : a.ip = ip
  · subst hip
    rw [if_pos rfl, guessing_self, failing_self, LockoutState.mark]
    cases hauth : a.authorized adminToken with
    | true =>
      rw [wrong_of_authorized hauth, if_pos rfl, if_pos rfl,
        (wrongSince_cons ..).trans ((if_pos rfl).trans (if_neg (by decide)))]
      exact h.clear
    | false =>
      have hfailing : a.failing adminToken a.ip = true := by rw [failing_self, hauth]; rfl
      have hlt : (s.tally adminToken a.ip).guessing - one (a.wrong adminToken) <
          (s.tally adminToken a.ip).failing := guessing_self ▸ guessing_lt ha hfailing
      have hone : one (a.wrong adminToken) ≤ (s.tally adminToken a.ip).evaluated :=
        guessing_self ▸ one_le_evaluated ha
      have hcount : (s.attempts.recordFailure a.ip a.now).1.failedCount =
          (s.tally adminToken a.ip).failed + 1 := by
        rw [AuthAttempts.recordFailure_fst]
        rfl
      have hstreak : wrongSince a.ip
          (if (s.attempts.recordFailure a.ip a.now).1.failedCount ≥ MAX_FAILURES then
            (a.ip, .locked) :: s.log else s.log) =
          if (s.tally adminToken a.ip).failed + 1 ≥ MAX_FAILURES then 0
          else (s.tally adminToken a.ip).streak := by
        rw [hcount]
        split
        · exact (wrongSince_cons ..).trans ((if_pos rfl).trans (if_neg (by decide)))
        · rfl
      rw [if_neg Bool.false_ne_true, if_neg Bool.false_ne_true, hstreak]
      exact h.fail (one_le _) hone hlt (a.now + LOCKOUT_SECONDS)
  · have hlog : wrongSince ip (s.mark adminToken a) = wrongSince ip s.log := by
      rw [LockoutState.mark]
      split
      · exact (wrongSince_cons ..).trans (if_neg hip)
      · split
        · exact (wrongSince_cons ..).trans (if_neg hip)
        · rfl
    rw [if_neg hip, guessing_of_ne hip, failing_of_ne hip, hlog]
    exact h

/-- A request whose record fails leaves nothing behind. -/
theorem Tally.Bounded.unrecorded (h : (s.tally adminToken ip).Bounded s.clock)
    (ha : a ∈ s.validated) (hwrong : a.wrong adminToken = false) :
    (LockoutState.tally adminToken { s with validated := s.validated.erase a } ip).Bounded
      s.clock := by
  have hguess : a.guessing adminToken ip = false := by
    rw [Attempt.guessing, hwrong, Bool.and_false]
  rw [show LockoutState.tally _ _ ip = _ from tally_record ha s.attempts s.log, hguess]
  by_cases hfail : a.failing adminToken ip = true
  · have hlt := guessing_lt ha hfail
    rw [hguess] at hlt
    rw [hfail]
    exact h.leave hlt
  · rw [Bool.eq_false_iff.2 hfail]
    exact h

/-- **One step keeps every tally bounded.** -/
theorem bounded_step {s' : LockoutState} {l : LockoutStep}
    (h : ∀ ip, (s.tally adminToken ip).Bounded s.clock) (hok : LeavesRoom adminToken s l)
    (hs : s.step adminToken l = some s') (ip : String) :
    (s'.tally adminToken ip).Bounded s'.clock := by
  cases l with
  | tick seconds =>
    obtain rfl := Option.some.inj hs
    exact (h ip).tick seconds
  | arrive req =>
    obtain rfl := Option.some.inj hs
    exact h ip
  | check a ok =>
    obtain ⟨-, hs⟩ := Option.ite_none_right_eq_some.1 hs
    obtain rfl := Option.some.inj hs
    by_cases hpasses : s.passes a ok = true
    · rw [if_pos hpasses]
      exact (h ip).check hpasses hok _
    · rw [if_neg hpasses]
      exact h ip
  | validate a =>
    obtain ⟨ha, hs⟩ := Option.ite_none_right_eq_some.1 hs
    obtain rfl := Option.some.inj hs
    exact (h ip).validate ha
  | record a ok =>
    obtain ⟨ha, hs⟩ := Option.ite_none_right_eq_some.1 hs
    obtain rfl := Option.some.inj hs
    cases ok with
    | true => exact (h ip).record ha
    | false => exact (h ip).unrecorded ha (hok rfl)

/-- Bounded tallies are what the lockout promises. -/
theorem lockoutHolds_of_bounded (h : ∀ ip, (s.tally adminToken ip).Bounded s.clock) :
    LockoutHolds adminToken s where
  wrongSince_le ip := (h ip).streak_le_max
  refused a s' hs hwrong := by
    obtain ⟨ha, -⟩ := Option.ite_none_right_eq_some.1 hs
    have hlt := evaluated_lt ha (guessing_self.trans hwrong)
    exact isLockedOut_eq_false.2 ((h a.ip).unlocked (Nat.zero_lt_of_lt hlt))

end Steps

/-! ### Every run -/

/-- **The lockout holds as long as there is room at the check.** In every run of the tasks of any
number of requests of any clients, from any table of attempts, whose steps leave room, at most
`MAX_FAILURES` wrong tokens of a client are evaluated before it is locked out or its attempts are
cleared, and none is evaluated while it is locked out. -/
theorem lockoutHolds_of_leavesRoom (adminToken : String) (attempts : AuthAttempts) (clock : Nat)
    (steps : List LockoutStep) (s : LockoutState)
    (hok : (LockoutState.machine adminToken).Guarded (LeavesRoom adminToken)
      (.start attempts clock) steps)
    (hrun : (LockoutState.machine adminToken).run (.start attempts clock) steps = some s) :
    LockoutHolds adminToken s := by
  have hstart (ip : String) :
      ((LockoutState.start attempts clock).tally adminToken ip).Bounded clock :=
    ⟨Nat.le_refl 0, Nat.le_refl 0, fun h ↦ absurd h (Nat.lt_irrefl 0),
      fun h ↦ absurd h (Nat.lt_irrefl 0), Nat.zero_le _⟩
  refine lockoutHolds_of_bounded (Machine.guarded_invariant
    (I := fun s ↦ ∀ ip, (s.tally adminToken ip).Bounded s.clock) ?_ hstart hok hrun)
  exact fun s l s' hI hok hs ip ↦ bounded_step hI hok hs ip

/-! ### A burst of wrong tokens -/

namespace Burst

/-- A request with a wrong token. -/
def guess : Attempt := ⟨1000, ⟨[("authorization", some "Bearer guess")], none⟩⟩

def start : LockoutState := .start .empty 1000

/-- Five requests one after the other, and the lockout check of a sixth. -/
def orderly : List LockoutStep :=
  (List.replicate 5
    [.arrive guess.req, .check guess true, .validate guess, .record guess true]).flatten ++
      [.arrive guess.req, .check guess true]

/-- Six requests that have all passed the check. -/
def admitted : List LockoutStep :=
  List.replicate 6 (.arrive guess.req) ++ List.replicate 6 (.check guess true)

/-- Five of the six are validated and recorded. -/
def locked : List LockoutStep :=
  admitted ++ (List.replicate 5 [.validate guess, .record guess true]).flatten

theorem lockoutHolds_of_leavesRoom_orderly :
    ∃ s, (LockoutState.machine "secret").run start orderly = some s ∧ LockoutHolds "secret" s := by
  obtain ⟨s, hrun, -⟩ := Machine.exists_run_of_any
    (show ((LockoutState.machine "secret").run start orderly).any (fun _ ↦ true) = true by
      decide +kernel)
  exact ⟨s, hrun,
    lockoutHolds_of_leavesRoom "secret" .empty 1000 orderly s (by decide +kernel) hrun⟩

/-- Six requests of one client check the lockout before any of them records its failure: six wrong
tokens are evaluated in a row. And when five of them have been recorded, the client is locked out,
but the sixth still has its token evaluated. -/
theorem not_lockoutHolds :
    (∃ s, (LockoutState.machine "secret").run start
        (admitted ++ List.replicate 6 (.validate guess)) = some s ∧ ¬ LockoutHolds "secret" s) ∧
      ∃ s, (LockoutState.machine "secret").run start locked = some s ∧
        ¬ LockoutHolds "secret" s := by
  constructor
  · obtain ⟨s, hrun, hs⟩ := Machine.exists_run_of_any
      (show ((LockoutState.machine "secret").run start
        (admitted ++ List.replicate 6 (.validate guess))).any
          (fun s ↦ decide (MAX_FAILURES < wrongSince "unknown" s.log)) = true by decide +kernel)
    exact ⟨s, hrun, fun h ↦ Nat.not_lt.2 (h.wrongSince_le "unknown") (of_decide_eq_true hs)⟩
  · obtain ⟨s, hrun, hs⟩ := Machine.exists_run_of_any
      (show ((LockoutState.machine "secret").run start locked).any
        (fun s ↦ decide (guess ∈ s.admitted) &&
          isLockedOut (s.attempts.currentState guess.ip) s.clock) = true by decide +kernel)
    obtain ⟨hmem, hlocked⟩ := Bool.and_eq_true_iff.1 hs
    refine ⟨s, hrun, fun h ↦ ?_⟩
    have hopen := h.refused guess _ (if_pos (of_decide_eq_true hmem)) (by decide +kernel)
    rw [hlocked] at hopen
    cases hopen

end Burst

end CommunitySearch
