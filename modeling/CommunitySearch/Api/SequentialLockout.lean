import CommunitySearch.Api.LimitEvasion
import CommunitySearch.Api.Lockout
import CommunitySearch.Foundation.Transducer

/-!
# The lockout, one request at a time

What the middleware of the admin routes does over a sequence of requests that do not overlap, in
the terms of one client: `lockoutPolicy` remembers the times of the client's failures since its last
right token and nothing else, and locks the client out for `LOCKOUT_SECONDS` after the last of them
once there are `MAX_FAILURES`. The row of the client is a summary of these times, so the middleware
answers the client as the policy does, whatever it is asked by others (`sequentialLockout`).

The count of a row is read as a `u32`. A client that has failed `2 ^ 32` times in a row is one whose
row cannot be read, and the middleware goes on as if it had none.
-/

namespace CommunitySearch

/-- The middleware over a sequence of requests. -/
def adminRoutes (adminToken : String) : Transducer AuthAttempts Attempt AdminVerdict where
  step t a := (requireAdminToken adminToken t a.now a.req).swap

/-- The requests of a client. -/
def attemptsOf (ip : String) (attempts : List Attempt) : List Attempt :=
  attempts.filter fun a ↦ a.ip = ip

/-! ### The policy -/

/-- **The lockout of one client.** The state is the times of its failures since its last right
token, the latest first; `counts` says which of the requests that fail the validation are
failures. -/
def lockoutPolicy (adminToken : String) (counts : Attempt → Bool) :
    Transducer (List Int) Attempt AdminVerdict where
  step failures a :=
    if a.now < lockoutOf failures then (failures, .lockedOut (lockoutOf failures - a.now))
    else if a.authorized adminToken then ([], .authorized)
    else (if counts a then a.now :: failures else failures, .unauthorized)

/-- What a row says of the failures of its client. -/
def summary (failures : List Int) : AttemptState := ⟨failures.length, lockoutOf failures⟩

theorem failedCount_summary (failures : List Int) :
    (summary failures).failedCount = failures.length := rfl

/-- **The claim of the lockout** about the client `ip`, over a sequence of requests. -/
structure SequentialLockout (adminToken : String) (counts : Attempt → Bool) (t : AuthAttempts)
    (ip : String) (attempts : List Attempt) : Prop where
  /-- The client is answered as the policy answers its own requests. -/
  verdicts : ((attempts.zip ((adminRoutes adminToken).answers t attempts)).filter
      fun e ↦ e.1.ip = ip).map Prod.snd =
    (lockoutPolicy adminToken counts).answers [] (attemptsOf ip attempts)
  /-- What is stored is what the policy remembers. -/
  stored : ((adminRoutes adminToken).final t attempts).currentState ip =
    summary ((lockoutPolicy adminToken counts).final [] (attemptsOf ip attempts))
  /-- A request that is refused changes nothing. -/
  refused : ∀ a seconds,
    ((adminRoutes adminToken).step ((adminRoutes adminToken).final t attempts) a).2 =
      .lockedOut seconds →
    ((adminRoutes adminToken).step ((adminRoutes adminToken).final t attempts) a).1 =
      (adminRoutes adminToken).final t attempts

/-! ### One request -/

section Request

variable {adminToken : String} {counts : Attempt → Bool} {t : AuthAttempts} {ip : String}
  {a : Attempt} {failures : List Int}

/-- A request is none of another client's business. -/
theorem currentState_step_of_ne (h : a.ip ≠ ip) :
    ((adminRoutes adminToken).step t a).1.currentState ip = t.currentState ip := by
  show (requireAdminToken adminToken t a.now a.req).2.currentState ip = _
  rw [requireAdminToken]
  dsimp only
  split
  · rfl
  · exact (currentState_recordOutcome ..).trans (if_neg h)

theorem step_refused {seconds : Int}
    (h : ((adminRoutes adminToken).step t a).2 = .lockedOut seconds) :
    ((adminRoutes adminToken).step t a).1 = t := by
  change (requireAdminToken adminToken t a.now a.req).1 = _ at h
  show (requireAdminToken adminToken t a.now a.req).2 = t
  rw [requireAdminToken] at h ⊢
  dsimp only at h ⊢
  split at h
  case isTrue hlocked => rw [if_pos hlocked]
  case isFalse =>
    dsimp only at h
    split at h <;> cases h

/-- The summary of one more failure. -/
theorem fail_summary (failures : List Int) (now : Int) :
    (summary failures).fail now = summary (now :: failures) := by
  have huntil : (if failures.length + 1 ≥ MAX_FAILURES then now + LOCKOUT_SECONDS
      else lockoutOf failures) = lockoutOf (now :: failures) := by
    rw [lockoutOf, List.length_cons]
    by_cases hmax : failures.length + 1 ≥ MAX_FAILURES
    · rw [if_pos hmax, if_pos hmax]
    · rw [if_neg hmax, if_neg hmax]
      cases failures with
      | nil => rfl
      | cons t ts =>
        rw [List.length_cons] at hmax
        exact if_neg (by rw [List.length_cons]; omega)
  exact congrArg (AttemptState.mk (failures.length + 1)) huntil

/-- What a request does to the attempts of a client is what the policy does to its failures, while
their number fits. -/
theorem attempt_summary (hcount : failures.length < 2 ^ 32) (a : Attempt) :
    (summary failures).attempt a.now (a.authorized adminToken) =
      (((lockoutPolicy adminToken fun _ ↦ true).step failures a).2,
        summary ((lockoutPolicy adminToken fun _ ↦ true).step failures a).1) := by
  have hlocked : isLockedOut (summary failures) a.now = true ↔ a.now < lockoutOf failures :=
    decide_eq_true_iff
  rw [AttemptState.attempt, AttemptState.seen_of_lt (s := summary failures) hcount]
  dsimp only [lockoutPolicy]
  by_cases h : a.now < lockoutOf failures
  · rw [if_pos h, if_pos (hlocked.2 h)]
    rfl
  · rw [if_neg h, if_neg (mt hlocked.1 h)]
    cases a.authorized adminToken with
    | true => rfl
    | false => exact congrArg (Prod.mk AdminVerdict.unauthorized) (fail_summary failures a.now)

/-- **One request of the client.** -/
theorem step_summary (hip : a.ip = ip) (hstored : t.currentState ip = summary failures)
    (hcount : failures.length < 2 ^ 32) :
    ((adminRoutes adminToken).step t a).2 =
        ((lockoutPolicy adminToken fun _ ↦ true).step failures a).2 ∧
      ((adminRoutes adminToken).step t a).1.currentState ip =
        summary ((lockoutPolicy adminToken fun _ ↦ true).step failures a).1 := by
  subst hip
  have hstep := authService.call_step t a.ip (a.now, a.authorized adminToken)
  rw [show authService.call t a.ip (a.now, a.authorized adminToken) =
    some (requireAdminToken adminToken t a.now a.req) from
      call_authService adminToken t a.now a.req] at hstep
  have hattempt : ((requireAdminToken adminToken t a.now a.req).1,
      (requireAdminToken adminToken t a.now a.req).2.currentState a.ip) =
      (t.currentState a.ip).attempt a.now (a.authorized adminToken) := Option.some.inj hstep
  rw [hstored, attempt_summary hcount] at hattempt
  exact Prod.mk.inj hattempt

end Request

/-! ### A sequence of requests -/

section Sequence

variable {adminToken : String} {t : AuthAttempts} {ip : String}

/-- Before each of the requests, fewer than `2 ^ 32` failures of the client are remembered. -/
def CountsFit (adminToken : String) (ip : String) (failures : List Int) (attempts : List Attempt) :
    Prop :=
  ∀ p a q, attempts = p ++ a :: q →
    ((lockoutPolicy adminToken fun _ ↦ true).final failures (attemptsOf ip p)).length < 2 ^ 32

theorem CountsFit.cons {failures : List Int} {a : Attempt} {attempts : List Attempt}
    (h : CountsFit adminToken ip failures (a :: attempts)) :
    failures.length < 2 ^ 32 ∧ CountsFit adminToken ip
      (if a.ip = ip then ((lockoutPolicy adminToken fun _ ↦ true).step failures a).1
        else failures) attempts := by
  refine ⟨h [] a attempts rfl, fun p b q hp ↦ ?_⟩
  have hfit := h (a :: p) b q (congrArg (List.cons a) hp)
  rw [attemptsOf, List.filter_cons] at hfit
  split
  case isTrue hip =>
    rw [if_pos (decide_eq_true hip)] at hfit
    exact hfit
  case isFalse hip =>
    rw [if_neg (by simpa using hip)] at hfit
    exact hfit

/-- The verdicts and the row of a client with these failures, over a sequence of requests. -/
theorem follows_policy {attempts : List Attempt} {failures : List Int}
    (hstored : t.currentState ip = summary failures)
    (hfit : CountsFit adminToken ip failures attempts) :
    ((attempts.zip ((adminRoutes adminToken).answers t attempts)).filter
        fun e ↦ e.1.ip = ip).map Prod.snd =
      (lockoutPolicy adminToken fun _ ↦ true).answers failures (attemptsOf ip attempts) ∧
    ((adminRoutes adminToken).final t attempts).currentState ip =
      summary ((lockoutPolicy adminToken fun _ ↦ true).final failures
        (attemptsOf ip attempts)) := by
  induction attempts generalizing t failures with
  | nil => exact ⟨rfl, hstored⟩
  | cons a attempts ih =>
    obtain ⟨hcount, hrest⟩ := hfit.cons
    have hfinal : (adminRoutes adminToken).final t (a :: attempts) =
        (adminRoutes adminToken).final ((adminRoutes adminToken).step t a).1 attempts := rfl
    rw [attemptsOf, List.filter_cons, Transducer.answers, List.zip_cons_cons, List.filter_cons,
      hfinal]
    by_cases hip : a.ip = ip
    · obtain ⟨hverdict, hnext⟩ := step_summary hip hstored hcount
      rw [if_pos hip] at hrest
      obtain ⟨hverdicts, hlast⟩ := ih hnext hrest
      rw [if_pos (decide_eq_true hip), if_pos (decide_eq_true hip), List.map_cons, hverdicts,
        hverdict]
      exact ⟨rfl, hlast⟩
    · rw [if_neg hip] at hrest
      rw [if_neg (by simpa using hip), if_neg (by simpa using hip)]
      exact ih ((currentState_step_of_ne hip).trans hstored) hrest

/-- A sequence of requests has no more failures than requests. -/
theorem length_final_le (counts : Attempt → Bool) (failures : List Int) (attempts : List Attempt) :
    ((lockoutPolicy adminToken counts).final failures attempts).length ≤
      failures.length + attempts.length := by
  induction attempts generalizing failures with
  | nil => exact Nat.le_refl _
  | cons a attempts ih =>
    have hone : ((lockoutPolicy adminToken counts).step failures a).1.length ≤
        failures.length + 1 := by
      dsimp only [lockoutPolicy]
      split
      · exact Nat.le_succ _
      split
      · exact Nat.zero_le _
      split
      · exact Nat.le_refl _
      · exact Nat.le_succ _
    have hrest := ih ((lockoutPolicy adminToken counts).step failures a).1
    show ((lockoutPolicy adminToken counts).final
      ((lockoutPolicy adminToken counts).step failures a).1 attempts).length ≤ _
    rw [List.length_cons]
    omega

theorem countsFit_of_length {attempts : List Attempt} (h : attempts.length ≤ 2 ^ 32) :
    CountsFit adminToken ip [] attempts := by
  rintro p a q rfl
  have hle : ((lockoutPolicy adminToken fun _ ↦ true).final [] (attemptsOf ip p)).length ≤
      0 + (attemptsOf ip p).length := length_final_le _ _ _
  have hfilter : (attemptsOf ip p).length ≤ p.length := List.length_filter_le _ _
  rw [List.length_append, List.length_cons] at h
  omega

/-- **Sequential lockout.** Take any sequence of requests, of any clients with any headers, over
attempts in which the client `ip` has no row, and let it never fail `2 ^ 32` times in a row. It is
answered as the policy answers its own requests, a failure being any request that fails the
validation, what is stored is what the policy remembers, and a request that is refused changes
nothing. -/
theorem sequentialLockout (adminToken : String) (t : AuthAttempts) (ip : String)
    (hnew : KeyTable.find t ip = none) (attempts : List Attempt)
    (hfit : CountsFit adminToken ip [] attempts) :
    SequentialLockout adminToken (fun _ ↦ true) t ip attempts := by
  have hstored : t.currentState ip = summary [] := by
    rw [AuthAttempts.currentState, hnew]
    rfl
  obtain ⟨hverdicts, hlast⟩ := follows_policy hstored hfit
  exact ⟨hverdicts, hlast, fun a seconds ↦ step_refused⟩

end Sequence

/-! ### Failures that are no wrong tokens, and more than a `u32` counts -/

namespace Patience

/-- A request without a token. -/
def tokenless : Attempt := ⟨1000, ⟨[], none⟩⟩

/-- A request with the right token. -/
def right : Attempt := ⟨1000, ⟨[("authorization", some "Bearer secret")], none⟩⟩

/-- Five wrong tokens, and the right one. -/
def five : List Attempt := List.replicate 5 Burst.guess ++ [right]

theorem sequentialLockout_five :
    SequentialLockout "secret" (fun _ ↦ true) .empty "unknown" five :=
  sequentialLockout "secret" .empty "unknown" rfl five (countsFit_of_length (by decide))

/-- A wrong token: the number `n` comes when the lockout after the one before it has ended. -/
def guess (n : Nat) : Attempt :=
  ⟨1000 + LOCKOUT_SECONDS * n, ⟨[("authorization", some "Bearer guess")], none⟩⟩

def guesses (n : Nat) : List Attempt := (List.range n).map guess

theorem attemptsOf_guesses (n : Nat) : attemptsOf "unknown" (guesses n) = guesses n :=
  List.filter_eq_self.2 fun a ha ↦ by
    obtain ⟨i, -, rfl⟩ := List.mem_map.1 ha
    rfl

theorem now_guess_succ (n : Nat) : (guess (n + 1)).now = (guess n).now + LOCKOUT_SECONDS := by
  simp only [guess]
  push_cast
  rw [Int.mul_add, Int.mul_one, Int.add_assoc]

theorem now_guess_nonneg (n : Nat) : 0 ≤ (guess n).now := by
  simp only [guess, LOCKOUT_SECONDS]
  omega

theorem authorized_guess (n : Nat) : (guess n).authorized "secret" = false := by
  show isAuthorized "secret" [("authorization", some "Bearer guess")] = false
  decide

/-- The times of the first `n`, the latest first. -/
def times (n : Nat) : List Int := ((List.range n).map fun i ↦ (guess i).now).reverse

theorem times_succ (n : Nat) : times (n + 1) = (guess n).now :: times n := by
  rw [times, List.range_succ, List.map_append, List.reverse_append]
  rfl

theorem length_times (n : Nat) : (times n).length = n := by
  rw [times, List.length_reverse, List.length_map, List.length_range]

theorem lockoutOf_times_le (n : Nat) : lockoutOf (times n) ≤ (guess n).now := by
  cases n with
  | zero => decide
  | succ n =>
    rw [times_succ, lockoutOf, now_guess_succ]
    split
    · exact Int.le_refl _
    · exact Int.add_nonneg (now_guess_nonneg n) (by decide)

/-- Every one of them is evaluated. -/
theorem final_guesses (n : Nat) :
    (lockoutPolicy "secret" fun _ ↦ true).final [] (guesses n) = times n := by
  induction n with
  | zero => rfl
  | succ n ih =>
    rw [guesses, List.range_succ, List.map_append, List.map_singleton, Transducer.final_concat,
      ← guesses, ih, times_succ]
    dsimp only [lockoutPolicy]
    rw [if_neg (Int.not_lt.2 (lockoutOf_times_le n)), authorized_guess]
    rfl

/-- A count that does not fit is not seen, and neither is the lockout. -/
theorem currentState_overlooked {t : AuthAttempts}
    (h : 2 ^ 32 ≤ (t.currentState "unknown").failedCount) (n : Nat) :
    ((adminRoutes "secret").step t (guess n)).1.currentState "unknown" =
      (t.currentState "unknown").fail (guess n).now := by
  have hread : t.checkedCurrentState "unknown" = none := if_neg (Nat.not_lt.2 h)
  have hopen : isLockedOut ⟨0, 0⟩ (guess n).now = false :=
    isLockedOut_eq_false.2 (now_guess_nonneg n)
  have hwrong : isAuthorized "secret" (guess n).req.headers = false := authorized_guess n
  show (requireAdminToken "secret" t (guess n).now (guess n).req).2.currentState _ = _
  rw [requireAdminToken, show clientIp (guess n).req = "unknown" from rfl, hread]
  dsimp only [Option.getD_none]
  rw [if_neg (Bool.eq_false_iff.1 hopen)]
  exact (currentState_recordOutcome ..).trans
    ((if_pos rfl).trans (if_neg (Bool.eq_false_iff.1 hwrong)))

/-- After `n + 1` of them, one more at the time of the last. -/
def oneMore (n : Nat) : List Attempt := guesses (n + 1) ++ [guess n]

theorem attemptsOf_oneMore (n : Nat) : attemptsOf "unknown" (oneMore n) = oneMore n := by
  rw [attemptsOf, oneMore, List.filter_append, ← attemptsOf, attemptsOf_guesses]
  rfl

theorem not_sequentialLockout_oneMore {n : Nat} (hn : n + 1 = 2 ^ 32) :
    ¬ SequentialLockout "secret" (fun _ ↦ true) .empty "unknown" (oneMore n) := by
  intro h
  have hlength : (guesses (n + 1)).length = n + 1 := by
    rw [guesses, List.length_map, List.length_range]
  -- the row of the client before the last request
  have hrow : ((adminRoutes "secret").final .empty (guesses (n + 1))).currentState "unknown" =
      summary (times (n + 1)) := by
    have hall := sequentialLockout "secret" .empty "unknown" rfl (guesses (n + 1))
      (countsFit_of_length (Nat.le_of_eq (hlength.trans hn)))
    rw [hall.stored, attemptsOf_guesses, final_guesses]
  have hcount : (summary (times (n + 1))).failedCount = n + 1 :=
    (failedCount_summary _).trans (length_times _)
  -- the policy refuses it
  have hpolicy : (lockoutPolicy "secret" fun _ ↦ true).final [] (attemptsOf "unknown" (oneMore n)) =
      times (n + 1) := by
    have hmax : MAX_FAILURES ≤ ((guess n).now :: times n).length := by
      have hfive : MAX_FAILURES = 5 := rfl
      rw [List.length_cons, length_times]
      omega
    have hlocked : (guess n).now < lockoutOf (times (n + 1)) := by
      rw [times_succ, lockoutOf, if_pos hmax]
      exact Int.lt_add_of_pos_right _ (by decide)
    rw [attemptsOf_oneMore, oneMore, Transducer.final_concat, final_guesses]
    dsimp only [lockoutPolicy]
    rw [if_pos hlocked]
  -- and the middleware evaluates it
  have hstored := h.stored
  rw [hpolicy, oneMore, Transducer.final_concat,
    currentState_overlooked (by rw [hrow, hcount, hn]), hrow] at hstored
  have hmore : (summary (times (n + 1))).failedCount + 1 =
      (summary (times (n + 1))).failedCount := congrArg AttemptState.failedCount hstored
  omega

/-- Five requests without a token lock a client out that has presented no wrong token. And after
`2 ^ 32` wrong tokens in a row, each presented when the lockout after the one before it had ended,
the next one is evaluated during the lockout. -/
theorem not_sequentialLockout :
    ¬ SequentialLockout "secret" (Attempt.wrong "secret") .empty "unknown"
        (List.replicate 5 tokenless ++ [right]) ∧
      ¬ SequentialLockout "secret" (fun _ ↦ true) .empty "unknown" (oneMore (2 ^ 32 - 1)) :=
  ⟨fun h ↦ absurd h.verdicts (by decide +kernel),
    not_sequentialLockout_oneMore (Nat.sub_add_cancel (Nat.one_le_two_pow))⟩

end Patience

end CommunitySearch
