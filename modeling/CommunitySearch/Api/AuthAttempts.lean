import CommunitySearch.Foundation.Keyed
import Mathlib.Algebra.Group.Nat.Defs

/-!
# Failed authentication attempts

The repository of the `auth_attempts` table: one row for each client key with consecutive failures.
Each function is one locked section.
-/

namespace CommunitySearch

/-- Number of consecutive failures before a client is locked out. -/
def MAX_FAILURES : Nat := 5

/-- Lockout duration in seconds. -/
def LOCKOUT_SECONDS : Int := 15 * 60

/-- A row of `auth_attempts`. -/
structure AuthAttemptRow where
  ip : String
  failedCount : Nat
  lockoutUntil : Int
  lastAttemptAt : Int
deriving DecidableEq

/-- `PRIMARY KEY (ip)`. -/
abbrev AuthAttempts := KeyTable AuthAttemptRow.ip

/-- The attempts of one client. -/
structure AttemptState where
  failedCount : Nat
  /-- Until when the client is locked out; `0` means no lockout. -/
  lockoutUntil : Int
deriving DecidableEq

namespace AttemptState

/-- The state of a client without a row. -/
def initial : AttemptState := ⟨0, 0⟩

/-- What a read of the row gives: the count is read as a `u32`, and the middleware takes a read that
fails for no attempts. -/
def seen (s : AttemptState) : AttemptState := if s.failedCount < 2 ^ 32 then s else ⟨0, 0⟩

theorem seen_of_lt {s : AttemptState} (h : s.failedCount < 2 ^ 32) : s.seen = s := if_pos h

/-- One more failure. -/
def fail (s : AttemptState) (now : Int) : AttemptState where
  failedCount := s.failedCount + 1
  lockoutUntil := if s.failedCount + 1 ≥ MAX_FAILURES then now + LOCKOUT_SECONDS else s.lockoutUntil

end AttemptState

namespace AuthAttempts

/-- What the table says of a client. -/
def currentState (t : AuthAttempts) (ip : String) : AttemptState :=
  match KeyTable.find t ip with
  | some row => ⟨row.failedCount, row.lockoutUntil⟩
  | none => ⟨0, 0⟩

/-- `current_state`: the count is read as a `u32`, and one that does not fit is an error. -/
def checkedCurrentState (t : AuthAttempts) (ip : String) : Option AttemptState :=
  let attempt := t.currentState ip
  if attempt.failedCount < 2 ^ 32 then some attempt else none

/-- `record_failure`: an upsert, and the state read back from the row, which its caller drops. -/
def recordFailure (t : AuthAttempts) (ip : String) (now : Int) : AttemptState × AuthAttempts :=
  let lockoutAt := now + LOCKOUT_SECONDS
  let row : AuthAttemptRow := match KeyTable.find t ip with
    | none => ⟨ip, 1, if 1 ≥ MAX_FAILURES then lockoutAt else 0, now⟩
    | some row =>
      ⟨ip, row.failedCount + 1,
        if row.failedCount + 1 ≥ MAX_FAILURES then lockoutAt else row.lockoutUntil, now⟩
  let t' : AuthAttempts := KeyTable.put t row
  (currentState t' ip, t')

/-- `record_success`: delete the row. -/
def recordSuccess (t : AuthAttempts) (ip : String) : AuthAttempts := KeyTable.erase t ip

variable (t : AuthAttempts) (ip : String) (now : Int)

theorem getD_checkedCurrentState :
    (checkedCurrentState t ip).getD ⟨0, 0⟩ = (currentState t ip).seen := by
  rw [checkedCurrentState, AttemptState.seen]
  split <;> rfl

theorem exists_recordFailure : ∃ row : AuthAttemptRow, row.ip = ip ∧
    (recordFailure t ip now).2 = KeyTable.put t row ∧
    (⟨row.failedCount, row.lockoutUntil⟩ : AttemptState) = (currentState t ip).fail now := by
  rcases h : KeyTable.find t ip with - | row
  · exact ⟨_, rfl, by rw [recordFailure, h], by rw [currentState, h]; rfl⟩
  · exact ⟨_, rfl, by rw [recordFailure, h], by rw [currentState, h]; rfl⟩

/-- **A recorded failure** counts one more for its client and nothing for the others. -/
theorem currentState_recordFailure (ip' : String) :
    currentState (recordFailure t ip now).2 ip' =
      if ip = ip' then (currentState t ip).fail now else currentState t ip' := by
  obtain ⟨row, rfl, ht, hrow⟩ := exists_recordFailure t ip now
  rw [ht, currentState, KeyTable.find_put]
  by_cases h : row.ip = ip'
  · rw [if_pos h, if_pos h, ← hrow]
  · rw [if_neg h, if_neg h]
    rfl

theorem recordFailure_fst : (recordFailure t ip now).1 = (currentState t ip).fail now :=
  (currentState_recordFailure t ip now ip).trans (if_pos rfl)

/-- **A recorded success** resets its client and nothing else. -/
theorem currentState_recordSuccess (ip' : String) :
    currentState (recordSuccess t ip) ip' =
      if ip = ip' then .initial else currentState t ip' := by
  rw [recordSuccess, currentState, KeyTable.find_erase]
  by_cases h : ip = ip'
  · rw [if_pos h, if_pos h]
    rfl
  · rw [if_neg h, if_neg h]
    rfl

end AuthAttempts

end CommunitySearch
