import CommunitySearch.Api.AuthAttempts
import CommunitySearch.Foundation.Text

/-!
# The admin token

The middleware that guards the admin routes, and the client key it shares with the rate limiter.

Nothing is read of a header value but what `to_str` makes of it, so that is what a value is here.
The middleware takes the lock of the database twice, once to look the attempts up and once to record
the outcome; `requireAdminToken` is a request that runs without another in between, and the three
steps it is made of are definitions of their own (`isLockedOut`, `isAuthorized`, `recordOutcome`),
for the runs in which requests overlap.
-/

namespace CommunitySearch

/-- A header value as `HeaderValue::to_str` reads it; `none` is a value that is not text. -/
abbrev HeaderValue := Option String

/-- The headers of a request: names in lower case, in order. -/
abbrev HeaderMap := List (String × HeaderValue)

/-- The first value of a header. -/
def HeaderMap.get (headers : HeaderMap) (name : String) : Option HeaderValue :=
  List.lookup name headers

/-- The address of a client's socket; `ip` is in its textual form. -/
structure SocketAddr where
  ip : String
  port : Nat
deriving DecidableEq

/-- A request as a middleware sees it. -/
structure Request where
  headers : HeaderMap
  /-- The `ConnectInfo` extension, when the server was bound to provide it. -/
  connectInfo : Option SocketAddr

/-! ### Public helpers -/

/-- `extract_bearer`. -/
def extractBearer (authorization : String) : Option String :=
  let scheme := authorization.toList.takeWhile (· != ' ')
  match authorization.toList.dropWhile (· != ' ') with
  | [] => none
  | _ :: rest =>
    if Text.eqIgnoreAsciiCase (.ofList scheme) "bearer" then
      let token := Text.trim (.ofList rest)
      if token.isEmpty then none else some token
    else none

/-- The bits in which two slices of equal length differ, or-ed into `diff`. -/
def diffBits (diff : UInt8) : List UInt8 → List UInt8 → UInt8
  | x :: a, y :: b => diffBits (diff ||| (x ^^^ y)) a b
  | _, _ => diff

/-- `constant_time_eq`. -/
def constantTimeEq (a b : List UInt8) : Bool :=
  if a.length ≠ b.length then false else diffBits 0 a b == 0

theorem diffBits_eq_zero {a b : List UInt8} (h : a.length = b.length) (diff : UInt8) :
    diffBits diff a b = 0 ↔ diff = 0 ∧ a = b := by
  induction a generalizing b diff with
  | nil =>
    obtain rfl := List.length_eq_zero_iff.1 h.symm
    simp [diffBits]
  | cons x a ih =>
    obtain ⟨y, b, rfl⟩ := List.exists_cons_of_length_eq_add_one h.symm
    rw [diffBits, ih (Nat.succ.inj h), UInt8.or_eq_zero_iff, UInt8.xor_eq_zero_iff, List.cons.injEq,
      and_assoc]

/-- **`constant_time_eq` is equality.** -/
theorem constantTimeEq_iff {a b : List UInt8} : constantTimeEq a b = true ↔ a = b := by
  rw [constantTimeEq]
  split
  case isTrue h =>
    constructor
    · rintro ⟨⟩
    · rintro rfl
      exact absurd rfl h
  case isFalse h => rw [beq_iff_eq, diffBits_eq_zero (not_not.1 h), and_iff_right rfl]

/-! ### The client key -/

/-- The client an `X-Forwarded-For` header names: its first entry, unless that is blank. -/
def forwardedFor (headers : HeaderMap) : Option String :=
  (headers.get "x-forwarded-for").join.bind fun s ↦
    let first := Text.trim (.ofList (s.toList.takeWhile (· != ',')))
    if first.isEmpty then none else some first

/-- `client_ip`. -/
def clientIp (req : Request) : String :=
  match forwardedFor req.headers with
  | some first => first
  | none =>
    match req.connectInfo with
    | some addr => addr.ip
    | none => "unknown"

/-! ### The middleware -/

/-- The token a request presents. -/
def presentedToken (headers : HeaderMap) : Option String :=
  (headers.get "authorization").join.bind extractBearer

/-- The bytes of a string. -/
def bytes (s : String) : List UInt8 := s.toUTF8.data.toList

/-- Step 2: validate the bearer token. -/
def isAuthorized (adminToken : String) (headers : HeaderMap) : Bool :=
  ((presentedToken headers).map fun presented ↦
    constantTimeEq (bytes presented) (bytes adminToken)).getD false

/-- What the middleware decides about a request. -/
inductive AdminVerdict where
  /-- `429`, with the seconds that remain. -/
  | lockedOut (secondsRemaining : Int)
  /-- The request is passed on to its handler. -/
  | authorized
  /-- `401`. -/
  | unauthorized
deriving DecidableEq

/-- A response of a middleware. -/
structure Response where
  status : Nat
  headers : List (String × String)
  body : String
deriving DecidableEq

/-- The response to a request that is not passed on. -/
def AdminVerdict.response : AdminVerdict → Option Response
  | .lockedOut secondsRemaining =>
    some ⟨429, [("retry-after", toString secondsRemaining)], "too many failed attempts"⟩
  | .authorized => none
  | .unauthorized => some ⟨401, [("www-authenticate", "Bearer realm=\"admin\"")], "unauthorized"⟩

/-- Step 1: the lockout check. -/
def isLockedOut (attempt : AttemptState) (now : Int) : Bool := attempt.lockoutUntil > now

/-- Step 3: record the outcome of the validation. -/
def recordOutcome (t : AuthAttempts) (ip : String) (now : Int) (authorized : Bool) : AuthAttempts :=
  if authorized then t.recordSuccess ip else (t.recordFailure ip now).2

/-- `require_admin_token`. -/
def requireAdminToken (adminToken : String) (t : AuthAttempts) (now : Int) (req : Request) :
    AdminVerdict × AuthAttempts :=
  let ip := clientIp req
  let attempt := (t.checkedCurrentState ip).getD ⟨0, 0⟩
  if isLockedOut attempt now then (.lockedOut (attempt.lockoutUntil - now), t)
  else
    let authorized := isAuthorized adminToken req.headers
    (if authorized then .authorized else .unauthorized, recordOutcome t ip now authorized)

namespace AttemptState

/-- What a request does to the attempts of its client. -/
def attempt (s : AttemptState) (now : Int) (authorized : Bool) : AdminVerdict × AttemptState :=
  if isLockedOut s.seen now then (.lockedOut (s.seen.lockoutUntil - now), s)
  else if authorized then (.authorized, .initial)
  else (.unauthorized, s.fail now)

end AttemptState

theorem currentState_recordOutcome (t : AuthAttempts) (ip : String) (now : Int) (authorized : Bool)
    (ip' : String) : (recordOutcome t ip now authorized).currentState ip' =
      if ip = ip' then (if authorized then .initial else (t.currentState ip).fail now)
      else t.currentState ip' := by
  cases authorized with
  | true => exact t.currentState_recordSuccess ip ip'
  | false => exact t.currentState_recordFailure ip now ip'

/-- **The middleware as a service**: a request concerns the attempts of its own client only. The
input is the time and whether the token is right. -/
def authService : KeyedService AuthAttempts String AttemptState (Int × Bool) AdminVerdict where
  read := AuthAttempts.currentState
  step s input := some (s.attempt input.1 input.2)
  call t ip input :=
    let attempt := (t.currentState ip).seen
    if isLockedOut attempt input.1 then some (.lockedOut (attempt.lockoutUntil - input.1), t)
    else some (if input.2 then .authorized else .unauthorized,
      recordOutcome t ip input.1 input.2)
  call_step t ip input := by
    unfold AttemptState.attempt
    dsimp only
    by_cases hl : isLockedOut (t.currentState ip).seen input.1 = true
    · rw [if_pos hl, if_pos hl]
      rfl
    · rw [if_neg hl, if_neg hl, Option.map_some, currentState_recordOutcome, if_pos rfl]
      split <;> rfl
  call_frame {t ip input r} h ip' hne := by
    dsimp only at h
    by_cases hl : isLockedOut (t.currentState ip).seen input.1 = true
    · rw [if_pos hl] at h
      obtain rfl := Option.some.inj h
      rfl
    · rw [if_neg hl] at h
      obtain rfl := Option.some.inj h
      rw [currentState_recordOutcome, if_neg (Ne.symm hne)]

theorem call_authService (adminToken : String) (t : AuthAttempts) (now : Int) (req : Request) :
    authService.call t (clientIp req) (now, isAuthorized adminToken req.headers) =
      some (requireAdminToken adminToken t now req) := by
  rw [requireAdminToken, AuthAttempts.getD_checkedCurrentState]
  dsimp only [authService]
  split <;> rfl

end CommunitySearch
