import CommunitySearch.Api.Search
import CommunitySearch.Api.Sse
import CommunitySearch.Foundation.Machine

/-!
# The streaming search

The task `search_handler` spawns, as a machine: it awaits the local search, sends what it has found,
forwards the search to the peers, and sends what each of them has found as they complete. In between
the client takes events from the channel, or goes away; the channel holds 64 events, and a send
waits for room as long as there is somebody to receive. A send to a client that has gone is an error
the task ignores.

The mutex of the database may be poisoned by another task at any moment. The task panics when it
then takes the lock.
-/

namespace CommunitySearch

/-- Capacity of the channel between the task and the response. -/
def STREAM_CAPACITY : Nat := 64

/-- What `spawn_blocking` returns of a local search. -/
inductive LocalOutcome where
  | found (results : List SearchResult)
  | error (message : String)
  /-- The search has panicked. -/
  | joinError
deriving Inhabited

/-- The results of a local search; an error is logged and counts as none. -/
def LocalOutcome.results : LocalOutcome → List SearchResult
  | found results => results
  | error _ | joinError => []

/-- A request to a peer that has completed. -/
structure Completion where
  peer : ActiveCollectionPeer
  request : SearchRequest
  answer : Except String (List SearchResult)
  elapsedMs : Int

namespace Completion

def outcome (c : Completion) : PeerOutcome := c.peer.outcome c.answer c.elapsedMs

/-- The request that was dispatched. -/
def dispatched (c : Completion) : ActiveCollectionPeer × SearchRequest := (c.peer, c.request)

end Completion

/-- The arguments of a call of `record_result`. -/
structure HealthRecord where
  nodePeerId : Int
  success : Bool
  responseMs : Option Int
deriving DecidableEq

/-- What is recorded of an outcome. -/
def PeerOutcome.health (o : PeerOutcome) : HealthRecord :=
  ⟨o.nodePeerId, o.result.isOk, some o.elapsedMs⟩

/-- Where the task is. -/
inductive StreamPhase where
  /-- Awaiting the local search. -/
  | searching
  /-- In the loop over the local results, and `source_complete` after it. -/
  | sendLocal (rest : List SearchResult)
  /-- Before the lookup of the peers. -/
  | lookup
  /-- Awaiting the next outcome. -/
  | awaitPeer
  /-- Before the outcome is recorded. -/
  | record (c : Completion)
  /-- In the loop over a peer's results, and `source_complete` after it. -/
  | sendPeer (rest : List SearchResult) (source : String)
  /-- Before `done`. -/
  | sendDone
  | finished
  /-- The task has panicked at the given place. -/
  | panicked (place : StreamPhase)

namespace StreamPhase

/-- The event the task is sending, and where it goes on. -/
def sending (depth : UInt32) : StreamPhase → Option (SseEvent × StreamPhase)
  | sendLocal (r :: rest) => some (.result r, sendLocal rest)
  | sendLocal [] => some (.sourceComplete "local", if depth > 0 then lookup else sendDone)
  | sendPeer (r :: rest) source => some (.result r, sendPeer rest source)
  | sendPeer [] source => some (.sourceComplete source, awaitPeer)
  | sendDone => some (.done, finished)
  | searching | lookup | awaitPeer | record _ | finished | panicked _ => none

/-- Where the task goes on after an outcome has been recorded; an error is logged. -/
def afterRecord (c : Completion) : StreamPhase :=
  match c.outcome.result with
  | .ok results => sendPeer results c.outcome.sourceLabel
  | .error _ => awaitPeer

end StreamPhase

/-- A search that is streamed. The last four fields are its history. -/
structure SearchStream where
  request : SearchRequest
  phase : StreamPhase
  /-- The requests to peers that have not completed. -/
  outstanding : List (ActiveCollectionPeer × SearchRequest)
  channel : List SseEvent
  /-- The client is there. -/
  connected : Bool
  /-- The mutex of the database is poisoned. -/
  poisoned : Bool
  /-- The events the client has taken. -/
  received : List SseEvent
  /-- The local results, once there are any. -/
  localResults : List SearchResult
  /-- The events sent, whether or not anybody received them. -/
  sent : List SseEvent
  dispatched : List (ActiveCollectionPeer × SearchRequest)
  /-- The requests completed, in order. -/
  completed : List Completion
  /-- The calls of `record_result`. -/
  recorded : List HealthRecord

/-- The steps of the task and of those it deals with. -/
inductive StreamLabel where
  /-- The local search returns. -/
  | localSearch (outcome : LocalOutcome)
  /-- A send goes through. -/
  | send
  /-- The peers are looked up; `none` is an error of the database. -/
  | lookup (t : Option FederationTables)
  /-- The `i`-th request outstanding completes. -/
  | complete (i : Nat) (answer : Except String (List SearchResult)) (elapsedMs : Int)
  /-- All requests have completed. -/
  | exhausted
  /-- The outcome is recorded. -/
  | record
  /-- The client takes an event. -/
  | receive
  /-- The client goes away. -/
  | disconnect
  /-- Another task panics while it holds the lock of the database. -/
  | poison

namespace SearchStream

/-- The task just spawned. -/
def spawn (request : SearchRequest) : SearchStream where
  request := request
  phase := .searching
  outstanding := []
  channel := []
  connected := true
  poisoned := false
  received := []
  localResults := []
  sent := []
  dispatched := []
  completed := []
  recorded := []

variable (s : SearchStream)

/-- A send waits while the channel is full and somebody receives. -/
def send : Option SearchStream :=
  (s.phase.sending s.request.depth).bind fun (event, next) ↦
    if s.connected = false then some { s with phase := next, sent := s.sent ++ [event] }
    else if s.channel.length < STREAM_CAPACITY then
      some { s with phase := next, sent := s.sent ++ [event], channel := s.channel ++ [event] }
    else none

/-- What the task does with the lock of the database; it panics when the mutex is poisoned. -/
def locked (s' : SearchStream) : SearchStream :=
  if s.poisoned then { s with phase := .panicked s.phase } else s'

/-- The task goes on after the lookup of the peers. -/
def dispatchTo (t : Option FederationTables) : SearchStream :=
  let forwards := (t.map fun t ↦ SearchCall.forwards t ⟨.stream, s.request⟩).getD []
  { s with phase := .awaitPeer, outstanding := forwards, dispatched := forwards }

/-- The task takes the outcome of a request. -/
def take (i : Nat) (answer : Except String (List SearchResult)) (elapsedMs : Int) :
    Option SearchStream :=
  s.outstanding[i]?.map fun (peer, request) ↦
    let c : Completion := ⟨peer, request, answer, elapsedMs⟩
    { s with
      phase := .record c
      outstanding := s.outstanding.eraseIdx i
      completed := s.completed ++ [c] }

/-- The task goes on after an outcome has been recorded. -/
def recordOutcome (c : Completion) : SearchStream :=
  { s with phase := .afterRecord c, recorded := s.recorded ++ [c.outcome.health] }

/-- One step. -/
def step : StreamLabel → Option SearchStream
  | .localSearch outcome =>
    match s.phase with
    | .searching =>
      some { s with phase := .sendLocal outcome.results, localResults := outcome.results }
    | _ => none
  | .send => s.send
  | .lookup t =>
    match s.phase with
    | .lookup => some (s.locked (s.dispatchTo t))
    | _ => none
  | .complete i answer elapsedMs =>
    match s.phase with
    | .awaitPeer => s.take i answer elapsedMs
    | _ => none
  | .exhausted =>
    match s.phase, s.outstanding with
    | .awaitPeer, [] => some { s with phase := .sendDone }
    | _, _ => none
  | .record =>
    match s.phase with
    | .record c => some (s.locked (s.recordOutcome c))
    | _ => none
  | .receive =>
    match s.channel with
    | event :: channel => some { s with channel := channel, received := s.received ++ [event] }
    | [] => none
  | .disconnect => if s.connected then some { s with connected := false, channel := [] } else none
  | .poison => if s.poisoned then none else some { s with poisoned := true }

/-- The machine. -/
def machine : Machine SearchStream StreamLabel := ⟨step⟩

end SearchStream

end CommunitySearch
