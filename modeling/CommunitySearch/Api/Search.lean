import CommunitySearch.Api.Auth
import CommunitySearch.Federation.Fanout

/-!
# The search endpoints

What the four ways to ask for a search make of their arguments: `POST /api/search`, which streams
or, for a client that asks for JSON, collects; `GET /api/search`; and the `search` tool of the MCP
endpoint. A request that is not refused becomes a `SearchCall`, the arguments of the code that
searches.
-/

namespace CommunitySearch

/-- Maximum number of results of a search of the local index. -/
def SEARCH_LIMIT : Nat := 25

/-- Maximum fan-out depth of the paths that collect. -/
def MAX_FANOUT_DEPTH : UInt32 := 2

/-- How the results of a search are delivered. -/
inductive Delivery where
  /-- As an event stream, by the task `search_handler` spawns. -/
  | stream
  /-- As one value, by `collect_search`. -/
  | collect
deriving DecidableEq

/-- A search that has passed the checks of its endpoint. -/
structure SearchCall where
  delivery : Delivery
  request : SearchRequest
deriving DecidableEq

/-- Why a search is refused. -/
structure SearchError where
  code : Int
  message : String
deriving DecidableEq

/-- `wants_json`. -/
def wantsJson (headers : HeaderMap) : Bool :=
  match (headers.get "accept").join with
  | some accept =>
    Text.contains accept "application/json" && !Text.contains accept "text/event-stream"
  | none => false

/-- `run_json_search` up to the search. -/
def runJsonSearch (query : String) (collection : Option String) (depth : UInt32) : SearchCall :=
  ⟨.collect, ⟨query, collection, min depth MAX_FANOUT_DEPTH⟩⟩

/-- `search_handler`: `POST /api/search`. -/
def searchHandler (headers : HeaderMap) (req : SearchRequest) : Except SearchError SearchCall :=
  if (Text.trim req.query).isEmpty then .error ⟨400, "query is required"⟩
  else if wantsJson headers then .ok (runJsonSearch (Text.trim req.query) req.collection req.depth)
  else .ok ⟨.stream, req⟩

/-- `search_get`: `GET /api/search`. -/
def searchGet (q : String) (collection : Option String) (depth : UInt32) :
    Except SearchError SearchCall :=
  let query := Text.trim q
  if query.isEmpty then .error ⟨400, "query parameter \x60q\x60 is required"⟩
  else .ok (runJsonSearch query collection depth)

/-- `tools_call`: the `search` tool, with the arguments as the caller gives them; a missing
argument is `none`. -/
def toolsCall (query collection : Option String) (depth : Option UInt64) :
    Except SearchError SearchCall :=
  let query := Text.trim (query.getD "")
  if query.isEmpty then .error ⟨-32602, "missing required argument: \x60query\x60"⟩
  else .ok ⟨.collect, ⟨query, collection.filter fun s ↦ !s.isEmpty,
    (min (depth.getD 0) MAX_FANOUT_DEPTH.toUInt64).toUInt32⟩⟩

/-- The peers a search is forwarded to. -/
def SearchCall.peers (t : FederationTables) (call : SearchCall) : List ActiveCollectionPeer :=
  if call.request.depth > 0 then
    activeCollectionPeersFor t (call.request.collection.getD "")
  else []

/-- The requests a search is forwarded as. -/
def SearchCall.forwards (t : FederationTables) (call : SearchCall) :
    List (ActiveCollectionPeer × SearchRequest) :=
  dispatch (call.peers t) call.request (outgoingDepth call.request.depth)

end CommunitySearch
