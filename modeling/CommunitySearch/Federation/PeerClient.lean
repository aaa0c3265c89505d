import CommunitySearch.Api.Sse

/-!
# The HTTP client of the peers

`HttpPeerClient` reads the response of a peer as a stream of server-sent events. The decoder of the
stream is a library's, and the model starts from what it yields: events, each with a name and data,
and errors. A comment yields nothing, and neither does an event the stream breaks off in.
-/

namespace CommunitySearch

/-- A server-sent event, decoded. -/
structure Frame where
  event : String
  data : String
deriving DecidableEq

/-- How an event of the search stream is sent. -/
def SseEvent.frame (text : JsonText) (event : SseEvent) : Frame :=
  ⟨event.name, event.dataJson text⟩

/-- How a response goes on after the last event. -/
inductive StreamEnd where
  | closed
  /-- The connection is held open; the timeout of the client is an error of the stream. -/
  | held
deriving DecidableEq

/-- The response of a peer. -/
structure PeerResponse where
  status : Nat
  /-- What the decoder yields; an error is one of the transport, or of the encoding. -/
  frames : List (Except String Frame)
  ending : StreamEnd

/-- Why a search of a peer fails. -/
inductive PeerError where
  | send (message : String)
  | status (code : Nat)
  | stream (message : String)
  | timedOut
  | json

namespace HttpPeerClient

variable (text : JsonText)

/-- `serde_json::from_str` of a result. -/
def readResult (data : String) : Option SearchResult :=
  (text.read data).bind (SearchResult.ofJson text)

/-- The loop over the stream; `out` are the results so far. -/
def consume (out : List SearchResult) (ending : StreamEnd) :
    List (Except String Frame) → Except PeerError (List SearchResult)
  | [] =>
    match ending with
    | .closed => .ok out
    | .held => .error .timedOut
  | .error e :: _ => .error (.stream e)
  | .ok frame :: frames =>
    if frame.event = "result" then
      match readResult text frame.data with
      | some r => consume (out ++ [r]) ending frames
      | none => .error .json
    else if frame.event = "complete" then .ok out
    else consume out ending frames

/-- `search`, once the request has been sent. -/
def search : Except String PeerResponse → Except PeerError (List SearchResult)
  | .error e => .error (.send e)
  | .ok resp =>
    if 200 ≤ resp.status ∧ resp.status < 300 then consume text [] resp.ending resp.frames
    else .error (.status resp.status)

end HttpPeerClient

end CommunitySearch
