import CommunitySearch.Federation.Fanout

/-!
# The events of the search stream

Every event of the stream is one of three: a result, the end of a source, the end of the stream.
`streamEvents` is the sequence a search is meant to produce, as a function of the local results and
of the peers' outcomes in completion order: the blocks of the sources one after the other, then
`done`.
-/

namespace CommunitySearch

/-- A single event emitted on the search stream. -/
inductive SseEvent where
  /-- A search result from any source. -/
  | result (r : SearchResult)
  /-- All results from the named source have been delivered. -/
  | sourceComplete (source : String)
  /-- The search stream has ended; no more events will follow. -/
  | done

namespace SseEvent

/-- The SSE event name. -/
def name : SseEvent → String
  | result _ => "result"
  | sourceComplete _ => "source_complete"
  | done => "done"

/-- The result an event carries. -/
def result? : SseEvent → Option SearchResult
  | result r => some r
  | sourceComplete _ | done => none

/-- The event as a value, tagged with its name. -/
def toJson (text : JsonText) : SseEvent → Json
  | result r => .object (("type", .string "result") :: r.toFields text)
  | sourceComplete source =>
    .object [("type", .string "source_complete"), ("source", .string source)]
  | done => .object [("type", .string "done")]

/-- The SSE `data:` field. -/
def dataJson (text : JsonText) (event : SseEvent) : String := text.write (event.toJson text)

end SseEvent

/-- What a source sends: its results, and that it is complete. -/
def sourceBlock (results : List SearchResult) (source : String) : List SseEvent :=
  results.map .result ++ [.sourceComplete source]

namespace PeerOutcome

/-- The results of a peer; none when it failed. -/
def results (o : PeerOutcome) : List SearchResult := o.result.toOption.getD []

/-- What a peer contributes to the stream. -/
def block (o : PeerOutcome) : List SseEvent :=
  match o.result with
  | .ok results => sourceBlock results o.sourceLabel
  | .error _ => []

end PeerOutcome

/-- **The stream of a search.** -/
def streamEvents (localResults : List SearchResult) (outcomes : List PeerOutcome) :
    List SseEvent :=
  sourceBlock localResults "local" ++ outcomes.flatMap PeerOutcome.block ++ [.done]

/-! ### `done` comes last -/

theorem done_not_mem_sourceBlock (results : List SearchResult) (source : String) :
    SseEvent.done ∉ sourceBlock results source := by
  rw [sourceBlock, List.mem_append, List.mem_map, List.mem_singleton]
  rintro (⟨r, -, h⟩ | h)
  · cases h
  · cases h

theorem PeerOutcome.done_not_mem_block (o : PeerOutcome) : SseEvent.done ∉ o.block := by
  rw [block]
  split
  case h_1 results _ => exact done_not_mem_sourceBlock results _
  case h_2 => exact List.not_mem_nil

/-- `done` is the last event of a stream, and no other. -/
theorem exists_streamEvents_eq (localResults : List SearchResult) (outcomes : List PeerOutcome) :
    ∃ events, streamEvents localResults outcomes = events ++ [.done] ∧ SseEvent.done ∉ events := by
  refine ⟨_, rfl, fun h ↦ ?_⟩
  rcases List.mem_append.1 h with h | h
  · exact done_not_mem_sourceBlock _ _ h
  · obtain ⟨o, -, ho⟩ := List.mem_flatMap.1 h
    exact o.done_not_mem_block ho

/-! ### The results in a stream -/

theorem filterMap_result?_sourceBlock (results : List SearchResult) (source : String) :
    (sourceBlock results source).filterMap SseEvent.result? = results := by
  rw [sourceBlock, List.filterMap_append, List.filterMap_map]
  exact (List.append_nil _).trans List.filterMap_some

theorem PeerOutcome.filterMap_result?_block (o : PeerOutcome) :
    o.block.filterMap SseEvent.result? = o.results := by
  rw [block, results]
  split
  case h_1 results h =>
    rw [h]
    exact filterMap_result?_sourceBlock results _
  case h_2 e h =>
    rw [h]
    rfl

/-- A stream delivers what its sources have found. -/
theorem filterMap_result?_streamEvents (localResults : List SearchResult)
    (outcomes : List PeerOutcome) :
    (streamEvents localResults outcomes).filterMap SseEvent.result? =
      localResults ++ outcomes.flatMap PeerOutcome.results := by
  have hpeers : (outcomes.flatMap PeerOutcome.block).filterMap SseEvent.result? =
      outcomes.flatMap PeerOutcome.results := by
    rw [List.filterMap_flatMap]
    exact congrArg (outcomes.flatMap ·) (funext PeerOutcome.filterMap_result?_block)
  rw [streamEvents, List.filterMap_append, List.filterMap_append, filterMap_result?_sourceBlock,
    hpeers]
  exact List.append_nil _

end CommunitySearch
