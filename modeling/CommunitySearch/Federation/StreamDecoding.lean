import CommunitySearch.Api.StreamGrammar
import CommunitySearch.Federation.PeerClient

/-!
# Decoding the search stream

What the client of a peer makes of a stream that the streaming search has sent, when anything at all
follows it. The stream ends with `done`; the client stops at an event named `complete`, which no
engine sends, and goes past `done` as past an event it does not know. So it depends on what follows
(`Tail.Silent`) whether the client returns the results of the stream; and it depends on their
scores, since a number that is not finite is not written as one.
-/

namespace CommunitySearch

/-- What follows the stream on the wire. -/
structure Tail where
  frames : List (Except String Frame)
  ending : StreamEnd

namespace Tail

/-- The item is not the event the client stops at. -/
def goesOn : Except String Frame → Bool
  | .ok frame => frame.event ≠ "complete"
  | .error _ => true

/-- **What follows adds nothing**: up to the first `complete` there is no error and no further
result, and if there is none the connection is closed. -/
structure Silent (t : Tail) : Prop where
  quiet : ∀ item ∈ t.frames.takeWhile goesOn, ∃ frame, item = .ok frame ∧ frame.event ≠ "result"
  ends : t.ending = .closed ∨ ∃ frame, .ok frame ∈ t.frames ∧ frame.event = "complete"

variable {frames : List (Except String Frame)} {ending : StreamEnd}

theorem silent_nil : Silent ⟨[], ending⟩ ↔ ending = .closed := by
  refine ⟨fun h ↦ h.ends.resolve_right ?_, fun h ↦ ⟨nofun, Or.inl h⟩⟩
  rintro ⟨frame, hmem, -⟩
  exact absurd hmem List.not_mem_nil

theorem not_silent_error {e : String} : ¬ Silent ⟨.error e :: frames, ending⟩ := by
  intro h
  obtain ⟨frame, hframe, -⟩ := h.quiet (.error e) (List.mem_cons_self ..)
  cases hframe

theorem silent_complete {frame : Frame} (h : frame.event = "complete") :
    Silent ⟨.ok frame :: frames, ending⟩ := by
  have hstop : goesOn (.ok frame) = false := by
    rw [goesOn, h]
    rfl
  refine ⟨fun item hitem ↦ ?_, Or.inr ⟨frame, List.mem_cons_self .., h⟩⟩
  rw [List.takeWhile_cons, hstop] at hitem
  exact absurd hitem List.not_mem_nil

theorem silent_cons {frame : Frame} (h : frame.event ≠ "complete") :
    Silent ⟨.ok frame :: frames, ending⟩ ↔ frame.event ≠ "result" ∧ Silent ⟨frames, ending⟩ := by
  have hgoes : goesOn (.ok frame) = true := decide_eq_true h
  constructor
  · rintro ⟨hquiet, hends⟩
    dsimp only at hquiet
    rw [List.takeWhile_cons, if_pos hgoes] at hquiet
    obtain ⟨⟨frame', hframe, hresult⟩, hrest⟩ := List.forall_mem_cons.1 hquiet
    obtain rfl := Except.ok.inj hframe
    refine ⟨hresult, hrest, hends.imp_right ?_⟩
    rintro ⟨frame', hmem, hcomplete⟩
    rcases List.mem_cons.1 hmem with hframe | hmem
    · obtain rfl := Except.ok.inj hframe
      exact absurd hcomplete h
    · exact ⟨frame', hmem, hcomplete⟩
  · rintro ⟨hresult, hquiet, hends⟩
    refine ⟨?_, hends.imp_right fun ⟨frame', hmem, hcomplete⟩ ↦
      ⟨frame', List.mem_cons_of_mem _ hmem, hcomplete⟩⟩
    dsimp only
    rw [List.takeWhile_cons, if_pos hgoes]
    exact List.forall_mem_cons.2 ⟨⟨frame, rfl, hresult⟩, hquiet⟩

end Tail

namespace HttpPeerClient

variable {text : JsonText} {ending : StreamEnd} {out results : List SearchResult}

/-! ### One event at a time -/

theorem consume_result {frame : Frame} {frames : List (Except String Frame)} {r : SearchResult}
    (h : frame.event = "result") (hread : readResult text frame.data = some r) :
    consume text out ending (.ok frame :: frames) = consume text (out ++ [r]) ending frames := by
  rw [consume, if_pos h, hread]

theorem consume_bad_result {frame : Frame} {frames : List (Except String Frame)}
    (h : frame.event = "result") (hread : readResult text frame.data = none) :
    consume text out ending (.ok frame :: frames) = .error .json := by
  rw [consume, if_pos h, hread]

theorem consume_other {frame : Frame} {frames : List (Except String Frame)}
    (h : frame.event ≠ "result") (h' : frame.event ≠ "complete") :
    consume text out ending (.ok frame :: frames) = consume text out ending frames := by
  rw [consume, if_neg h, if_neg h']

/-- Results are only added. -/
theorem prefix_of_consume {frames : List (Except String Frame)}
    (h : consume text out ending frames = .ok results) : out <+: results := by
  induction frames generalizing out with
  | nil =>
    cases ending with
    | closed => exact Except.ok.inj h ▸ List.prefix_refl _
    | held => cases h
  | cons item frames ih =>
    cases item with
    | error e => cases h
    | ok frame =>
      by_cases hresult : frame.event = "result"
      · cases hread : readResult text frame.data with
        | none =>
          rw [consume_bad_result hresult hread] at h
          cases h
        | some r =>
          rw [consume_result hresult hread] at h
          exact (List.prefix_append _ _).trans (ih h)
      · by_cases hcomplete : frame.event = "complete"
        · rw [consume, if_neg hresult, if_pos hcomplete] at h
          exact Except.ok.inj h ▸ List.prefix_refl _
        · rw [consume_other hresult hcomplete] at h
          exact ih h

/-- **What follows the stream** adds nothing exactly if it is silent. -/
theorem consume_tail_eq_ok_iff (tail : Tail) :
    consume text out tail.ending tail.frames = .ok out ↔ tail.Silent := by
  obtain ⟨frames, ending⟩ := tail
  induction frames with
  | nil =>
    rw [Tail.silent_nil]
    cases ending with
    | closed => exact ⟨fun _ ↦ rfl, fun _ ↦ rfl⟩
    | held => exact ⟨nofun, nofun⟩
  | cons item frames ih =>
    cases item with
    | error e => exact ⟨nofun, fun h ↦ absurd h Tail.not_silent_error⟩
    | ok frame =>
      dsimp only at ih ⊢
      by_cases hcomplete : frame.event = "complete"
      · have hresult : frame.event ≠ "result" := by
          rw [hcomplete]
          decide
        rw [consume, if_neg hresult, if_pos hcomplete]
        exact ⟨fun _ ↦ Tail.silent_complete hcomplete, fun _ ↦ rfl⟩
      · rw [Tail.silent_cons hcomplete]
        by_cases hresult : frame.event = "result"
        · refine ⟨fun h ↦ ?_, fun h ↦ absurd hresult h.1⟩
          cases hread : readResult text frame.data with
          | none =>
            rw [consume_bad_result hresult hread] at h
            cases h
          | some r =>
            rw [consume_result hresult hread] at h
            have hle := (prefix_of_consume h).length_le
            rw [List.length_append, List.length_singleton] at hle
            omega
        · rw [consume_other hresult hcomplete, ih]
          exact ⟨fun h ↦ ⟨hresult, h⟩, And.right⟩

/-! ### The events of the stream -/

theorem readResult_frame {r : SearchResult}
    (h : text.read (text.write ((SseEvent.result r).toJson text)) =
      some ((SseEvent.result r).toJson text)) :
    readResult text ((SseEvent.result r).frame text).data =
      (text.asFloat (text.float r.score)).map fun score ↦ { r with score := score } := by
  show (text.read (text.write _)).bind _ = _
  rw [h, Option.bind_some]
  exact SearchResult.ofJson_tagged text r _

/-- **The events of a stream** are read as its results exactly if the scores are kept; what follows
is then read after them. -/
theorem consume_events_eq_ok_iff {events : List SseEvent}
    (hreads : text.Reads (events.map (SseEvent.toJson text)))
    {rest : List (Except String Frame)} :
    consume text out ending (events.map (fun e ↦ .ok (e.frame text)) ++ rest) =
        .ok (out ++ events.filterMap SseEvent.result?) ↔
      (∀ r ∈ events.filterMap SseEvent.result?, text.Keeps r.score) ∧
        consume text (out ++ events.filterMap SseEvent.result?) ending rest =
          .ok (out ++ events.filterMap SseEvent.result?) := by
  induction events generalizing out with
  | nil =>
    have hnone : ([] : List SseEvent).filterMap SseEvent.result? = [] := rfl
    rw [hnone, List.append_nil]
    exact ⟨fun h ↦ ⟨nofun, h⟩, And.right⟩
  | cons event events ih =>
    obtain ⟨hread, hrest⟩ := List.forall_mem_cons.1 hreads
    cases event with
    | result r =>
      have hresults : (SseEvent.result r :: events).filterMap SseEvent.result? =
          r :: events.filterMap SseEvent.result? := rfl
      have hsplit : out ++ r :: events.filterMap SseEvent.result? =
          out ++ [r] ++ events.filterMap SseEvent.result? := by
        rw [List.append_assoc]
        rfl
      have hread := readResult_frame hread
      rw [hresults, List.forall_mem_cons, ← text.asFloat_float_eq_some_iff, hsplit, List.map_cons,
        List.cons_append]
      cases hkeep : text.asFloat (text.float r.score) with
      | none =>
        rw [hkeep, Option.map_none] at hread
        rw [consume_bad_result rfl hread]
        exact ⟨nofun, fun h ↦ nomatch h.1.1⟩
      | some score =>
        rw [hkeep, Option.map_some] at hread
        rw [consume_result rfl hread]
        by_cases hscore : score = r.score
        · subst hscore
          rw [ih hrest]
          exact ⟨fun h ↦ ⟨⟨rfl, h.1⟩, h.2⟩, fun h ↦ ⟨h.1.2, h.2⟩⟩
        · refine ⟨fun h ↦ absurd ?_ hscore, fun h ↦ absurd (Option.some.inj h.1.1) hscore⟩
          obtain ⟨more, hmore⟩ := prefix_of_consume h
          rw [List.append_assoc, List.append_assoc] at hmore
          have hhead := (List.cons.inj (List.append_cancel_left hmore)).1
          exact congrArg SearchResult.score hhead
    | sourceComplete source => exact ih hrest
    | done => exact ih hrest

end HttpPeerClient

/-! ### The streams of the handler -/

/-- The events of a stream that precede `done`. -/
def SseEvent.beforeDone (stream : List SseEvent) : List SseEvent :=
  stream.takeWhile fun event ↦ event.name ≠ "done"

theorem SseEvent.beforeDone_streamEvents (localResults : List SearchResult)
    (outcomes : List PeerOutcome) :
    streamEvents localResults outcomes =
      beforeDone (streamEvents localResults outcomes) ++ [.done] := by
  obtain ⟨events, heq, hdone⟩ := exists_streamEvents_eq localResults outcomes
  have hall : ∀ event ∈ events, decide (event.name ≠ "done") = true := by
    intro event hmem
    cases event with
    | result r => rfl
    | sourceComplete source => rfl
    | done => exact absurd hmem hdone
  have hlast : [done].takeWhile (fun event ↦ decide (event.name ≠ "done")) = [] := rfl
  rw [heq, beforeDone, List.takeWhile_append_of_pos hall, hlast, List.append_nil]

/-- The client returns the results of the stream that precede `done`. -/
def DecodesStream (text : JsonText) (stream : List SseEvent) (tail : Tail) : Prop :=
  HttpPeerClient.search text
      (.ok ⟨200, stream.map (fun event ↦ .ok (event.frame text)) ++ tail.frames, tail.ending⟩) =
    .ok ((SseEvent.beforeDone stream).filterMap SseEvent.result?)

/-- **Decoding the search stream.** The client returns the results of a stream the handler has sent
exactly if it keeps their scores and what follows is silent. -/
theorem decodesStream_iff {text : JsonText} {req : SearchRequest} {ls : List StreamLabel}
    {s : SearchStream} (hrun : SearchStream.machine.run (.spawn req) ls = some s)
    (hfinished : s.phase = .finished) (hreads : text.Reads (s.sent.map (SseEvent.toJson text)))
    (tail : Tail) :
    DecodesStream text s.sent tail ↔
      (∀ r ∈ s.sent.filterMap SseEvent.result?, text.Keeps r.score) ∧ tail.Silent := by
  have hsent := (streamGrammar req).events ls s hrun hfinished
  have hsplit : s.sent = SseEvent.beforeDone s.sent ++ [.done] := by
    rw [hsent]
    exact SseEvent.beforeDone_streamEvents _ _
  have hresults : (SseEvent.beforeDone s.sent).filterMap SseEvent.result? =
      [] ++ s.sent.filterMap SseEvent.result? := by
    conv_rhs => rw [hsplit, List.filterMap_append]
    exact (List.append_nil _).symm
  rw [DecodesStream, hresults]
  show HttpPeerClient.consume text [] tail.ending _ = _ ↔ _
  rw [HttpPeerClient.consume_events_eq_ok_iff hreads, HttpPeerClient.consume_tail_eq_ok_iff]

/-! ### A stream of one result

The texts are those of `serde_json`, which need no escapes here.
-/

namespace OneResult

def page : SearchResult where
  title := "A"
  url := "https://a.example/1"
  snippetHtml := ""
  source := "local"
  timestamp := 0
  score := 1.0

def req : SearchRequest := ⟨"hi", none, 0⟩

/-- The search finds the page, and the client takes nothing yet. -/
def labels : List StreamLabel := [.localSearch (.found [page]), .send, .send, .send]

/-- What has been sent then. -/
def stream : List SseEvent := [.result page, .sourceComplete "local", .done]

def writeScalar : Json → String
  | .string s => "\"" ++ s ++ "\""
  | .integer n => toString n
  | .decimal literal => literal
  | .bool _ | .null | .array _ | .object _ => "null"

def write : Json → String
  | .object fields =>
    "\x7b" ++ Text.join "," (fields.map fun f ↦ "\"" ++ f.1 ++ "\":" ++ writeScalar f.2) ++ "\x7d"
  | v => writeScalar v

/-- Of the texts only the numbers. -/
def numbers : JsonText where
  write := write
  read _ := none
  writeFloat _ := some "1.0"
  readFloat _ := some 1.0

def text : JsonText :=
  { numbers with
    read := fun t ↦ (stream.map (SseEvent.toJson numbers)).find? fun v ↦ write v = t }

theorem reads : text.Reads (stream.map (SseEvent.toJson text)) := by
  refine List.forall_mem_cons.2 ⟨rfl, List.forall_mem_cons.2 ⟨rfl, ?_⟩⟩
  exact List.forall_mem_cons.2 ⟨rfl, nofun⟩

/-- The connection is closed after `done`. -/
theorem decodesStream_iff_closed :
    ∃ s, SearchStream.machine.run (.spawn req) labels = some s ∧ s.sent = stream ∧
      DecodesStream text s.sent ⟨[], .closed⟩ := by
  have hrun : ∃ s, SearchStream.machine.run (.spawn req) labels = some s ∧ s.phase = .finished ∧
      s.sent = stream := ⟨_, rfl, rfl, rfl⟩
  obtain ⟨s, hrun, hfinished, hsent⟩ := hrun
  refine ⟨s, hrun, hsent, (decodesStream_iff hrun hfinished (hsent ▸ reads) _).2 ⟨?_, ?_⟩⟩
  · rw [hsent]
    exact List.forall_mem_cons.2 ⟨⟨"1.0", rfl, rfl⟩, nofun⟩
  · exact Tail.silent_nil.2 rfl

/-- **Whether the client returns the results depends on what follows `done`**: here the transport
fails when the stream is complete. -/
theorem not_decodesStream :
    ¬ ∀ (text : JsonText) (req : SearchRequest) (ls : List StreamLabel) (s : SearchStream),
      SearchStream.machine.run (.spawn req) ls = some s → s.phase = .finished →
      text.Reads (s.sent.map (SseEvent.toJson text)) → ∀ tail : Tail,
        DecodesStream text s.sent tail := by
  intro h
  have hdecodes := h text req labels _ rfl rfl reads ⟨[.error "connection reset"], .closed⟩
  have herror : (.error (.stream "connection reset") : Except PeerError (List SearchResult)) =
      .ok [page] := hdecodes
  cases herror

end OneResult

end CommunitySearch
