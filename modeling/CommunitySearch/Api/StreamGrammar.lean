import CommunitySearch.Api.SearchStream
import Mathlib.Data.List.Perm.Basic
import Mathlib.Data.Prod.Lex
import Mathlib.Order.WellFounded

/-!
# The grammar of the search stream

Whatever the local search and the peers do, in whatever order the peers complete and whenever the
client goes away, the task sends the events of `streamEvents`, and records every request it has
dispatched exactly once (`StreamGrammar`). No run of it is infinite, and it never waits for anybody
but those that are still working: the local search, a peer, or a client that is connected and has
not taken what is in the channel.

The invariant is one equation: what has been sent, followed by what the task would still send if
nothing else completed (`StreamPhase.owed`), is the stream of what has completed so far. What has
been found, dispatched and answered is what the labels of the run carry (`Told`).
-/

namespace CommunitySearch

namespace StreamPhase

/-- What the task still sends if no further request completes. -/
def owed : StreamPhase → List SseEvent
  | searching => sourceBlock [] "local" ++ [.done]
  | sendLocal rest => sourceBlock rest "local" ++ [.done]
  | record c => c.outcome.block ++ [.done]
  | sendPeer rest source => sourceBlock rest source ++ [.done]
  | lookup | awaitPeer | sendDone => [.done]
  | finished => []
  | panicked place => owed place

/-- The outcome the task has taken and not recorded. -/
def unrecorded : StreamPhase → List Completion
  | record c => [c]
  | panicked place => unrecorded place
  | searching | sendLocal _ | lookup | awaitPeer | sendPeer _ _ | sendDone | finished => []

/-- Before the requests are dispatched. -/
def Early : StreamPhase → Prop
  | searching | sendLocal _ | lookup => True
  | awaitPeer | record _ | sendPeer _ _ | sendDone | finished | panicked _ => False

/-- No request is outstanding. -/
def Idle : StreamPhase → Prop
  | searching | sendLocal _ | lookup | sendDone | finished => True
  | awaitPeer | record _ | sendPeer _ _ | panicked _ => False

/-- How much of the task is left, but for what it owes and what is outstanding. -/
def stage : StreamPhase → Nat
  | searching => 2
  | sendLocal _ | lookup => 1
  | awaitPeer | record _ | sendPeer _ _ | sendDone | finished | panicked _ => 0

/-- The steps before the next send, within a stage. -/
def pause : StreamPhase → Nat
  | record _ => 2
  | awaitPeer => 1
  | searching | sendLocal _ | lookup | sendPeer _ _ | sendDone | finished | panicked _ => 0

/-- What a send does to the place where the task is. -/
structure Sends (phase : StreamPhase) (event : SseEvent) (next : StreamPhase) : Prop where
  owed_eq : phase.owed = event :: next.owed
  unrecorded : phase.unrecorded = []
  unrecorded_next : next.unrecorded = []
  early : next.Early → phase.Early
  idle : next.Idle → phase.Idle
  not_panicked : ∀ place, next ≠ panicked place
  not_searching : next ≠ searching
  stage_le : next.stage ≤ phase.stage
  pause_le : next.pause ≤ 1

/-- **A send** is of the first event owed. -/
theorem sends_of_sending {phase next : StreamPhase} {event : SseEvent} {depth : UInt32}
    (h : phase.sending depth = some (event, next)) : phase.Sends event next := by
  unfold sending at h
  split at h
  case h_1 r rest =>
    obtain ⟨rfl, rfl⟩ := Prod.mk.inj (Option.some.inj h)
    exact ⟨rfl, rfl, rfl, id, id, fun _ h ↦ (nomatch h), nofun, Nat.le_refl _, Nat.zero_le _⟩
  case h_2 =>
    obtain ⟨rfl, rfl⟩ := Prod.mk.inj (Option.some.inj h)
    split
    case isTrue =>
      exact ⟨rfl, rfl, rfl, id, id, fun _ h ↦ (nomatch h), nofun, Nat.le_refl _, Nat.zero_le _⟩
    case isFalse =>
      exact ⟨rfl, rfl, rfl, fun _ ↦ trivial, fun _ ↦ trivial, fun _ h ↦ (nomatch h), nofun,
        Nat.zero_le _, Nat.zero_le _⟩
  case h_3 r rest source =>
    obtain ⟨rfl, rfl⟩ := Prod.mk.inj (Option.some.inj h)
    exact ⟨rfl, rfl, rfl, id, id, fun _ h ↦ (nomatch h), nofun, Nat.le_refl _, Nat.zero_le _⟩
  case h_4 source =>
    obtain ⟨rfl, rfl⟩ := Prod.mk.inj (Option.some.inj h)
    exact ⟨rfl, rfl, rfl, id, id, fun _ h ↦ (nomatch h), nofun, Nat.le_refl _, Nat.le_refl _⟩
  case h_5 =>
    obtain ⟨rfl, rfl⟩ := Prod.mk.inj (Option.some.inj h)
    exact ⟨rfl, rfl, rfl, id, id, fun _ h ↦ (nomatch h), nofun, Nat.le_refl _, Nat.zero_le _⟩
  all_goals cases h

/-- The task does not pass over the lookup when the search is to be forwarded. -/
theorem early_of_sending {phase next : StreamPhase} {event : SseEvent}
    {depth : UInt32} (h : phase.sending depth = some (event, next)) (hdepth : 0 < depth)
    (hphase : phase.Early) : next.Early := by
  unfold sending at h
  split at h
  case h_1 r rest =>
    obtain ⟨-, rfl⟩ := Prod.mk.inj (Option.some.inj h)
    trivial
  case h_2 =>
    obtain ⟨-, rfl⟩ := Prod.mk.inj (Option.some.inj h)
    rw [if_pos hdepth]
    trivial
  case h_3 => exact hphase.elim
  case h_4 => exact hphase.elim
  case h_5 => exact hphase.elim
  all_goals cases h

theorem owed_afterRecord (c : Completion) : (afterRecord c).owed = (record c).owed := by
  rw [afterRecord]
  show _ = c.outcome.block ++ [.done]
  rw [PeerOutcome.block]
  cases c.outcome.result with
  | ok results => rfl
  | error e => rfl

theorem afterRecord_cases (c : Completion) :
    (∃ results, afterRecord c = sendPeer results c.outcome.sourceLabel) ∨
      afterRecord c = awaitPeer := by
  rw [afterRecord]
  cases c.outcome.result with
  | ok results => exact Or.inl ⟨results, rfl⟩
  | error e => exact Or.inr rfl

end StreamPhase

namespace SearchStream

/-! ### What a step does -/

/-- The steps, one by one. -/
inductive Steps (s : SearchStream) : StreamLabel → SearchStream → Prop where
  | localSearch (outcome : LocalOutcome) (hphase : s.phase = .searching) :
    Steps s (.localSearch outcome)
      { s with phase := .sendLocal outcome.results, localResults := outcome.results }
  | sendGone {event : SseEvent} {next : StreamPhase}
      (hsend : s.phase.sending s.request.depth = some (event, next)) (hgone : s.connected = false) :
    Steps s .send { s with phase := next, sent := s.sent ++ [event] }
  | send {event : SseEvent} {next : StreamPhase}
      (hsend : s.phase.sending s.request.depth = some (event, next)) (hthere : s.connected = true)
      (hroom : s.channel.length < STREAM_CAPACITY) :
    Steps s .send
      { s with phase := next, sent := s.sent ++ [event], channel := s.channel ++ [event] }
  | lookup (t : Option FederationTables) (hphase : s.phase = .lookup) (hlock : s.poisoned = false) :
    Steps s (.lookup t) (s.dispatchTo t)
  | lookupPanic (t : Option FederationTables) (hphase : s.phase = .lookup)
      (hlock : s.poisoned = true) :
    Steps s (.lookup t) { s with phase := .panicked .lookup }
  | complete {i : Nat} (answer : Except String (List SearchResult)) (elapsedMs : Int)
      {peer : ActiveCollectionPeer} {request : SearchRequest} (hphase : s.phase = .awaitPeer)
      (hi : s.outstanding[i]? = some (peer, request)) :
    Steps s (.complete i answer elapsedMs) { s with
      phase := .record ⟨peer, request, answer, elapsedMs⟩
      outstanding := s.outstanding.eraseIdx i
      completed := s.completed ++ [⟨peer, request, answer, elapsedMs⟩] }
  | exhausted (hphase : s.phase = .awaitPeer) (hnone : s.outstanding = []) :
    Steps s .exhausted { s with phase := .sendDone }
  | record {c : Completion} (hphase : s.phase = .record c) (hlock : s.poisoned = false) :
    Steps s .record (s.recordOutcome c)
  | recordPanic {c : Completion} (hphase : s.phase = .record c) (hlock : s.poisoned = true) :
    Steps s .record { s with phase := .panicked (.record c) }
  | receive {event : SseEvent} {channel : List SseEvent} (hchannel : s.channel = event :: channel) :
    Steps s .receive { s with channel := channel, received := s.received ++ [event] }
  | disconnect (hthere : s.connected = true) :
    Steps s .disconnect { s with connected := false, channel := [] }
  | poison (hlock : s.poisoned = false) : Steps s .poison { s with poisoned := true }

theorem steps_send {s s' : SearchStream} (h : s.send = some s') : Steps s .send s' := by
  obtain ⟨⟨event, next⟩, hsend, h⟩ := Option.bind_eq_some_iff.1 h
  dsimp only at h
  split at h
  case isTrue hgone =>
    obtain rfl := Option.some.inj h
    exact .sendGone hsend hgone
  case isFalse hgone =>
    obtain ⟨hroom, h⟩ := Option.ite_none_right_eq_some.1 h
    obtain rfl := Option.some.inj h
    exact .send hsend (Bool.not_eq_false _ ▸ hgone) hroom

theorem locked_of_poisoned {s : SearchStream} (s' : SearchStream) (h : s.poisoned = true) :
    s.locked s' = { s with phase := .panicked s.phase } := by
  rw [locked, h]
  rfl

theorem locked_of_not_poisoned {s : SearchStream} (s' : SearchStream) (h : s.poisoned = false) :
    s.locked s' = s' := by
  rw [locked, h]
  rfl

theorem steps_of_step {s s' : SearchStream} {l : StreamLabel} (h : machine.step s l = some s') :
    Steps s l s' := by
  change s.step l = some s' at h
  cases l with
  | localSearch outcome =>
    cases hphase : s.phase with
    | searching =>
      rw [step, hphase] at h
      obtain rfl := Option.some.inj h
      exact .localSearch outcome hphase
    | _ =>
      rw [step, hphase] at h
      cases h
  | send => exact steps_send h
  | lookup t =>
    cases hphase : s.phase with
    | lookup =>
      rw [step, hphase] at h
      obtain rfl := Option.some.inj h
      cases hlock : s.poisoned with
      | false =>
        rw [locked_of_not_poisoned _ hlock]
        exact .lookup t hphase hlock
      | true =>
        rw [locked_of_poisoned _ hlock, hphase]
        exact .lookupPanic t hphase hlock
    | _ =>
      rw [step, hphase] at h
      cases h
  | complete i answer elapsedMs =>
    cases hphase : s.phase with
    | awaitPeer =>
      rw [step, hphase] at h
      obtain ⟨⟨peer, request⟩, hi, rfl⟩ := Option.map_eq_some_iff.1 h
      exact .complete answer elapsedMs hphase hi
    | _ =>
      rw [step, hphase] at h
      cases h
  | exhausted =>
    cases hphase : s.phase with
    | awaitPeer =>
      cases hnone : s.outstanding with
      | nil =>
        rw [step, hphase, hnone] at h
        obtain rfl := Option.some.inj h
        have hsteps := Steps.exhausted hphase hnone
        rw [hnone] at hsteps
        exact hsteps
      | cons c rest =>
        rw [step, hphase, hnone] at h
        cases h
    | _ =>
      rw [step, hphase] at h
      cases h
  | record =>
    cases hphase : s.phase with
    | record c =>
      rw [step, hphase] at h
      obtain rfl := Option.some.inj h
      cases hlock : s.poisoned with
      | false =>
        rw [locked_of_not_poisoned _ hlock]
        exact .record hphase hlock
      | true =>
        rw [locked_of_poisoned _ hlock, hphase]
        exact .recordPanic hphase hlock
    | _ =>
      rw [step, hphase] at h
      cases h
  | receive =>
    cases hchannel : s.channel with
    | nil =>
      rw [step, hchannel] at h
      cases h
    | cons event channel =>
      rw [step, hchannel] at h
      obtain rfl := Option.some.inj h
      exact .receive hchannel
  | disconnect =>
    obtain ⟨hthere, h⟩ := Option.ite_none_right_eq_some.1 h
    obtain rfl := Option.some.inj h
    exact .disconnect hthere
  | poison =>
    obtain ⟨hlock, h⟩ := Option.ite_none_left_eq_some.1 h
    obtain rfl := Option.some.inj h
    exact .poison (Bool.not_eq_true _ ▸ hlock)

/-! ### The invariant -/

/-- What holds of the stream of a request after every run. -/
structure Inv (req : SearchRequest) (s : SearchStream) : Prop where
  request_eq : s.request = req
  sent_eq : s.sent ++ s.phase.owed =
    streamEvents s.localResults (s.completed.map Completion.outcome)
  recorded_eq : s.recorded ++ s.phase.unrecorded.map (fun c ↦ c.outcome.health) =
    s.completed.map fun c ↦ c.outcome.health
  dispatched_perm : (s.completed.map Completion.dispatched ++ s.outstanding).Perm s.dispatched
  forwards : ∃ t, s.dispatched = SearchCall.forwards t ⟨.stream, req⟩
  searching : s.phase = .searching → s.sent = []
  early : s.phase.Early → s.completed = [] ∧ s.dispatched = []
  idle : s.phase.Idle → s.outstanding = []
  received_prefix : s.received ++ s.channel <+: s.sent
  received_eq : s.connected = true → s.received ++ s.channel = s.sent
  panicked : ∀ place, s.phase = .panicked place → s.poisoned = true

theorem forwards_empty (req : SearchRequest) : SearchCall.forwards .empty ⟨.stream, req⟩ = [] := by
  have hpeers : SearchCall.peers .empty ⟨.stream, req⟩ = [] := by
    rw [SearchCall.peers]
    split
    case isTrue => rfl
    case isFalse => rfl
  rw [SearchCall.forwards, hpeers]
  rfl

theorem inv_spawn (req : SearchRequest) : (spawn req).Inv req where
  request_eq := rfl
  sent_eq := rfl
  recorded_eq := rfl
  dispatched_perm := .refl _
  forwards := ⟨.empty, (forwards_empty req).symm⟩
  searching _ := rfl
  early _ := ⟨rfl, rfl⟩
  idle _ := rfl
  received_prefix := List.prefix_refl _
  received_eq _ := rfl
  panicked _ h := nomatch h

variable {req : SearchRequest} {s s' : SearchStream}

/-- A step that only sends. -/
theorem Inv.sent {event : SseEvent} {next : StreamPhase} (hs : s.Inv req)
    (hsend : s.phase.Sends event next) {channel : List SseEvent}
    (hpre : s.received ++ channel <+: s.sent ++ [event])
    (heq : s.connected = true → s.received ++ channel = s.sent ++ [event]) :
    Inv req { s with phase := next, sent := s.sent ++ [event], channel := channel } where
  request_eq := hs.request_eq
  sent_eq := by
    have hsent := hs.sent_eq
    rw [hsend.owed_eq] at hsent
    rw [← hsent, List.append_assoc]
    rfl
  recorded_eq := by
    have hrecorded := hs.recorded_eq
    rw [hsend.unrecorded] at hrecorded
    show s.recorded ++ next.unrecorded.map _ = _
    rw [hsend.unrecorded_next]
    exact hrecorded
  dispatched_perm := hs.dispatched_perm
  forwards := hs.forwards
  searching h := absurd h hsend.not_searching
  early h := hs.early (hsend.early h)
  idle h := hs.idle (hsend.idle h)
  received_prefix := hpre
  received_eq := heq
  panicked place h := absurd h (hsend.not_panicked place)

/-- The outcome of a dispatched request is taken. -/
theorem Inv.complete {i : Nat} {c : Completion} (hs : s.Inv req) (hphase : s.phase = .awaitPeer)
    (hi : s.outstanding[i]? = some c.dispatched) :
    Inv req { s with
      phase := .record c
      outstanding := s.outstanding.eraseIdx i
      completed := s.completed ++ [c] } where
  request_eq := hs.request_eq
  sent_eq := by
    have hsent := hs.sent_eq
    rw [hphase] at hsent
    have howed : (StreamPhase.record c).owed = c.outcome.block ++ [.done] := rfl
    have hlast : s.sent = sourceBlock s.localResults "local" ++
        (s.completed.map Completion.outcome).flatMap PeerOutcome.block :=
      List.append_cancel_right hsent
    dsimp only
    rw [howed, hlast, streamEvents, List.map_append, List.flatMap_append]
    simp [List.append_assoc]
  recorded_eq := by
    have hrecorded := hs.recorded_eq
    rw [hphase] at hrecorded
    have hall : s.recorded = s.completed.map fun c ↦ c.outcome.health :=
      (List.append_nil _).symm.trans hrecorded
    show s.recorded ++ [c.outcome.health] = _
    rw [hall, List.map_append]
    rfl
  dispatched_perm := by
    obtain ⟨hlt, hget⟩ := List.getElem?_eq_some_iff.1 hi
    have hperm := List.getElem_cons_eraseIdx_perm hlt
    rw [hget] at hperm
    refine List.Perm.trans ?_ hs.dispatched_perm
    rw [List.map_append, List.append_assoc]
    exact hperm.append_left _
  forwards := hs.forwards
  searching h := nomatch h
  early h := h.elim
  idle h := h.elim
  received_prefix := hs.received_prefix
  received_eq := hs.received_eq
  panicked place h := nomatch h

/-- An outcome is recorded. -/
theorem Inv.recordOutcome {c : Completion} (hs : s.Inv req) (hphase : s.phase = .record c) :
    Inv req (s.recordOutcome c) := by
  have hsent := hs.sent_eq
  have hrecorded := hs.recorded_eq
  rw [hphase] at hsent hrecorded
  rw [← StreamPhase.owed_afterRecord] at hsent
  rw [SearchStream.recordOutcome]
  rcases StreamPhase.afterRecord_cases c with ⟨results, h⟩ | h
  · rw [h] at hsent ⊢
    exact ⟨hs.request_eq, hsent, (List.append_nil _).trans hrecorded, hs.dispatched_perm,
      hs.forwards, nofun, nofun, nofun, hs.received_prefix, hs.received_eq, nofun⟩
  · rw [h] at hsent ⊢
    exact ⟨hs.request_eq, hsent, (List.append_nil _).trans hrecorded, hs.dispatched_perm,
      hs.forwards, nofun, nofun, nofun, hs.received_prefix, hs.received_eq, nofun⟩

/-- The requests are dispatched. -/
theorem Inv.dispatchTo (hs : s.Inv req) (hphase : s.phase = .lookup)
    (t : Option FederationTables) : Inv req (s.dispatchTo t) := by
  have hsent := hs.sent_eq
  have hrecorded := hs.recorded_eq
  have hearly := hs.early (by rw [hphase]; trivial)
  rw [hphase] at hsent hrecorded
  refine ⟨hs.request_eq, hsent, hrecorded, ?_, ?_, nofun, fun h ↦ h.elim, fun h ↦ h.elim,
    hs.received_prefix, hs.received_eq, nofun⟩
  · show (s.completed.map Completion.dispatched ++ _).Perm _
    rw [hearly.1]
    exact .refl _
  · show ∃ t', Option.getD (Option.map _ t) [] = _
    rw [hs.request_eq]
    cases t with
    | none => exact ⟨.empty, (forwards_empty req).symm⟩
    | some t => exact ⟨t, rfl⟩

/-- The task panics. -/
theorem Inv.panic (hs : s.Inv req) (hlock : s.poisoned = true) :
    Inv req { s with phase := .panicked s.phase } :=
  ⟨hs.request_eq, hs.sent_eq, hs.recorded_eq, hs.dispatched_perm, hs.forwards, nofun,
    fun h ↦ h.elim, fun h ↦ h.elim, hs.received_prefix, hs.received_eq, fun _ _ ↦ hlock⟩

/-- **A step** preserves the invariant. -/
theorem Inv.step {l : StreamLabel} (hs : s.Inv req) (hstep : machine.step s l = some s') :
    s'.Inv req := by
  cases steps_of_step hstep with
  | localSearch outcome hphase =>
    have hearly := hs.early (by rw [hphase]; trivial)
    have hnone := hs.idle (by rw [hphase]; trivial)
    have hsent := hs.sent_eq
    have hrecorded := hs.recorded_eq
    rw [hphase] at hsent hrecorded
    refine ⟨hs.request_eq, ?_, hrecorded, hs.dispatched_perm, hs.forwards, nofun, fun _ ↦ hearly,
      fun _ ↦ hnone, hs.received_prefix, hs.received_eq, nofun⟩
    show s.sent ++ _ = streamEvents _ (s.completed.map Completion.outcome)
    -- nothing has been sent and nobody has been asked before the search
    rw [hs.searching hphase, hearly.1]
    show sourceBlock outcome.results "local" ++ [.done] =
      sourceBlock outcome.results "local" ++ [] ++ [.done]
    rw [List.append_nil]
  | sendGone hsend hgone =>
    refine hs.sent (StreamPhase.sends_of_sending hsend) ?_ fun h ↦ absurd h ?_
    · exact hs.received_prefix.trans (List.prefix_append _ _)
    · rw [hgone]
      exact Bool.false_ne_true
  | @send event next hsend hthere hroom =>
    have heq : s.received ++ (s.channel ++ [event]) = s.sent ++ [event] := by
      rw [← List.append_assoc, hs.received_eq hthere]
    exact hs.sent (StreamPhase.sends_of_sending hsend) (heq ▸ List.prefix_refl _) fun _ ↦ heq
  | lookup t hphase hlock => exact hs.dispatchTo hphase t
  | lookupPanic t hphase hlock => exact hphase ▸ hs.panic hlock
  | complete answer elapsedMs hphase hi => exact hs.complete hphase hi
  | exhausted hphase hnone =>
    have hsent := hs.sent_eq
    have hrecorded := hs.recorded_eq
    rw [hphase] at hsent hrecorded
    exact ⟨hs.request_eq, hsent, hrecorded, hs.dispatched_perm, hs.forwards, nofun, fun h ↦ h.elim,
      fun _ ↦ hnone, hs.received_prefix, hs.received_eq, nofun⟩
  | record hphase hlock => exact hs.recordOutcome hphase
  | recordPanic hphase hlock => exact hphase ▸ hs.panic hlock
  | @receive event channel hchannel =>
    have heq : s.received ++ [event] ++ channel = s.received ++ s.channel := by
      rw [hchannel, List.append_assoc]
      rfl
    exact ⟨hs.request_eq, hs.sent_eq, hs.recorded_eq, hs.dispatched_perm, hs.forwards,
      hs.searching, hs.early, hs.idle, heq ▸ hs.received_prefix,
      fun h ↦ heq.trans (hs.received_eq h), hs.panicked⟩
  | disconnect hthere =>
    refine ⟨hs.request_eq, hs.sent_eq, hs.recorded_eq, hs.dispatched_perm, hs.forwards,
      hs.searching, hs.early, hs.idle, ?_, nofun, hs.panicked⟩
    show s.received ++ [] <+: s.sent
    rw [List.append_nil]
    exact (List.prefix_append _ _).trans hs.received_prefix
  | poison hlock =>
    exact ⟨hs.request_eq, hs.sent_eq, hs.recorded_eq, hs.dispatched_perm, hs.forwards, hs.searching,
      hs.early, hs.idle, hs.received_prefix, hs.received_eq, fun _ _ ↦ rfl⟩

theorem Inv.of_run {ls : List StreamLabel} (hrun : machine.run (spawn req) ls = some s) :
    s.Inv req :=
  Machine.invariant (fun _ _ _ hs hstep ↦ hs.step hstep) (inv_spawn req) ⟨ls, hrun⟩

/-! ### What the labels say -/

/-- The requests outstanding and those completed, after a step. -/
def noteCompletion : List (ActiveCollectionPeer × SearchRequest) × List Completion → StreamLabel →
    List (ActiveCollectionPeer × SearchRequest) × List Completion
  | (outstanding, completed), .complete i answer elapsedMs =>
    match outstanding[i]? with
    | some (peer, request) =>
      (outstanding.eraseIdx i, completed ++ [⟨peer, request, answer, elapsedMs⟩])
    | none => (outstanding, completed)
  | noted, .localSearch _ | noted, .lookup _ | noted, .send | noted, .exhausted | noted, .record
  | noted, .receive | noted, .disconnect | noted, .poison => noted

/-- The requests to the peers found by a lookup; an error of the database is logged. -/
def forwardsOf (req : SearchRequest) (t : Option FederationTables) :
    List (ActiveCollectionPeer × SearchRequest) :=
  (t.map fun t ↦ SearchCall.forwards t ⟨.stream, req⟩).getD []

/-- The labels that carry neither the local results, nor the peers, nor an answer. -/
def IsSilent : StreamLabel → Prop
  | .localSearch _ | .lookup _ | .complete _ _ _ => False
  | .send | .exhausted | .record | .receive | .disconnect | .poison => True

/-- What the state has of the labels of its run. -/
structure Told (req : SearchRequest) (s : SearchStream) (ls : List StreamLabel) : Prop where
  request_eq : s.request = req
  searching : s.phase = .searching → ∀ outcome, .localSearch outcome ∉ ls
  searched : s.phase ≠ .searching → ∃ outcome, .localSearch outcome ∈ ls
  localResults : ∀ outcome, .localSearch outcome ∈ ls → s.localResults = outcome.results
  early : s.phase.Early → ∀ t, .lookup t ∉ ls
  undispatched : (∀ t, .lookup t ∉ ls) → s.dispatched = []
  lookedUp : ¬ s.phase.Early → 0 < req.depth → ∃ t, .lookup t ∈ ls
  dispatched : ∀ t, .lookup t ∈ ls → s.dispatched = forwardsOf req t ∨ s.phase = .panicked .lookup
  unanswered : s.phase.Early → ∀ out, ls.foldl noteCompletion (out, []) = (out, [])
  completions : ls.foldl noteCompletion (s.dispatched, []) = (s.outstanding, s.completed)

theorem told_spawn (req : SearchRequest) : (spawn req).Told req [] where
  request_eq := rfl
  searching _ _ := List.not_mem_nil
  searched h := absurd rfl h
  localResults _ h := nomatch h
  early _ _ := List.not_mem_nil
  undispatched _ := rfl
  lookedUp h := absurd trivial h
  dispatched _ h := nomatch h
  unanswered _ _ := rfl
  completions := rfl

variable {ls : List StreamLabel} {l : StreamLabel}

theorem foldl_noteCompletion_of_silent (hl : IsSilent l)
    (noted : List (ActiveCollectionPeer × SearchRequest) × List Completion) :
    (ls ++ [l]).foldl noteCompletion noted = ls.foldl noteCompletion noted := by
  rw [List.foldl_append]
  cases l with
  | localSearch _ => exact hl.elim
  | lookup _ => exact hl.elim
  | complete _ _ _ => exact hl.elim
  | _ => rfl

/-- A step whose label is silent. -/
theorem Told.silent (hs : s.Told req ls) (hl : IsSilent l) (hrequest : s'.request = s.request)
    (hlocal : s'.localResults = s.localResults) (hdispatched : s'.dispatched = s.dispatched)
    (hout : s'.outstanding = s.outstanding) (hcompleted : s'.completed = s.completed)
    (hsearching : s'.phase = .searching ↔ s.phase = .searching)
    (hearly : s'.phase.Early → s.phase.Early)
    (hdepth : 0 < s.request.depth → s.phase.Early → s'.phase.Early)
    (hpanicked : s.phase = .panicked .lookup → s'.phase = .panicked .lookup) :
    s'.Told req (ls ++ [l]) := by
  have hmem : ∀ {m}, ¬ IsSilent m → (m ∈ ls ++ [l] ↔ m ∈ ls) := fun {m} hm ↦ by
    rw [List.mem_append, List.mem_singleton]
    exact or_iff_left fun h ↦ hm (h ▸ hl)
  have hlocalSearch : ∀ outcome, StreamLabel.localSearch outcome ∈ ls ++ [l] ↔ _ := fun _ ↦ hmem id
  have hlookup : ∀ t, StreamLabel.lookup t ∈ ls ++ [l] ↔ _ := fun _ ↦ hmem id
  -- so every fact about the labels of the run is one about those before
  constructor
  case request_eq => exact hrequest.trans hs.request_eq
  case searching =>
    simp only [hlocalSearch]
    exact fun h ↦ hs.searching (hsearching.1 h)
  case searched =>
    simp only [hlocalSearch]
    exact fun h ↦ hs.searched (hsearching.not.1 h)
  case localResults =>
    simp only [hlocalSearch, hlocal]
    exact hs.localResults
  case early =>
    simp only [hlookup]
    exact fun h ↦ hs.early (hearly h)
  case undispatched =>
    simp only [hlookup, hdispatched]
    exact hs.undispatched
  case lookedUp =>
    simp only [hlookup]
    exact fun h hd ↦ hs.lookedUp (fun he ↦ h (hdepth (hs.request_eq ▸ hd) he)) hd
  case dispatched =>
    simp only [hlookup, hdispatched]
    exact fun t ht ↦ (hs.dispatched t ht).imp id hpanicked
  case unanswered =>
    intro h out
    rw [foldl_noteCompletion_of_silent hl]
    exact hs.unanswered (hearly h) out
  case completions =>
    rw [foldl_noteCompletion_of_silent hl, hdispatched, hout, hcompleted]
    exact hs.completions

/-- A step that only sends. -/
theorem Told.sent {event : SseEvent} {next : StreamPhase} (hs : s.Told req ls)
    (hsend : s.phase.sending s.request.depth = some (event, next)) (channel : List SseEvent) :
    Told req { s with phase := next, sent := s.sent ++ [event], channel := channel }
      (ls ++ [.send]) := by
  have hsends := StreamPhase.sends_of_sending hsend
  refine hs.silent trivial rfl rfl rfl rfl rfl ⟨fun h ↦ absurd h hsends.not_searching, fun h ↦ ?_⟩
    hsends.early (StreamPhase.early_of_sending hsend) fun h ↦ ?_
  · rw [h] at hsend
    cases hsend
  · rw [h] at hsend
    cases hsend

/-- A step past the lookup. -/
theorem Told.late {phase : StreamPhase} {recorded : List HealthRecord} (hs : s.Told req ls)
    (hl : IsSilent l) (hphase : ¬ s.phase.Early) (hnext : ¬ phase.Early)
    (hplace : ∀ place, s.phase ≠ .panicked place) :
    Told req { s with phase := phase, recorded := recorded } (ls ++ [l]) :=
  hs.silent hl rfl rfl rfl rfl rfl
    ⟨fun (h : phase = .searching) ↦ absurd (show phase.Early from h ▸ trivial) hnext,
      fun h ↦ absurd (h ▸ trivial) hphase⟩
    (fun h ↦ absurd h hnext) (fun _ h ↦ absurd h hphase) fun h ↦ absurd h (hplace _)

theorem Told.localSearch (hs : s.Told req ls) (hphase : s.phase = .searching)
    (outcome : LocalOutcome) :
    Told req { s with phase := .sendLocal outcome.results, localResults := outcome.results }
      (ls ++ [.localSearch outcome]) where
  request_eq := hs.request_eq
  searching h := nomatch h
  searched _ := ⟨outcome, List.mem_concat_self⟩
  localResults outcome' h := by
    rcases List.mem_append.1 h with h | h
    · exact absurd h (hs.searching hphase outcome')
    · rw [StreamLabel.localSearch.inj (List.mem_singleton.1 h)]
  early _ t h := hs.early (hphase ▸ trivial) t (by simpa using h)
  undispatched h := hs.undispatched fun t ht ↦ h t (List.mem_append_left _ ht)
  lookedUp h := absurd trivial h
  dispatched t h := absurd (by simpa using h) (hs.early (hphase ▸ trivial) t)
  unanswered _ out := by
    rw [List.foldl_append, hs.unanswered (hphase ▸ trivial)]
    rfl
  completions := by
    rw [List.foldl_append, hs.completions]
    rfl

/-- The peers are looked up. -/
theorem Told.lookup (hs : s.Told req ls) (hphase : s.phase = .lookup) {t : Option FederationTables}
    (hrequest : s'.request = s.request) (hlocal : s'.localResults = s.localResults)
    (hcompleted : s'.completed = s.completed) (hout : s'.outstanding = s'.dispatched)
    (hnext : ¬ s'.phase.Early)
    (hdispatched : s'.dispatched = forwardsOf req t ∨ s'.phase = .panicked .lookup) :
    s'.Told req (ls ++ [.lookup t]) := by
  have hearly : s.phase.Early := hphase ▸ trivial
  have hnone : s.completed = [] :=
    (Prod.mk.inj ((hs.unanswered hearly _).symm.trans hs.completions)).2.symm
  constructor
  case request_eq => exact hrequest.trans hs.request_eq
  case searching => exact fun h ↦ absurd (show s'.phase.Early from h ▸ trivial) hnext
  case searched =>
    intro _
    obtain ⟨outcome, h⟩ := hs.searched (by rw [hphase]; nofun)
    exact ⟨outcome, List.mem_append_left _ h⟩
  case localResults =>
    intro outcome h
    rw [hlocal]
    exact hs.localResults outcome (by simpa using h)
  case early => exact fun h ↦ absurd h hnext
  case undispatched => exact fun h ↦ absurd List.mem_concat_self (h t)
  case lookedUp => exact fun _ _ ↦ ⟨t, List.mem_concat_self⟩
  case dispatched =>
    intro t' h
    rcases List.mem_append.1 h with h | h
    · exact absurd h (hs.early hearly t')
    · rw [StreamLabel.lookup.inj (List.mem_singleton.1 h)]
      exact hdispatched
  case unanswered => exact fun h ↦ absurd h hnext
  case completions =>
    rw [List.foldl_append, hs.unanswered hearly, hout, hcompleted, hnone]
    rfl

/-- A request completes. -/
theorem Told.complete {i : Nat} {answer : Except String (List SearchResult)} {elapsedMs : Int}
    {peer : ActiveCollectionPeer} {request : SearchRequest} (hs : s.Told req ls)
    (hphase : s.phase = .awaitPeer) (hi : s.outstanding[i]? = some (peer, request)) :
    Told req { s with
      phase := .record ⟨peer, request, answer, elapsedMs⟩
      outstanding := s.outstanding.eraseIdx i
      completed := s.completed ++ [⟨peer, request, answer, elapsedMs⟩] }
      (ls ++ [.complete i answer elapsedMs]) where
  request_eq := hs.request_eq
  searching h := nomatch h
  searched _ := by
    obtain ⟨outcome, h⟩ := hs.searched (by rw [hphase]; nofun)
    exact ⟨outcome, List.mem_append_left _ h⟩
  localResults outcome h := hs.localResults outcome (by simpa using h)
  early h := h.elim
  undispatched h := hs.undispatched fun t ht ↦ h t (List.mem_append_left _ ht)
  lookedUp _ hdepth := by
    obtain ⟨t, h⟩ := hs.lookedUp (by rw [hphase]; exact id) hdepth
    exact ⟨t, List.mem_append_left _ h⟩
  dispatched t h := by
    rcases hs.dispatched t (by simpa using h) with h | h
    · exact Or.inl h
    · rw [hphase] at h
      cases h
  unanswered h := h.elim
  completions := by
    rw [List.foldl_append, hs.completions]
    show noteCompletion (s.outstanding, s.completed) (.complete i answer elapsedMs) = _
    rw [noteCompletion, hi]

/-- **A step** tells what its label carries. -/
theorem Told.step (hs : s.Told req ls) (hstep : machine.step s l = some s') :
    s'.Told req (ls ++ [l]) := by
  cases steps_of_step hstep with
  | localSearch outcome hphase => exact hs.localSearch hphase outcome
  | sendGone hsend hgone => exact hs.sent hsend s.channel
  | send hsend hthere hroom => exact hs.sent hsend _
  | lookup t hphase hlock =>
    refine hs.lookup hphase rfl rfl rfl rfl id (Or.inl ?_)
    rw [← hs.request_eq]
    rfl
  | lookupPanic t hphase hlock =>
    refine hs.lookup hphase rfl rfl rfl ?_ id (Or.inr rfl)
    exact (Prod.mk.inj ((hs.unanswered (hphase ▸ trivial) _).symm.trans hs.completions)).1.symm
  | complete answer elapsedMs hphase hi => exact hs.complete hphase hi
  | exhausted hphase hnone =>
    refine hs.late trivial (by rw [hphase]; exact id) ?_ (by rw [hphase]; exact fun _ ↦ nofun)
    exact id
  | @record c hphase hlock =>
    refine hs.late trivial (by rw [hphase]; exact id) ?_ (by rw [hphase]; exact fun _ ↦ nofun)
    rcases StreamPhase.afterRecord_cases c with ⟨results, h⟩ | h
    · rw [h]
      exact id
    · rw [h]
      exact id
  | @recordPanic c hphase hlock =>
    refine hs.late trivial (by rw [hphase]; exact id) ?_ (by rw [hphase]; exact fun _ ↦ nofun)
    exact id
  | receive hchannel => exact hs.silent trivial rfl rfl rfl rfl rfl Iff.rfl id (fun _ ↦ id) id
  | disconnect hthere => exact hs.silent trivial rfl rfl rfl rfl rfl Iff.rfl id (fun _ ↦ id) id
  | poison hlock => exact hs.silent trivial rfl rfl rfl rfl rfl Iff.rfl id (fun _ ↦ id) id

theorem Told.of_run (hrun : machine.run (spawn req) ls = some s) : s.Told req ls :=
  Machine.history_invariant (I := Told req) (fun _ _ _ _ hs hstep ↦ hs.step hstep) (told_spawn req)
    hrun

/-! ### No run is infinite -/

/-- The work left within a stage and a number of requests. -/
def work (s : SearchStream) : Nat :=
  3 * s.phase.owed.length + s.phase.pause + s.channel.length + s.connected.toNat +
    (!s.poisoned).toNat

/-- What every step makes smaller. -/
def rank (s : SearchStream) : Nat ×ₗ Nat ×ₗ Nat :=
  toLex (s.phase.stage, toLex (s.outstanding.length, s.work))

theorem rank_lt_of_stage (h : s'.phase.stage < s.phase.stage) : s'.rank < s.rank :=
  Prod.Lex.toLex_lt_toLex.2 (Or.inl h)

theorem rank_lt_of_outstanding (h : s'.phase.stage = s.phase.stage)
    (hlt : s'.outstanding.length < s.outstanding.length) : s'.rank < s.rank :=
  Prod.Lex.toLex_lt_toLex.2 (Or.inr ⟨h, Prod.Lex.toLex_lt_toLex.2 (Or.inl hlt)⟩)

theorem rank_lt_of_work (h : s'.phase.stage ≤ s.phase.stage)
    (hout : s'.outstanding = s.outstanding) (hlt : s'.work < s.work) : s'.rank < s.rank := by
  rcases h.lt_or_eq with h | h
  · exact rank_lt_of_stage h
  · refine Prod.Lex.toLex_lt_toLex.2 (Or.inr ⟨h, Prod.Lex.toLex_lt_toLex.2 (Or.inr ⟨?_, hlt⟩)⟩)
    exact congrArg List.length hout

/-- A step of the task between two sends. -/
theorem rank_lt_of_pause {phase : StreamPhase} {recorded : List HealthRecord}
    (hstage : phase.stage ≤ s.phase.stage) (howed : phase.owed = s.phase.owed)
    (hpause : phase.pause < s.phase.pause) :
    rank { s with phase := phase, recorded := recorded } < s.rank := by
  refine rank_lt_of_work hstage rfl ?_
  unfold work
  dsimp only
  rw [howed]
  omega

/-- **Every step** makes the rank smaller. -/
theorem rank_lt_of_step {l : StreamLabel} (h : machine.step s l = some s') : s'.rank < s.rank := by
  cases steps_of_step h with
  | localSearch outcome hphase =>
    refine rank_lt_of_stage ?_
    rw [hphase]
    exact Nat.lt_succ_self 1
  | sendGone hsend hgone =>
    have hsends := StreamPhase.sends_of_sending hsend
    -- one event less is owed, which weighs more than the pause that may follow
    refine rank_lt_of_work hsends.stage_le rfl ?_
    have howed := congrArg List.length hsends.owed_eq
    rw [List.length_cons] at howed
    have hpause := hsends.pause_le
    unfold work
    dsimp only
    omega
  | @send event next hsend hthere hroom =>
    have hsends := StreamPhase.sends_of_sending hsend
    refine rank_lt_of_work hsends.stage_le rfl ?_
    have howed := congrArg List.length hsends.owed_eq
    rw [List.length_cons] at howed
    have hpause := hsends.pause_le
    have hchannel : (s.channel ++ [event]).length = s.channel.length + 1 := List.length_append
    unfold work
    dsimp only
    omega
  | lookup t hphase hlock =>
    refine rank_lt_of_stage ?_
    rw [hphase]
    exact Nat.zero_lt_one
  | lookupPanic t hphase hlock =>
    refine rank_lt_of_stage ?_
    rw [hphase]
    exact Nat.zero_lt_one
  | complete answer elapsedMs hphase hi =>
    refine rank_lt_of_outstanding (by rw [hphase]; rfl) ?_
    obtain ⟨hlt, -⟩ := List.getElem?_eq_some_iff.1 hi
    have hlength := List.length_eraseIdx_of_lt hlt
    dsimp only
    omega
  | exhausted hphase hnone =>
    refine rank_lt_of_pause (Nat.zero_le _) ?_ ?_
    · rw [hphase]
      rfl
    · rw [hphase]
      exact Nat.zero_lt_one
  | @record c hphase hlock =>
    have howed := StreamPhase.owed_afterRecord c
    rcases StreamPhase.afterRecord_cases c with ⟨results, h⟩ | h
    · refine rank_lt_of_pause ?_ (hphase ▸ howed) ?_
      · rw [h]
        exact Nat.zero_le _
      · rw [h, hphase]
        exact Nat.zero_lt_two
    · refine rank_lt_of_pause ?_ (hphase ▸ howed) ?_
      · rw [h]
        exact Nat.zero_le _
      · rw [h, hphase]
        exact Nat.one_lt_two
  | recordPanic hphase hlock =>
    refine rank_lt_of_pause (Nat.zero_le _) ?_ ?_
    · rw [hphase]
      rfl
    · rw [hphase]
      exact Nat.zero_lt_two
  | receive hchannel =>
    refine rank_lt_of_work le_rfl rfl ?_
    unfold work
    rw [hchannel]
    dsimp only
    rw [List.length_cons]
    omega
  | disconnect hthere =>
    refine rank_lt_of_work le_rfl rfl ?_
    unfold work
    rw [hthere]
    dsimp only [List.length_nil, Bool.toNat_true, Bool.toNat_false]
    omega
  | poison hlock =>
    refine rank_lt_of_work le_rfl rfl ?_
    have hfree : (!s.poisoned).toNat = 1 := by rw [hlock]; rfl
    have hpoisoned : (!true).toNat = 0 := rfl
    unfold work
    dsimp only
    omega

theorem wellFounded_step : WellFounded fun s' s : SearchStream ↦ ∃ l, machine.step s l = some s' :=
  Subrelation.wf (fun ⟨_, h⟩ ↦ rank_lt_of_step h) (InvImage.wf rank wellFounded_lt)

end SearchStream

/-! ### What the task deals with -/

/-- What the local search, the database and the peers answer. -/
structure SearchEnv where
  localOutcome : LocalOutcome
  tables : Option FederationTables
  answer : ActiveCollectionPeer → SearchRequest → Except String (List SearchResult)

namespace SearchEnv

/-- Those the task deals with answer so. -/
def Answers (env : SearchEnv) (s : SearchStream) : StreamLabel → Prop
  | .localSearch outcome => outcome = env.localOutcome
  | .lookup t => t = env.tables
  | .complete i answer _ => ∀ c ∈ s.outstanding[i]?, answer = env.answer c.1 c.2
  | .send | .exhausted | .record | .receive | .disconnect | .poison => True

/-- The step is one of the task, or of somebody who answers so; the client does not go away, and
nobody else panics. -/
def Admits (env : SearchEnv) (s : SearchStream) (l : StreamLabel) : Prop :=
  env.Answers s l ∧ l ≠ .disconnect ∧ l ≠ .poison

variable {env : SearchEnv} {s : SearchStream}

theorem exists_of_isSome {l : StreamLabel} (hanswers : env.Answers s l)
    (hfault : l ≠ .disconnect ∧ l ≠ .poison) (h : (s.step l).isSome = true) :
    ∃ l s', env.Admits s l ∧ SearchStream.machine.step s l = some s' := by
  obtain ⟨s', hstep⟩ := Option.isSome_iff_exists.1 h
  exact ⟨l, s', ⟨hanswers, hfault⟩, hstep⟩

/-- A task that is sending can send, or somebody is there to make room for it. -/
theorem exists_send (h : (s.phase.sending s.request.depth).isSome = true) :
    ∃ l s', env.Admits s l ∧ SearchStream.machine.step s l = some s' := by
  obtain ⟨⟨event, next⟩, hsend⟩ := Option.isSome_iff_exists.1 h
  by_cases hgone : s.connected = false
  · refine exists_of_isSome (l := .send) trivial ⟨nofun, nofun⟩ ?_
    rw [SearchStream.step, SearchStream.send, hsend, Option.bind_some]
    dsimp only
    rw [if_pos hgone]
    rfl
  · cases hchannel : s.channel with
    | nil =>
      refine exists_of_isSome (l := .send) trivial ⟨nofun, nofun⟩ ?_
      have hroom : s.channel.length < STREAM_CAPACITY := by
        rw [hchannel]
        exact Nat.zero_lt_succ 63
      rw [SearchStream.step, SearchStream.send, hsend, Option.bind_some]
      dsimp only
      rw [if_neg hgone, if_pos hroom]
      rfl
    | cons event' channel =>
      refine exists_of_isSome (l := .receive) trivial ⟨nofun, nofun⟩ ?_
      rw [SearchStream.step, hchannel]
      rfl

/-- **The task never waits in vain.** -/
theorem exists_step (env : SearchEnv) (hfinished : s.phase ≠ .finished)
    (hpanicked : ∀ place, s.phase ≠ .panicked place) :
    ∃ l s', env.Admits s l ∧ SearchStream.machine.step s l = some s' := by
  cases hphase : s.phase with
  | searching =>
    refine exists_of_isSome (l := .localSearch env.localOutcome) rfl ⟨nofun, nofun⟩ ?_
    rw [SearchStream.step, hphase]
    rfl
  | sendLocal rest =>
    refine exists_send ?_
    rw [hphase]
    cases rest with
    | nil => rfl
    | cons r rest => rfl
  | lookup =>
    refine exists_of_isSome (l := .lookup env.tables) rfl ⟨nofun, nofun⟩ ?_
    rw [SearchStream.step, hphase]
    rfl
  | awaitPeer =>
    -- any request that is outstanding may complete, the first one among them
    cases hout : s.outstanding with
    | nil =>
      refine exists_of_isSome (l := .exhausted) trivial ⟨nofun, nofun⟩ ?_
      rw [SearchStream.step, hphase, hout]
      rfl
    | cons c rest =>
      have hhead : s.outstanding[0]? = some c := by rw [hout]; rfl
      refine exists_of_isSome (l := .complete 0 (env.answer c.1 c.2) 0) ?_ ⟨nofun, nofun⟩ ?_
      · intro c' hc'
        obtain rfl := Option.some.inj (hhead.symm.trans hc')
        rfl
      · rw [SearchStream.step, hphase]
        show (s.take _ _ _).isSome = true
        rw [SearchStream.take, hhead]
        rfl
  | record c =>
    refine exists_of_isSome (l := .record) trivial ⟨nofun, nofun⟩ ?_
    rw [SearchStream.step, hphase]
    rfl
  | sendPeer rest source =>
    refine exists_send ?_
    rw [hphase]
    cases rest with
    | nil => rfl
    | cons r rest => rfl
  | sendDone =>
    refine exists_send ?_
    rw [hphase]
    rfl
  | finished => exact absurd hphase hfinished
  | panicked place => exact absurd hphase (hpanicked place)

end SearchEnv

/-! ### The grammar -/

open SearchStream in
/-- What the runs of the task spawned for a request have in common. Labels carry everything the
local search, the database, the peers and the client do. -/
structure StreamGrammar (req : SearchRequest) : Prop where
  /-- When the task has finished, it has sent the local results, a block for each request in the
  order they completed, and `done`. -/
  events : ∀ ls s, machine.run (spawn req) ls = some s → s.phase = .finished →
    s.sent = streamEvents s.localResults (s.completed.map Completion.outcome)
  /-- Before that it has sent a beginning of this. -/
  events_prefix : ∀ ls s, machine.run (spawn req) ls = some s →
    s.sent <+: streamEvents s.localResults (s.completed.map Completion.outcome)
  /-- The requests that have completed are those dispatched and no longer outstanding, each once;
  in the end none is outstanding. -/
  completed : ∀ ls s, machine.run (spawn req) ls = some s →
    (s.completed.map Completion.dispatched ++ s.outstanding).Perm s.dispatched ∧
      (s.phase = .finished → s.outstanding = [])
  /-- These are the requests to the peers of the collection, as the database has them. -/
  dispatched : ∀ ls s, machine.run (spawn req) ls = some s →
    ∃ t, s.dispatched = SearchCall.forwards t ⟨.stream, req⟩
  /-- They are those the lookup of the peers has found, unless the task has panicked there; the
  peers are looked up when the search is to be forwarded. -/
  lookup : ∀ ls s, machine.run (spawn req) ls = some s →
    (∀ t, .lookup t ∈ ls → s.dispatched = forwardsOf req t ∨ s.phase = .panicked .lookup) ∧
      ((∀ t, .lookup t ∉ ls) → s.dispatched = []) ∧
      (s.phase = .finished → 0 < req.depth → ∃ t, .lookup t ∈ ls)
  /-- The local results are those of the local search, which has returned in the end. -/
  localResults : ∀ ls s, machine.run (spawn req) ls = some s →
    (∀ outcome, .localSearch outcome ∈ ls → s.localResults = outcome.results) ∧
      (s.phase = .finished → ∃ outcome, .localSearch outcome ∈ ls)
  /-- The requests completed, with their answers, and those outstanding are what the completions of
  the run leave of the requests dispatched. -/
  completions : ∀ ls s, machine.run (spawn req) ls = some s →
    ls.foldl noteCompletion (s.dispatched, []) = (s.outstanding, s.completed)
  /-- No outcome is recorded twice, and in the end every outcome is. -/
  recorded : ∀ ls s, machine.run (spawn req) ls = some s →
    s.recorded <+: s.completed.map (fun c ↦ c.outcome.health) ∧
      (s.phase = .finished → s.recorded = s.completed.map fun c ↦ c.outcome.health)
  /-- The client gets the events in order; all of them unless it goes away. -/
  received : ∀ ls s, machine.run (spawn req) ls = some s →
    s.received <+: s.sent ∧ (s.connected = true → s.received ++ s.channel = s.sent)
  /-- The task panics only over a poisoned mutex. -/
  panicked : ∀ ls s, machine.run (spawn req) ls = some s → ∀ place, s.phase = .panicked place →
    s.poisoned = true
  /-- Until it has finished, it goes on, whatever the answers and whether or not the client is
  there. -/
  progress : ∀ ls s, machine.run (spawn req) ls = some s → s.phase ≠ .finished →
    (∀ place, s.phase ≠ .panicked place) →
    ∀ env : SearchEnv, ∃ l s', env.Admits s l ∧ machine.step s l = some s'
  /-- It does not go on for ever. -/
  ends : WellFounded fun s' s : SearchStream ↦ ∃ l, machine.step s l = some s'

/-- **The grammar of the search stream.** -/
theorem streamGrammar (req : SearchRequest) : StreamGrammar req where
  events ls s hrun hfinished := by
    have hsent := (SearchStream.Inv.of_run hrun).sent_eq
    rw [hfinished] at hsent
    exact (List.append_nil _).symm.trans hsent
  events_prefix ls s hrun := ⟨s.phase.owed, (SearchStream.Inv.of_run hrun).sent_eq⟩
  completed ls s hrun := by
    have hs := SearchStream.Inv.of_run hrun
    refine ⟨hs.dispatched_perm, fun hfinished ↦ hs.idle ?_⟩
    rw [hfinished]
    trivial
  dispatched ls s hrun := (SearchStream.Inv.of_run hrun).forwards
  lookup ls s hrun := by
    have hs := SearchStream.Told.of_run hrun
    refine ⟨hs.dispatched, hs.undispatched, fun hfinished ↦ hs.lookedUp ?_⟩
    rw [hfinished]
    exact id
  localResults ls s hrun := by
    have hs := SearchStream.Told.of_run hrun
    refine ⟨hs.localResults, fun hfinished ↦ hs.searched ?_⟩
    rw [hfinished]
    nofun
  completions ls s hrun := (SearchStream.Told.of_run hrun).completions
  recorded ls s hrun := by
    have hrecorded := (SearchStream.Inv.of_run hrun).recorded_eq
    refine ⟨⟨_, hrecorded⟩, fun hfinished ↦ ?_⟩
    rw [hfinished] at hrecorded
    exact (List.append_nil _).symm.trans hrecorded
  received ls s hrun :=
    have hs := SearchStream.Inv.of_run hrun
    ⟨(List.prefix_append _ _).trans hs.received_prefix, hs.received_eq⟩
  panicked ls s hrun := (SearchStream.Inv.of_run hrun).panicked
  progress ls s hrun hfinished hpanicked env := env.exists_step hfinished hpanicked
  ends := SearchStream.wellFounded_step

end CommunitySearch
