import CommunitySearch.Federation.PeerNode
import CommunitySearch.Foundation.Streak

/-!
# When a peer is disabled automatically

A `PeerStatus` is what an administrator sees of a peer: the switch, the count of failures, and the
`peer_disabled` notifications about it. `PeerStatus.next` says how it should go on: the fifth
failure in a row of an enabled peer disables it and writes a notification, and nothing else does
either. Over a fixed set of peers, the row and the notifications of a peer follow it whatever the
order in which outcomes come in and the peer is switched, until the failure that exhausts the peer
is recorded in part (`NodeHealth.BrokenOff`): the count is one statement, and each of the statements
that read it, disable the peer and notify of it may fail by itself. The peer is then disabled by a
later failure, or never notified of. `autoDisables_iff_guarded` says that this is the only way.
-/

namespace CommunitySearch

/-! ### The status of a peer -/

/-- What happens to a peer. -/
inductive PeerEvent where
  | enabled
  | disabled
  | succeeded
  | failed
deriving DecidableEq

structure PeerStatus where
  enabled : Bool
  /-- The failures since the last success, or since the peer was last enabled. -/
  failures : Int
  /-- The notifications that the peer has been disabled automatically. -/
  notices : ℕ
deriving DecidableEq

namespace PeerStatus

/-- **What an event makes of the status.** -/
def next (st : PeerStatus) : PeerEvent → PeerStatus
  | .enabled => { st with enabled := true, failures := 0 }
  | .disabled => { st with enabled := false }
  | .succeeded => { st with failures := 0 }
  | .failed =>
    if st.enabled = true ∧ st.failures + 1 = FAILURE_THRESHOLD then
      ⟨false, st.failures + 1, st.notices + 1⟩
    else { st with failures := st.failures + 1 }

/-- An enabled peer has failed less often than the threshold. -/
def Below (st : PeerStatus) : Prop := st.enabled = true → st.failures < FAILURE_THRESHOLD

theorem Below.next {st : PeerStatus} (h : st.Below) (e : PeerEvent) : (st.next e).Below := by
  cases e with
  | enabled => exact fun _ ↦ by show (0 : Int) < 5; omega
  | disabled => exact fun h' ↦ by cases h'
  | succeeded => exact fun _ ↦ by show (0 : Int) < 5; omega
  | failed =>
    rw [PeerStatus.next]
    split
    case isTrue => exact fun h' ↦ by cases h'
    case isFalse hcond =>
      intro henabled
      have hlt : st.failures < FAILURE_THRESHOLD := h henabled
      have hne : st.failures + 1 ≠ FAILURE_THRESHOLD := fun he ↦ hcond ⟨henabled, he⟩
      show st.failures + 1 < FAILURE_THRESHOLD
      omega

end PeerStatus

/-- The status of a peer with this health, and so many notifications. -/
def NodeHealth.status (h : NodeHealth) (n : ℕ) : PeerStatus :=
  ⟨decide (h.enabled ≠ 0), h.consecutiveFailures, n⟩

/-- The failure that exhausts an enabled peer is counted, but one of the statements that follow
fails. -/
def NodeHealth.BrokenOff (success : Bool) (now : Int) (fails : Option Nat) (h : NodeHealth) :
    Prop :=
  success = false ∧ (fails = some 1 ∨ fails = some 2 ∨ fails = some 3) ∧ (h.fail now).Exhausted

/-- The failure exhausts the peer, and all the statements of its record are executed. -/
def NodeHealth.Disables (success : Bool) (now : Int) (fails : Option Nat) (h : NodeHealth) :
    Prop :=
  success = false ∧ (h.fail now).Exhausted ∧ fails ≠ some 1 ∧ fails ≠ some 2 ∧ fails ≠ some 3

instance (success : Bool) (now : Int) (fails : Option Nat) (h : NodeHealth) :
    Decidable (h.Disables success now fails) := instDecidableAnd

section Status

variable {h : NodeHealth} {now : Int} {fails : Option Nat} {responseMs : Option Int} {n : ℕ}

/-- The count goes up by one, so that it does not pass the threshold. -/
theorem NodeHealth.exhausted_fail_iff (hbelow : (h.status n).Below) :
    (h.fail now).Exhausted ↔
      (h.status n).enabled = true ∧ (h.status n).failures + 1 = FAILURE_THRESHOLD := by
  have henabled : (h.status n).enabled = true ↔ h.enabled ≠ 0 := decide_eq_true_iff
  rw [henabled]
  constructor
  · rintro ⟨hle, hne⟩
    have hlt : h.consecutiveFailures < FAILURE_THRESHOLD := hbelow (henabled.2 hne)
    replace hle : FAILURE_THRESHOLD ≤ h.consecutiveFailures + 1 := hle
    have he : h.consecutiveFailures + 1 = FAILURE_THRESHOLD := by omega
    exact ⟨hne, he⟩
  · rintro ⟨hne, he⟩
    exact ⟨Int.le_of_eq he.symm, hne⟩

/-- **A failure that is recorded in full** is the event of the status. -/
theorem NodeHealth.status_recorded (hbelow : (h.status n).Below) (h0 : fails ≠ some 0)
    (hwhole : ¬ h.BrokenOff false now fails) :
    (h.recorded false responseMs now fails).status
        (n + if h.Disables false now fails then 1 else 0) = (h.status n).next .failed := by
  rw [NodeHealth.recorded, if_neg h0, if_neg Bool.false_ne_true, PeerStatus.next]
  by_cases hexhausted : (h.fail now).Exhausted
  · have hrest : fails ≠ some 1 ∧ fails ≠ some 2 ∧ fails ≠ some 3 :=
      ⟨fun h1 ↦ hwhole ⟨rfl, Or.inl h1, hexhausted⟩,
        fun h2 ↦ hwhole ⟨rfl, Or.inr (Or.inl h2), hexhausted⟩,
        fun h3 ↦ hwhole ⟨rfl, Or.inr (Or.inr h3), hexhausted⟩⟩
    have hdisables : h.Disables false now fails := ⟨rfl, hexhausted, hrest⟩
    rw [if_pos hdisables, if_pos ⟨hexhausted, hrest.1, hrest.2.1⟩,
      if_pos ((exhausted_fail_iff hbelow).1 hexhausted)]
    rfl
  · have hstays : ¬ h.Disables false now fails := fun hd ↦ hexhausted hd.2.1
    rw [if_neg hstays, if_neg fun hd ↦ hexhausted hd.1,
      if_neg (mt (exhausted_fail_iff hbelow).2 hexhausted)]
    rfl

/-- The failure that exhausts the peer is one more notification. -/
theorem PeerStatus.notices_next_failed (hbelow : (h.status n).Below)
    (hexhausted : (h.fail now).Exhausted) : ((h.status n).next .failed).notices = n + 1 := by
  rw [PeerStatus.next, if_pos ((NodeHealth.exhausted_fail_iff hbelow).1 hexhausted)]
  rfl

end Status

/-- The events after which the failures are counted anew. -/
def PeerEvent.clears (e : PeerEvent) : Bool := e = .succeeded ∨ e = .enabled

/-- The count of a status is the streak of failures. -/
theorem failures_foldl {st : PeerStatus} (h0 : st.failures = 0) (events : List PeerEvent) :
    (events.foldl PeerStatus.next st).failures =
      Streak.streak PeerEvent.clears (· = .failed) events := by
  induction events using List.reverseRecOn with
  | nil => exact h0
  | append_singleton events e ih =>
    rw [List.foldl_append, Streak.streak_append_singleton, List.foldl_cons, List.foldl_nil]
    cases e with
    | enabled => rfl
    | disabled => exact ih
    | succeeded => rfl
    | failed =>
      have hcount : ((events.foldl PeerStatus.next st).next .failed).failures =
          (events.foldl PeerStatus.next st).failures + 1 := by
        rw [PeerStatus.next]
        split <;> rfl
      rw [hcount, ih]
      rfl

/-! ### What a record notifies of -/

/-- The notification of `record_result`. -/
def autoDisabled (nodePeerId consecutiveFailures now : Int) : AdminNotification where
  kind := "peer_disabled"
  message := "Peer " ++ toString nodePeerId ++ " auto-disabled after " ++
    toString consecutiveFailures ++ " consecutive failures"
  createdAt := now

/-- The notification says that this peer has been disabled. -/
def AdminNotification.IsAbout (n : AdminNotification) (id : Int) : Prop :=
  n.kind = "peer_disabled" ∧ Text.startsWith n.message ("Peer " ++ toString id ++ " ") = true

instance (n : AdminNotification) (id : Int) : Decidable (n.IsAbout id) := instDecidableAnd

/-- The message tells the peer. -/
theorem autoDisabled_isAbout_iff {id id' count now : Int} :
    (autoDisabled id' count now).IsAbout id ↔ id = id' := by
  have hmessage : (autoDisabled id' count now).message.toList =
      "Peer ".toList ++ ((toString id').toList ++ ' ' :: ("auto-disabled after ".toList ++
        ((toString count).toList ++ " consecutive failures".toList))) := by
    simp only [autoDisabled, String.toList_append, List.append_assoc]
    rfl
  have hstart : ("Peer " ++ toString id ++ " ").toList =
      "Peer ".toList ++ ((toString id).toList ++ ' ' :: []) := by
    simp only [String.toList_append, List.append_assoc]
    rfl
  rw [AdminNotification.IsAbout, Text.startsWith_iff, hmessage, hstart,
    List.prefix_append_right_inj,
    Text.append_cons_prefix_iff (Text.space_not_mem_toString id) (Text.space_not_mem_toString id')]
  constructor
  · rintro ⟨-, hid, -⟩
    exact Text.toString_int_injective hid
  · rintro rfl
    exact ⟨rfl, rfl, List.nil_prefix⟩

namespace Database

theorem nodePeerById_updateHealth {db : Database} {id : Int} {f : NodeHealth → NodeHealth} :
    (db.updateHealth id f).nodePeerById id =
      (db.nodePeerById id).map fun np ↦ np.setHealth (f np.health) := by
  have hid : ((fun np : NodePeerRow ↦ decide (np.id = id)) ∘
      fun np ↦ if np.id = id then np.setHealth (f np.health) else np) =
      fun np ↦ decide (np.id = id) := by
    funext np
    show decide ((if np.id = id then np.setHealth (f np.health) else np).id = id) = _
    split <;> rfl
  show (db.nodePeers.rows.map _).find? _ = (db.nodePeers.rows.find? _).map _
  rw [List.find?_map, hid]
  cases hfind : db.nodePeers.rows.find? fun np ↦ decide (np.id = id) with
  | none => rfl
  | some np =>
    have hnp : np.id = id := by simpa using List.find?_some hfind
    rw [Option.map_some, Option.map_some, if_pos hnp]

end Database

section Record

variable {t : PeerTables} {id now : Int} {success : Bool} {responseMs : Option Int}
  {fails : Option Nat}

/-- The notifications after the count of a failure has been read. -/
theorem notifications_disableExhausted {np : NodePeerRow} :
    (Sql.autocommit (disableExhausted id now np) fails t).1.notifications =
      t.notifications ++
        if np.health.Exhausted ∧ fails ≠ some 0 ∧ fails ≠ some 1 then
          [autoDisabled id np.consecutiveFailures now]
        else [] := by
  rw [disableExhausted]
  by_cases hexhausted : np.health.Exhausted
  · rw [if_pos hexhausted, Sql.autocommit_execute]
    by_cases h0 : fails = some 0
    · rw [if_pos h0, if_neg fun h ↦ h.2.1 h0]
      exact (List.append_nil _).symm
    rw [if_neg h0]
    show (Sql.autocommit (insertNotification _ _ now) (fails.map (· - 1)) _).1.notifications = _
    rw [insertNotification]
    by_cases h1 : fails = some 1
    · rw [if_neg fun h ↦ h.2.2 h1, Sql.autocommit_execute,
        if_pos ((Sql.pred_eq_some_iff h0).2 h1)]
      exact (List.append_nil _).symm
    · rw [if_pos ⟨hexhausted, h0, h1⟩, Sql.autocommit_execute,
        if_neg (mt (Sql.pred_eq_some_iff h0).1 h1)]
      rfl
  · rw [if_neg hexhausted, if_neg fun h ↦ hexhausted h.1]
    exact (List.append_nil _).symm

/-- **The notifications after a record.** -/
theorem notifications_recordResult (h0 : fails ≠ some 0) :
    (Sql.autocommit (recordResult id success responseMs now) fails t).1.notifications =
      t.notifications ++ match t.db.nodePeerById id with
        | some np =>
          if np.health.Disables success now fails then
            [autoDisabled id (np.consecutiveFailures + 1) now]
          else []
        | none => [] := by
  rw [recordResult]
  cases success with
  | true =>
    rw [if_pos rfl, Sql.autocommit_execute, if_neg h0]
    cases t.db.nodePeerById id with
    | none => exact (List.append_nil _).symm
    | some np =>
      dsimp only
      rw [if_neg fun h ↦ by cases h.1]
      exact (List.append_nil _).symm
  | false =>
    rw [if_neg Bool.false_ne_true, Sql.autocommit_execute, if_neg h0]
    show (Sql.autocommit _ (fails.map (· - 1))
      { t with db := t.db.updateHealth id (.fail now) }).1.notifications = _
    rw [Sql.autocommit_queryRow]
    by_cases h1 : fails = some 1
    · -- the count is not read
      rw [if_pos ((Sql.pred_eq_some_iff h0).2 h1)]
      cases t.db.nodePeerById id with
      | none => exact (List.append_nil _).symm
      | some np =>
        dsimp only
        rw [if_neg fun h ↦ h.2.2.1 h1]
        exact (List.append_nil _).symm
    have hpred : fails.map (· - 1) ≠ some 0 := mt (Sql.pred_eq_some_iff h0).1 h1
    rw [if_neg hpred, Database.nodePeerById_updateHealth]
    -- the count is read; what is left disables and notifies, with two statements fewer to fail
    cases t.db.nodePeerById id with
    | none => exact (List.append_nil _).symm
    | some np =>
      show (Sql.autocommit (disableExhausted id now _) _ _).1.notifications = _
      rw [notifications_disableExhausted, NodePeerRow.health_setHealth]
      have hdisables : (np.health.fail now).Exhausted ∧
          (fails.map (· - 1)).map (· - 1) ≠ some 0 ∧ (fails.map (· - 1)).map (· - 1) ≠ some 1 ↔
          np.health.Disables false now fails := by
        rw [Ne, Ne, Sql.pred_eq_some_iff hpred, Sql.pred_eq_some_iff hpred,
          Sql.pred_eq_some_iff h0, Sql.pred_eq_some_iff h0]
        exact ⟨fun h ↦ ⟨rfl, h.1, h1, h.2⟩, fun h ↦ ⟨h.2.1, h.2.2.2⟩⟩
      rw [if_congr hdisables rfl rfl]
      rfl

/-- The number of notifications about a peer. -/
def notices (l : List AdminNotification) (id : Int) : ℕ := l.countP fun n ↦ n.IsAbout id

/-- A record notifies of the peer that it disables. -/
theorem notices_recordResult (h0 : fails ≠ some 0) {np : NodePeerRow}
    (hrow : t.db.nodePeerById id = some np) :
    notices (Sql.autocommit (recordResult id success responseMs now) fails t).1.notifications id =
      notices t.notifications id + if np.health.Disables success now fails then 1 else 0 := by
  rw [notices, notifications_recordResult h0, hrow, List.countP_append]
  dsimp only
  split
  · rw [List.countP_singleton, if_pos (decide_eq_true (autoDisabled_isAbout_iff.2 rfl))]
    rfl
  · rfl

/-- A record whose first statement fails writes nothing. -/
theorem autocommit_recordResult_zero :
    (Sql.autocommit (recordResult id success responseMs now) (some 0) t).1 = t := by
  rw [recordResult]
  split
  · rw [Sql.autocommit_execute, if_pos rfl]
  · rw [Sql.autocommit_execute, if_pos rfl]

/-- It does not notify of another. -/
theorem notices_recordResult_of_ne {id' : Int} (hne : id' ≠ id) :
    notices (Sql.autocommit (recordResult id success responseMs now) fails t).1.notifications id' =
      notices t.notifications id' := by
  have hother : ∀ count, decide ((autoDisabled id count now).IsAbout id') = false := fun _ ↦
    decide_eq_false (mt autoDisabled_isAbout_iff.1 hne)
  by_cases h0 : fails = some 0
  · rw [h0, autocommit_recordResult_zero]
  rw [notices, notifications_recordResult h0, List.countP_append]
  cases t.db.nodePeerById id with
  | none => rfl
  | some np =>
    dsimp only
    split
    · rw [List.countP_singleton, hother, if_neg Bool.false_ne_true]
      rfl
    · rfl

/-- A notification of another kind. -/
theorem notices_insertNotification {kind message : String} {id' : Int}
    (hkind : kind ≠ "peer_disabled") :
    notices (Sql.autocommit (insertNotification kind message now) fails t).1.notifications id' =
      notices t.notifications id' := by
  rw [insertNotification, Sql.autocommit_execute]
  split
  · rfl
  · have hother : decide ((⟨kind, message, now⟩ : AdminNotification).IsAbout id') = false :=
      decide_eq_false fun h ↦ hkind h.1
    show notices (t.notifications ++ [⟨kind, message, now⟩]) id' = _
    rw [notices, List.countP_append, List.countP_singleton, hother, if_neg Bool.false_ne_true]
    rfl

theorem notices_reEnable {id' : Int} :
    notices (Sql.autocommit (reEnable id now) fails t).1.notifications id' =
      notices t.notifications id' := by
  rw [reEnable_eq, Sql.autocommit_execute]
  split
  · rfl
  · exact notices_insertNotification (t := { t with db := t.db.updateHealth id .enable })
      (by decide)

theorem notifications_setNodePeerEnabled {enabled : Bool} :
    (Sql.autocommit (setNodePeerEnabled id enabled now) fails t).1.notifications =
      t.notifications := by
  rw [setNodePeerEnabled, Sql.autocommit_execute]
  split <;> rfl

end Record

/-! ### Runs over a fixed set of peers -/

/-- What can happen while no peer is added or deleted. -/
inductive HealthOp where
  | tick (d : ℕ)
  | search (localCollection : String)
  | outcome (k : ℕ) (success : Bool) (elapsedMs : Int) (fails : Option Nat)
  | abandon (k : ℕ)
  | setEnabled (id : Int) (enabled : Bool) (fails : Option Nat)
  | check (order : List (Int × String))
  | probe (answers : Bool) (fails : Option Nat)
  | restart
  /-- The rest of the engine. -/
  | write (db : Database)

/-- The step of the engine. -/
def HealthOp.label : HealthOp → PeerLabel
  | .tick d => .tick d
  | .search localCollection => .search localCollection
  | .outcome k success elapsedMs fails => .outcome k success elapsedMs fails
  | .abandon k => .abandon k
  | .setEnabled id enabled fails => .setEnabled id enabled fails
  | .check order => .check order
  | .probe answers fails => .probe answers fails
  | .restart => .restart
  | .write db => .write db

/-- The statement that fails. -/
def HealthOp.fails : HealthOp → Option Nat
  | .outcome _ _ _ fails => fails
  | .setEnabled _ _ fails => fails
  | .probe _ fails => fails
  | _ => none

namespace PeerNode

variable (X : Crates)

/-- The engine with a fixed set of peers. -/
def fixedPeers : Machine PeerNode HealthOp where
  step s op := (machine X).step s op.label

/-- What an operation is for the peer with the id: it is recorded when its first statement is
executed. -/
def event (s : PeerNode) (id : Int) : HealthOp → Option PeerEvent
  | .setEnabled id' enabled fails =>
    if id' = id ∧ fails ≠ some 0 then some (if enabled then .enabled else .disabled) else none
  | .outcome k success _ fails =>
    (s.contacts[k]?).bind fun c ↦
      if c.id = id ∧ fails ≠ some 0 then some (if success then .succeeded else .failed) else none
  | .probe answers fails =>
    s.sweep.head?.bind fun c ↦
      if c.id = id ∧ fails ≠ some 0 ∧ answers = true then some .enabled else none
  | _ => none

/-- The events of the peer with the id. -/
def events (id : Int) (l : List PeerEvent) (s : PeerNode) (op : HealthOp) : List PeerEvent :=
  l ++ (s.event id op).toList

/-- The status of the peer with this row. -/
def statusOf (s : PeerNode) (np : NodePeerRow) : PeerStatus :=
  np.health.status (notices s.tables.notifications np.id)

/-- The peer with the id has the status. -/
def Tracks (s : PeerNode) (id : Int) (st : PeerStatus) : Prop :=
  ∃ np ∈ s.rows, np.id = id ∧ s.statusOf np = st

/-- The operation does not break off the record of the failure that exhausts the peer with the
id. -/
def Completes (id : Int) (s : PeerNode) (op : HealthOp) : Prop :=
  ∀ k success elapsedMs fails c, op = .outcome k success elapsedMs fails →
    s.contacts[k]? = some c → c.id = id → ∀ np ∈ s.rows, np.id = id →
      ¬ np.health.BrokenOff success s.clock fails

variable {X} {s s' : PeerNode} {id : Int} {st : PeerStatus} {op : HealthOp}

/-- What changes neither the rows nor the notifications. -/
theorem Tracks.of_eq (hs : s.Tracks id st) (hrows : s'.rows = s.rows)
    (hnotifications : s'.tables.notifications = s.tables.notifications) : s'.Tracks id st := by
  obtain ⟨np, hnp, hid, hst⟩ := hs
  refine ⟨np, hrows ▸ hnp, hid, ?_⟩
  rw [statusOf, hnotifications]
  exact hst

/-- What is written about a peer, by its id. -/
theorem Tracks.update (hs : s.Tracks id st) (op : HealthOp) {id' : Int}
    {f : NodeHealth → NodeHealth} (hdb : s'.db = s.db.updateHealth id' f)
    (hsame : id' = id → ∀ np ∈ s.rows, np.id = id → s.statusOf np = st →
      (f np.health).status (notices s'.tables.notifications id) =
        (s.event id op).toList.foldl PeerStatus.next st)
    (hother : id' ≠ id → s.event id op = none ∧
      notices s'.tables.notifications id = notices s.tables.notifications id) :
    s'.Tracks id ((s.event id op).toList.foldl PeerStatus.next st) := by
  obtain ⟨np, hnp, hid, rfl⟩ := hs
  have hmem : _ ∈ (s.db.updateHealth id' f).nodePeers := Database.mem_updateHealth_of_mem hnp
  rw [← hdb] at hmem
  refine ⟨_, hmem, ?_⟩
  by_cases h : id' = id
  · rw [if_pos (hid.trans h.symm)]
    refine ⟨hid, ?_⟩
    rw [← hsame h np hnp hid rfl, statusOf, NodePeerRow.health_setHealth,
      NodePeerRow.id_setHealth, hid]
  · obtain ⟨hevent, hnotices⟩ := hother h
    rw [if_neg fun he ↦ h (he.symm.trans hid)]
    refine ⟨hid, ?_⟩
    rw [hevent, statusOf, statusOf, hid, hnotices]
    rfl

theorem nodePeerById_of_mem {np : NodePeerRow} (hnp : np ∈ s.rows) (hid : np.id = id) :
    s.db.nodePeerById id = some np := by
  cases hrow : s.db.nodePeerById id with
  | none => exact absurd hid (Database.nodePeerById_eq_none hrow np hnp)
  | some np' =>
    obtain ⟨hnp', hid'⟩ := Database.nodePeerById_eq_some hrow
    exact congrArg some (Database.eq_of_mem_nodePeers hnp' hnp (Or.inl (hid'.trans hid.symm)))

/-- The administrator switches a peer. -/
theorem Tracks.setEnabled (hs : s.Tracks id st) (id' : Int) (enabled : Bool)
    (fails : Option Nat) :
    (s.track (setNodePeerEnabled id' enabled s.clock) fails).Tracks id
      ((s.event id (.setEnabled id' enabled fails)).toList.foldl PeerStatus.next st) := by
  have hnotifications : (s.track (setNodePeerEnabled id' enabled s.clock)
      fails).tables.notifications = s.tables.notifications := notifications_setNodePeerEnabled
  by_cases h0 : fails = some 0
  · have hdb : (s.track (setNodePeerEnabled id' enabled s.clock) fails).db = s.db :=
      autocommit_setNodePeerEnabled.trans (if_pos h0)
    have hevent : s.event id (.setEnabled id' enabled fails) = none := if_neg fun h ↦ h.2 h0
    rw [hevent]
    exact hs.of_eq (congrArg (fun db : Database ↦ db.nodePeers.rows) hdb) hnotifications
  have hdb : (s.track (setNodePeerEnabled id' enabled s.clock) fails).db =
      s.db.updateHealth id' (if enabled then .enable else .disable s.clock) :=
    autocommit_setNodePeerEnabled.trans (if_neg h0)
  refine hs.update _ hdb (fun he np hnp hid hst ↦ ?_) fun hne ↦
    ⟨if_neg fun h ↦ hne h.1, by rw [hnotifications]⟩
  subst hst
  have hrecorded : id' = id ∧ fails ≠ some 0 := ⟨he, h0⟩
  rw [hnotifications, event, if_pos hrecorded, statusOf, hid]
  cases enabled with
  | true => rfl
  | false => rfl

/-- The event of an outcome. -/
theorem event_outcome {k : ℕ} {success : Bool} {elapsedMs : Int} {fails : Option Nat} {c : Contact}
    (hc : s.contacts[k]? = some c) :
    s.event id (.outcome k success elapsedMs fails) =
      if c.id = id ∧ fails ≠ some 0 then some (if success then .succeeded else .failed)
      else none := by
  rw [event, hc]
  rfl

/-- **A record** that is not broken off. -/
theorem Tracks.outcome (hs : s.Tracks id st) (hbelow : st.Below) {k : ℕ} {success : Bool}
    {elapsedMs : Int} {fails : Option Nat} {c : Contact} (hc : s.contacts[k]? = some c)
    (hwhole : Completes id s (.outcome k success elapsedMs fails)) :
    (s.track (recordResult c.id success (some elapsedMs) s.clock) fails).Tracks id
      ((s.event id (.outcome k success elapsedMs fails)).toList.foldl PeerStatus.next st) := by
  by_cases h0 : fails = some 0
  · have htables : (s.track (recordResult c.id success (some elapsedMs) s.clock) fails).tables =
        s.tables := by
      rw [h0]
      exact autocommit_recordResult_zero
    rw [event_outcome hc, if_neg fun h ↦ h.2 h0]
    refine hs.of_eq ?_ (congrArg PeerTables.notifications htables)
    exact congrArg (fun t : PeerTables ↦ t.db.nodePeers.rows) htables
  have hdb : (s.track (recordResult c.id success (some elapsedMs) s.clock) fails).db =
      s.db.updateHealth c.id (.recorded success (some elapsedMs) s.clock fails) :=
    autocommit_recordResult
  refine hs.update _ hdb (fun he np hnp hid hst ↦ ?_) fun hne ↦
    ⟨(event_outcome hc).trans (if_neg fun h ↦ hne h.1), notices_recordResult_of_ne (Ne.symm hne)⟩
  subst hst
  have hrow : s.db.nodePeerById c.id = some np := nodePeerById_of_mem hnp (hid.trans he.symm)
  have hstatus : s.statusOf np = np.health.status (notices s.tables.notifications id) := by
    rw [statusOf, hid]
  have hnotices : notices (s.track (recordResult c.id success (some elapsedMs) s.clock)
      fails).tables.notifications id = notices s.tables.notifications id +
        if np.health.Disables success s.clock fails then 1 else 0 :=
    he ▸ notices_recordResult h0 hrow
  rw [event_outcome hc, if_pos ⟨he, h0⟩, hstatus, hnotices]
  cases success with
  | true =>
    rw [NodeHealth.recorded, if_neg h0, if_pos rfl, if_neg fun h ↦ by cases h.1]
    rfl
  | false =>
    exact NodeHealth.status_recorded (hstatus ▸ hbelow) h0 (hwhole _ _ _ _ c rfl hc he np hnp hid)

/-- A probe ends. -/
theorem Tracks.probed (hs : s.Tracks id st) {c : Contact} {sweep : List Contact}
    (hsweep : s.sweep = c :: sweep) (answers : Bool) (fails : Option Nat) :
    (s.probed c sweep answers fails).Tracks id
      ((s.event id (.probe answers fails)).toList.foldl PeerStatus.next st) := by
  have hevent : s.event id (.probe answers fails) =
      if c.id = id ∧ fails ≠ some 0 ∧ answers = true then some .enabled else none := by
    rw [event, hsweep]
    rfl
  rw [PeerNode.probed]
  cases answers with
  | false =>
    have hnone : s.event id (.probe false fails) = none :=
      hevent.trans (if_neg fun h ↦ Bool.false_ne_true h.2.2)
    rw [hnone]
    exact hs.of_eq rfl rfl
  | true =>
    have hnotices : notices (s.track (reEnable c.id s.clock) fails).tables.notifications id =
        notices s.tables.notifications id := notices_reEnable
    rw [if_pos rfl]
    have hdb : (s.track (reEnable c.id s.clock) fails).db =
        s.db.updateHealth c.id (if fails = some 0 then fun h ↦ h else .enable) := by
      refine autocommit_reEnable.trans ?_
      split
      · exact Database.updateHealth_id.symm
      · rfl
    refine hs.update (.probe true fails) hdb (fun he np hnp hid hst ↦ ?_) fun hne ↦
      ⟨hevent.trans (if_neg fun h ↦ hne h.1), hnotices⟩
    · subst hst
      have hstatus : s.statusOf np = np.health.status (notices s.tables.notifications id) := by
        rw [statusOf, hid]
      rw [hevent, hstatus]
      refine (congrArg (NodeHealth.status _) hnotices).trans ?_
      by_cases h0 : fails = some 0
      · rw [if_pos h0, if_neg fun h ↦ h.2.1 h0]
        rfl
      · rw [if_neg h0, if_pos ⟨he, h0, rfl⟩]
        rfl

/-- **One operation** makes of the status what its event does. -/
theorem Tracks.step (hs : s.Tracks id st) (hbelow : st.Below) (hwhole : Completes id s op)
    (h : (fixedPeers X).step s op = some s') :
    s'.Tracks id ((s.event id op).toList.foldl PeerStatus.next st) := by
  cases op with
  | tick d =>
    obtain rfl := Option.some.inj h
    exact hs.of_eq rfl rfl
  | search localCollection =>
    obtain rfl := Option.some.inj h
    exact hs.of_eq rfl rfl
  | abandon k =>
    obtain rfl := Option.some.inj h
    exact hs.of_eq rfl rfl
  | restart =>
    obtain rfl := Option.some.inj h
    exact hs.of_eq rfl rfl
  | check order =>
    obtain ⟨-, h⟩ := Option.ite_none_right_eq_some.1 h
    obtain rfl := Option.some.inj h
    exact hs.of_eq rfl rfl
  | write db =>
    obtain ⟨hrows, h⟩ := Option.ite_none_right_eq_some.1 h
    obtain rfl := Option.some.inj h
    exact hs.of_eq hrows rfl
  | setEnabled id' enabled fails =>
    obtain rfl := Option.some.inj h
    exact hs.setEnabled id' enabled fails
  | outcome k success elapsedMs fails =>
    obtain ⟨c, hc, rfl⟩ := Option.map_eq_some_iff.1 h
    exact (hs.outcome hbelow hc hwhole).of_eq rfl rfl
  | probe answers fails =>
    obtain ⟨c, sweep, hsweep, rfl⟩ := probe_eq_some (X := X) h
    exact hs.probed hsweep answers fails

/-- **A record that is broken off** is not: the notification is missing. -/
theorem not_tracks_of_not_completes (hs : s.Tracks id st) (hbelow : st.Below)
    (hbroken : ¬ Completes id s op) (h : (fixedPeers X).step s op = some s') :
    ¬ s'.Tracks id ((s.event id op).toList.foldl PeerStatus.next st) := by
  rintro ⟨np', -, hid', hst'⟩
  refine hbroken fun k success elapsedMs fails c hop hc he np hnp hid hcut ↦ ?_
  subst hop
  obtain ⟨c', hc', rfl⟩ := Option.map_eq_some_iff.1 h
  obtain rfl := Option.some.inj (hc.symm.trans hc')
  obtain ⟨rfl, hfails, hexhausted⟩ := hcut
  have h0 : fails ≠ some 0 := by
    rcases hfails with rfl | rfl | rfl
    · decide
    · decide
    · decide
  have hmissing : ¬ np.health.Disables false s.clock fails := fun hd ↦ by
    rcases hfails with h1 | h2 | h3
    · exact hd.2.2.1 h1
    · exact hd.2.2.2.1 h2
    · exact hd.2.2.2.2 h3
  have hrow : s.db.nodePeerById c.id = some np := nodePeerById_of_mem hnp (hid.trans he.symm)
  have hnotices : notices (s.track (recordResult c.id false (some elapsedMs) s.clock)
      fails).tables.notifications id = notices s.tables.notifications id := by
    have h := @notices_recordResult s.tables c.id s.clock false (some elapsedMs) fails h0 np hrow
    rw [if_neg hmissing] at h
    exact he ▸ h
  obtain ⟨np₀, hnp₀, hid₀, rfl⟩ := hs
  obtain rfl : np₀ = np := Database.eq_of_mem_nodePeers hnp₀ hnp (Or.inl (hid₀.trans hid.symm))
  have hmore := PeerStatus.notices_next_failed hbelow hexhausted
  rw [event_outcome hc, if_pos ⟨he, h0⟩] at hst'
  replace hst' := congrArg PeerStatus.notices hst'
  have hcount : notices (s.track (recordResult c.id false (some elapsedMs) s.clock)
      fails).tables.notifications np'.id = notices s.tables.notifications np₀.id + 1 :=
    hst'.trans hmore
  rw [hid', hid₀, hnotices] at hcount
  omega

/-- **Auto-disable**, after these events of the peer with the id, that had the status `st`: its row
and the notifications about it are what the events make of the status, so that the peer is disabled
automatically by the fifth failure in a row since its last success or since it was last enabled,
and notified of just then. -/
def AutoDisables (id : Int) (st : PeerStatus) (s : PeerNode) (events : List PeerEvent) : Prop :=
  ∃ np ∈ s.rows, np.id = id ∧ s.statusOf np = events.foldl PeerStatus.next st ∧
    np.consecutiveFailures = Streak.streak PeerEvent.clears (· = .failed) events ∧
    (np.enabled ≠ 0 → np.consecutiveFailures < FAILURE_THRESHOLD)

theorem AutoDisables.tracks {events : List PeerEvent} (h : AutoDisables id st s events) :
    s.Tracks id (events.foldl PeerStatus.next st) := by
  obtain ⟨np, hnp, hid, hst, -⟩ := h
  exact ⟨np, hnp, hid, hst⟩

theorem Tracks.autoDisables {events : List PeerEvent} (hzero : st.failures = 0)
    (hs : s.Tracks id (events.foldl PeerStatus.next st))
    (hbelow : (events.foldl PeerStatus.next st).Below) : AutoDisables id st s events := by
  obtain ⟨np, hnp, hid, hst⟩ := hs
  have hcount : (s.statusOf np).failures = np.consecutiveFailures := rfl
  refine ⟨np, hnp, hid, hst, ?_, fun henabled ↦ ?_⟩
  · rw [← hcount, hst]
    exact failures_foldl hzero _
  · rw [← hst] at hbelow
    exact hbelow (decide_eq_true henabled)

/-- **When auto-disable is exact.** Take a peer with no failure counted, and let no peer be added or
deleted. Whatever the outcomes of searches, the switches of the administrator and the sweeps of the
health check, whatever their order and whatever statements fail, auto-disable is exact in every
state of the run just when no step breaks off the record of the failure that exhausts the peer. -/
theorem autoDisables_iff_guarded (X : Crates) {s₀ : PeerNode} {np₀ : NodePeerRow}
    (hmem : np₀ ∈ s₀.rows) (hid : np₀.id = id) (hfresh : np₀.consecutiveFailures = 0)
    {ops : List HealthOp} (hrun : (fixedPeers X).run s₀ ops = some s') :
    (∀ l₁ l₂ t, ops = l₁ ++ l₂ → (fixedPeers X).run s₀ l₁ = some t →
      AutoDisables id (s₀.statusOf np₀) t ((fixedPeers X).observe (events id) [] s₀ l₁)) ↔
        (fixedPeers X).Guarded (Completes id) s₀ ops := by
  have hzero : (s₀.statusOf np₀).failures = 0 := hfresh
  have hbelow : (s₀.statusOf np₀).Below := fun _ ↦ by
    rw [hzero]
    show (0 : Int) < 5
    omega
  refine Machine.observed_iff_guarded
    (I := fun s l ↦ s.Tracks id (l.foldl PeerStatus.next (s₀.statusOf np₀)) ∧
      (l.foldl PeerStatus.next (s₀.statusOf np₀)).Below)
    (P := AutoDisables id (s₀.statusOf np₀)) (fun s l hs ↦ hs.1.autoDisables hzero hs.2)
    ?_ ?_ ⟨⟨np₀, hmem, hid, rfl⟩, hbelow⟩ hrun
  · rintro s l op s' ⟨hs, hlt⟩ hwhole h
    rw [events, List.foldl_append]
    refine ⟨hs.step hlt hwhole h, ?_⟩
    cases s.event id op with
    | none => exact hlt
    | some e => exact hlt.next e
  · rintro s l op s' ⟨hs, hlt⟩ hbroken h hexact
    have htracks := hexact.tracks
    rw [events, List.foldl_append] at htracks
    exact not_tracks_of_not_completes hs hlt hbroken h htracks

/-! ### A peer that fails again and again -/

namespace FifthFailure

/-- An engine that searches the collection `guide` together with one peer. -/
def setup : List PeerLabel :=
  [.addNode "https://a.example" none, .subscribe "guide" 1 "guide" 1]

/-- Six searches list the peer before any of their requests ends: five outcomes disable it, and the
sixth comes in late. The administrator enables it, the next outcome is not recorded for a database
that is busy, and the one after it is the first. -/
def ops : List HealthOp :=
  List.replicate 6 (.search "guide") ++ List.replicate 6 (.outcome 0 false 30 none) ++
    [.setEnabled 1 true none, .search "guide", .outcome 0 false 30 (some 0), .search "guide",
      .outcome 0 false 30 none]

/-- The fifth outcome is counted, and the database is busy when the count is read. -/
def brokenOps : List HealthOp :=
  List.replicate 5 (.search "guide") ++ List.replicate 4 (.outcome 0 false 30 none) ++
    [.outcome 0 false 30 (some 1)]

/-- The engine, with no answers to rely on. -/
def crates : Crates := .ofTables ⟨[], [], [], [], []⟩

/-- The engine with its peer. -/
def start : PeerNode := ((machine crates).run (initial 0) setup).getD (initial 0)

/-- The peer when it has been added. -/
def peer : NodePeerRow := ⟨1, "https://a.example", none, 1, 0, none, none, none⟩

/-- The peer is enabled after the fifth failure. -/
theorem not_autoDisables : ¬ ∀ ops s, (fixedPeers crates).run start ops = some s →
    AutoDisables 1 (start.statusOf peer) s
      ((fixedPeers crates).observe (events 1) [] start ops) := by
  intro h
  have hany : ((fixedPeers crates).run start brokenOps).any (fun s ↦
      s.rows.all fun np ↦ np.enabled ≠ 0) = true := by decide +kernel
  obtain ⟨s, hs, henabled⟩ := Machine.exists_run_of_any hany
  obtain ⟨np, hnp, -, hst, -⟩ := h _ s hs
  have hdisabled : (s.statusOf np).enabled = false := by
    rw [hst]
    decide +kernel
  exact of_decide_eq_false hdisabled (of_decide_eq_true (List.all_eq_true.1 henabled np hnp))

/-- A run in which no record of the failure that exhausts the peer is broken off. -/
theorem autoDisables_iff_guarded_ops :
    ∃ s, (fixedPeers crates).run start ops = some s ∧
      ∃ np ∈ s.rows, np.id = 1 ∧ s.statusOf np = ⟨true, 1, 1⟩ := by
  obtain ⟨s, hrun, -⟩ := Machine.exists_run_of_any
    (show ((fixedPeers crates).run start ops).any (fun _ ↦ true) = true by decide +kernel)
  have hmem : peer ∈ start.rows := by decide +kernel
  have hexact := autoDisables_iff_guarded crates hmem rfl rfl hrun
  have hguarded : (fixedPeers crates).Guarded (Completes 1) start ops := by
    have hops : ∀ op ∈ ops, op.fails = none ∨ op.fails = some 0 := by decide
    refine (Machine.guarded_of_forall (fixedPeers crates) hops).mono ?_
    rintro t op hop k success elapsedMs fails c rfl - - np - - ⟨-, hfails, -⟩
    rcases hop with rfl | rfl
    · simp at hfails
    · simp at hfails
  obtain ⟨np, hnp, hid, hst, -⟩ := hexact.2 hguarded ops [] s (List.append_nil _).symm hrun
  refine ⟨s, hrun, np, hnp, hid, hst.trans ?_⟩
  decide +kernel

end FifthFailure

end PeerNode

end CommunitySearch
