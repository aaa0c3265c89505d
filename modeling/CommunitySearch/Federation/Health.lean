import CommunitySearch.Federation.Storage
import CommunitySearch.Foundation.Sql

/-!
# Peer health

What is written about the health of a node peer: the outcome of a search (`recordResult`), and the
switch of the administrator and of the health check (`setNodePeerEnabled`). Both are programs of
statements outside a transaction, so that one which fails leaves what was written before it.

A `NodeHealth` is the part of a row these statements write. `autocommit_recordResult` says what a
record does to it, wherever it is cut off; nothing else of the tables changes, but for the
notifications.
-/

namespace CommunitySearch

/-- Number of consecutive failures before a peer is automatically disabled. -/
def FAILURE_THRESHOLD : Int := 5

/-- The columns of `node_peers` that health tracking writes. -/
structure NodeHealth where
  enabled : Int
  consecutiveFailures : Int
  lastResponseMs : Option Int
  lastCheckedAt : Option Int
  disabledAt : Option Int
deriving DecidableEq

namespace NodePeerRow

def health (np : NodePeerRow) : NodeHealth :=
  ⟨np.enabled, np.consecutiveFailures, np.lastResponseMs, np.lastCheckedAt, np.disabledAt⟩

def setHealth (np : NodePeerRow) (h : NodeHealth) : NodePeerRow :=
  { np with
    enabled := h.enabled
    consecutiveFailures := h.consecutiveFailures
    lastResponseMs := h.lastResponseMs
    lastCheckedAt := h.lastCheckedAt
    disabledAt := h.disabledAt }

@[simp] theorem health_setHealth (np : NodePeerRow) (h : NodeHealth) :
    (np.setHealth h).health = h := rfl

@[simp] theorem setHealth_health (np : NodePeerRow) : np.setHealth np.health = np := rfl

@[simp] theorem setHealth_setHealth (np : NodePeerRow) (h h' : NodeHealth) :
    (np.setHealth h).setHealth h' = np.setHealth h' := rfl

@[simp] theorem id_setHealth (np : NodePeerRow) (h : NodeHealth) :
    (np.setHealth h).id = np.id := rfl

@[simp] theorem url_setHealth (np : NodePeerRow) (h : NodeHealth) :
    (np.setHealth h).url = np.url := rfl

end NodePeerRow

/-! ### The statements -/

/-- A row of `admin_notifications`. -/
structure AdminNotification where
  kind : String
  message : String
  createdAt : Int
deriving DecidableEq

/-- The database and the notifications of the administrator, the oldest first. -/
structure PeerTables where
  db : Database
  notifications : List AdminNotification

namespace Database

/-- `UPDATE node_peers SET .. WHERE id = ?`, of the columns of health. -/
def updateHealth (db : Database) (id : Int) (f : NodeHealth → NodeHealth) : Database :=
  { db with
    nodePeers := db.nodePeers.modify
      (fun np ↦ if np.id = id then np.setHealth (f np.health) else np)
      (fun a b h ↦ by split at h <;> split at h <;> exact h) }

/-- The row with the given id. -/
def nodePeerById (db : Database) (id : Int) : Option NodePeerRow :=
  db.nodePeers.rows.find? fun np ↦ np.id = id

/-- `DELETE FROM node_peers WHERE id = ?`, with the subscriptions to the node. -/
def deleteNodePeer (db : Database) (id : Int) : Database :=
  { db with
    nodePeers := db.nodePeers.deleteWhere fun np ↦ np.id = id
    collectionPeers := db.collectionPeers.deleteWhere fun cp ↦ cp.nodePeerId = id }

/-- The tables of the fan-out. -/
def federation (db : Database) : FederationTables := ⟨db.nodePeers, db.collectionPeers⟩

end Database

/-- A piece of health tracking. -/
abbrev PeerSql (α : Type) := Prog (Sql.Sig PeerTables) (Except Sql.Error α)

namespace PeerTables

/-- `updateHealth` as a statement. -/
def update (id : Int) (f : NodeHealth → NodeHealth) : Sql.Statement PeerTables := fun _ t ↦
  some ({ t with db := t.db.updateHealth id f }, t.db.nodePeers.rows.countP fun np ↦ np.id = id)

/-- `INSERT INTO admin_notifications`. -/
def notify (n : AdminNotification) : Sql.Statement PeerTables := fun _ t ↦
  some ({ t with notifications := t.notifications ++ [n] }, 1)

end PeerTables

namespace NodeHealth

/-- A request has succeeded. -/
def succeed (responseMs : Option Int) (now : Int) (h : NodeHealth) : NodeHealth :=
  { h with consecutiveFailures := 0, lastResponseMs := responseMs, lastCheckedAt := some now }

/-- A request has failed. -/
def fail (now : Int) (h : NodeHealth) : NodeHealth :=
  { h with consecutiveFailures := h.consecutiveFailures + 1, lastCheckedAt := some now }

def disable (now : Int) (h : NodeHealth) : NodeHealth :=
  { h with enabled := 0, disabledAt := some now }

def enable (h : NodeHealth) : NodeHealth :=
  { h with enabled := 1, disabledAt := none, consecutiveFailures := 0 }

/-- The peer is enabled, and has failed too often to remain so. -/
def Exhausted (h : NodeHealth) : Prop :=
  FAILURE_THRESHOLD ≤ h.consecutiveFailures ∧ h.enabled ≠ 0

instance (h : NodeHealth) : Decidable h.Exhausted := instDecidableAnd

end NodeHealth

/-- `insert_notification`. -/
def insertNotification (kind message : String) (now : Int) : PeerSql Unit :=
  (Sql.execute (PeerTables.notify ⟨kind, message, now⟩)).attempt fun _ ↦ .ret (.ok ())

/-- The end of `record_result`: a peer that has failed too often is disabled. -/
def disableExhausted (nodePeerId : Int) (now : Int) (np : NodePeerRow) : PeerSql Unit :=
  if np.health.Exhausted then
    (Sql.execute (PeerTables.update nodePeerId (.disable now))).attempt fun _ ↦
      insertNotification "peer_disabled"
        ("Peer " ++ toString nodePeerId ++ " auto-disabled after " ++
          toString np.consecutiveFailures ++ " consecutive failures") now
  else .ret (.ok ())

/-- `record_result`. -/
def recordResult (nodePeerId : Int) (success : Bool) (responseMs : Option Int) (now : Int) :
    PeerSql Unit :=
  if success then
    (Sql.execute (PeerTables.update nodePeerId (.succeed responseMs now))).attempt fun _ ↦
      .ret (.ok ())
  else
    (Sql.execute (PeerTables.update nodePeerId (.fail now))).attempt fun _ ↦
      (Sql.queryRow fun t : PeerTables ↦ t.db.nodePeerById nodePeerId).attempt
        (disableExhausted nodePeerId now)

/-- `set_node_peer_enabled`. -/
def setNodePeerEnabled (id : Int) (enabled : Bool) (now : Int) : PeerSql Unit :=
  (Sql.execute (PeerTables.update id (if enabled then .enable else .disable now))).attempt fun _ ↦
    .ret (.ok ())

/-- What a health check does with a peer that answers. -/
def reEnable (id : Int) (now : Int) : PeerSql Unit :=
  (setNodePeerEnabled id true now).attempt fun _ ↦
    insertNotification "peer_re_enabled"
      ("Peer " ++ toString id ++ " re-enabled after successful health check") now

/-- The disabled peers a health check probes: their ids and URLs. -/
def disabledPeers (db : Database) : List (Int × String) :=
  (db.nodePeers.rows.filter fun np ↦ np.enabled = 0).map fun np ↦ (np.id, np.url)

/-! ### What an update does -/

namespace Database

variable {db : Database} {id : Int} {f g : NodeHealth → NodeHealth} {np : NodePeerRow}

theorem mem_updateHealth : np ∈ (db.updateHealth id f).nodePeers ↔ ∃ np₀ ∈ db.nodePeers,
    (if np₀.id = id then np₀.setHealth (f np₀.health) else np₀) = np :=
  List.mem_map

theorem mem_updateHealth_of_mem (hnp : np ∈ db.nodePeers) :
    (if np.id = id then np.setHealth (f np.health) else np) ∈ (db.updateHealth id f).nodePeers :=
  mem_updateHealth.2 ⟨np, hnp, rfl⟩

theorem updateHealth_updateHealth :
    (db.updateHealth id f).updateHealth id g = db.updateHealth id fun h ↦ g (f h) := by
  have hrows : ((db.updateHealth id f).updateHealth id g).nodePeers =
      (db.updateHealth id fun h ↦ g (f h)).nodePeers := by
    refine Table.ext ?_
    show (db.nodePeers.rows.map _).map _ = db.nodePeers.rows.map _
    rw [List.map_map]
    refine List.map_congr_left fun np _ ↦ ?_
    by_cases h : np.id = id
    · simp [h]
    · simp [h]
  show { db with nodePeers := ((db.updateHealth id f).updateHealth id g).nodePeers } = _
  rw [hrows]
  rfl

/-- Only what the update makes of the row with the id matters. -/
theorem updateHealth_congr (h : ∀ np ∈ db.nodePeers, np.id = id → f np.health = g np.health) :
    db.updateHealth id f = db.updateHealth id g := by
  have hrows : (db.updateHealth id f).nodePeers = (db.updateHealth id g).nodePeers := by
    refine Table.ext (List.map_congr_left fun np hnp ↦ ?_)
    split
    case isTrue hid => rw [h np hnp hid]
    case isFalse => rfl
  show { db with nodePeers := (db.updateHealth id f).nodePeers } = _
  rw [hrows]
  rfl

theorem updateHealth_id : db.updateHealth id (fun h ↦ h) = db := by
  have hrows : (db.updateHealth id fun h ↦ h).nodePeers = db.nodePeers := by
    refine Table.ext (List.map_id'' (fun np ↦ ?_) _)
    simp
  show { db with nodePeers := (db.updateHealth id fun h ↦ h).nodePeers } = db
  rw [hrows]

theorem nodePeerById_eq_some (h : db.nodePeerById id = some np) :
    np ∈ db.nodePeers ∧ np.id = id :=
  ⟨List.mem_of_find?_eq_some h, by simpa using List.find?_some h⟩

theorem nodePeerById_eq_none (h : db.nodePeerById id = none) :
    ∀ np ∈ db.nodePeers, np.id ≠ id := fun np hnp hid ↦ by
  simpa [hid] using List.find?_eq_none.1 h np hnp

end Database

/-! ### What a record does -/

variable {t : PeerTables} {id : Int} {now : Int} {fails : Option Nat}

theorem autocommit_insertNotification {kind message : String} :
    (Sql.autocommit (insertNotification kind message now) fails t).1.db = t.db := by
  rw [insertNotification, Sql.autocommit_execute]
  split <;> rfl

theorem autocommit_disableExhausted {np : NodePeerRow} :
    (Sql.autocommit (disableExhausted id now np) fails t).1.db =
      if np.health.Exhausted ∧ fails ≠ some 0 then t.db.updateHealth id (.disable now)
      else t.db := by
  rw [disableExhausted]
  by_cases hexhausted : np.health.Exhausted
  · rw [if_pos hexhausted, Sql.autocommit_execute]
    by_cases h0 : fails = some 0
    · rw [if_pos h0, if_neg fun h ↦ h.2 h0]
    · rw [if_neg h0, if_pos ⟨hexhausted, h0⟩]
      exact autocommit_insertNotification (t := { t with db := t.db.updateHealth id _ })
  · rw [if_neg hexhausted, if_neg fun h ↦ hexhausted h.1]
    rfl

/-- What a record makes of the health of the peer, when the statement number `fails` fails. -/
def NodeHealth.recorded (success : Bool) (responseMs : Option Int) (now : Int)
    (fails : Option Nat) (h : NodeHealth) : NodeHealth :=
  if fails = some 0 then h
  else if success then h.succeed responseMs now
  -- the count is read by the statement 1, and the peer disabled by the statement 2
  else if (h.fail now).Exhausted ∧ fails ≠ some 1 ∧ fails ≠ some 2 then (h.fail now).disable now
  else h.fail now

/-- A failure that is counted, and what is left to do. -/
theorem autocommit_recordFailure :
    (Sql.autocommit ((Sql.queryRow fun t : PeerTables ↦ t.db.nodePeerById id).attempt
      (disableExhausted id now)) fails t).1.db =
      t.db.updateHealth id fun h ↦
        if h.Exhausted ∧ fails ≠ some 0 ∧ fails ≠ some 1 then h.disable now else h := by
  have hsame : (∀ np ∈ t.db.nodePeers, np.id = id →
      ¬ (np.health.Exhausted ∧ fails ≠ some 0 ∧ fails ≠ some 1)) →
      t.db = t.db.updateHealth id fun h ↦
        if h.Exhausted ∧ fails ≠ some 0 ∧ fails ≠ some 1 then h.disable now else h := fun hnot ↦
    Database.updateHealth_id.symm.trans <| Database.updateHealth_congr fun np hnp hid ↦
      (if_neg (hnot np hnp hid)).symm
  rw [Sql.autocommit_queryRow]
  by_cases h0 : fails = some 0
  · rw [if_pos h0]
    exact hsame fun _ _ _ h ↦ h.2.1 h0
  rw [if_neg h0]
  cases hrow : t.db.nodePeerById id with
  | none => exact hsame fun np hnp hid _ ↦ Database.nodePeerById_eq_none hrow np hnp hid
  | some np =>
    obtain ⟨hnp, hid⟩ := Database.nodePeerById_eq_some hrow
    have hunique : ∀ np' ∈ t.db.nodePeers, np'.id = id → np' = np := fun np' hnp' hid' ↦
      Database.eq_of_mem_nodePeers hnp' hnp (Or.inl (hid'.trans hid.symm))
    show (Sql.autocommit (disableExhausted id now np) _ t).1.db = _
    rw [autocommit_disableExhausted]
    split
    case isTrue h =>
      refine Database.updateHealth_congr fun np' hnp' hid' ↦ ?_
      rw [hunique np' hnp' hid', if_pos ⟨h.1, h0, mt (Sql.pred_eq_some_iff h0).2 h.2⟩]
    case isFalse h =>
      refine hsame fun np' hnp' hid' h' ↦ h ⟨?_, mt (Sql.pred_eq_some_iff h0).1 h'.2.2⟩
      exact hunique np' hnp' hid' ▸ h'.1

/-- **What a record writes**: it changes the row with the id, and no other. -/
theorem autocommit_recordResult {success : Bool} {responseMs : Option Int} :
    (Sql.autocommit (recordResult id success responseMs now) fails t).1.db =
      t.db.updateHealth id (.recorded success responseMs now fails) := by
  rw [recordResult]
  by_cases h0 : fails = some 0
  · have hsame : t.db.updateHealth id (NodeHealth.recorded success responseMs now fails) =
        t.db := by
      refine Eq.trans (Database.updateHealth_congr fun np _ _ ↦ ?_) Database.updateHealth_id
      rw [NodeHealth.recorded, if_pos h0]
    rw [hsame]
    split
    · rw [Sql.autocommit_execute, if_pos h0]
    · rw [Sql.autocommit_execute, if_pos h0]
  split
  case isTrue hsuccess =>
    rw [Sql.autocommit_execute, if_neg h0]
    refine Database.updateHealth_congr fun np _ _ ↦ ?_
    rw [NodeHealth.recorded, if_neg h0, if_pos hsuccess]
  case isFalse hsuccess =>
    rw [Sql.autocommit_execute, if_neg h0]
    refine autocommit_recordFailure.trans ?_
    show (t.db.updateHealth id (.fail now)).updateHealth id _ = _
    rw [Database.updateHealth_updateHealth]
    refine Database.updateHealth_congr fun np _ _ ↦ ?_
    rw [NodeHealth.recorded, if_neg h0, if_neg hsuccess]
    simp only [ne_eq, Sql.pred_eq_some_iff h0]

/-- **The switch**: one statement, that is executed or not. -/
theorem autocommit_setNodePeerEnabled {enabled : Bool} :
    (Sql.autocommit (setNodePeerEnabled id enabled now) fails t).1.db =
      if fails = some 0 then t.db
      else t.db.updateHealth id (if enabled then .enable else .disable now) := by
  rw [setNodePeerEnabled, Sql.autocommit_execute]
  split <;> rfl

/-- The switch, and then the notification. -/
theorem reEnable_eq :
    reEnable id now = (Sql.execute (PeerTables.update id .enable)).attempt fun _ ↦
      insertNotification "peer_re_enabled"
        ("Peer " ++ toString id ++ " re-enabled after successful health check") now := by
  rw [reEnable, setNodePeerEnabled, if_pos rfl]
  refine congrArg (Prog.op _) (funext fun r ↦ ?_)
  cases r <;> rfl

theorem autocommit_reEnable :
    (Sql.autocommit (reEnable id now) fails t).1.db =
      if fails = some 0 then t.db else t.db.updateHealth id .enable := by
  rw [reEnable_eq, Sql.autocommit_execute]
  split
  · rfl
  · exact autocommit_insertNotification (t := { t with db := t.db.updateHealth id _ })

end CommunitySearch
