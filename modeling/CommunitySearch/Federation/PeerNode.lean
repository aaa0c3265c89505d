import CommunitySearch.Api.Gossip
import CommunitySearch.Api.ImportRetry
import CommunitySearch.Api.ImportedPeers
import CommunitySearch.Federation.Fanout
import CommunitySearch.Federation.Health
import CommunitySearch.Foundation.Machine

/-!
# The node peers of one engine

All that reads and writes the node peers of one engine while it runs: the administrator, searches
with peers, any number at a time, and the health check. A step is a locked section of the database:

* a search lists the peers of a collection, and a request to each of them is under way (`contacts`)
  until its outcome is recorded, or the search gives up on it;
* the health check lists the disabled peers and probes one after the other (`sweep`); it begins the
  next sweep when it is through with one. A disabled peer that answers is enabled.

Between a listing and what is written afterwards, anything else may happen. A statement that fails
leaves what was written before it (`fails` numbers it).

`PeerNode.Change` says what each step does, so that no later proof opens the machine.
-/

namespace CommunitySearch

/-- A peer as a search or a sweep has listed it. -/
structure Contact where
  id : Int
  url : String
  /-- The peer has been deleted since. The program does not know: it only has the id and the URL. -/
  gone : Bool
deriving DecidableEq

/-- The tables, and the requests under way. -/
structure PeerNode where
  tables : PeerTables
  discovered : DiscoveredEngines
  clock : Int
  /-- The requests of searches. -/
  contacts : List Contact
  /-- What is left of the sweep of the health check; the first is being probed. -/
  sweep : List Contact

/-- What can happen. -/
inductive PeerLabel where
  | tick (d : ℕ)
  /-- The rest of the engine writes to the database. -/
  | write (db : Database)
  /-- A gossip exchange, or the administrator, writes the discovered engines. -/
  | discover (t : DiscoveredEngines)
  /-- `POST /api/admin/nodes`. -/
  | addNode (url : String) (name : Option String)
  /-- `POST /api/admin/discovered/promote`. -/
  | promote (url : String)
  /-- `POST /api/admin/import`. -/
  | receive (ts : String) (env : ExportEnvelope)
  /-- `PUT /api/admin/nodes/:id`. -/
  | setEnabled (id : Int) (enabled : Bool) (fails : Option Nat)
  /-- `DELETE /api/admin/nodes/:id`. -/
  | deleteNode (id : Int)
  /-- `POST /api/admin/collection-peers`. -/
  | subscribe (localCollection : String) (nodePeerId : Int) (remoteCollection : String)
    (sourceWeight : Float32)
  /-- `DELETE /api/admin/collection-peers/:id`. -/
  | unsubscribe (id : Int)
  /-- A search lists the peers of a collection. -/
  | search (localCollection : String)
  /-- The outcome of a request is recorded. -/
  | outcome (k : ℕ) (success : Bool) (elapsedMs : Int) (fails : Option Nat)
  /-- A search ends before the peer has answered. -/
  | abandon (k : ℕ)
  /-- A sweep begins: the disabled peers are listed, by the time they were added. -/
  | check (order : List (Int × String))
  /-- The probe of the health check ends. -/
  | probe (answers : Bool) (fails : Option Nat)
  | restart

namespace PeerNode

variable (X : Crates)

def db (s : PeerNode) : Database := s.tables.db

/-- The rows of `node_peers`. -/
def rows (s : PeerNode) : List NodePeerRow := s.db.nodePeers.rows

/-- The peers under contact. -/
def pending (s : PeerNode) : List Contact := s.contacts ++ s.sweep

/-- The id of the next node peer. -/
def nextId (s : PeerNode) : Int := nextRowid (s.rows.map NodePeerRow.id)

/-- No peers. -/
def initial (clock : Int) : PeerNode := ⟨⟨.empty, []⟩, .empty, clock, [], []⟩

def withDb (s : PeerNode) (db : Database) : PeerNode :=
  { s with tables := { s.tables with db := db } }

def withNodePeers (s : PeerNode) (peers : Table NodePeerRow.Clash) : PeerNode :=
  s.withDb { s.db with nodePeers := peers }

/-- `add_node_peer`. -/
def addNode (s : PeerNode) (url : String) (name : Option String) : PeerNode :=
  match insertNodePeer s.db.nodePeers url name with
  | some (peers, _) => s.withNodePeers peers
  | none => s

/-- `promote_discovered`. -/
def promote (s : PeerNode) (url : String) : PeerNode :=
  match promoteDiscovered s.discovered s.db.nodePeers url with
  | .ok peers => s.withNodePeers peers
  | .error _ => s

/-- `handle_import`, up to the release of the lock. -/
def receive (s : PeerNode) (ts : String) (env : ExportEnvelope) : PeerNode :=
  match acceptImport X s.db ts (.ok env) with
  | .ok (db, _, _) => s.withDb db
  | .error _ => s

/-- A piece of health tracking is run. -/
def track (s : PeerNode) (p : PeerSql Unit) (fails : Option Nat) : PeerNode :=
  { s with tables := (Sql.autocommit p fails s.tables).1 }

/-- The node peer is deleted, and the contacts to it are those of a peer that is gone. -/
def deleteNode (s : PeerNode) (id : Int) : PeerNode :=
  let mark (c : Contact) : Contact := if c.id = id then { c with gone := true } else c
  { s.withDb (s.db.deleteNodePeer id) with
    contacts := s.contacts.map mark
    sweep := s.sweep.map mark }

/-- `add_collection_peer_handler`: the node has to be there. -/
def subscribe (s : PeerNode) (localCollection : String) (nodePeerId : Int)
    (remoteCollection : String) (sourceWeight : Float32) : PeerNode :=
  match s.db.nodePeerById nodePeerId with
  | none => s
  | some _ =>
    match insertCollectionPeer s.db.collectionPeers localCollection nodePeerId remoteCollection
      sourceWeight with
    | some (peers, _) => s.withDb { s.db with collectionPeers := peers }
    | none => s

/-- The contacts of a search. -/
def listed (s : PeerNode) (localCollection : String) : List Contact :=
  (activeCollectionPeersFor s.db.federation localCollection).map fun peer ↦
    ⟨peer.nodePeerId, peer.nodePeerUrl, false⟩

/-- The health check is through with the peer `c`. -/
def probed (s : PeerNode) (c : Contact) (sweep : List Contact) (answers : Bool)
    (fails : Option Nat) : PeerNode :=
  if answers then { s.track (reEnable c.id s.clock) fails with sweep := sweep }
  else { s with sweep := sweep }

/-- The engine. -/
def machine : Machine PeerNode PeerLabel where
  step s
    | .tick d => some { s with clock := s.clock + d }
    | .write db => if db.nodePeers.rows = s.rows then some (s.withDb db) else none
    | .discover t => some { s with discovered := t }
    | .addNode url name => some (s.addNode url name)
    | .promote url => some (s.promote url)
    | .receive ts env => some (s.receive X ts env)
    | .setEnabled id enabled fails => some (s.track (setNodePeerEnabled id enabled s.clock) fails)
    | .deleteNode id => some (s.deleteNode id)
    | .subscribe localCollection nodePeerId remoteCollection sourceWeight =>
      some (s.subscribe localCollection nodePeerId remoteCollection sourceWeight)
    | .unsubscribe id =>
      some (s.withDb
        { s.db with collectionPeers := deleteCollectionPeer s.db.collectionPeers id })
    | .search localCollection =>
      some { s with contacts := s.contacts ++ s.listed localCollection }
    | .outcome k success elapsedMs fails =>
      (s.contacts[k]?).map fun c ↦
        { s.track (recordResult c.id success (some elapsedMs) s.clock) fails with
          contacts := s.contacts.eraseIdx k }
    | .abandon k => some { s with contacts := s.contacts.eraseIdx k }
    | .check order =>
      if s.sweep = [] ∧ order.Perm (disabledPeers s.db) then
        some { s with sweep := order.map fun p ↦ ⟨p.1, p.2, false⟩ }
      else none
    | .probe answers fails =>
      match s.sweep with
      | [] => none
      | c :: sweep => some (s.probed c sweep answers fails)
    | .restart => some { s with contacts := [], sweep := [] }

/-! ### What a step does -/

/-- The node peers a step brings. -/
def newcomers (s : PeerNode) : PeerLabel → List ExportedNodePeer
  | .addNode url name => newNodePeers s.db.nodePeerUrls [⟨url, name, 1⟩]
  | .promote url =>
    match s.discovered.get url with
    | some engine => newNodePeers s.db.nodePeerUrls [⟨engine.url, some engine.name, 1⟩]
    | none => []
  | .receive ts env =>
    match acceptImport X s.db ts (.ok env) with
    | .ok _ => newNodePeers s.db.nodePeerUrls env.nodePeers
    | .error _ => []
  | _ => []

/-- The peer whose outcome a step records. -/
def contacted (s : PeerNode) : PeerLabel → Option Contact
  | .outcome k _ _ _ => s.contacts[k]?
  | .probe _ _ => s.sweep.head?
  | _ => none

/-- What a step makes of the health of the row with an id. -/
def treatment (s : PeerNode) : PeerLabel → Option (Int × (NodeHealth → NodeHealth))
  | .setEnabled id enabled fails =>
    some (id, if fails = some 0 then fun h ↦ h else if enabled then .enable else .disable s.clock)
  | .outcome k success elapsedMs fails =>
    (s.contacts[k]?).map fun c ↦ (c.id, .recorded success (some elapsedMs) s.clock fails)
  | .probe answers fails =>
    s.sweep.head?.map fun c ↦ (c.id, if answers ∧ fails ≠ some 0 then .enable else fun h ↦ h)
  | _ => none

/-- **What a step does** to the node peers and to the contacts. -/
inductive Change (s : PeerNode) (l : PeerLabel) (s' : PeerNode) : Prop
  | rest (hrows : s'.rows = s.rows) (hpending : ∀ c ∈ s'.pending, c ∈ s.pending)
  | list (hrows : s'.rows = s.rows)
    (hpending : ∀ c ∈ s'.pending, c ∈ s.pending ∨ ∃ np ∈ s.rows, c = ⟨np.id, np.url, false⟩)
  | insert (hrows : s'.rows = s.rows ++ importedPeers s.nextId (newcomers X s l))
    (hpending : s'.pending = s.pending)
  | treat (id : Int) (f : NodeHealth → NodeHealth) (htreat : s.treatment l = some (id, f))
    (hdb : s'.db = s.db.updateHealth id f) (hpending : ∀ c ∈ s'.pending, c ∈ s.pending)
  | delete (id : Int) (hl : l = .deleteNode id) (hs' : s' = s.deleteNode id)

variable {X} {s s' : PeerNode} {l : PeerLabel}

theorem mem_of_mem_newNodePeers {known : List String} {p : ExportedNodePeer}
    {ps : List ExportedNodePeer} (h : p ∈ newNodePeers known ps) : p ∈ ps := by
  induction ps generalizing known with
  | nil => exact h
  | cons p' ps ih =>
    rw [newNodePeers] at h
    split at h
    · exact List.mem_cons_of_mem _ (ih h)
    · rcases List.mem_cons.1 h with rfl | h
      · exact List.mem_cons_self
      · exact List.mem_cons_of_mem _ (ih h)

theorem rows_of_insertNodePeer {peers : Table NodePeerRow.Clash} {url : String}
    {name : Option String} {id : Int}
    (h : insertNodePeer s.db.nodePeers url name = some (peers, id)) :
    (s.withNodePeers peers).rows =
      s.rows ++ importedPeers s.nextId (newNodePeers s.db.nodePeerUrls [⟨url, name, 1⟩]) := by
  obtain ⟨rows, hrows, he⟩ := Option.map_eq_some_iff.1 h
  obtain ⟨rfl, -⟩ := Prod.mk.inj he
  have hnew : url ∉ s.db.nodePeerUrls := fun hurl ↦ by
    obtain ⟨np, hnp, rfl⟩ := List.mem_map.1 hurl
    exact Table.not_clash_of_insert hrows hnp (Or.inr rfl)
  rw [newNodePeers, if_neg hnew]
  exact Table.rows_of_insert hrows

theorem mem_listed {localCollection : String} {c : Contact} (h : c ∈ s.listed localCollection) :
    ∃ np ∈ s.rows, c = ⟨np.id, np.url, false⟩ := by
  obtain ⟨peer, hpeer, rfl⟩ := List.mem_map.1 h
  obtain ⟨cp, -, hcp⟩ := List.mem_filterMap.1 hpeer
  obtain ⟨np, hnp, hif⟩ := Option.bind_eq_some_iff.1 hcp
  split at hif
  · obtain rfl := Option.some.inj hif
    exact ⟨np, List.mem_of_find?_eq_some hnp, rfl⟩
  · cases hif

theorem mem_disabledPeers {db : Database} {p : Int × String} :
    p ∈ disabledPeers db ↔ ∃ np ∈ db.nodePeers.rows, np.enabled = 0 ∧ p = (np.id, np.url) := by
  rw [disabledPeers, List.mem_map]
  constructor
  · rintro ⟨np, hnp, rfl⟩
    obtain ⟨hmem, hdisabled⟩ := List.mem_filter.1 hnp
    exact ⟨np, hmem, of_decide_eq_true hdisabled, rfl⟩
  · rintro ⟨np, hmem, hdisabled, rfl⟩
    exact ⟨np, List.mem_filter.2 ⟨hmem, decide_eq_true hdisabled⟩, rfl⟩

theorem mem_pending_eraseIdx {k : ℕ} {c : Contact} (h : c ∈ s.contacts.eraseIdx k ++ s.sweep) :
    c ∈ s.pending := by
  rcases List.mem_append.1 h with hc | hc
  · exact List.mem_append_left _ (List.mem_of_mem_eraseIdx hc)
  · exact List.mem_append_right _ hc

theorem change_addNode (url : String) (name : Option String) :
    Change X s (.addNode url name) (s.addNode url name) := by
  rw [addNode]
  split
  case h_1 peers id hinsert => exact .insert (rows_of_insertNodePeer hinsert) rfl
  case h_2 => exact .rest rfl fun _ hc ↦ hc

theorem change_promote (url : String) : Change X s (.promote url) (s.promote url) := by
  rw [promote]
  split
  case h_1 peers hpromote =>
    rw [promoteDiscovered] at hpromote
    split at hpromote
    · cases hpromote
    case h_2 engine hengine =>
      split at hpromote
      case h_1 peers' id hinsert =>
        obtain rfl := Except.ok.inj hpromote
        refine .insert ?_ rfl
        rw [newcomers, hengine]
        exact rows_of_insertNodePeer hinsert
      case h_2 => cases hpromote
  case h_2 => exact .rest rfl fun _ hc ↦ hc

/-- What an import brings is what it adds, also when it is refused. -/
theorem rows_receive (ts : String) (env : ExportEnvelope) :
    (s.receive X ts env).rows =
      s.rows ++ importedPeers s.nextId (newcomers X s (.receive ts env)) := by
  rw [receive]
  split
  case h_1 db report jobs haccept =>
    rw [newcomers, haccept]
    exact nodePeers_of_committedImport (acceptImport_eq_ok.1 haccept).2
  case h_2 err haccept =>
    rw [newcomers, haccept]
    exact (List.append_nil _).symm

theorem pending_receive (ts : String) (env : ExportEnvelope) :
    (s.receive X ts env).pending = s.pending := by
  rw [receive]
  split <;> rfl

theorem change_setEnabled (id : Int) (enabled : Bool) (fails : Option Nat) :
    Change X s (.setEnabled id enabled fails)
      (s.track (setNodePeerEnabled id enabled s.clock) fails) := by
  refine .treat id _ rfl ?_ fun _ hc ↦ hc
  show (Sql.autocommit (setNodePeerEnabled id enabled s.clock) fails s.tables).1.db = _
  rw [autocommit_setNodePeerEnabled]
  split
  · exact Database.updateHealth_id.symm
  · rfl

theorem rows_subscribe (localCollection : String) (nodePeerId : Int) (remoteCollection : String)
    (sourceWeight : Float32) :
    (s.subscribe localCollection nodePeerId remoteCollection sourceWeight).rows = s.rows := by
  rw [subscribe]
  split
  · rfl
  · split <;> rfl

theorem pending_subscribe (localCollection : String) (nodePeerId : Int)
    (remoteCollection : String) (sourceWeight : Float32) :
    (s.subscribe localCollection nodePeerId remoteCollection sourceWeight).pending = s.pending := by
  rw [subscribe]
  split
  · rfl
  · split <;> rfl

theorem change_probed {c : Contact} {sweep : List Contact} (hsweep : s.sweep = c :: sweep)
    (answers : Bool) (fails : Option Nat) :
    Change X s (.probe answers fails) (s.probed c sweep answers fails) := by
  have htreat : s.treatment (.probe answers fails) =
      some (c.id, if answers ∧ fails ≠ some 0 then .enable else fun h ↦ h) := by
    rw [treatment, hsweep]
    rfl
  have hpending : ∀ c' ∈ (s.probed c sweep answers fails).pending, c' ∈ s.pending := by
    have hp : (s.probed c sweep answers fails).pending = s.contacts ++ sweep := by
      rw [probed]
      split <;> rfl
    rw [hp, pending, hsweep]
    intro c' hc'
    rcases List.mem_append.1 hc' with hc' | hc'
    · exact List.mem_append_left _ hc'
    · exact List.mem_append_right _ (List.mem_cons_of_mem _ hc')
  refine .treat c.id _ htreat ?_ hpending
  rw [probed]
  cases answers with
  | false =>
    exact Database.updateHealth_id.symm
  | true =>
    show (Sql.autocommit (reEnable c.id s.clock) fails s.tables).1.db = _
    rw [autocommit_reEnable]
    by_cases h0 : fails = some 0
    · rw [if_pos h0, if_neg fun h ↦ h.2 h0]
      exact Database.updateHealth_id.symm
    · rw [if_neg h0, if_pos ⟨rfl, h0⟩]
      rfl

/-- A probe is of the first peer of the sweep. -/
theorem probe_eq_some {answers : Bool} {fails : Option Nat}
    (h : (machine X).step s (.probe answers fails) = some s') :
    ∃ c sweep, s.sweep = c :: sweep ∧ s' = s.probed c sweep answers fails := by
  replace h : (match s.sweep with
    | [] => none
    | c :: sweep => some (s.probed c sweep answers fails)) = some s' := h
  split at h
  case h_1 => cases h
  case h_2 c sweep hsweep => exact ⟨c, sweep, hsweep, (Option.some.inj h).symm⟩

theorem change_of_step (h : (machine X).step s l = some s') : Change X s l s' := by
  cases l with
  | tick d =>
    obtain rfl := Option.some.inj h
    exact .rest rfl fun _ hc ↦ hc
  | write db =>
    obtain ⟨hrows, h⟩ := Option.ite_none_right_eq_some.1 h
    obtain rfl := Option.some.inj h
    exact .rest hrows fun _ hc ↦ hc
  | discover t =>
    obtain rfl := Option.some.inj h
    exact .rest rfl fun _ hc ↦ hc
  | addNode url name =>
    obtain rfl := Option.some.inj h
    exact change_addNode url name
  | promote url =>
    obtain rfl := Option.some.inj h
    exact change_promote url
  | receive ts env =>
    obtain rfl := Option.some.inj h
    exact .insert (rows_receive ts env) (pending_receive ts env)
  | setEnabled id enabled fails =>
    obtain rfl := Option.some.inj h
    exact change_setEnabled id enabled fails
  | deleteNode id =>
    obtain rfl := Option.some.inj h
    exact .delete id rfl rfl
  | subscribe localCollection nodePeerId remoteCollection sourceWeight =>
    obtain rfl := Option.some.inj h
    refine .rest (rows_subscribe ..) fun c hc ↦ ?_
    rwa [pending_subscribe] at hc
  | unsubscribe id =>
    obtain rfl := Option.some.inj h
    exact .rest rfl fun _ hc ↦ hc
  | search localCollection =>
    obtain rfl := Option.some.inj h
    refine .list rfl fun c hc ↦ ?_
    rcases List.mem_append.1 hc with hc | hc
    · rcases List.mem_append.1 hc with hc | hc
      · exact Or.inl (List.mem_append_left _ hc)
      · exact Or.inr (mem_listed hc)
    · exact Or.inl (List.mem_append_right _ hc)
  | outcome k success elapsedMs fails =>
    obtain ⟨c, hc, rfl⟩ := Option.map_eq_some_iff.1 h
    refine .treat c.id (.recorded success (some elapsedMs) s.clock fails) ?_
      autocommit_recordResult fun _ hc' ↦ mem_pending_eraseIdx hc'
    rw [treatment, hc]
    rfl
  | abandon k =>
    obtain rfl := Option.some.inj h
    exact .rest rfl fun c hc ↦ mem_pending_eraseIdx hc
  | check order =>
    obtain ⟨⟨-, horder⟩, h⟩ := Option.ite_none_right_eq_some.1 h
    obtain rfl := Option.some.inj h
    refine .list rfl fun c hc ↦ ?_
    rcases List.mem_append.1 hc with hc | hc
    · exact Or.inl (List.mem_append_left _ hc)
    · obtain ⟨p, hp, rfl⟩ := List.mem_map.1 hc
      obtain ⟨np, hnp, -, rfl⟩ := mem_disabledPeers.1 (horder.mem_iff.1 hp)
      exact Or.inr ⟨np, hnp, rfl⟩
  | probe answers fails =>
    obtain ⟨c, sweep, hsweep, rfl⟩ := probe_eq_some h
    exact change_probed hsweep answers fails
  | restart =>
    obtain rfl := Option.some.inj h
    exact .rest rfl fun c hc ↦ absurd hc List.not_mem_nil

end PeerNode

end CommunitySearch
