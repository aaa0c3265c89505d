import CommunitySearch.Api.RoundTrip
import CommunitySearch.Federation.PeerNode

/-!
# The instance

All that writes the database of one instance while it runs: the system of `targetMachine`, and the
administration of the node peers with the searches and the health check that judge them
(`PeerNode.machine`). They share nothing but the database, and the second writes no table but the
two of the peers (`PeerNode.sameContent_of_step`), so what a step of the system keeps of the
collections is kept by every step.

`Sys.Archivable` collects what an export of the collections needs: pages lie with their targets, the
index has one document for each URL, and nothing has an empty timestamp. The last holds because a
reading of the clock is never the empty text, and because an import stamps what comes without a
time.
-/

namespace CommunitySearch

/-- An instance. The database is that of the system. -/
structure Instance where
  sys : Sys
  /-- The requests to peers that are under way, and the discovered engines. -/
  peers : PeerNode

/-- The steps. -/
inductive InstanceLabel where
  /-- A step of the system. -/
  | sys (l : TargetLabel)
  /-- A step of the administration of peers, of a search or of the health check. -/
  | peers (l : PeerLabel)

/-- The time a request is stamped with. -/
def SysLabel.stamp? : SysLabel → Option String
  | .collections _ ts | .crawlTargets _ _ ts | .importEnvelope _ ts => some ts
  | _ => none

def TargetLabel.stamp? : TargetLabel → Option String
  | .add _ _ _ _ ts | .promote _ _ ts => some ts
  | .other l => l.stamp?
  | .dismiss _ | .putRanking _ => none

/-- The step is not one of the system: it is no write of the rest of the engine, no import and no
restart. -/
def PeerLabel.isOwn : PeerLabel → Bool
  | .write _ | .receive .. | .restart => false
  | _ => true

namespace Instance

/-- A fresh installation. -/
def init (clock : Int) : Instance := ⟨.init, .initial clock⟩

/-- What is left of the requests to peers after a step of the system. -/
def peersAfter (s : Instance) : TargetLabel → PeerNode
  | .other .crash => { s.peers with contacts := [], sweep := [] }
  | _ => s.peers

/-- One step. -/
def step (X : Crates) (s : Instance) : InstanceLabel → Option Instance
  | .sys l =>
    -- the clock is read as a date and a time, never as the empty text
    if l.stamp? = some "" then none
    else (s.sys.targetStep X l).map fun sys ↦ ⟨sys, s.peersAfter l⟩
  | .peers l =>
    if l.isOwn then
      ((PeerNode.machine X).step (s.peers.withDb s.sys.engine.db) l).map fun peers ↦
        ⟨s.sys.withDb peers.db, peers⟩
    else none

end Instance

/-- The instance as a machine. -/
def instanceMachine (X : Crates) : Machine Instance InstanceLabel where
  step := Instance.step X

/-! ### The steps of the peers -/

namespace PeerNode

variable {X : Crates} {s s' : PeerNode}

theorem sameContent_refl (s : PeerNode) : s.db.SameContent s.db := ⟨_, _, rfl⟩

/-- **A step of the peers writes no table but theirs.** -/
theorem sameContent_of_step {l : PeerLabel} (hl : l.isOwn = true)
    (h : (machine X).step s l = some s') : s.db.SameContent s'.db := by
  cases l with
  | write | receive | restart => cases hl
  | tick | discover | search | abandon =>
    obtain rfl := Option.some.inj h
    exact sameContent_refl s
  | addNode url name =>
    obtain rfl := Option.some.inj h
    rw [addNode]
    split
    · exact ⟨_, _, rfl⟩
    · exact sameContent_refl s
  | promote url =>
    obtain rfl := Option.some.inj h
    rw [promote]
    split
    · exact ⟨_, _, rfl⟩
    · exact sameContent_refl s
  | setEnabled id enabled fails =>
    obtain rfl := Option.some.inj h
    show s.db.SameContent
      (Sql.autocommit (setNodePeerEnabled id enabled s.clock) fails s.tables).1.db
    rw [autocommit_setNodePeerEnabled]
    split
    · exact sameContent_refl s
    · exact ⟨_, _, rfl⟩
  | deleteNode id =>
    obtain rfl := Option.some.inj h
    exact ⟨_, _, rfl⟩
  | subscribe localCollection nodePeerId remoteCollection sourceWeight =>
    obtain rfl := Option.some.inj h
    rw [subscribe]
    split
    · exact sameContent_refl s
    · split
      · exact ⟨_, _, rfl⟩
      · exact sameContent_refl s
  | unsubscribe id =>
    obtain rfl := Option.some.inj h
    exact ⟨_, _, rfl⟩
  | outcome k success elapsedMs fails =>
    obtain ⟨c, -, rfl⟩ := Option.map_eq_some_iff.1 h
    exact ⟨_, _, autocommit_recordResult⟩
  | check order =>
    obtain ⟨-, h⟩ := Option.ite_none_right_eq_some.1 h
    obtain rfl := Option.some.inj h
    exact sameContent_refl s
  | probe answers fails =>
    obtain ⟨c, sweep, -, rfl⟩ := probe_eq_some h
    rw [probed]
    split
    · show s.db.SameContent (Sql.autocommit (reEnable c.id s.clock) fails s.tables).1.db
      rw [autocommit_reEnable]
      split
      · exact sameContent_refl s
      · exact ⟨_, _, rfl⟩
    · exact sameContent_refl s

end PeerNode

/-! ### Timestamps -/

/-- A time that is stamped where none is given. -/
theorem stamped_ne_empty {ts : String} (hts : ts ≠ "") (t : String) :
    (if t.isEmpty then ts else t) ≠ "" := by
  split
  case isTrue => exact hts
  case isFalse h =>
    rintro rfl
    exact h rfl

namespace Database

/-- No collection and no target has an empty timestamp. -/
structure Dated (db : Database) : Prop where
  collections : ∀ c ∈ db.collections, c.createdAt ≠ "" ∧ c.updatedAt ≠ ""
  targets : ∀ t ∈ db.crawlTargets, t.createdAt ≠ ""

variable {X : Crates} {db db' : Database} {ts : String}

theorem dated_empty : empty.Dated where
  collections _ h := absurd h (Table.not_mem_empty _)
  targets _ h := absurd h (Table.not_mem_empty _)

theorem Dated.of_eq (h : db.Dated) (hcollections : db'.collections = db.collections)
    (htargets : db'.crawlTargets = db.crawlTargets) : db'.Dated where
  collections := hcollections ▸ h.collections
  targets := htargets ▸ h.targets

theorem Dated.of_keepsTargets (h : db.Dated) (hcollections : db'.collections = db.collections)
    (htargets : db.KeepsTargets db') : db'.Dated where
  collections := hcollections ▸ h.collections
  targets t' ht' := by
    obtain ⟨t, ht, he⟩ := htargets t' ht'
    rw [he]
    exact h.targets t ht

theorem Dated.insertTarget (h : db.Dated) {t : CrawlTargetRow} (ht : t.createdAt ≠ "")
    {targets : Table CrawlTargetRow.Clash} (hinsert : db.crawlTargets.insert t = some targets)
    (hcollections : db'.collections = db.collections) (htargets : db'.crawlTargets = targets) :
    db'.Dated where
  collections := hcollections ▸ h.collections
  targets t' ht' := by
    rw [htargets] at ht'
    rcases (Table.mem_of_insert hinsert).1 ht' with hold | rfl
    · exact h.targets t' hold
    · exact ht

theorem Dated.insertCollection (h : db.Dated) {c : CollectionRow}
    (hc : c.createdAt ≠ "" ∧ c.updatedAt ≠ "") {cs : Table CollectionRow.Clash}
    (hinsert : db.collections.insert c = some cs) (hcollections : db'.collections = cs)
    (htargets : db'.crawlTargets = db.crawlTargets) : db'.Dated where
  collections c' hc' := by
    rw [hcollections] at hc'
    rcases (Table.mem_of_insert hinsert).1 hc' with hold | rfl
    · exact h.collections c' hold
    · exact hc
  targets := htargets ▸ h.targets

/-! #### Requests -/

theorem Dated.createItem (h : db.Dated) (hts : ts ≠ "") {name description : String}
    {r : CollectionRecord} (hr : db.createItem name description ts = some (db', r)) :
    db'.Dated := by
  obtain ⟨cs, hcs, he⟩ := Option.map_eq_some_iff.1 hr
  obtain ⟨rfl, -⟩ := Prod.mk.inj he
  exact h.insertCollection ⟨hts, hts⟩ hcs rfl rfl

theorem Dated.updateItem (h : db.Dated) (hts : ts ≠ "") {id : Int} {name description : String}
    {r : Option CollectionRecord} (hr : db.updateItem id name description ts = some (db', r)) :
    db'.Dated where
  collections c' hc' := by
    obtain ⟨c, hc, rfl⟩ := (mem_collections_of_updateItem hr).1 hc'
    split
    · exact ⟨(h.collections c hc).1, hts⟩
    · exact h.collections c hc
  targets := by
    obtain ⟨cs, rfl⟩ := updateItem_eq hr
    exact h.targets

/-- **A request to the collections endpoint.** -/
theorem Dated.handleCollections (h : db.Dated) (hts : ts ≠ "") {action : CollectionAction}
    {r : Option CollectionRecord} (hr : handleCollections db ts action = .ok (db', r)) :
    db'.Dated := by
  obtain ⟨_, _, _, -, hc⟩ | ⟨_, _, _, _, -, hu⟩ | ⟨_, _, -, -, rfl⟩ := handleCollections_cases hr
  · exact h.createItem hts hc
  · exact h.updateItem hts hu
  · exact ⟨fun c hc ↦ h.collections c (mem_collections_cascadeCollection.1 hc).1,
      fun t ht ↦ h.targets t (mem_crawlTargets_cascadeCollection.1 ht).1⟩

theorem Dated.addTarget (h : db.Dated) (hts : ts ≠ "") {rowid secs : Int} {pre : String}
    {r : CrawlTargetRecord} (hr : db.addTarget rowid pre secs ts = some (db', r)) :
    db'.Dated := by
  obtain ⟨_, -, _, hinsert, rfl⟩ := addTarget_eq hr
  exact h.insertTarget hts hinsert rfl rfl

/-- **A request to the crawl-targets endpoint.** -/
theorem Dated.handleCrawlTargets (h : db.Dated) (hts : ts ≠ "") {detected : Option String}
    {action : CrawlTargetAction} {r : CrawlTargetReply}
    (hr : handleCrawlTargets db ts detected action = .ok (db', r)) : db'.Dated := by
  cases crawlTargetChange_of_ok hr with
  | added hadd => exact h.addTarget hts hadd
  | removed =>
    exact ⟨h.collections, fun t ht ↦ h.targets t (mem_crawlTargets_cascadeTarget.1 ht).1⟩
  | interval =>
    refine ⟨h.collections, fun t' ht' ↦ ?_⟩
    obtain ⟨t, ht, rfl⟩ := List.mem_map.1 ht'
    split
    · exact h.targets t ht
    · exact h.targets t ht
  | @delay id secs => exact h.of_keepsTargets rfl (keepsTargets_setCrawlDelay id secs)

theorem Dated.promoteOutlink (h : db.Dated) (hts : ts ≠ "") {id target : Int}
    {body : PromoteBody} (hr : promoteOutlink db ts id body = .ok (db', target)) : db'.Dated := by
  obtain ⟨_, _, _, _, -, -, -, hadd, rfl, -⟩ := promoteOutlink_eq hr
  exact (h.addTarget hts hadd).of_eq rfl rfl

/-! #### Imports -/

theorem Dated.importTarget (h : db.Dated) (hts : ts ≠ "") {collection : Uuid}
    {report report' : ImportReport} {e : ExportedCrawlTarget}
    (hr : Sql.exec false (importTarget collection ts report e) db = some (db', report')) :
    db'.Dated := by
  rw [exec_importTarget] at hr
  obtain ⟨targets, hinsert, hpages⟩ := Option.bind_eq_some_iff.1 hr
  obtain ⟨hcollections, htargets⟩ := Sql.loop_invariant
    (I := fun db' _ ↦ db'.collections = db.collections ∧ db'.crawlTargets = targets)
    (fun _ _ _ _ _ hI hp ↦ by
      rw [exec_importPage] at hp
      obtain ⟨_, -, he⟩ := Option.map_eq_some_iff.1 hp
      obtain ⟨rfl, -⟩ := Prod.mk.inj he
      exact hI) ⟨rfl, rfl⟩ hpages
  exact h.insertTarget (stamped_ne_empty hts _) hinsert hcollections htargets

theorem Dated.importCollection (h : db.Dated) (hts : ts ≠ "") {acc acc' : ImportProgress}
    {c : ExportedCollection}
    (hr : Sql.exec false (importCollection X ts acc c) db = some (db', acc')) : db'.Dated := by
  obtain ⟨cs, db₁, _, _, _, hinsert, htargets, hranking, hhosts, -⟩ :=
    exec_importCollection_eq_some.1 hr
  have h₀ : Dated { db with collections := cs, nextUuid := db.nextUuid + 1 } :=
    h.insertCollection ⟨stamped_ne_empty hts _, stamped_ne_empty hts _⟩ hinsert rfl rfl
  have h₁ : db₁.Dated := Sql.loop_invariant (I := fun db₁ _ ↦ Dated db₁)
    (fun _ _ _ _ _ hI ht ↦ hI.importTarget hts ht) h₀ htargets
  obtain ⟨_, rfl, -⟩ := rankings_of_importRankingConfig hranking
  obtain ⟨_, _, _, rfl, -⟩ := rows_of_importOutlinkHosts hhosts
  exact h₁.of_eq rfl rfl

/-- **An import** stamps what comes without a time. -/
theorem Dated.committedImport (h : db.Dated) (hts : ts ≠ "") {env : ExportEnvelope}
    {report : ImportReport} {jobs : List IndexJob}
    (hr : committedImport X ts env db = some (db', report, jobs)) : db'.Dated := by
  obtain ⟨db₁, acc, db₂, peers, hcollections, hnodes, hpeers, -⟩ := committedImport_eq_some.1 hr
  have h₁ : db₁.Dated := newCollections_invariant (I := fun _ db₁ _ ↦ db₁.Dated)
    (fun _ _ _ _ _ _ hI hc ↦ hI.importCollection hts hc) h hcollections
  obtain ⟨_, rfl⟩ := applyNodePeers_eq hnodes
  obtain ⟨_, _, rfl⟩ := sameContent_applyCollectionPeers hpeers
  exact h₁.of_eq rfl rfl

end Database

/-! ### What an export needs -/

namespace Sys

variable {X : Crates} {valid : Url → Prop} {s s' : Sys}

/-- A step of the system leaves no empty timestamp. -/
theorem dated_of_dbStep (h : s.engine.db.Dated) {l : SysLabel} (hl : l.stamp? ≠ some "")
    {db : Database} (hstep : s.DbStep X l db) : db.Dated := by
  have hstamp : ∀ {ts : String}, l.stamp? = some ts → ts ≠ "" := by
    rintro _ hts rfl
    exact hl hts
  cases hstep with
  | same => exact h
  | collections hr => exact h.handleCollections (hstamp rfl) hr
  | crawlTargets hr => exact h.handleCrawlTargets (hstamp rfl) hr
  | imported hr => exact h.committedImport (hstamp rfl) (committedImport_of_acceptImport hr)
  | performed _ hr =>
    rcases Engine.db_of_perform hr with hdb | ⟨_, -, hdb⟩ | hdb
    · exact hdb ▸ h
    · obtain ⟨-, -, _, _, he, -⟩ := Database.upsertPage_cases hdb
      exact h.of_eq (by rw [he]) (by rw [he])
    · obtain ⟨_, _, he, -⟩ := hdb.eq
      exact h.of_eq (by rw [he]) (by rw [he])
  | timed =>
    unfold runTime
    split
    · exact h.of_keepsTargets rfl (Database.keepsTargets_setLastCrawledAt _ _)
    · exact h
  | turned he =>
    rcases (Engine.turn_of_indexerStep he).db with hdb | ⟨entries, hdb⟩
    · exact hdb ▸ h
    · obtain ⟨_, he⟩ := Database.markIndexedBatch_eq s.engine.db entries
      exact h.of_eq (by rw [hdb, he]) (by rw [hdb, he])

theorem dated_of_targetStep (h : s.engine.db.Dated) {l : TargetLabel} (hl : l.stamp? ≠ some "")
    (hs : (targetMachine X).step s l = some s') : s'.engine.db.Dated := by
  replace hs : s.targetStep X l = some s' := hs
  unfold targetStep at hs
  cases l with
  | add id pre secs response ts =>
    have hstep : (sysMachine X).step s (.crawlTargets (.add id pre secs)
      (detectCanonicalPrefix X pre response) ts) = some s' := hs
    refine dated_of_dbStep h ?_ (dbStep_of_step hstep)
    exact hl
  | promote id body ts =>
    dsimp only at hs
    split at hs
    case h_1 hr =>
      obtain rfl := Option.some.inj hs
      exact h.promoteOutlink (fun hts ↦ hl (congrArg some hts)) hr
    case h_2 =>
      obtain rfl := Option.some.inj hs
      exact h
  | dismiss id =>
    dsimp only at hs
    split at hs
    case h_1 hr =>
      obtain rfl := Option.some.inj hs
      obtain ⟨_, _, rfl, -⟩ := (suggests_dismissOutlink hr).eq
      exact h.of_eq rfl rfl
    case h_2 =>
      obtain rfl := Option.some.inj hs
      exact h
  | putRanking raw =>
    dsimp only at hs
    split at hs
    case h_1 hr =>
      obtain rfl := Option.some.inj hs
      obtain ⟨_, _, -, rfl, -⟩ := Database.putRanking_eq hr
      exact h.of_eq rfl rfl
    case h_2 =>
      obtain rfl := Option.some.inj hs
      exact h
  | other l =>
    obtain ⟨-, hstep⟩ := Option.ite_none_left_eq_some.1 hs
    exact dated_of_dbStep h hl (dbStep_of_step (X := X) hstep)

/-- What an export of the collections needs. -/
structure Archivable (X : Crates) (s : Sys) : Prop where
  placing : s.Placing X fun _ _ ↦ True
  index : s.engine.index.Pairwise fun d d' ↦ d.url ≠ d'.url
  dated : s.engine.db.Dated

theorem archivable_init : Sys.init.Archivable X := ⟨placing_init, .nil, Database.dated_empty⟩

theorem Archivable.step (hX : X.UrlLaws valid) (h : s.Archivable X) {l : TargetLabel}
    (hl : l.stamp? ≠ some "") (hs : (targetMachine X).step s l = some s') : s'.Archivable X where
  placing := h.placing.step hX (fun _ _ _ ↦ trivial) (importsPlaced_true _ l) hs
  index := by
    obtain ⟨cmds, hcmds⟩ := index_of_targetStep hs
    exact hcmds ▸ TermCmd.pairwise_publish h.index cmds
  dated := dated_of_targetStep h.dated hl hs

/-- The tables of the peers are written. -/
theorem Archivable.withDb (h : s.Archivable X) {db : Database}
    (hdb : s.engine.db.SameContent db) : (s.withDb db).Archivable X := by
  obtain ⟨_, _, rfl⟩ := hdb
  exact ⟨h.placing.withDb (Database.keepsPlaces_of_eq rfl rfl (Nat.le_refl _)), h.index,
    h.dated.of_eq rfl rfl⟩

end Sys

namespace Instance

variable {X : Crates} {valid : Url → Prop}

/-- **One step** of an instance. -/
theorem archivable_of_step (hX : X.UrlLaws valid) {s s' : Instance}
    (h : s.sys.Archivable X) {l : InstanceLabel}
    (hs : (instanceMachine X).step s l = some s') : s'.sys.Archivable X := by
  replace hs : s.step X l = some s' := hs
  cases l with
  | sys l =>
    obtain ⟨hl, hs⟩ := Option.ite_none_left_eq_some.1 hs
    obtain ⟨sys, hsys, rfl⟩ := Option.map_eq_some_iff.1 hs
    exact h.step hX hl hsys
  | peers l =>
    obtain ⟨hl, hs⟩ := Option.ite_none_right_eq_some.1 hs
    obtain ⟨peers, hpeers, rfl⟩ := Option.map_eq_some_iff.1 hs
    exact h.withDb (PeerNode.sameContent_of_step hl hpeers)

/-- **Every run**, whatever is imported and whichever peers are added, judged and deleted. -/
theorem archivable_of_run (hX : X.UrlLaws valid) {clock : Int} {labels : List InstanceLabel}
    {s : Instance} (hrun : (instanceMachine X).run (.init clock) labels = some s) :
    s.sys.Archivable X :=
  Machine.invariant (M := instanceMachine X) (I := fun s ↦ s.sys.Archivable X)
    (fun _ _ _ h hs ↦ archivable_of_step hX h hs) Sys.archivable_init ⟨labels, hrun⟩

end Instance

end CommunitySearch
