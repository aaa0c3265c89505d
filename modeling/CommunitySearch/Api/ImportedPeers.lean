import CommunitySearch.Api.ImportRankings

/-!
# Imports and the node peers

An import adds a row for each node peer whose URL is new, under consecutive ids, and changes no row
that is there (`nodePeers_of_committedImport`). A row is added as the envelope has it: with the
switch of the other instance, no failures, and no time of a disabling.
-/

namespace CommunitySearch

/-- The node peers an import adds: the first of each URL that is not known. -/
def newNodePeers : List String → List ExportedNodePeer → List ExportedNodePeer
  | _, [] => []
  | known, p :: ps =>
    if p.url ∈ known then newNodePeers known ps else p :: newNodePeers (p.url :: known) ps

/-- The rows added for node peers, from the id `id` on. -/
def importedPeers (id : Int) : List ExportedNodePeer → List NodePeerRow
  | [] => []
  | p :: ps => ⟨id, p.url, p.name, p.enabled, 0, none, none, none⟩ :: importedPeers (id + 1) ps

theorem mem_importedPeers {id : Int} {np : NodePeerRow} {ps : List ExportedNodePeer} :
    np ∈ importedPeers id ps ↔ ∃ i, ∃ h : i < ps.length,
      np = ⟨id + i, ps[i].url, ps[i].name, ps[i].enabled, 0, none, none, none⟩ := by
  induction ps generalizing id with
  | nil => simp [importedPeers]
  | cons p ps ih =>
    rw [importedPeers, List.mem_cons, ih]
    constructor
    · rintro (rfl | ⟨i, hi, rfl⟩)
      · exact ⟨0, Nat.zero_lt_succ _, by simp⟩
      · refine ⟨i + 1, Nat.succ_lt_succ hi, ?_⟩
        have hid : id + 1 + (i : Int) = id + ((i + 1 : Nat) : Int) := by omega
        rw [hid]
        rfl
    · rintro ⟨i, hi, rfl⟩
      cases i with
      | zero => exact Or.inl (by simp)
      | succ i =>
        refine Or.inr ⟨i, Nat.lt_of_succ_lt_succ hi, ?_⟩
        have hid : id + 1 + (i : Int) = id + ((i + 1 : Nat) : Int) := by omega
        rw [hid]
        rfl

variable {X : Crates} {ts : String} {env : ExportEnvelope} {db db' : Database}

theorem nodePeers_of_applyNodePeers {peers peers' : ImportReport × List String}
    {ps : List ExportedNodePeer}
    (h : Sql.exec false (Sql.loop applyNodePeer peers ps) db = some (db', peers')) :
    db'.nodePeers.rows = db.nodePeers.rows ++
      importedPeers (nextRowid (db.nodePeers.rows.map NodePeerRow.id))
        (newNodePeers peers.2 ps) := by
  induction ps generalizing db peers with
  | nil =>
    obtain ⟨rfl, -⟩ := Prod.mk.inj (Option.some.inj h)
    exact (List.append_nil _).symm
  | cons p ps ih =>
    obtain ⟨db₁, peers₁, hp, hps⟩ := Sql.exec_loop_cons.1 h
    rw [newNodePeers]
    rw [applyNodePeer] at hp
    split at hp
    case isTrue hknown =>
      obtain ⟨rfl, rfl⟩ := Prod.mk.inj (Option.some.inj hp)
      rw [if_pos hknown]
      have hrest := ih hps
      exact hrest
    case isFalse hknown =>
      obtain ⟨_, _, hinsert, hp⟩ := Sql.exec_attempt_eq_some.1 hp
      rw [Sql.exec_execute] at hinsert
      obtain ⟨rows, hrows, he⟩ := Option.map_eq_some_iff.1 hinsert
      obtain ⟨rfl, -⟩ := Prod.mk.inj he
      obtain ⟨rfl, rfl⟩ := Prod.mk.inj (Option.some.inj hp)
      have hadded : rows.rows = db.nodePeers.rows ++ [db.importedNodePeer p] :=
        Table.rows_of_insert hrows
      have hnext : nextRowid (rows.rows.map NodePeerRow.id) =
          nextRowid (db.nodePeers.rows.map NodePeerRow.id) + 1 := by
        rw [hadded, List.map_append]
        exact nextRowid_concat _
      have hrest := ih hps
      replace hrest : db'.nodePeers.rows = rows.rows ++
          importedPeers (nextRowid (rows.rows.map NodePeerRow.id))
            (newNodePeers (p.url :: peers.2) ps) := hrest
      rw [hnext, hadded, List.append_assoc] at hrest
      rw [if_neg hknown, hrest]
      rfl

/-- **What an import does to the node peers.** -/
theorem nodePeers_of_committedImport {report : ImportReport} {jobs : List IndexJob}
    (h : committedImport X ts env db = some (db', report, jobs)) :
    db'.nodePeers.rows = db.nodePeers.rows ++
      importedPeers (nextRowid (db.nodePeers.rows.map NodePeerRow.id))
        (newNodePeers db.nodePeerUrls env.nodePeers) := by
  obtain ⟨db₁, acc, db₂, peers, hcollections, hnodes, hpeers, -⟩ := committedImport_eq_some.1 h
  have h₁ : db₁.nodePeers = db.nodePeers := by
    refine Sql.loop_invariant (I := fun db₁ _ ↦ db₁.nodePeers = db.nodePeers)
      (fun c db₁ acc db₂ _ hI hc ↦ ?_) rfl hcollections
    rw [applyCollection] at hc
    split at hc
    · obtain ⟨rfl, -⟩ := Prod.mk.inj (Option.some.inj hc)
      exact hI
    · exact (Database.collections_of_importCollection hc).2.1.trans hI
  have h₃ : db'.nodePeers = db₂.nodePeers := by
    refine Sql.loop_invariant (I := fun db' _ ↦ db'.nodePeers = db₂.nodePeers)
      (fun cp db₃ _ db₄ _ hI hcp ↦ ?_) rfl hpeers
    rw [applyCollectionPeer] at hcp
    split at hcp
    · obtain ⟨rfl, -⟩ := Prod.mk.inj (Option.some.inj hcp)
      exact hI
    · obtain ⟨_, id, hquery, hcp⟩ := Sql.exec_attempt_eq_some.1 hcp
      rw [Sql.exec_queryRow] at hquery
      obtain ⟨_, -, he⟩ := Option.map_eq_some_iff.1 hquery
      obtain ⟨rfl, rfl⟩ := Prod.mk.inj he
      obtain ⟨db₅, n, hinsert, hcp⟩ := Sql.exec_attempt_eq_some.1 hcp
      rw [Sql.exec_execute] at hinsert
      obtain ⟨rfl, -⟩ := Prod.mk.inj (Option.some.inj hcp)
      rcases Database.insertOrIgnoreCollectionPeer_cases hinsert with ⟨_, -, rfl, -⟩ | ⟨rfl, -⟩
      · exact hI
      · exact hI
  have h₂ := nodePeers_of_applyNodePeers hnodes
  replace h₂ : db₂.nodePeers.rows = db₁.nodePeers.rows ++
      importedPeers (nextRowid (db₁.nodePeers.rows.map NodePeerRow.id))
        (newNodePeers (db₁.nodePeers.rows.map NodePeerRow.url) env.nodePeers) := h₂
  rw [h₁] at h₂
  rw [h₃]
  exact h₂

end CommunitySearch
