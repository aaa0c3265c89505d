import CommunitySearch.Federation.PeerNode

/-!
# A peer the administrator has disabled

Nothing says why a peer is disabled, and the health check enables every disabled peer that answers.
A peer the administrator has disabled therefore stays so until it answers a probe of the health
check (`Answered`); neither searches nor imports enable it, and no search lists it meanwhile.
-/

namespace CommunitySearch

theorem NodeHealth.enabled_recorded {h : NodeHealth} (h0 : h.enabled = 0) (success : Bool)
    (responseMs : Option Int) (now : Int) (fails : Option Nat) :
    (h.recorded success responseMs now fails).enabled = 0 := by
  rw [NodeHealth.recorded]
  split
  · exact h0
  split
  · exact h0
  split
  · rfl
  · exact h0

namespace PeerNode

variable (X : Crates)

/-- The row with the id is there, and disabled. -/
def Disabled (s : PeerNode) (id : Int) : Prop := ∃ np ∈ s.rows, np.id = id ∧ np.enabled = 0

/-- The administrator enables the node peer, or deletes it. -/
def Restores (id : Int) : PeerLabel → Prop
  | .setEnabled id' true _ => id' = id
  | .deleteNode id' => id' = id
  | _ => False

/-- The peer answers a probe of the health check. -/
def Answered (s : PeerNode) (id : Int) : PeerLabel → Prop
  | .probe true _ => s.sweep.head?.map Contact.id = some id
  | _ => False

variable {X} {s s' : PeerNode} {l : PeerLabel} {id : Int}

/-- What is written about the peer leaves it disabled. -/
theorem enabled_treatment {f : NodeHealth → NodeHealth} (htreat : s.treatment l = some (id, f))
    (hrestores : ¬ Restores id l) (hanswered : ¬ s.Answered id l) {h : NodeHealth}
    (h0 : h.enabled = 0) : (f h).enabled = 0 := by
  cases l with
  | setEnabled id' enabled fails =>
    obtain ⟨rfl, rfl⟩ := Prod.mk.inj (Option.some.inj htreat)
    cases enabled with
    | false =>
      split
      · exact h0
      · rfl
    | true => exact absurd rfl hrestores
  | outcome k success elapsedMs fails =>
    obtain ⟨c, -, he⟩ := Option.map_eq_some_iff.1 htreat
    obtain ⟨rfl, rfl⟩ := Prod.mk.inj he
    exact NodeHealth.enabled_recorded h0 ..
  | probe answers fails =>
    obtain ⟨c, hc, he⟩ := Option.map_eq_some_iff.1 htreat
    obtain ⟨rfl, rfl⟩ := Prod.mk.inj he
    cases answers with
    | false => exact h0
    | true => exact absurd (congrArg (Option.map Contact.id) hc) hanswered
  | _ => cases htreat

/-- **A step** that neither restores the peer nor has its answer leaves it disabled. -/
theorem Disabled.step (hs : s.Disabled id) (hrestores : ¬ Restores id l)
    (hanswered : ¬ s.Answered id l) (h : (machine X).step s l = some s') : s'.Disabled id := by
  obtain ⟨np, hnp, hid, h0⟩ := hs
  rcases change_of_step h with ⟨hrows, -⟩ | ⟨hrows, -⟩ | ⟨hrows, -⟩ | ⟨id', f, htreat, hdb, -⟩ |
    ⟨id', rfl, rfl⟩
  · exact ⟨np, hrows ▸ hnp, hid, h0⟩
  · exact ⟨np, hrows ▸ hnp, hid, h0⟩
  · exact ⟨np, hrows ▸ List.mem_append_left _ hnp, hid, h0⟩
  · have hmem : _ ∈ (s.db.updateHealth id' f).nodePeers := Database.mem_updateHealth_of_mem hnp
    rw [← hdb] at hmem
    refine ⟨_, hmem, ?_⟩
    split
    case isTrue hid' =>
      obtain rfl : id' = id := hid'.symm.trans hid
      exact ⟨hid, enabled_treatment htreat hrestores hanswered h0⟩
    case isFalse => exact ⟨hid, h0⟩
  · refine ⟨np, List.mem_filter.2 ⟨hnp, ?_⟩, hid, h0⟩
    rw [Bool.not_eq_true']
    exact decide_eq_false fun hid' ↦ hrestores (hid'.symm.trans hid)

/-- No search lists a disabled peer. -/
theorem Disabled.not_listed (hs : s.Disabled id) (localCollection : String) :
    ∀ peer ∈ activeCollectionPeersFor s.db.federation localCollection, peer.nodePeerId ≠ id := by
  rintro peer hpeer rfl
  obtain ⟨np, hnp, hid, h0⟩ := hs
  obtain ⟨cp, -, hcp⟩ := List.mem_filterMap.1 hpeer
  obtain ⟨np', hnp', hif⟩ := Option.bind_eq_some_iff.1 hcp
  split at hif
  case isTrue henabled =>
    obtain rfl := Option.some.inj hif
    have hsame : np = np' :=
      Database.eq_of_mem_nodePeers (show np ∈ s.db.nodePeers from hnp)
        (List.mem_of_find?_eq_some hnp') (Or.inl hid)
    rw [← hsame, h0] at henabled
    exact absurd henabled.2.2 (by omega)
  case isFalse => cases hif

/-- The administrator disables a peer. -/
theorem disabled_setEnabled (hid : ∃ np ∈ s.rows, np.id = id)
    (h : (machine X).step s (.setEnabled id false none) = some s') : s'.Disabled id := by
  obtain rfl := Option.some.inj h
  obtain ⟨np, hnp, rfl⟩ := hid
  refine ⟨np.setHealth (np.health.disable s.clock), ?_, rfl, rfl⟩
  show _ ∈ (Sql.autocommit (setNodePeerEnabled np.id false s.clock) none s.tables).1.db.nodePeers
  rw [autocommit_setNodePeerEnabled]
  exact Database.mem_updateHealth.2 ⟨np, hnp, if_pos rfl⟩

/-- **What a manual disable lasts for**: from any state, a node peer the administrator has disabled
is disabled, and listed by no search, in every run in which it answers no probe of the health
check and the administrator neither enables nor deletes it. -/
theorem disabled_run (hid : ∃ np ∈ s.rows, np.id = id)
    (hset : (machine X).step s (.setEnabled id false none) = some s') {ls : List PeerLabel}
    {t : PeerNode}
    (hguarded : (machine X).Guarded (fun s l ↦ ¬ Restores id l ∧ ¬ s.Answered id l) s' ls)
    (hrun : (machine X).run s' ls = some t) :
    t.Disabled id ∧ ∀ localCollection,
      ∀ peer ∈ activeCollectionPeersFor t.db.federation localCollection, peer.nodePeerId ≠ id := by
  have ht : t.Disabled id := Machine.guarded_invariant (I := (Disabled · id))
    (fun _ _ _ hs hl h ↦ Disabled.step hs hl.1 hl.2 h) (disabled_setEnabled hid hset) hguarded hrun
  exact ⟨ht, ht.not_listed⟩

/-! ### A peer that answers -/

namespace AnsweredProbe

/-- The engine, with no answers to rely on. -/
def crates : Crates := .ofTables ⟨[], [], [], [], []⟩

/-- A sweep finds the peer alive after the administrator has disabled it. -/
def sweep : List PeerLabel :=
  [.check [(1, "https://a.example")], .probe true none]

/-- The peer is enabled again, and nobody has asked for it. -/
theorem not_disabled : ¬ ∀ ls s, (∀ l ∈ ls, ¬ Restores 1 l) → (machine crates).run (initial 0)
    (.addNode "https://a.example" none :: .setEnabled 1 false none :: ls) = some s →
    s.Disabled 1 := by
  intro h
  have hany : ((machine crates).run (initial 0)
      (.addNode "https://a.example" none :: .setEnabled 1 false none :: sweep)).any
      (fun s ↦ s.rows.all fun np ↦ np.enabled ≠ 0) = true := by decide +kernel
  obtain ⟨s, hs, henabled⟩ := Machine.exists_run_of_any hany
  have hrestores : ∀ l ∈ sweep, ¬ Restores 1 l :=
    List.forall_mem_cons.2 ⟨not_false, List.forall_mem_cons.2 ⟨not_false, fun _ hl ↦ by cases hl⟩⟩
  obtain ⟨np, hnp, -, h0⟩ := h sweep s hrestores hs
  exact of_decide_eq_true (List.all_eq_true.1 henabled np hnp) h0

/-- A sweep in which the peer does not answer. -/
def silentSweep : List PeerLabel :=
  [.check [(1, "https://a.example")], .probe false none]

theorem disabled_run_silent :
    ∃ s t, (machine crates).run (initial 0)
      (.addNode "https://a.example" none :: .setEnabled 1 false none :: silentSweep) = some t ∧
      (machine crates).run (initial 0) [.addNode "https://a.example" none] = some s ∧
      t.Disabled 1 ∧ ∀ localCollection,
        ∀ peer ∈ activeCollectionPeersFor t.db.federation localCollection,
          peer.nodePeerId ≠ 1 := by
  have hany : ((machine crates).run (initial 0)
      (.addNode "https://a.example" none :: .setEnabled 1 false none :: silentSweep)).any
      (fun _ ↦ true) = true := by decide +kernel
  obtain ⟨t, ht, -⟩ := Machine.exists_run_of_any hany
  obtain ⟨s, hs, ht'⟩ := Machine.run_cons_eq_some _ |>.1 ht
  obtain ⟨s', hs', hsweep⟩ := Machine.run_cons_eq_some _ |>.1 ht'
  obtain rfl := Option.some.inj hs
  have hid : ∃ np ∈ ((initial 0).addNode "https://a.example" none).rows, np.id = 1 :=
    ⟨_, List.mem_cons_self, rfl⟩
  have hguarded : (machine crates).Guarded (fun s l ↦ ¬ Restores 1 l ∧ ¬ s.Answered 1 l) s'
      silentSweep :=
    ⟨⟨not_false, not_false⟩, fun _ _ ↦ ⟨⟨not_false, not_false⟩, fun _ _ ↦ trivial⟩⟩
  exact ⟨_, t, ht, rfl, disabled_run hid hs' hguarded hsweep⟩

end AnsweredProbe

end PeerNode

end CommunitySearch
