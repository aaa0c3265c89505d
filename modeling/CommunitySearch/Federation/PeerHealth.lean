import CommunitySearch.Federation.PeerNode

/-!
# The invariant of peer health

An enabled peer has failed less often than the threshold and has no time of a disabling; a disabled
peer has one (`NodeHealth.Consistent`). Every writer keeps this, but for two:

* an import writes the switch of the other instance and leaves the time of a disabling empty;
* a record that counts the last failure and is cut off there leaves the peer enabled.

`consistent_iff_guarded` says that the invariant holds all along in exactly the runs that avoid
both.
-/

namespace CommunitySearch

namespace NodeHealth

/-- **The invariant** of a row. -/
structure Consistent (h : NodeHealth) : Prop where
  enabled : h.enabled ≠ 0 → h.consecutiveFailures < FAILURE_THRESHOLD ∧ h.disabledAt = none
  disabled : h.enabled = 0 → h.disabledAt ≠ none

variable {h : NodeHealth} {now : Int} {fails : Option Nat} {responseMs : Option Int}

theorem consistent_enable (h : NodeHealth) : h.enable.Consistent where
  enabled _ := ⟨by show (0 : Int) < 5; omega, rfl⟩
  disabled h0 := absurd h0 (by show (1 : Int) ≠ 0; omega)

theorem consistent_disable (h : NodeHealth) (now : Int) : (h.disable now).Consistent where
  enabled hne := absurd rfl hne
  disabled _ := Option.some_ne_none now

theorem Consistent.succeed (hh : h.Consistent) : (h.succeed responseMs now).Consistent where
  enabled hne := ⟨by show (0 : Int) < 5; omega, (hh.enabled hne).2⟩
  disabled := hh.disabled

/-- A failure that does not exhaust the peer. -/
theorem Consistent.fail (hh : h.Consistent) (hleft : ¬ (h.fail now).Exhausted) :
    (h.fail now).Consistent where
  enabled hne := ⟨Int.not_le.1 fun hle ↦ hleft ⟨hle, hne⟩, (hh.enabled hne).2⟩
  disabled := hh.disabled

theorem Exhausted.not_consistent (hexhausted : h.Exhausted) : ¬ h.Consistent := fun hh ↦
  Int.not_le.2 (hh.enabled hexhausted.2).1 hexhausted.1

/-- The record is cut off between the count and the switch. -/
def CutOff (success : Bool) (now : Int) (fails : Option Nat) (h : NodeHealth) : Prop :=
  success = false ∧ (fails = some 1 ∨ fails = some 2) ∧ (h.fail now).Exhausted

theorem recorded_of_cutOff {success : Bool} (hcut : h.CutOff success now fails) :
    h.recorded success responseMs now fails = h.fail now := by
  obtain ⟨rfl, hfails, -⟩ := hcut
  have h0 : fails ≠ some 0 := by
    rcases hfails with rfl | rfl
    · simp
    · simp
  rw [recorded, if_neg h0, if_neg Bool.false_ne_true]
  refine if_neg fun hcond ↦ ?_
  rcases hfails with hfails | hfails
  · exact hcond.2.1 hfails
  · exact hcond.2.2 hfails

/-- **A record keeps the invariant**, unless it is cut off. -/
theorem Consistent.recorded (hh : h.Consistent) {success : Bool}
    (hcut : ¬ h.CutOff success now fails) :
    (h.recorded success responseMs now fails).Consistent := by
  rw [NodeHealth.recorded]
  split
  · exact hh
  split
  · exact hh.succeed
  case isFalse hsuccess =>
    split
    · exact consistent_disable ..
    case isFalse hcond =>
      refine hh.fail fun hexhausted ↦ ?_
      by_cases h1 : fails = some 1
      · exact hcut ⟨Bool.eq_false_iff.2 hsuccess, Or.inl h1, hexhausted⟩
      by_cases h2 : fails = some 2
      · exact hcut ⟨Bool.eq_false_iff.2 hsuccess, Or.inr h2, hexhausted⟩
      exact hcond ⟨hexhausted, h1, h2⟩

end NodeHealth

namespace PeerNode

variable (X : Crates)

/-- Every row has the invariant. -/
def Consistent (s : PeerNode) : Prop := ∀ np ∈ s.rows, np.health.Consistent

/-- The step brings no peer that is disabled, and cuts off no record that has to disable one. -/
structure Careful (s : PeerNode) (l : PeerLabel) : Prop where
  newcomers : ∀ p ∈ newcomers X s l, p.enabled ≠ 0
  records : ∀ k success elapsedMs fails c, l = .outcome k success elapsedMs fails →
    s.contacts[k]? = some c → ∀ np ∈ s.rows, np.id = c.id →
      ¬ np.health.CutOff success s.clock fails

variable {X} {s s' : PeerNode} {l : PeerLabel}

/-- What a careful step makes of a row. -/
theorem Careful.consistent_treatment (hcareful : Careful X s l) {id : Int}
    {f : NodeHealth → NodeHealth} (htreat : s.treatment l = some (id, f)) {np : NodePeerRow}
    (hnp : np ∈ s.rows) (hid : np.id = id) (hh : np.health.Consistent) :
    (f np.health).Consistent := by
  cases l with
  | setEnabled id' enabled fails =>
    obtain ⟨rfl, rfl⟩ := Prod.mk.inj (Option.some.inj htreat)
    split
    · exact hh
    split
    · exact NodeHealth.consistent_enable _
    · exact NodeHealth.consistent_disable ..
  | outcome k success elapsedMs fails =>
    obtain ⟨c, hc, he⟩ := Option.map_eq_some_iff.1 htreat
    obtain ⟨rfl, rfl⟩ := Prod.mk.inj he
    exact hh.recorded (hcareful.records _ _ _ _ c rfl hc np hnp hid)
  | probe answers fails =>
    obtain ⟨c, -, he⟩ := Option.map_eq_some_iff.1 htreat
    obtain ⟨rfl, rfl⟩ := Prod.mk.inj he
    split
    · exact NodeHealth.consistent_enable _
    · exact hh
  | _ => cases htreat

/-- **A careful step keeps the invariant.** -/
theorem Consistent.step (hs : s.Consistent) (hcareful : Careful X s l)
    (h : (machine X).step s l = some s') : s'.Consistent := by
  intro np hnp
  rcases change_of_step h with ⟨hrows, -⟩ | ⟨hrows, -⟩ | ⟨hrows, -⟩ | ⟨id, f, htreat, hdb, -⟩ |
    ⟨id, -, rfl⟩
  · rw [hrows] at hnp
    exact hs np hnp
  · rw [hrows] at hnp
    exact hs np hnp
  · rw [hrows] at hnp
    rcases List.mem_append.1 hnp with hnp | hnp
    · exact hs np hnp
    · obtain ⟨i, hi, rfl⟩ := mem_importedPeers.1 hnp
      refine ⟨fun _ ↦ ⟨by show (0 : Int) < 5; omega, rfl⟩, fun h0 ↦ ?_⟩
      exact absurd h0 (hcareful.newcomers _ (List.getElem_mem hi))
  · rw [rows, hdb] at hnp
    obtain ⟨np₀, hnp₀, rfl⟩ := Database.mem_updateHealth.1 hnp
    split
    case isTrue hid => exact hcareful.consistent_treatment htreat hnp₀ hid (hs np₀ hnp₀)
    case isFalse => exact hs np₀ hnp₀
  · exact hs np (List.mem_filter.1 hnp).1

/-- A peer that is disabled comes with an import. -/
theorem exists_receive_of_newcomer {p : ExportedNodePeer} (hp : p ∈ newcomers X s l)
    (h0 : p.enabled = 0) : ∃ ts env, l = .receive ts env := by
  cases l with
  | addNode url name =>
    obtain rfl := List.mem_singleton.1 (mem_of_mem_newNodePeers hp)
    cases h0
  | promote url =>
    rw [newcomers] at hp
    split at hp
    · obtain rfl := List.mem_singleton.1 (mem_of_mem_newNodePeers hp)
      cases h0
    · cases hp
  | receive ts env => exact ⟨ts, env, rfl⟩
  | _ => cases hp

/-- **Any other step breaks it.** -/
theorem not_consistent_of_not_careful (hcareful : ¬ Careful X s l)
    (h : (machine X).step s l = some s') : ¬ s'.Consistent := by
  intro hs'
  refine hcareful ⟨fun p hp h0 ↦ ?_, fun k success elapsedMs fails c hl hc np hnp hid hcut ↦ ?_⟩
  · obtain ⟨ts, env, rfl⟩ := exists_receive_of_newcomer hp h0
    obtain rfl := Option.some.inj h
    obtain ⟨i, hi, rfl⟩ := List.mem_iff_getElem.1 hp
    let p := (newcomers X s (.receive ts env))[i]
    have hrow : ⟨s.nextId + i, p.url, p.name, p.enabled, 0, none, none, none⟩ ∈
        (s.receive X ts env).rows := by
      rw [rows_receive]
      exact List.mem_append_right _ (mem_importedPeers.2 ⟨i, hi, rfl⟩)
    exact (hs' _ hrow).disabled h0 rfl
  · subst hl
    obtain ⟨c', hc', rfl⟩ := Option.map_eq_some_iff.1 h
    obtain rfl := Option.some.inj (hc.symm.trans hc')
    have hrow : np.setHealth (np.health.fail s.clock) ∈
        (Sql.autocommit (recordResult c.id success (some elapsedMs) s.clock) fails
          s.tables).1.db.nodePeers.rows := by
      rw [autocommit_recordResult]
      refine Database.mem_updateHealth.2 ⟨np, hnp, ?_⟩
      rw [if_pos hid, NodeHealth.recorded_of_cutOff hcut]
    exact hcut.2.2.not_consistent (hs' _ hrow)

/-- **The invariant of peer health**, in every state of a run from a fresh installation: no import
brings a node peer that is disabled, and no record of the failure that exhausts an enabled peer is
cut off. -/
theorem consistent_iff_guarded (clock : Int) {ls : List PeerLabel} {s : PeerNode}
    (hrun : (machine X).run (initial clock) ls = some s) :
    (∀ l₁ l₂ t, ls = l₁ ++ l₂ → (machine X).run (initial clock) l₁ = some t → t.Consistent) ↔
      (machine X).Guarded (Careful X) (initial clock) ls :=
  Machine.forall_prefix_iff_guarded (I := Consistent) (fun _ hs ↦ hs)
    (fun _ _ _ hs _ hcareful h ↦ hs.step hcareful h)
    (fun _ _ _ _ _ hcareful h ↦ not_consistent_of_not_careful hcareful h)
    (fun _ hnp ↦ absurd hnp List.not_mem_nil) (Machine.guarded_true _ _) hrun

/-! ### A disabled peer is imported -/

namespace DisabledImport

/-- An instance with one node peer, that is disabled. -/
def envelope : ExportEnvelope where
  formatVersion := FORMAT_VERSION
  exportedAt := "t"
  selfUrl := "https://a.example"
  collections := []
  nodePeers := [⟨"https://b.example", none, 0⟩]
  collectionPeers := []

/-- The engine, with no answers to rely on. -/
def crates : Crates := .ofTables ⟨[], [], [], [], []⟩

theorem not_consistent : ¬ ∀ ls s, (machine crates).run (initial 0) ls = some s →
    s.Consistent := by
  intro h
  have hany : ((machine crates).run (initial 0) [.receive "t" envelope]).any (fun s ↦
      s.rows.any fun np ↦ np.enabled = 0 ∧ np.disabledAt = none) = true := by decide +kernel
  obtain ⟨s, hs, hrow⟩ := Machine.exists_run_of_any hany
  obtain ⟨np, hnp, hdisabled⟩ := List.any_eq_true.1 hrow
  obtain ⟨h0, hnone⟩ := of_decide_eq_true hdisabled
  exact (h _ s hs np hnp).disabled h0 hnone

/-- The administrator disables the peer instead. -/
theorem consistent_iff_guarded_disable :
    ∃ s, (machine crates).run (initial 0)
      [.addNode "https://b.example" none, .setEnabled 1 false none] = some s ∧
      ((∀ l₁ l₂ t, [.addNode "https://b.example" none, .setEnabled 1 false none] = l₁ ++ l₂ →
        (machine crates).run (initial 0) l₁ = some t → t.Consistent) ↔
        (machine crates).Guarded (Careful crates) (initial 0)
          [.addNode "https://b.example" none, .setEnabled 1 false none]) :=
  ⟨_, rfl, consistent_iff_guarded 0 rfl⟩

end DisabledImport

end PeerNode

end CommunitySearch
