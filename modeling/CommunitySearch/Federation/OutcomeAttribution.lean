import CommunitySearch.Federation.PeerNode
import Mathlib.Data.List.Forall2

/-!
# Whose outcome it is

What a search or a sweep has found out about a peer is written by the id the peer had when it was
listed. The id of a peer that is deleted is given to the next one when it was the largest, so that
a late outcome can be written to a peer that was never contacted (`ReusedId`).

`guarded_attributed` says that this is all that can go wrong: while no peer is inserted under an id
that a search or a sweep under way has noted, every outcome is written to the peer that was
contacted, and to none when that peer is gone.
-/

namespace CommunitySearch

namespace PeerNode

variable (X : Crates)

/-- The row `np'` is what the outcome of the contact `c` may make of the row `np`. -/
def Touched (c : Contact) (np np' : NodePeerRow) : Prop :=
  np' = np ∨ c.gone = false ∧ np.url = c.url ∧ ∃ h, np' = np.setHealth h

/-- **Attribution** of the outcome a step records: the row that changes is that of the peer whose
URL was contacted, and no row does when this peer is gone. -/
def Attributed (s : PeerNode) (l : PeerLabel) : Prop :=
  ∀ c s', s.contacted l = some c → (machine X).step s l = some s' →
    List.Forall₂ (Touched c) s.rows s'.rows

/-- No peer is inserted under an id that is noted. -/
def Unreused (s : PeerNode) (l : PeerLabel) : Prop :=
  ∀ c ∈ s.pending, ¬ (s.nextId ≤ c.id ∧ c.id < s.nextId + (newcomers X s l).length)

instance (s : PeerNode) (l : PeerLabel) : Decidable (Unreused X s l) :=
  inferInstanceAs (Decidable (∀ c ∈ s.pending,
    ¬ (s.nextId ≤ c.id ∧ c.id < s.nextId + (newcomers X s l).length)))

/-- The contacts name the peers they are about: a peer that has the id has not been replaced. -/
def Known (s : PeerNode) : Prop :=
  ∀ c ∈ s.pending, ∀ np ∈ s.rows, np.id = c.id → c.gone = false ∧ np.url = c.url

variable {X} {s s' : PeerNode} {l : PeerLabel}

theorem eq_of_mem_rows {np np' : NodePeerRow} (hnp : np ∈ s.rows) (hnp' : np' ∈ s.rows)
    (h : np.id = np'.id) : np = np' :=
  Database.eq_of_mem_nodePeers (show np ∈ s.db.nodePeers from hnp) hnp' (Or.inl h)

theorem Known.deleteNode (hs : s.Known) (id : Int) : (s.deleteNode id).Known := by
  intro c hc np hnp hid
  obtain ⟨hnp, hne⟩ := List.mem_filter.1 hnp
  replace hc : c ∈ s.contacts.map _ ++ s.sweep.map _ := hc
  rw [← List.map_append] at hc
  obtain ⟨c₀, hc₀, rfl⟩ := List.mem_map.1 hc
  split at hid
  case isTrue h =>
    replace hne : (!decide (np.id = id)) = true := hne
    rw [decide_eq_true (hid.trans h)] at hne
    exact absurd hne Bool.false_ne_true
  case isFalse h =>
    rw [if_neg h]
    exact hs c₀ hc₀ np hnp hid

/-- **A step** that reuses no noted id leaves the contacts what they say. -/
theorem Known.step (hs : s.Known) (hunreused : Unreused X s l)
    (h : (machine X).step s l = some s') : s'.Known := by
  rcases change_of_step h with ⟨hrows, hpending⟩ | ⟨hrows, hpending⟩ | ⟨hrows, hpending⟩ |
    ⟨id, f, -, hdb, hpending⟩ | ⟨id, -, rfl⟩
  · intro c hc np hnp
    rw [hrows] at hnp
    exact hs c (hpending c hc) np hnp
  · intro c hc np hnp hid
    rw [hrows] at hnp
    rcases hpending c hc with hc | ⟨np', hnp', rfl⟩
    · exact hs c hc np hnp hid
    · obtain rfl := eq_of_mem_rows hnp hnp' hid
      exact ⟨rfl, rfl⟩
  · intro c hc np hnp hid
    rw [hpending] at hc
    rw [hrows] at hnp
    rcases List.mem_append.1 hnp with hnp | hnp
    · exact hs c hc np hnp hid
    · obtain ⟨i, hi, rfl⟩ := mem_importedPeers.1 hnp
      replace hid : s.nextId + (i : Int) = c.id := hid
      refine absurd ⟨?_, ?_⟩ (hunreused c hc)
      · omega
      · omega
  · intro c hc np hnp hid
    rw [rows, hdb] at hnp
    obtain ⟨np₀, hnp₀, rfl⟩ := Database.mem_updateHealth.1 hnp
    have hsame : (if np₀.id = id then np₀.setHealth (f np₀.health) else np₀).id = np₀.id ∧
        (if np₀.id = id then np₀.setHealth (f np₀.health) else np₀).url = np₀.url := by
      split <;> exact ⟨rfl, rfl⟩
    rw [hsame.2]
    exact hs c (hpending c hc) np₀ hnp₀ (hsame.1.symm.trans hid)
  · exact hs.deleteNode id

/-- A step that records an outcome brings no peer, and writes to the row with the noted id. -/
theorem treatment_of_contacted {c : Contact} (hc : s.contacted l = some c) :
    c ∈ s.pending ∧ newcomers X s l = [] ∧ (s.treatment l).map Prod.fst = some c.id := by
  cases l with
  | outcome k success elapsedMs fails =>
    replace hc : s.contacts[k]? = some c := hc
    refine ⟨List.mem_append_left _ (List.mem_of_getElem? hc), rfl, ?_⟩
    rw [treatment, hc]
    rfl
  | probe answers fails =>
    replace hc : s.sweep.head? = some c := hc
    refine ⟨List.mem_append_right _ (List.mem_of_mem_head? hc), rfl, ?_⟩
    rw [treatment, hc]
    rfl
  | _ => cases hc

theorem forall₂_touched_refl (c : Contact) (rows : List NodePeerRow) :
    List.Forall₂ (Touched c) rows rows :=
  List.forall₂_same.2 fun _ _ ↦ Or.inl rfl

/-- **An outcome goes where it belongs** when the contacts are what they say. -/
theorem Known.attributed (hs : s.Known) : Attributed X s l := by
  intro c s' hc h
  obtain ⟨hpending, hnew, htreat⟩ := treatment_of_contacted (X := X) hc
  rcases change_of_step h with ⟨hrows, -⟩ | ⟨hrows, -⟩ | ⟨hrows, -⟩ | ⟨id, f, hid, hdb, -⟩ |
    ⟨id, rfl, -⟩
  · exact hrows ▸ forall₂_touched_refl c s.rows
  · exact hrows ▸ forall₂_touched_refl c s.rows
  · rw [hnew, importedPeers, List.append_nil] at hrows
    exact hrows ▸ forall₂_touched_refl c s.rows
  · rw [hid] at htreat
    obtain rfl := Option.some.inj htreat
    rw [rows, rows, hdb]
    refine List.forall₂_map_right_iff.2 (List.forall₂_same.2 fun np hnp ↦ ?_)
    by_cases hnpid : np.id = c.id
    · rw [if_pos hnpid]
      obtain ⟨hgone, hurl⟩ := hs c hpending np hnp hnpid
      exact Or.inr ⟨hgone, hurl, _, rfl⟩
    · rw [if_neg hnpid]
      exact Or.inl rfl
  · cases hc

/-- **Attribution of outcomes**, over every run from a fresh installation that inserts no peer
under an id which a search or a sweep under way has noted. -/
theorem guarded_attributed (clock : Int) {ls : List PeerLabel}
    (hunreused : (machine X).Guarded (Unreused X) (initial clock) ls) :
    (machine X).Guarded (Attributed X) (initial clock) ls :=
  hunreused.of_invariant (I := Known) (fun _ _ _ hs hl h ↦ hs.step hl h)
    (fun _ _ hs _ ↦ hs.attributed) (fun _ hc ↦ absurd hc List.not_mem_nil)

/-- The outcome of a peer that is gone changes no row. -/
theorem Attributed.rows_eq (hl : Attributed X s l) {c : Contact} (hc : s.contacted l = some c)
    (hgone : c.gone = true) (h : (machine X).step s l = some s') : s'.rows = s.rows := by
  have hrows : List.Forall₂ (fun np np' ↦ np = np') s.rows s'.rows := by
    refine (hl c s' hc h).imp fun np np' htouched ↦ ?_
    rcases htouched with rfl | ⟨hpresent, -⟩
    · rfl
    · rw [hgone] at hpresent
      cases hpresent
  exact (List.forall₂_eq_eq_eq ▸ hrows : s.rows = s'.rows).symm

/-! ### An id that is given away -/

namespace ReusedId

/-- The engine, with no answers to rely on. -/
def crates : Crates := .ofTables ⟨[], [], [], [], []⟩

/-- A search lists the peer `a`, which is deleted, and the peer `b` is given its id. -/
def late : List PeerLabel :=
  [.addNode "https://a.example" none, .subscribe "c" 1 "c" (.ofBits 0), .search "c", .deleteNode 1,
    .addNode "https://b.example" none]

theorem not_attributed : ¬ ∀ ls, (machine crates).Guarded (Attributed crates) (initial 0) ls := by
  intro h
  have hany : ((machine crates).run (initial 0) late).any (fun s ↦
      s.contacted (.outcome 0 false 9 none) = some ⟨1, "https://a.example", true⟩ ∧
      ((machine crates).step s (.outcome 0 false 9 none)).any fun s' ↦ s'.rows ≠ s.rows) =
        true := by
    decide +kernel
  obtain ⟨s, hs, hlate⟩ := Machine.exists_run_of_any hany
  obtain ⟨hc, hstep⟩ := of_decide_eq_true hlate
  obtain ⟨s', hs', hne⟩ := Option.any_eq_true _ _ |>.1 hstep
  have hattributed := ((h (late ++ [.outcome 0 false 9 none])).right hs).1
  exact of_decide_eq_true hne (hattributed.rows_eq hc rfl hs')

/-- The outcome comes before the id is given away. -/
theorem guarded_attributed_before : (machine crates).Guarded (Attributed crates) (initial 0)
    (late.take 4 ++ [.outcome 0 false 9 none, .addNode "https://b.example" none]) :=
  guarded_attributed 0 (by decide +kernel)

end ReusedId

end PeerNode

end CommunitySearch
