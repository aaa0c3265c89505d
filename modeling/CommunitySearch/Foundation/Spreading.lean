import Mathlib.Combinatorics.SimpleGraph.Connectivity.Connected
import Mathlib.Order.CompletePartialOrder

/-!
# Spreading over a graph

What every vertex of a graph holds changes in rounds. Nothing is lost, and in one round the vertices
of an edge get what the other held when the round began (`Spreads`). After `t` rounds a vertex
holds what any vertex within `t` edges held at first (`Spreads.le_of_walk`), so in a connected graph
of `n` vertices `n - 1` rounds are enough for everybody to hold everything (`Spreads.eq_iSup`).
-/

variable {V L : Type*}

/-- `X t v` is what the vertex `v` holds after `t` rounds, of which the first `T` spread along the
edges of `G`. -/
structure Spreads [Preorder L] (G : SimpleGraph V) (X : ℕ → V → L) (T : ℕ) : Prop where
  /-- Nothing is lost. -/
  mono : ∀ t < T, ∀ v, X t v ≤ X (t + 1) v
  /-- What is held at one end of an edge reaches the other. -/
  adj : ∀ t < T, ∀ u v, G.Adj u v → X t u ≤ X (t + 1) v

namespace Spreads

variable {G : SimpleGraph V} {X : ℕ → V → L} {T : ℕ}

section Preorder

variable [Preorder L]

theorem le_add (h : Spreads G X T) (v : V) (t k : ℕ) (hk : t + k ≤ T) : X t v ≤ X (t + k) v := by
  induction k with
  | zero => exact le_rfl
  | succ k ih => exact (ih (by omega)).trans (h.mono (t + k) (by omega) v)

/-- **A walk of `k` edges is travelled in `k` rounds.** -/
theorem le_of_walk (h : Spreads G X T) {u v : V} (p : G.Walk u v) (t : ℕ)
    (ht : t + p.length ≤ T) : X t u ≤ X T v := by
  induction p generalizing t with
  | @nil u =>
    rw [SimpleGraph.Walk.length_nil] at ht
    have hle := h.le_add u t (T - t) (by omega)
    rwa [show t + (T - t) = T by omega] at hle
  | cons hadj p ih =>
    rw [SimpleGraph.Walk.length_cons] at ht
    exact (h.adj t (by omega) _ _ hadj).trans (ih (t + 1) (by omega))

/-- In a connected graph of `n` vertices everything reaches everybody in `n - 1` rounds. -/
theorem le_of_connected [Fintype V] (h : Spreads G X (Fintype.card V - 1)) (hG : G.Connected)
    (u v : V) : X 0 u ≤ X (Fintype.card V - 1) v := by
  obtain ⟨p, hp⟩ := hG.exists_isPath u v
  have hlen := hp.length_lt
  exact h.le_of_walk p 0 (by omega)

end Preorder

/-- **Convergence.** If besides nothing comes from outside, everybody holds the join of what was
held at first. -/
theorem eq_iSup [CompleteLattice L] [Fintype V] (h : Spreads G X (Fintype.card V - 1))
    (hG : G.Connected) (hX : ∀ v, X (Fintype.card V - 1) v ≤ ⨆ u, X 0 u) (v : V) :
    X (Fintype.card V - 1) v = ⨆ u, X 0 u :=
  le_antisymm (hX v) (iSup_le fun u ↦ h.le_of_connected hG u v)

end Spreads
