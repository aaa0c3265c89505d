import Mathlib.Algebra.Order.Group.Defs
import Mathlib.Data.List.Induction

/-!
# Sliding windows

A limiter that keeps the times of what it admitted and admits a request only when fewer than
`limit` of them lie in the window that ends now. Times are the elements of a linearly ordered group,
and a **window** of length `w` is a half-open interval `(t - w, t]`.

`length_window_le` is the reason such a limiter works: although only windows that end at an
admitted request are ever counted, no window anywhere holds more than `limit` of them.
`since_since` is why the limiter may forget: what a later window needs survives every earlier
pruning.
-/

namespace SlidingWindow

variable {α : Type*} [AddCommGroup α] [LinearOrder α]

/-- The entries of the window `(t - w, t]`. -/
def window (w t : α) (l : List α) : List α := l.filter fun s ↦ t - w < s ∧ s ≤ t

/-- What is left after pruning at time `t`: the entries later than `t - w`. -/
def since (w t : α) (l : List α) : List α := l.filter fun s ↦ t - w < s

/-- Each entry was admitted when fewer than `limit` of the earlier ones were in its window. -/
def Admitted (w : α) (limit : ℕ) (l : List α) : Prop :=
  ∀ p a q, l = p ++ a :: q → (since w a p).length < limit

variable {w : α} {limit : ℕ} {l : List α}

theorem since_append (w t : α) (l l' : List α) :
    since w t (l ++ l') = since w t l ++ since w t l' :=
  List.filter_append ..

theorem window_append (w t : α) (l l' : List α) :
    window w t (l ++ l') = window w t l ++ window w t l' :=
  List.filter_append ..

theorem admitted_nil : Admitted w limit ([] : List α) := fun p a q h ↦
  absurd h.symm (by simp)

/-- An entry of `l ++ [b]` is the last one or one of `l`. -/
theorem snoc_eq_append_cons {β : Type*} {l p q : List β} {a b : β}
    (h : l ++ [b] = p ++ a :: q) :
    (p = l ∧ a = b ∧ q = []) ∨ ∃ q', q = q' ++ [b] ∧ l = p ++ a :: q' := by
  induction q using List.reverseRecOn with
  | nil =>
    obtain ⟨hl, hab⟩ := List.append_inj' h rfl
    exact Or.inl ⟨hl.symm, (List.singleton_inj.1 hab).symm, rfl⟩
  | append_singleton q c _ =>
    rw [← List.cons_append, ← List.append_assoc] at h
    obtain ⟨hl, hbc⟩ := List.append_inj' h rfl
    exact Or.inr ⟨q, by rw [List.singleton_inj.1 hbc], hl⟩

/-- Admitting one more. -/
theorem Admitted.snoc (hl : Admitted w limit l) {a : α} (ha : (since w a l).length < limit) :
    Admitted w limit (l ++ [a]) := by
  intro p b q h
  rcases snoc_eq_append_cons h with ⟨rfl, rfl, -⟩ | ⟨q', -, h'⟩
  · exact ha
  · exact hl p b q' h'

theorem Admitted.of_snoc {a : α} (hl : Admitted w limit (l ++ [a])) :
    Admitted w limit l ∧ (since w a l).length < limit :=
  ⟨fun p b q h ↦ hl p b (q ++ [a]) (by rw [h, List.append_assoc, List.cons_append]),
    hl l a [] rfl⟩

section Ordered

variable [IsOrderedAddMonoid α]

/-- **Pruning loses nothing a later window needs.** -/
theorem since_since {t t' : α} (h : t ≤ t') (l : List α) :
    since w t' (since w t l) = since w t' l := by
  rw [since, since, List.filter_filter, since]
  refine List.filter_congr fun s _ ↦ ?_
  have hle : t - w ≤ t' - w := sub_le_sub_right h w
  by_cases hs : t' - w < s
  · simp [hs, hle.trans_lt hs]
  · simp [hs]

/-- **No window holds more than `limit` entries.** The last entry of a window was admitted when
fewer than `limit` were in the window that ends with it, and every other entry of the window at
hand is one of those. -/
theorem length_window_le (hsorted : l.Pairwise (· ≤ ·)) (hl : Admitted w limit l) (t : α) :
    (window w t l).length ≤ limit := by
  induction l using List.reverseRecOn with
  | nil => exact Nat.zero_le _
  | append_singleton l a ih =>
    obtain ⟨hadm, hlast⟩ := hl.of_snoc
    obtain ⟨hsorted', -, hle⟩ := List.pairwise_append.1 hsorted
    rw [window_append, List.length_append]
    by_cases ha : t - w < a ∧ a ≤ t
    · have hsub : (window w t l).length ≤ (since w a l).length := by
        rw [window, since, ← List.countP_eq_length_filter, ← List.countP_eq_length_filter]
        refine List.countP_mono_left fun s _ hs ↦ ?_
        have hs' : t - w < s ∧ s ≤ t := of_decide_eq_true hs
        exact decide_eq_true ((sub_le_sub_right ha.2 w).trans_lt hs'.1)
      have hone : (window w t [a]).length = 1 := by simp [window, ha]
      omega
    · have hnil : window w t [a] = [] := by simp [window, ha]
      rw [hnil, List.length_nil, Nat.add_zero]
      exact ih hsorted' hadm

end Ordered

end SlidingWindow
