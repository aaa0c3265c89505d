import Mathlib.Data.List.Sort
import Mathlib.Data.Prod.Lex

/-!
# `ORDER BY`

`l.orderBy key` lists the rows by a key, rows of one key as they come. Listing what is listed
already changes nothing (`orderBy_eq_self`), and where no key occurs twice the order is strict
(`pairwise_lt_orderBy`).
-/

namespace List

variable {α κ : Type*} [LinearOrder κ]

/-- `SELECT .. ORDER BY key`. -/
def orderBy (key : α → κ) (l : List α) : List α :=
  l.insertionSort fun a b ↦ key a ≤ key b

variable {key : α → κ} {l : List α}

theorem perm_orderBy (key : α → κ) (l : List α) : (l.orderBy key).Perm l :=
  perm_insertionSort _ l

theorem mem_orderBy {a : α} : a ∈ l.orderBy key ↔ a ∈ l :=
  mem_insertionSort _

theorem pairwise_orderBy (key : α → κ) (l : List α) :
    (l.orderBy key).Pairwise fun a b ↦ key a ≤ key b := by
  have : Std.Total fun a b ↦ key a ≤ key b := ⟨fun a b ↦ le_total (key a) (key b)⟩
  have : IsTrans α fun a b ↦ key a ≤ key b := ⟨fun _ _ _ ↦ le_trans⟩
  exact pairwise_insertionSort _ l

/-- Ordering the rows orders what is read off them, if the key can be. -/
theorem map_orderBy {β : Type*} {key' : β → κ} {f : α → β} (h : ∀ a, key' (f a) = key a)
    (l : List α) : (l.orderBy key).map f = (l.map f).orderBy key' :=
  map_insertionSort _ _ _ _ fun a _ b _ ↦ by rw [h, h]

/-- What is in order stays as it is. -/
theorem orderBy_eq_self (h : l.Pairwise fun a b ↦ key a ≤ key b) : l.orderBy key = l :=
  h.insertionSort_eq

theorem orderBy_eq_self_of_lt (h : l.Pairwise fun a b ↦ key a < key b) : l.orderBy key = l :=
  orderBy_eq_self (h.imp le_of_lt)

/-- Rows of different keys are in strict order. -/
theorem pairwise_lt_orderBy (h : l.Pairwise fun a b ↦ key a ≠ key b) :
    (l.orderBy key).Pairwise fun a b ↦ key a < key b := by
  have hne : (l.orderBy key).Pairwise fun a b ↦ key a ≠ key b :=
    (perm_orderBy key l).symm.pairwise h fun hab ↦ hab.symm
  exact (pairwise_orderBy key l).and hne |>.imp fun hab ↦ lt_of_le_of_ne hab.1 hab.2

end List
