import Mathlib.Data.List.Pairwise

/-!
# Tables with uniqueness constraints

A `Table clash` is a list of rows no two of which clash. The relation `clash` is the disjunction
of a table's `PRIMARY KEY` and `UNIQUE` constraints ("same id, or same name"), and the absence of
clashes is a field, so a table that violates its constraints cannot be built. A statement that
would violate one returns `none`: that is the constraint error, and the caller keeps the old table.

Rows keep their insertion order, which is the order of their rowids.
-/

/-- Rows no two of which clash. -/
structure Table {ρ : Type*} (clash : ρ → ρ → Prop) where
  /-- The rows, oldest first. -/
  rows : List ρ
  /-- The uniqueness constraints hold. -/
  unique : rows.Pairwise fun a b ↦ ¬ clash a b

namespace Table

variable {ρ : Type*} {clash : ρ → ρ → Prop}

instance : Membership ρ (Table clash) := ⟨fun t r ↦ r ∈ t.rows⟩

theorem mem_def {t : Table clash} {r : ρ} : r ∈ t ↔ r ∈ t.rows := Iff.rfl

/-- No rows. -/
def empty : Table clash := ⟨[], List.Pairwise.nil⟩

instance : Inhabited (Table clash) := ⟨empty⟩

@[simp] theorem not_mem_empty (r : ρ) : r ∉ (empty : Table clash) := List.not_mem_nil

@[ext] theorem ext {t t' : Table clash} (h : t.rows = t'.rows) : t = t' := by
  cases t
  cases t'
  congr

/-- Two clashing rows of one table are the same row. -/
theorem eq_of_clash {t : Table clash} (hsymm : ∀ a b, clash a b → clash b a) {a b : ρ}
    (ha : a ∈ t) (hb : b ∈ t) (hab : clash a b) : a = b := by
  by_contra hne
  have : Std.Symm fun a b ↦ ¬ clash a b := ⟨fun a b h h' ↦ h (hsymm b a h')⟩
  exact t.unique.forall ha hb hne hab

/-! ### `INSERT` -/

/-- `INSERT`: append the row, or fail when it clashes with a row of the table. -/
def insert [DecidableRel clash] (t : Table clash) (r : ρ) : Option (Table clash) :=
  if h : ∀ a ∈ t.rows, ¬ clash a r then
    some ⟨t.rows ++ [r], by
      rw [List.pairwise_append]
      exact ⟨t.unique, List.pairwise_singleton _ _, fun a ha b hb ↦ by
        rw [List.mem_singleton.1 hb]
        exact h a ha⟩⟩
  else none

variable {t t' : Table clash} {r : ρ}

section Insert

variable [DecidableRel clash]

theorem rows_of_insert (h : t.insert r = some t') : t'.rows = t.rows ++ [r] := by
  rw [insert] at h
  split at h
  · exact (Option.some.inj h) ▸ rfl
  · cases h

theorem not_clash_of_insert (h : t.insert r = some t') {a : ρ} (ha : a ∈ t) : ¬ clash a r := by
  rw [insert] at h
  split at h
  case isTrue hr => exact hr a ha
  case isFalse => cases h

/-- `INSERT` fails only on a clash. -/
theorem exists_insert (h : ∀ a ∈ t, ¬ clash a r) : ∃ t', t.insert r = some t' := by
  rw [insert]
  exact ⟨_, dif_pos h⟩

theorem exists_clash_of_insert (h : t.insert r = none) : ∃ a ∈ t, clash a r := by
  by_contra hnone
  obtain ⟨t', ht'⟩ := exists_insert fun a ha hclash ↦ hnone ⟨a, ha, hclash⟩
  exact nomatch h.symm.trans ht'

theorem insert_of_clash {a : ρ} (ha : a ∈ t) (hclash : clash a r) : t.insert r = none := by
  rw [insert]
  exact dif_neg fun h ↦ h a ha hclash

theorem mem_of_insert (h : t.insert r = some t') {a : ρ} : a ∈ t' ↔ a ∈ t ∨ a = r := by
  rw [mem_def, rows_of_insert h, List.mem_append, List.mem_singleton]
  rfl

/-- **A frame**: a row is inserted that does not satisfy `p`. -/
theorem filter_insert {p : ρ → Bool} (h : t.insert r = some t') (hr : p r = false) :
    t'.rows.filter p = t.rows.filter p := by
  have hnone : [r].filter p = [] := List.filter_eq_nil_iff.2 fun a ha hp ↦ by
    rw [List.mem_singleton.1 ha, hr] at hp
    cases hp
  rw [rows_of_insert h, List.filter_append, hnone, List.append_nil]

end Insert

/-! ### `DELETE` -/

/-- `DELETE`: drop the rows that satisfy `p`. -/
def deleteWhere (t : Table clash) (p : ρ → Bool) : Table clash :=
  ⟨t.rows.filter fun r ↦ !p r, t.unique.filter _⟩

@[simp] theorem mem_deleteWhere {p : ρ → Bool} {a : ρ} :
    a ∈ t.deleteWhere p ↔ a ∈ t ∧ p a = false := by
  rw [mem_def, deleteWhere, List.mem_filter, Bool.not_eq_true']
  rfl

/-- **Replacing the row of a key**: the key finds the new row, and every other key what it found
before. -/
theorem find?_of_replace [DecidableRel clash] {κ : Type*} [DecidableEq κ] {key : ρ → κ} {k : κ}
    (hr : key r = k) (h : (t.deleteWhere fun a ↦ key a = k).insert r = some t') (k' : κ) :
    t'.rows.find? (fun a ↦ key a = k') =
      if k' = k then some r else t.rows.find? fun a ↦ key a = k' := by
  rw [rows_of_insert h, List.find?_append, List.find?_singleton, deleteWhere, hr]
  by_cases hk : k' = k
  · have hnone : (t.rows.filter fun a ↦ !decide (key a = k)).find? (fun a ↦ key a = k') = none := by
      rw [List.find?_eq_none]
      intro a ha hkey
      obtain ⟨-, hne⟩ := List.mem_filter.1 ha
      rw [← hk, hkey] at hne
      cases hne
    rw [if_pos hk, hnone, Option.none_or, if_pos (decide_eq_true hk.symm)]
  · have hsame : (t.rows.filter fun a ↦ !decide (key a = k)).find? (fun a ↦ key a = k') =
        t.rows.find? fun a ↦ key a = k' := by
      rw [List.find?_filter]
      refine congrArg (List.find? · t.rows) (funext fun a ↦ decide_eq_decide.2 ?_)
      rw [Bool.not_eq_true', decide_eq_false_iff_not, decide_eq_true_iff]
      exact and_iff_right_of_imp fun hkey hne ↦ hk (hkey.symm.trans hne)
    rw [if_neg hk, hsame, if_neg (mt of_decide_eq_true (Ne.symm hk)), Option.or_none]

/-- **A frame**: rows are deleted, but none of those that satisfy `p`. -/
theorem filter_deleteWhere {p q : ρ → Bool} (h : ∀ a ∈ t, p a = true → q a = false) :
    (t.deleteWhere q).rows.filter p = t.rows.filter p := by
  rw [deleteWhere, List.filter_filter]
  refine List.filter_congr fun a ha ↦ ?_
  rcases hp : p a with - | -
  · rfl
  · rw [h a ha hp]
    rfl

/-! ### `UPDATE` -/

/-- `UPDATE` of columns no constraint mentions: it cannot create a clash. -/
def modify (t : Table clash) (f : ρ → ρ) (hf : ∀ a b, clash (f a) (f b) → clash a b) :
    Table clash :=
  ⟨t.rows.map f, List.pairwise_map.2 (t.unique.imp fun h h' ↦ h (hf _ _ h'))⟩

/-- **A frame**: rows are updated, but none of those that satisfy `p`, and no other comes to. -/
theorem filter_map_of_frame {p : ρ → Bool} {f : ρ → ρ} {rows : List ρ}
    (h : ∀ a ∈ rows, p (f a) = p a ∧ (p a = true → f a = a)) :
    (rows.map f).filter p = rows.filter p := by
  have hp : rows.filter (p ∘ f) = rows.filter p := List.filter_congr fun a ha ↦ (h a ha).1
  have hfix : (rows.filter p).map f = (rows.filter p).map id := List.map_congr_left fun a ha ↦
    (h a (List.mem_filter.1 ha).1).2 (List.mem_filter.1 ha).2
  rw [List.filter_map, hp, hfix, List.map_id]

variable [DecidableRel clash]

/-- `UPDATE` of constrained columns: it fails when the result would clash. -/
def update (t : Table clash) (f : ρ → ρ) : Option (Table clash) :=
  if h : (t.rows.map f).Pairwise fun a b ↦ ¬ clash a b then some ⟨t.rows.map f, h⟩ else none

theorem rows_of_update {f : ρ → ρ} (h : t.update f = some t') :
    t'.rows = t.rows.map f := by
  rw [update] at h
  split at h
  · exact (Option.some.inj h) ▸ rfl
  · cases h

/-- `UPDATE` fails only on a clash. -/
theorem update_eq_none_iff {f : ρ → ρ} :
    t.update f = none ↔ ¬ (t.rows.map f).Pairwise fun a b ↦ ¬ clash a b := by
  rw [update, dite_eq_right_iff]
  exact ⟨fun h hf ↦ Option.some_ne_none _ (h hf), fun h hf ↦ absurd hf h⟩

theorem mem_of_update {f : ρ → ρ} (h : t.update f = some t') {a : ρ} :
    a ∈ t' ↔ ∃ b ∈ t, f b = a := by
  rw [mem_def, rows_of_update h, List.mem_map]
  rfl

end Table
