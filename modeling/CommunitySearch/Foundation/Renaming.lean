import Mathlib.Logic.Function.Basic

/-!
# Renaming items that may not share a name

Items have names, and `rival i j` says that `i` and `j` may not have the same one. A **pass** takes
items one after another and gives each the canonical form of its name, unless a rival has that name
already: then the item keeps the name it has. Not every name has a canonical form.

Everything below rests on one hypothesis, `Final`: a canonical form is its own canonical form.
Whoever holds such a name never gives it up, so that an item that could not get its canonical form
never can, and a second pass does nothing (`Pass.eq_of_settled`). And whatever the order of the
items, the canonical form of every name is held in the end, by the item or by a rival
(`Pass.exists_holder`).
-/

namespace Renaming

variable {ι ν : Type*} (canon : ν → Option ν) (rival : ι → ι → Prop)

/-- A rival of the item has the name. -/
def Taken (name : ι → ν) (i : ι) (c : ν) : Prop := ∃ j, rival i j ∧ name j = c

/-- The item has its canonical form, or a rival has it. -/
def Settled (name : ι → ν) (i : ι) : Prop :=
  ∀ c, canon (name i) = some c → c = name i ∨ Taken rival name i c

/-- Canonical forms are their own canonical forms. -/
def Final : Prop := ∀ n c d, canon n = some c → canon c = some d → d = c

variable [DecidableEq ι]

/-- What becomes of the names when the item `i` is visited. -/
inductive Visit (name : ι → ν) (i : ι) : (ι → ν) → Prop
  | kept (h : Settled canon rival name i) : Visit name i name
  | renamed {c : ν} (hc : canon (name i) = some c) (hne : c ≠ name i)
      (hfree : ¬ Taken rival name i c) : Visit name i (Function.update name i c)

/-- What becomes of the names in a pass. -/
inductive Pass : (ι → ν) → List ι → (ι → ν) → Prop
  | nil {name : ι → ν} : Pass name [] name
  | cons {name name₁ name₂ : ι → ν} {i : ι} {l : List ι} (h : Visit canon rival name i name₁)
      (hrest : Pass name₁ l name₂) : Pass name (i :: l) name₂

variable {canon rival} {name name' : ι → ν} {i j : ι} {l : List ι} {c : ν}

/-! ### A visit -/

/-- A visit leaves the names of the other items. -/
theorem Visit.frame (h : Visit canon rival name i name') (hj : j ≠ i) : name' j = name j := by
  cases h with
  | kept => rfl
  | renamed => exact Function.update_of_ne hj _ _

/-- A canonical form is not given up. -/
theorem Visit.keeps (h : Visit canon rival name i name') (hc : ∀ d, canon c = some d → d = c)
    (hj : name j = c) : name' j = c := by
  cases h with
  | kept => exact hj
  | renamed hd hne hfree =>
    have hji : j ≠ i := by
      rintro rfl
      exact hne ((hc _ (hj ▸ hd)).trans hj.symm)
    rw [Function.update_of_ne hji, hj]

/-- An item that is settled is not renamed. -/
theorem Visit.eq_of_settled (h : Visit canon rival name i name')
    (hi : Settled canon rival name i) : name' = name := by
  cases h with
  | kept => rfl
  | renamed hc hne hfree =>
    rcases hi _ hc with hsame | htaken
    · exact absurd hsame hne
    · exact absurd htaken hfree

/-- **The item that is visited is settled.** -/
theorem Visit.settled_self (hfinal : Final canon) (h : Visit canon rival name i name') :
    Settled canon rival name' i := by
  cases h with
  | kept hi => exact hi
  | renamed hc =>
    intro d hd
    rw [Function.update_self] at hd ⊢
    exact Or.inl (hfinal _ _ _ hc hd)

/-- **An item that is settled stays so.** -/
theorem Visit.settled (hfinal : Final canon) (h : Visit canon rival name i name')
    (hj : Settled canon rival name j) : Settled canon rival name' j := by
  by_cases hji : j = i
  · subst hji
    exact h.eq_of_settled hj ▸ hj
  · intro c hc
    rw [h.frame hji] at hc ⊢
    rcases hj c hc with hsame | ⟨k, hk, hname⟩
    · exact Or.inl hsame
    · exact Or.inr ⟨k, hk, h.keeps (hfinal _ _ · hc) hname⟩

/-! ### A pass -/

theorem Pass.keeps (h : Pass canon rival name l name') (hc : ∀ d, canon c = some d → d = c)
    (hj : name j = c) : name' j = c := by
  induction h with
  | nil => exact hj
  | cons hvisit _ ih => exact ih (hvisit.keeps hc hj)

theorem Pass.settled (hfinal : Final canon) (h : Pass canon rival name l name')
    (hj : Settled canon rival name j) : Settled canon rival name' j := by
  induction h with
  | nil => exact hj
  | cons hvisit _ ih => exact ih (hvisit.settled hfinal hj)

/-- **A pass settles every item it takes.** -/
theorem Pass.settled_of_mem (hfinal : Final canon) (h : Pass canon rival name l name')
    (hj : j ∈ l) : Settled canon rival name' j := by
  induction h with
  | nil => exact absurd hj List.not_mem_nil
  | cons hvisit hrest ih =>
    rcases List.mem_cons.1 hj with rfl | hmem
    · exact hrest.settled hfinal (hvisit.settled_self hfinal)
    · exact ih hmem

/-- **A pass over settled items changes nothing.** -/
theorem Pass.eq_of_settled (h : Pass canon rival name l name')
    (hl : ∀ i ∈ l, Settled canon rival name i) : name' = name := by
  induction h with
  | nil => rfl
  | cons hvisit _ ih =>
    obtain ⟨hi, hl⟩ := List.forall_mem_cons.1 hl
    obtain rfl := hvisit.eq_of_settled hi
    exact ih hl

/-- **The canonical form of every name is held in the end**, by the item or by a rival. -/
theorem Pass.exists_holder (hfinal : Final canon) (h : Pass canon rival name l name')
    (hi : i ∈ l) (hc : canon (name i) = some c) : ∃ j, (j = i ∨ rival i j) ∧ name' j = c := by
  induction h with
  | nil => exact absurd hi List.not_mem_nil
  | @cons name name₁ name₂ k l hvisit hrest ih =>
    by_cases hki : i = k
    · subst hki
      have hholder : ∃ j, (j = i ∨ rival i j) ∧ name₁ j = c := by
        cases hvisit with
        | kept hsettled =>
          rcases hsettled c hc with hsame | ⟨j, hj, hname⟩
          · exact ⟨i, Or.inl rfl, hsame.symm⟩
          · exact ⟨j, Or.inr hj, hname⟩
        | renamed hd =>
          obtain rfl := Option.some.inj (hc.symm.trans hd)
          exact ⟨i, Or.inl rfl, Function.update_self ..⟩
      obtain ⟨j, hj, hname⟩ := hholder
      exact ⟨j, hj, hrest.keeps (hfinal _ _ · hc) hname⟩
    · exact ih ((List.mem_cons.1 hi).resolve_left hki) ((hvisit.frame hki).symm ▸ hc)

end Renaming
