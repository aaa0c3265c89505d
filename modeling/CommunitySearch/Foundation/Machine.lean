import Mathlib.Data.List.Induction

/-!
# Executable labelled machines

A **machine** is a partial step function on states, driven by labels. The label carries every
choice the environment makes, so a run is a list of labels and the machine itself is a function:
small runs can be evaluated, and properties of all runs are proved by induction on the list.

Run principles are stated once and used by every development above:

* `invariant` — what holds initially and is preserved by each step holds after every run;
* `guarded_invariant` — the same for runs whose every label was **admissible** in the state it was
  taken from (`Guarded`), which is how a property that fails in general is shown to hold of the
  runs that avoid the failing steps;
* `exists_guarded_run` — where no run is infinite, progress towards a goal reaches it;
* `observed_invariant` — the same for a property of the state and of what an observer has read off
  the steps so far (`observe`), such as the outputs of the machine in order;
* `history_invariant` — the same for a property of the state and of all the steps so far;
* `forall_prefix_iff_guarded` and `observed_iff_guarded` — where every other step breaks the
  property, the admissible runs are exactly those that have it all along.
-/

/-- A machine: `step s l` is the state after taking the label `l` in `s`, if `l` is enabled. -/
structure Machine (S L : Type*) where
  /-- One step. -/
  step : S → L → Option S

namespace Machine

variable {S L : Type*} (M : Machine S L)

/-- Take a list of labels in order; `none` when one of them is not enabled. -/
def run : S → List L → Option S
  | s, [] => some s
  | s, l :: ls => (M.step s l).bind fun s' ↦ run s' ls

/-- `s` is reachable from `s₀`. -/
def Reachable (s₀ s : S) : Prop := ∃ ls, M.run s₀ ls = some s

/-- Every label of the run is admissible in the state it is taken from. -/
def Guarded (ok : S → L → Prop) : S → List L → Prop
  | _, [] => True
  | s, l :: ls => ok s l ∧ ∀ s', M.step s l = some s' → Guarded ok s' ls

@[simp] theorem run_nil (s : S) : M.run s [] = some s := rfl

theorem run_cons (s : S) (l : L) (ls : List L) :
    M.run s (l :: ls) = (M.step s l).bind fun s' ↦ M.run s' ls := rfl

theorem run_cons_eq_some {s t : S} {l : L} {ls : List L} :
    M.run s (l :: ls) = some t ↔ ∃ s', M.step s l = some s' ∧ M.run s' ls = some t := by
  rw [run_cons, Option.bind_eq_some_iff]

theorem run_append (s : S) (ls ls' : List L) :
    M.run s (ls ++ ls') = (M.run s ls).bind fun s' ↦ M.run s' ls' := by
  induction ls generalizing s with
  | nil => rfl
  | cons l ls ih =>
    rw [List.cons_append, run_cons, run_cons, Option.bind_assoc]
    exact congrArg _ (funext ih)

variable {M}

theorem Reachable.refl (s : S) : M.Reachable s s := ⟨[], rfl⟩

theorem Reachable.step {s₀ s s' : S} {l : L} (h : M.Reachable s₀ s) (hs : M.step s l = some s') :
    M.Reachable s₀ s' := by
  obtain ⟨ls, hls⟩ := h
  refine ⟨ls ++ [l], ?_⟩
  rw [run_append, hls, Option.bind_some, run_cons, hs]
  rfl

/-- **The guarded run principle.** A property that holds initially and is preserved by every
admissible step holds after every run all of whose steps are admissible. -/
theorem guarded_invariant {ok : S → L → Prop} {I : S → Prop}
    (hstep : ∀ s l s', I s → ok s l → M.step s l = some s' → I s') {s₀ s : S} {ls : List L}
    (h₀ : I s₀) (hok : M.Guarded ok s₀ ls) (hrun : M.run s₀ ls = some s) : I s := by
  induction ls generalizing s₀ with
  | nil => exact Option.some.inj hrun ▸ h₀
  | cons l ls ih =>
    obtain ⟨s', hs', hrest⟩ := M.run_cons_eq_some.1 hrun
    exact ih (hstep s₀ l s' h₀ hok.1 hs') (hok.2 s' hs') hrest

theorem guarded_true (s : S) (ls : List L) : M.Guarded (fun _ _ ↦ True) s ls := by
  induction ls generalizing s with
  | nil => trivial
  | cons l ls ih => exact ⟨trivial, fun s' _ ↦ ih s'⟩

/-- A guard on the labels alone. -/
theorem guarded_of_forall (M : Machine S L) {ok : L → Prop} {s : S} {ls : List L}
    (h : ∀ l ∈ ls, ok l) : M.Guarded (fun _ l ↦ ok l) s ls := by
  induction ls generalizing s with
  | nil => trivial
  | cons l ls ih =>
    obtain ⟨hl, hls⟩ := List.forall_mem_cons.1 h
    exact ⟨hl, fun s' _ ↦ ih hls⟩

/-- **The run principle.** -/
theorem invariant {I : S → Prop} (hstep : ∀ s l s', I s → M.step s l = some s' → I s')
    {s₀ s : S} (h₀ : I s₀) (h : M.Reachable s₀ s) : I s := by
  obtain ⟨ls, hls⟩ := h
  exact guarded_invariant (fun s l s' hI _ hs ↦ hstep s l s' hI hs) h₀ (guarded_true s₀ ls) hls

/-- Admissibility may be weakened. -/
theorem Guarded.mono {ok ok' : S → L → Prop} (h : ∀ s l, ok s l → ok' s l) {s : S} {ls : List L}
    (hok : M.Guarded ok s ls) : M.Guarded ok' s ls := by
  induction ls generalizing s with
  | nil => trivial
  | cons l ls ih => exact ⟨h s l hok.1, fun s' hs' ↦ ih (hok.2 s' hs')⟩

/-- **A guard that follows from another**, where an invariant holds. -/
theorem Guarded.of_invariant {ok ok' : S → L → Prop} {I : S → Prop}
    (hstep : ∀ s l s', I s → ok s l → M.step s l = some s' → I s')
    (hok' : ∀ s l, I s → ok s l → ok' s l) {s : S} {ls : List L} (hs : I s)
    (hok : M.Guarded ok s ls) : M.Guarded ok' s ls := by
  induction ls generalizing s with
  | nil => trivial
  | cons l ls ih =>
    exact ⟨hok' s l hs hok.1, fun s' hs' ↦ ih (hstep s l s' hs hok.1 hs') (hok.2 s' hs')⟩

/-- The rest of a guarded run is guarded. -/
theorem Guarded.right {ok : S → L → Prop} {s t : S} {ls ls' : List L}
    (hok : M.Guarded ok s (ls ++ ls')) (hrun : M.run s ls = some t) : M.Guarded ok t ls' := by
  induction ls generalizing s with
  | nil => exact Option.some.inj hrun ▸ hok
  | cons l ls ih =>
    obtain ⟨s', hs', hrest⟩ := M.run_cons_eq_some.1 hrun
    exact ih (hok.2 s' hs') hrest

/-- The beginning of a guarded run is guarded. -/
theorem Guarded.left {ok : S → L → Prop} {s : S} {ls ls' : List L}
    (hok : M.Guarded ok s (ls ++ ls')) : M.Guarded ok s ls := by
  induction ls generalizing s with
  | nil => trivial
  | cons l ls ih => exact ⟨hok.1, fun s' hs' ↦ ih (hok.2 s' hs')⟩

/-- Guards are checked by running. -/
instance decidableGuarded {ok : S → L → Prop} [∀ s l, Decidable (ok s l)] :
    (s : S) → (ls : List L) → Decidable (M.Guarded ok s ls)
  | _, [] => isTrue trivial
  | s, l :: ls =>
    match h : M.step s l with
    | none => decidable_of_iff (ok s l) ⟨fun hok ↦ ⟨hok, fun _ hs' ↦ nomatch h ▸ hs'⟩, And.left⟩
    | some s' =>
      have : Decidable (M.Guarded ok s' ls) := decidableGuarded s' ls
      decidable_of_iff (ok s l ∧ M.Guarded ok s' ls)
        ⟨fun ⟨hok, hrest⟩ ↦ ⟨hok, fun _ hs'' ↦ Option.some.inj (h.symm.trans hs'') ▸ hrest⟩,
          fun hok ↦ ⟨hok.1, hok.2 s' h⟩⟩

/-- A run whose final state passes a check exists as soon as it can be evaluated. -/
theorem exists_run_of_any {p : S → Bool} {s : S} {ls : List L}
    (h : (M.run s ls).any p = true) : ∃ t, M.run s ls = some t ∧ p t = true := by
  rcases hrun : M.run s ls with - | t
  · rw [hrun] at h
    cases h
  · rw [hrun] at h
    exact ⟨t, rfl, h⟩

/-- Two guards may be checked separately. -/
theorem Guarded.and {ok ok' : S → L → Prop} {s : S} {ls : List L} (h : M.Guarded ok s ls)
    (h' : M.Guarded ok' s ls) : M.Guarded (fun s l ↦ ok s l ∧ ok' s l) s ls := by
  induction ls generalizing s with
  | nil => trivial
  | cons l ls ih => exact ⟨⟨h.1, h'.1⟩, fun s' hs' ↦ ih (h.2 s' hs') (h'.2 s' hs')⟩

/-- **The exact guard.** In a run whose steps all meet `B`: if an admissible step keeps the
invariant and any other step breaks the property, the run has the property all along exactly when
its steps are admissible. -/
theorem forall_prefix_iff_guarded {B ok : S → L → Prop} {I P : S → Prop}
    (hIP : ∀ s, I s → P s)
    (hok : ∀ s l s', I s → B s l → ok s l → M.step s l = some s' → I s')
    (hbad : ∀ s l s', I s → B s l → ¬ ok s l → M.step s l = some s' → ¬ P s') {s₀ s : S}
    {ls : List L} (h₀ : I s₀) (hbase : M.Guarded B s₀ ls) (hrun : M.run s₀ ls = some s) :
    (∀ l₁ l₂ t, ls = l₁ ++ l₂ → M.run s₀ l₁ = some t → P t) ↔ M.Guarded ok s₀ ls := by
  constructor
  · intro h
    induction ls generalizing s₀ with
    | nil => trivial
    | cons l ls ih =>
      obtain ⟨s', hs', hrest⟩ := M.run_cons_eq_some.1 hrun
      have hl : ok s₀ l := by
        by_contra hl
        exact hbad s₀ l s' h₀ hbase.1 hl hs'
          (h [l] ls s' rfl (M.run_cons_eq_some.2 ⟨s', hs', rfl⟩))
      refine ⟨hl, fun s'' hs'' ↦ ?_⟩
      obtain rfl := Option.some.inj (hs'.symm.trans hs'')
      exact ih (hok s₀ l s' h₀ hbase.1 hl hs') (hbase.2 s' hs') hrest fun l₁ l₂ t hls ht ↦
        h (l :: l₁) l₂ t (by rw [hls, List.cons_append]) (M.run_cons_eq_some.2 ⟨s', hs', ht⟩)
  · rintro hguarded l₁ l₂ t rfl ht
    have hguarded₁ := hbase.left.and hguarded.left
    exact hIP t (guarded_invariant (fun s l s' hI hl ↦ hok s l s' hI hl.1 hl.2) h₀ hguarded₁ ht)

/-! ### Runs that end -/

/-- **The progress principle.** When no run is infinite, and some admissible step is enabled
wherever the goal is not met, an admissible run leads to the goal. -/
theorem exists_guarded_run {ok : S → L → Prop} {I goal : S → Prop}
    (hwf : WellFounded fun s' s : S ↦ ∃ l, M.step s l = some s')
    (hnext : ∀ s, I s → ¬ goal s → ∃ l s', ok s l ∧ M.step s l = some s' ∧ I s') {s : S}
    (hs : I s) : ∃ ls t, M.Guarded ok s ls ∧ M.run s ls = some t ∧ I t ∧ goal t := by
  induction s using hwf.induction with
  | _ s ih =>
    by_cases hgoal : goal s
    · exact ⟨[], s, trivial, rfl, hs, hgoal⟩
    · obtain ⟨l, s', hok, hstep, hs'⟩ := hnext s hs hgoal
      obtain ⟨ls, t, hguarded, hrun, ht⟩ := ih s' ⟨l, hstep⟩ hs'
      refine ⟨l :: ls, t, ⟨hok, fun s'' h ↦ ?_⟩, M.run_cons_eq_some.2 ⟨s', hstep, hrun⟩, ht⟩
      obtain rfl := Option.some.inj (hstep.symm.trans h)
      exact hguarded

/-- **The run principle with the history**: `I` may speak of the steps that have been taken. -/
theorem history_invariant {I : S → List L → Prop}
    (hstep : ∀ s h l s', I s h → M.step s l = some s' → I s' (h ++ [l])) {s₀ s : S} {ls : List L}
    (h₀ : I s₀ []) (hrun : M.run s₀ ls = some s) : I s ls := by
  induction ls using List.reverseRecOn generalizing s with
  | nil => exact Option.some.inj hrun ▸ h₀
  | append_singleton ls l ih =>
    rw [M.run_append] at hrun
    obtain ⟨t, ht, hl⟩ := Option.bind_eq_some_iff.1 hrun
    obtain ⟨t', ht', hend⟩ := M.run_cons_eq_some.1 hl
    exact Option.some.inj hend ▸ hstep t ls l t' (ih ht) ht'

/-! ### Observed runs -/

/-- What an observer has read off the steps of a run: `f c s l` is what it holds after the step
`l` in `s`, when it held `c` before. -/
def observe {γ : Type*} (M : Machine S L) (f : γ → S → L → γ) : γ → S → List L → γ
  | c, _, [] => c
  | c, s, l :: ls =>
    match M.step s l with
    | some s' => observe M f (f c s l) s' ls
    | none => c

/-- **The run principle with an observer.** -/
theorem observed_invariant {γ : Type*} {f : γ → S → L → γ} {ok : S → L → Prop} {I : S → γ → Prop}
    (hstep : ∀ s c l s', I s c → ok s l → M.step s l = some s' → I s' (f c s l)) {s₀ s : S} {c : γ}
    {ls : List L} (h₀ : I s₀ c) (hok : M.Guarded ok s₀ ls) (hrun : M.run s₀ ls = some s) :
    I s (M.observe f c s₀ ls) := by
  induction ls generalizing s₀ c with
  | nil => exact Option.some.inj hrun ▸ h₀
  | cons l ls ih =>
    obtain ⟨s', hs', hrest⟩ := M.run_cons_eq_some.1 hrun
    rw [observe, hs']
    exact ih (hstep s₀ c l s' h₀ hok.1 hs') (hok.2 s' hs') hrest

/-- **The exact guard with an observer.** If an admissible step keeps the invariant and any other
step breaks the property, the run has the property all along exactly when its steps are
admissible. -/
theorem observed_iff_guarded {γ : Type*} {f : γ → S → L → γ} {ok : S → L → Prop}
    {I P : S → γ → Prop} (hIP : ∀ s c, I s c → P s c)
    (hok : ∀ s c l s', I s c → ok s l → M.step s l = some s' → I s' (f c s l))
    (hbad : ∀ s c l s', I s c → ¬ ok s l → M.step s l = some s' → ¬ P s' (f c s l)) {s₀ s : S}
    {c : γ} {ls : List L} (h₀ : I s₀ c) (hrun : M.run s₀ ls = some s) :
    (∀ l₁ l₂ t, ls = l₁ ++ l₂ → M.run s₀ l₁ = some t → P t (M.observe f c s₀ l₁)) ↔
      M.Guarded ok s₀ ls := by
  constructor
  · intro h
    induction ls generalizing s₀ c with
    | nil => trivial
    | cons l ls ih =>
      obtain ⟨s', hs', hrest⟩ := M.run_cons_eq_some.1 hrun
      have hcons : ∀ l₁, M.observe f c s₀ (l :: l₁) = M.observe f (f c s₀ l) s' l₁ := fun l₁ ↦ by
        rw [observe, hs']
      have hl : ok s₀ l := by
        by_contra hl
        have hP := h [l] ls s' rfl (M.run_cons_eq_some.2 ⟨s', hs', rfl⟩)
        rw [hcons] at hP
        exact hbad s₀ c l s' h₀ hl hs' hP
      refine ⟨hl, fun s'' hs'' ↦ ?_⟩
      obtain rfl := Option.some.inj (hs'.symm.trans hs'')
      refine ih (hok s₀ c l s' h₀ hl hs') hrest fun l₁ l₂ t hls ht ↦ ?_
      rw [← hcons]
      exact h (l :: l₁) l₂ t (by rw [hls, List.cons_append]) (M.run_cons_eq_some.2 ⟨s', hs', ht⟩)
  · rintro hguarded l₁ l₂ t rfl ht
    exact hIP t _ (observed_invariant hok h₀ hguarded.left ht)

end Machine
