import Mathlib.Data.List.Induction

/-!
# Streaks

A counter goes over a list: some items clear it, some it counts, and the others leave it alone
(`streak`). Reaching `n` then says that `n` items were counted since the counter was last cleared.
It is often read as saying that the last `n` items were all counted (`LastAll`). While the counter
runs to `n` for the first time, `lastAll_iff` says when that reading is right: none of the items
left alone stood between those counted (`Interrupted`).
-/

namespace Streak

variable {α : Type*} (clears counts : α → Bool)

/-- The counter after one more item. -/
def count (n : ℕ) (a : α) : ℕ := if clears a then 0 else if counts a then n + 1 else n

/-- The counter after a list. -/
def streak (l : List α) : ℕ := l.foldl (count clears counts) 0

/-- The last `n` items were all counted. -/
def LastAll (n : ℕ) (l : List α) : Prop :=
  ∃ before m, l = before ++ m ∧ m.length = n ∧ ∀ a ∈ m, counts a = true

/-- Some part of the list is cleared by nothing, has `n` items that are counted, begins with one of
them, and has another item too. -/
def Interrupted (n : ℕ) (l : List α) : Prop :=
  ∃ before m after, l = before ++ m ++ after ∧ (∀ a ∈ m, clears a = false) ∧
    m.countP counts = n ∧ m.head?.any counts = true ∧ ∃ a ∈ m, counts a = false

/-- The counter has not reached `n` before the end of the list. -/
def Running (n : ℕ) (l : List α) : Prop :=
  ∀ before a after, l = before ++ a :: after → streak clears counts before < n

variable {clears counts}

@[simp] theorem streak_nil : streak clears counts [] = 0 := rfl

theorem streak_append_singleton (l : List α) (a : α) :
    streak clears counts (l ++ [a]) = count clears counts (streak clears counts l) a := by
  rw [streak, List.foldl_append]
  rfl

/-- What is not cleared is counted. -/
theorem streak_append (l : List α) {m : List α} (h : ∀ a ∈ m, clears a = false) :
    streak clears counts (l ++ m) = streak clears counts l + m.countP counts := by
  induction m using List.reverseRecOn with
  | nil => rw [List.append_nil, List.countP_nil, Nat.add_zero]
  | append_singleton m a ih =>
    have ha : clears a = false := h a (List.mem_append_right m (List.mem_singleton_self a))
    rw [← List.append_assoc, streak_append_singleton,
      ih fun b hb ↦ h b (List.mem_append_left _ hb), List.countP_append, List.countP_singleton,
      count, ha, if_neg Bool.false_ne_true]
    split <;> omega

/-- The items since the counter was last cleared. -/
theorem exists_since (l : List α) : ∃ before m, l = before ++ m ∧ (∀ a ∈ m, clears a = false) ∧
    streak clears counts l = m.countP counts := by
  induction l using List.reverseRecOn with
  | nil => exact ⟨[], [], rfl, fun a ha ↦ absurd ha List.not_mem_nil, rfl⟩
  | append_singleton l a ih =>
    obtain ⟨before, m, rfl, hm, hcount⟩ := ih
    rw [streak_append_singleton, count]
    by_cases ha : clears a = true
    · refine ⟨before ++ m ++ [a], [], (List.append_nil _).symm,
        fun b hb ↦ absurd hb List.not_mem_nil, ?_⟩
      rw [if_pos ha]
      rfl
    · refine ⟨before, m ++ [a], List.append_assoc .., fun b hb ↦ ?_, ?_⟩
      · rcases List.mem_append.1 hb with hb | hb
        · exact hm b hb
        · rw [List.mem_singleton.1 hb]
          exact Bool.eq_false_iff.2 ha
      · rw [if_neg ha, hcount, List.countP_append, List.countP_singleton]
        split <;> omega

theorem running_nil (n : ℕ) : Running clears counts n [] := by
  intro before a after h
  simp at h

/-- The counter runs on while it is below `n`. -/
theorem Running.append_singleton {n : ℕ} {l : List α} (h : Running clears counts n l)
    (hlt : streak clears counts l < n) (a : α) : Running clears counts n (l ++ [a]) := by
  intro before b after hl
  rcases List.eq_nil_or_concat after with rfl | ⟨after, c, rfl⟩
  · obtain ⟨rfl, -⟩ := List.append_inj' hl rfl
    exact hlt
  · rw [List.concat_eq_append, ← List.cons_append, ← List.append_assoc] at hl
    exact h before b after (List.append_inj' hl rfl).1

/-- The items since the first one that was counted. -/
theorem exists_counted_suffix {m : List α} (h : 0 < m.countP counts) :
    ∃ skipped rest, m = skipped ++ rest ∧ rest.countP counts = m.countP counts ∧
      rest.head?.any counts = true := by
  induction m with
  | nil => simp at h
  | cons a m ih =>
    by_cases ha : counts a = true
    · exact ⟨[], a :: m, rfl, rfl, ha⟩
    · rw [List.countP_cons_of_neg ha] at h ⊢
      obtain ⟨skipped, rest, rfl, hcount, hhead⟩ := ih h
      exact ⟨a :: skipped, rest, rfl, hcount, hhead⟩

variable {n : ℕ} {l : List α}

/-- The last `n` items are counted only if the counter reaches `n`. -/
theorem LastAll.le_streak (hdisj : ∀ a, counts a = true → clears a = false)
    (h : LastAll counts n l) : n ≤ streak clears counts l := by
  obtain ⟨before, m, rfl, rfl, hm⟩ := h
  have hcount : m.countP counts = m.length := List.countP_eq_length.2 hm
  rw [streak_append before fun a ha ↦ hdisj a (hm a ha)]
  omega

/-- An interrupted streak that has just reached `n` is not the last `n` items. -/
theorem not_lastAll_of_interrupted (hrunning : Running clears counts n l)
    (h : Interrupted clears counts n l) : ¬ LastAll counts n l := by
  obtain ⟨before, m, after, rfl, hm, hcount, hhead, b, hb, hother⟩ := h
  rintro ⟨before', m', hl, hlen, hm'⟩
  -- the streak ends the list
  obtain rfl : after = [] := by
    rcases after with - | ⟨a, after⟩
    · rfl
    · have hlt := hrunning (before ++ m) a after rfl
      rw [streak_append before hm] at hlt
      omega
  rw [List.append_nil] at hl
  -- it is longer than `n`, so that the last `n` items leave its first one out
  have hlt : m.countP counts < m.length := by
    refine Nat.lt_of_le_of_ne List.countP_le_length fun he ↦ ?_
    rw [List.countP_eq_length.1 he b hb] at hother
    exact Bool.noConfusion hother
  obtain ⟨first, rfl, -⟩ : ∃ first, m = first ++ m' ∧ before' = before ++ first := by
    rcases List.append_eq_append_iff.1 hl with ⟨first, hbefore, hm₁⟩ | ⟨rest, -, hm₁⟩
    · exact ⟨first, hm₁, hbefore⟩
    · have hlength := congrArg List.length hm₁
      rw [List.length_append] at hlength
      omega
  have hlast : m'.countP counts = m'.length := List.countP_eq_length.2 hm'
  have hfirst : 0 < first.countP counts := by
    rcases first with - | ⟨a, first⟩
    · rw [List.nil_append] at hlt
      omega
    · rw [List.countP_cons_of_pos (show counts a = true from hhead)]
      omega
  rw [List.countP_append] at hcount
  omega

/-- **When the counter counts the last `n` items.** -/
theorem lastAll_iff (hdisj : ∀ a, counts a = true → clears a = false) (hn : 0 < n)
    (hrunning : Running clears counts n l) (hle : streak clears counts l ≤ n) :
    (streak clears counts l = n ↔ LastAll counts n l) ↔ ¬ Interrupted clears counts n l := by
  have hreach : Interrupted clears counts n l → streak clears counts l = n := by
    rintro ⟨before, m, after, rfl, hm, hcount, -⟩
    rcases after with - | ⟨a, after⟩
    · rw [List.append_nil] at hle ⊢
      rw [streak_append before hm] at hle ⊢
      omega
    · have hlt := hrunning (before ++ m) a after rfl
      rw [streak_append before hm] at hlt
      omega
  constructor
  · intro hlaw hinterrupted
    exact not_lastAll_of_interrupted hrunning hinterrupted (hlaw.1 (hreach hinterrupted))
  · intro hfree
    refine ⟨fun hstreak ↦ ?_, fun hlast ↦ Nat.le_antisymm hle (hlast.le_streak hdisj)⟩
    obtain ⟨before, m, rfl, hm, hcount⟩ : ∃ before m, l = before ++ m ∧
        (∀ a ∈ m, clears a = false) ∧ streak clears counts l = m.countP counts :=
      exists_since l
    have hpos : 0 < m.countP counts := by omega
    obtain ⟨skipped, rest, rfl, hrest, hhead⟩ := exists_counted_suffix hpos
    have hall : ∀ a ∈ rest, counts a = true := fun a ha ↦ by
      by_contra hother
      refine hfree ⟨before ++ skipped, rest, [], ?_, fun b hb ↦ hm b (List.mem_append_right _ hb),
        by omega, hhead, a, ha, Bool.eq_false_iff.2 hother⟩
      rw [List.append_nil, List.append_assoc]
    refine ⟨before ++ skipped, rest, (List.append_assoc ..).symm, ?_, hall⟩
    rw [← List.countP_eq_length.2 hall]
    omega

end Streak
