import Mathlib.Data.List.Basic

/-!
# Machines that answer

A **transducer** takes every label in every state and answers it. Two transducers over the same
labels and answers are compared by a relation of their states that a step keeps and under which the
answers agree (`Simulation`): from related states every list of labels is answered alike, and ends
in related states (`Simulation.run`).
-/

/-- A machine that takes every label and answers it. -/
structure Transducer (S L O : Type*) where
  /-- One step: the state after it, and the answer. -/
  step : S → L → S × O

namespace Transducer

variable {S S' L O : Type*}

section Runs

variable (T : Transducer S L O)

/-- The state after a list of labels. -/
def final (s : S) (ls : List L) : S :=
  ls.foldl (fun s l ↦ (T.step s l).1) s

/-- The answers to a list of labels, in order. -/
def answers : S → List L → List O
  | _, [] => []
  | s, l :: ls => (T.step s l).2 :: answers (T.step s l).1 ls

theorem final_concat (s : S) (ls : List L) (l : L) :
    T.final s (ls ++ [l]) = (T.step (T.final s ls) l).1 := by
  rw [final, List.foldl_append]
  rfl

end Runs

variable {T : Transducer S L O} {T' : Transducer S' L O} {R : S → S' → Prop}

/-- Related states take every label to related states, and answer it alike. -/
structure Simulation (T : Transducer S L O) (T' : Transducer S' L O) (R : S → S' → Prop) :
    Prop where
  next : ∀ {s s'} (l : L), R s s' → R (T.step s l).1 (T'.step s' l).1
  answer : ∀ {s s'} (l : L), R s s' → (T.step s l).2 = (T'.step s' l).2

/-- **A simulation carries over to runs.** -/
theorem Simulation.run (h : Simulation T T' R) {s : S} {s' : S'} (hs : R s s') (ls : List L) :
    R (T.final s ls) (T'.final s' ls) ∧ T.answers s ls = T'.answers s' ls := by
  induction ls generalizing s s' with
  | nil => exact ⟨hs, rfl⟩
  | cons l ls ih =>
    obtain ⟨hfinal, hanswers⟩ := ih (h.next l hs)
    refine ⟨hfinal, ?_⟩
    rw [answers, answers, h.answer l hs, hanswers]

end Transducer
