import Mathlib.Data.List.Basic

/-!
# Interaction programs

A program over a **signature** of operations either returns or performs one operation and
continues with the response. Nothing is said here about what the operations do: a **handler
relation** `H s o r s'` says that in the world `s` the operation `o` may be answered by `r`,
leaving `s'`. Since every `await` of the modelled code is one operation, a program is also its
own small-step semantics — the residual program is the state of a suspended task — and the same
definition serves sequential and interleaved runs.

`wp` is the one notion of pre- and postcondition: under every answer the handler allows, each
operation performed satisfies `P` in the world it is performed in, and the result satisfies `Q`.
Its rules are `wp_ret`, `wp_op`, `wp_bind` and `wp_mono`; `wp_op_step` is the step lemma by
which a suspended task keeps its obligations.

`interp` replaces operations by programs over a lower signature, so that one program can be read
at two levels.

`history G` is the handler that only records: the world is the list of events so far, and `G`
restricts the answers.
-/

/-- Operations, and the type of each operation's response. -/
structure Signature where
  /-- The operations. -/
  Op : Type
  /-- The response to an operation. -/
  Resp : Op → Type

/-- An operation together with the response it received. -/
abbrev Signature.Event (E : Signature) := (o : E.Op) × E.Resp o

/-- A program performing operations of `E` and returning an `α`. -/
inductive Prog (E : Signature) (α : Type) where
  /-- Return a value. -/
  | ret (a : α) : Prog E α
  /-- Perform an operation and continue with its response. -/
  | op (o : E.Op) (k : E.Resp o → Prog E α) : Prog E α

namespace Prog

variable {E : Signature} {α β : Type}

/-- Run `p`, then continue with its result. -/
def bind : Prog E α → (α → Prog E β) → Prog E β
  | ret a, f => f a
  | op o k, f => op o fun r ↦ (k r).bind f

/-- Perform one operation and return its response. -/
def perform (o : E.Op) : Prog E (E.Resp o) := op o ret

instance : Monad (Prog E) where
  pure := ret
  bind := bind

@[simp] theorem op_bind (o : E.Op) (k : E.Resp o → Prog E α) (f : α → Prog E β) :
    (op o k).bind f = op o fun r ↦ (k r).bind f := rfl

/-- Continue with the value of a program that may fail, and pass its error on: the `?` operator. -/
def attempt {ε : Type} (p : Prog E (Except ε α)) (f : α → Prog E (Except ε β)) :
    Prog E (Except ε β) :=
  p.bind fun
    | .ok a => f a
    | .error err => ret (.error err)

/-! ### Pre- and postconditions -/

section Wp

variable {σ : Type} (H : σ → (o : E.Op) → E.Resp o → σ → Prop) (P : σ → E.Op → Prop)

/-- The weakest precondition: from the world `s`, whatever the handler answers, every operation
performed satisfies `P` and the result satisfies `Q`. -/
def wp (Q : α → σ → Prop) : Prog E α → σ → Prop
  | ret a, s => Q a s
  | op o k, s => P s o ∧ ∀ r s', H s o r s' → wp Q (k r) s'

variable {H P}

@[simp] theorem wp_ret {Q : α → σ → Prop} {a : α} {s : σ} : wp H P Q (ret a) s ↔ Q a s :=
  Iff.rfl

theorem wp_op {Q : α → σ → Prop} {o : E.Op} {k : E.Resp o → Prog E α} {s : σ} :
    wp H P Q (op o k) s ↔ P s o ∧ ∀ r s', H s o r s' → wp H P Q (k r) s' :=
  Iff.rfl

/-- **The consequence rule**, in the result, in the operations and in the answers. -/
theorem wp_mono' {H' : σ → (o : E.Op) → E.Resp o → σ → Prop} {P' : σ → E.Op → Prop}
    {Q Q' : α → σ → Prop} (hH : ∀ s o r s', H' s o r s' → H s o r s')
    (hP : ∀ s o, P s o → P' s o) (hQ : ∀ a s, Q a s → Q' a s) {p : Prog E α} {s : σ}
    (h : wp H P Q p s) : wp H' P' Q' p s := by
  induction p generalizing s with
  | ret a => exact hQ a s h
  | op o k ih => exact ⟨hP s o h.1, fun r s' hr ↦ ih r (h.2 r s' (hH s o r s' hr))⟩

theorem wp_mono {Q Q' : α → σ → Prop} (hQ : ∀ a s, Q a s → Q' a s) {p : Prog E α} {s : σ}
    (h : wp H P Q p s) : wp H P Q' p s :=
  wp_mono' (fun _ _ _ _ hr ↦ hr) (fun _ _ hp ↦ hp) hQ h

/-- **The conjunction rule.** -/
theorem wp_and {P' : σ → E.Op → Prop} {Q Q' : α → σ → Prop} {p : Prog E α} {s : σ}
    (h : wp H P Q p s) (h' : wp H P' Q' p s) :
    wp H (fun s o ↦ P s o ∧ P' s o) (fun a s ↦ Q a s ∧ Q' a s) p s := by
  induction p generalizing s with
  | ret a => exact ⟨h, h'⟩
  | op o k ih => exact ⟨⟨h.1, h'.1⟩, fun r s' hr ↦ ih r (h.2 r s' hr) (h'.2 r s' hr)⟩

/-- What holds of a part of the world holds where the rest comes with it. -/
theorem wp_comap {τ : Type} {H' : τ → (o : E.Op) → E.Resp o → τ → Prop} (f : τ → σ)
    (hH : ∀ t o r t', H' t o r t' → H (f t) o r (f t')) {Q : α → σ → Prop} {p : Prog E α} {t : τ}
    (h : wp H P Q p (f t)) : wp H' (fun t o ↦ P (f t) o) (fun a t ↦ Q a (f t)) p t := by
  induction p generalizing t with
  | ret a => exact h
  | op o k ih => exact ⟨h.1, fun r t' hr ↦ ih r (h.2 r (f t') (hH t o r t' hr))⟩

/-- **The sequencing rule.** -/
theorem wp_bind {Q : β → σ → Prop} {p : Prog E α} {f : α → Prog E β} {s : σ} :
    wp H P Q (p.bind f) s ↔ wp H P (fun a s' ↦ wp H P Q (f a) s') p s := by
  induction p generalizing s with
  | ret a => exact Iff.rfl
  | op o k ih =>
    rw [op_bind, wp_op, wp_op]
    exact and_congr_right fun _ ↦ forall_congr' fun r ↦ forall_congr' fun s' ↦
      imp_congr_right fun _ ↦ ih r

/-- The sequencing rule for `?`. -/
theorem wp_attempt {ε : Type} {Q : Except ε β → σ → Prop} {p : Prog E (Except ε α)}
    {f : α → Prog E (Except ε β)} {s : σ} :
    wp H P Q (p.attempt f) s ↔ wp H P (fun r s' ↦ match r with
      | .ok a => wp H P Q (f a) s'
      | .error err => Q (.error err) s') p s := by
  rw [attempt, wp_bind]
  constructor
  · exact wp_mono fun r s' h ↦ by cases r <;> exact h
  · exact wp_mono fun r s' h ↦ by cases r <;> exact h

/-- **The step lemma of a suspended task**: an answer the handler allows leaves a residual program
that still meets the postcondition. -/
theorem wp_op_step {Q : α → σ → Prop} {o : E.Op} {k : E.Resp o → Prog E α} {s s' : σ}
    {r : E.Resp o} (h : wp H P Q (op o k) s) (hr : H s o r s') : wp H P Q (k r) s' :=
  h.2 r s' hr

end Wp

/-! ### The results a program can return -/

/-- Whatever answers allowed by `A` the program gets, its result satisfies `Q`. -/
def Returns (A : (o : E.Op) → E.Resp o → Prop) (Q : α → Prop) (p : Prog E α) : Prop :=
  wp (fun (_ : Unit) o r _ ↦ A o r) (fun _ _ ↦ True) (fun a _ ↦ Q a) p ()

section Returns

variable {A : (o : E.Op) → E.Resp o → Prop}

theorem returns_op {Q : α → Prop} {o : E.Op} {k : E.Resp o → Prog E α} :
    Returns A Q (op o k) ↔ ∀ r, A o r → Returns A Q (k r) :=
  ⟨fun h r hr ↦ h.2 r () hr, fun h ↦ ⟨trivial, fun r _ hr ↦ h r hr⟩⟩

theorem returns_bind {Q : β → Prop} {p : Prog E α} {f : α → Prog E β} :
    Returns A Q (p.bind f) ↔ Returns A (fun a ↦ Returns A Q (f a)) p :=
  wp_bind

theorem returns_attempt {ε : Type} {Q : Except ε β → Prop} {p : Prog E (Except ε α)}
    {f : α → Prog E (Except ε β)} :
    Returns A Q (p.attempt f) ↔ Returns A (fun r ↦ match r with
      | .ok a => Returns A Q (f a)
      | .error err => Q (.error err)) p :=
  wp_attempt

theorem Returns.mono {Q Q' : α → Prop} {p : Prog E α} (h : Returns A Q p)
    (hQ : ∀ a, Q a → Q' a) : Returns A Q' p :=
  wp_mono (fun a _ ↦ hQ a) h

theorem returns_of_forall {Q : α → Prop} (p : Prog E α) (hQ : ∀ a, Q a) : Returns A Q p := by
  induction p with
  | ret a => exact hQ a
  | op o k ih => exact returns_op.2 fun r _ ↦ ih r

end Returns

/-- **A handler that answers every operation has a run**: what every run returns, some run does. -/
theorem exists_of_wp {σ : Type} {H : σ → (o : E.Op) → E.Resp o → σ → Prop} {P : σ → E.Op → Prop}
    (hH : ∀ s o, ∃ r s', H s o r s') {Q : α → σ → Prop} {p : Prog E α} {s : σ}
    (h : wp H P Q p s) : ∃ a s', Q a s' := by
  induction p generalizing s with
  | ret a => exact ⟨a, s, h⟩
  | op o k ih =>
    obtain ⟨r, s', hr⟩ := hH s o
    exact ih r (h.2 r s' hr)

/-! ### Operations as programs -/

theorem bind_assoc {γ : Type} (p : Prog E α) (f : α → Prog E β) (g : β → Prog E γ) :
    (p.bind f).bind g = p.bind fun a ↦ (f a).bind g := by
  induction p with
  | ret a => rfl
  | op o k ih => exact congrArg (op o) (funext ih)

theorem attempt_attempt {ε γ : Type} (p : Prog E (Except ε α)) (f : α → Prog E (Except ε β))
    (g : β → Prog E (Except ε γ)) :
    (p.attempt f).attempt g = p.attempt fun a ↦ (f a).attempt g := by
  rw [attempt, attempt, bind_assoc]
  refine congrArg p.bind (funext fun r ↦ ?_)
  cases r with
  | ok a => rfl
  | error err => rfl

/-- Perform every operation by a program over another signature. -/
def interp {F : Signature} (g : (o : E.Op) → Prog F (E.Resp o)) : Prog E α → Prog F α
  | ret a => ret a
  | op o k => (g o).bind fun r ↦ interp g (k r)

theorem interp_bind {F : Signature} {g : (o : E.Op) → Prog F (E.Resp o)} (p : Prog E α)
    (f : α → Prog E β) : interp g (p.bind f) = (interp g p).bind fun a ↦ interp g (f a) := by
  induction p with
  | ret a => rfl
  | op o k ih =>
    rw [op_bind, interp, interp, bind_assoc]
    exact congrArg (bind (g o)) (funext ih)

/-! ### Programs whose result is determined -/

/-- The result of a program under the answers `h`. -/
def eval (h : (o : E.Op) → E.Resp o) : Prog E α → α
  | ret a => a
  | op o k => eval h (k (h o))

theorem eval_bind {h : (o : E.Op) → E.Resp o} {p : Prog E α} {f : α → Prog E β} :
    eval h (p.bind f) = eval h (f (eval h p)) := by
  induction p with
  | ret a => rfl
  | op o k ih => exact ih (h o)

/-- Whatever the handler answers, the result is the one under `h`. -/
def Computes {σ : Type} (H : σ → (o : E.Op) → E.Resp o → σ → Prop) (P : σ → E.Op → Prop)
    (h : (o : E.Op) → E.Resp o) (p : Prog E α) : Prop :=
  ∀ s, wp H P (fun a _ ↦ a = eval h p) p s

section Computes

variable {σ : Type} {H : σ → (o : E.Op) → E.Resp o → σ → Prop} {P : σ → E.Op → Prop}
  {h : (o : E.Op) → E.Resp o}

theorem computes_ret (a : α) : Computes H P h (ret a) := fun _ ↦ rfl

theorem computes_op {o : E.Op} {k : E.Resp o → Prog E α} (hP : ∀ s, P s o)
    (hH : ∀ s r s', H s o r s' → r = h o) (hk : Computes H P h (k (h o))) :
    Computes H P h (op o k) := fun s ↦
  ⟨hP s, fun r s' hr ↦ by
    obtain rfl := hH s r s' hr
    exact hk s'⟩

/-- Determined programs compose. -/
theorem Computes.bind {p : Prog E α} {f : α → Prog E β} (hp : Computes H P h p)
    (hf : Computes H P h (f (eval h p))) : Computes H P h (p.bind f) := fun s ↦
  wp_bind.2 (wp_mono (fun a s' ha ↦ by
    subst ha
    rw [eval_bind]
    exact hf s') (hp s))

end Computes

/-- Run a program under a handler that determines each answer from the world; `none` when it does
not handle an operation. -/
def run {σ : Type} (h : σ → (o : E.Op) → Option (E.Resp o × σ)) : Prog E α → σ → Option (α × σ)
  | ret a, s => some (a, s)
  | op o k, s => (h s o).bind fun r ↦ run h (k r.1) r.2

/-- **A sequence runs in sequence.** -/
theorem run_bind {σ : Type} {h : σ → (o : E.Op) → Option (E.Resp o × σ)} (p : Prog E α)
    (f : α → Prog E β) (s : σ) :
    run h (p.bind f) s = (run h p s).bind fun r ↦ run h (f r.1) r.2 := by
  induction p generalizing s with
  | ret a => rfl
  | op o k ih =>
    rw [op_bind, run, run, Option.bind_assoc]
    exact congrArg (Option.bind (h s o)) (funext fun r ↦ ih r.1 r.2)

/-! ### What a program does with given answers -/

/-- `p` performs the operations of the events, in order, and with their answers returns `a`. -/
def Yields (a : α) : Prog E α → List E.Event → Prop
  | ret b, events => events = [] ∧ b = a
  | op o k, events => ∃ r rest, events = ⟨o, r⟩ :: rest ∧ Yields a (k r) rest

theorem Yields.op {a : α} {o : E.Op} {k : E.Resp o → Prog E α} {r : E.Resp o}
    {events : List E.Event} (h : Yields a (k r) events) :
    Yields a (op o k) (⟨o, r⟩ :: events) := ⟨r, events, rfl, h⟩

/-- **A sequence splits its events.** -/
theorem yields_bind {b : β} {p : Prog E α} {f : α → Prog E β} {events : List E.Event} :
    Yields b (p.bind f) events ↔
      ∃ a first rest, events = first ++ rest ∧ Yields a p first ∧ Yields b (f a) rest := by
  induction p generalizing events with
  | ret a =>
    constructor
    · exact fun h ↦ ⟨a, [], events, rfl, ⟨rfl, rfl⟩, h⟩
    · rintro ⟨_, _, rest, rfl, ⟨rfl, rfl⟩, h⟩
      exact h
  | op o k ih =>
    constructor
    · rintro ⟨r, rest, rfl, h⟩
      obtain ⟨a, first, rest, rfl, hfirst, hrest⟩ := (ih r).1 h
      exact ⟨a, ⟨o, r⟩ :: first, rest, rfl, hfirst.op, hrest⟩
    · rintro ⟨a, _, rest, rfl, ⟨r, first, rfl, hfirst⟩, hrest⟩
      exact ((ih r).2 ⟨a, first, rest, rfl, hfirst, hrest⟩).op

/-! ### The operations a program can perform -/

/-- Every operation the program performs satisfies `S`, whatever the answers. -/
def Performs (S : E.Op → Prop) : Prog E α → Prop
  | ret _ => True
  | op o k => S o ∧ ∀ r, Performs S (k r)

section Performs

variable {S : E.Op → Prop}

theorem Performs.bind {p : Prog E α} {f : α → Prog E β} (hp : Performs S p)
    (hf : ∀ a, Performs S (f a)) : Performs S (p.bind f) := by
  induction p with
  | ret a => exact hf a
  | op o k ih => exact ⟨hp.1, fun r ↦ ih r (hp.2 r)⟩

theorem Performs.attempt {ε : Type} {p : Prog E (Except ε α)} {f : α → Prog E (Except ε β)}
    (hp : Performs S p) (hf : ∀ a, Performs S (f a)) : Performs S (p.attempt f) :=
  hp.bind fun r ↦ by
    cases r with
    | ok a => exact hf a
    | error err => trivial

theorem Performs.mono {S' : E.Op → Prop} {p : Prog E α} (hp : Performs S p)
    (hS : ∀ o, S o → S' o) : Performs S' p := by
  induction p with
  | ret a => trivial
  | op o k ih => exact ⟨hS o hp.1, fun r ↦ ih r (hp.2 r)⟩

/-- A program whose operations satisfy `P` in every world meets the trivial postcondition; `I` is
what these operations keep. -/
theorem Performs.wp {σ : Type} {H : σ → (o : E.Op) → E.Resp o → σ → Prop} {P : σ → E.Op → Prop}
    {I : σ → Prop} {p : Prog E α} {s : σ} (hp : Performs S p) (hP : ∀ s o, I s → S o → P s o)
    (hI : ∀ s o r s', I s → S o → H s o r s' → I s') (hs : I s) :
    Prog.wp H P (fun _ s' ↦ I s') p s := by
  induction p generalizing s with
  | ret a => exact hs
  | op o k ih =>
    exact ⟨hP s o hs hp.1, fun r s' hr ↦ ih r (hp.2 r) (hI s o r s' hs hp.1 hr)⟩

end Performs

/-! ### The recording handler -/

/-- The world is the list of events so far; `G` says which answers may come after them. -/
def history (G : List E.Event → E.Event → Prop) :
    List E.Event → (o : E.Op) → E.Resp o → List E.Event → Prop :=
  fun h o r h' ↦ G h ⟨o, r⟩ ∧ h' = h ++ [⟨o, r⟩]

theorem wp_history_op {G : List E.Event → E.Event → Prop} {P : List E.Event → E.Op → Prop}
    {Q : α → List E.Event → Prop} {o : E.Op} {k : E.Resp o → Prog E α} {h : List E.Event} :
    wp (history G) P Q (op o k) h ↔
      P h o ∧ ∀ r, G h ⟨o, r⟩ → wp (history G) P Q (k r) (h ++ [⟨o, r⟩]) := by
  rw [wp_op]
  refine and_congr_right fun _ ↦ forall_congr' fun r ↦ ?_
  exact ⟨fun hr hG ↦ hr _ ⟨hG, rfl⟩, fun hr s' ⟨hG, hs'⟩ ↦ hs' ▸ hr hG⟩

/-- A world that is read off the events, event by event. -/
theorem wp_history_of_foldl {σ : Type} {f : σ → E.Event → σ} {P : σ → E.Op → Prop}
    {Q : α → σ → Prop} {G : List E.Event → E.Event → Prop} {p : Prog E α} {s₀ : σ}
    {h : List E.Event} (hp : wp (fun s o r s' ↦ s' = f s ⟨o, r⟩) P Q p (h.foldl f s₀)) :
    wp (history G) (fun h o ↦ P (h.foldl f s₀) o) (fun a h ↦ Q a (h.foldl f s₀)) p h := by
  induction p generalizing h with
  | ret a => exact hp
  | op o k ih =>
    refine wp_history_op.2 ⟨hp.1, fun r _ ↦ ih r ?_⟩
    rw [List.foldl_append]
    exact hp.2 r _ rfl

end Prog
