import CommunitySearch.Foundation.Program

/-!
# Programs over a database connection

A connection holds the tables (`σ`, of which nothing is assumed), the tables as they were when the
open transaction began, and the switch of foreign-key enforcement. A program over it is a `Prog`
whose operations are statements, queries and the control of transactions. Constraint errors are
computed by the statements themselves; besides, a statement, a query, the beginning of a
transaction and its commit may fail for a reason of their own at any time (`Error.io`), so what is
shown of `Handles` is shown for failures at every point.

`exec` is what the statements of a program do to the tables when nothing else fails. The point of
the module is that a transaction is nothing more: `wp_transaction` says that it leaves what `exec`
says, or fails and leaves the tables as they were, and `wp_withForeignKeysOff` says the same of a
transaction that runs while enforcement is switched off, and that it is on again afterwards.
-/

namespace Sql

/-- What an operation fails with. -/
inductive Error where
  /-- A constraint would be violated. -/
  | constraint
  /-- A row that is asked for does not exist. -/
  | noRows
  /-- A transaction is begun inside another, or ended without being begun. -/
  | transaction
  /-- Anything else, such as a disk that is full. -/
  | io
deriving DecidableEq

/-- A statement: from the switch of enforcement and the tables, the tables after it and the number
of rows it has changed. `none` is a constraint error. -/
abbrev Statement (σ : Type) := Bool → σ → Option (σ × Nat)

/-- The operations on a connection. -/
inductive Op (σ : Type) where
  | execute (statement : Statement σ)
  | select
  /-- Draw a fresh value from a supply that is kept with the tables. -/
  | draw (f : σ → σ × Nat)
  | begin
  | commit
  | rollback
  /-- `PRAGMA foreign_keys`. -/
  | foreignKeys (on : Bool)

variable {σ α β γ : Type}

/-- The type of an operation's result. -/
@[reducible] def Op.Resp : Op σ → Type
  | execute _ => Except Error Nat
  | select => Except Error σ
  | draw _ => Nat
  | begin | commit | foreignKeys _ => Except Error Unit
  | rollback => Unit

/-- The signature of programs over a connection. -/
@[reducible] def Sig (σ : Type) : Signature := ⟨Op σ, Op.Resp⟩

/-- The state of a connection. -/
structure Connection (σ : Type) where
  tables : σ
  /-- The tables when the open transaction began; `none` when none is open. -/
  saved : Option σ
  foreignKeys : Bool

namespace Connection

/-- No transaction is open, and foreign keys are enforced. -/
def idle (tables : σ) : Connection σ := ⟨tables, none, true⟩

/-- The answer to an operation that does not fail for a reason of its own. -/
def answer (c : Connection σ) : (o : Op σ) → o.Resp × Connection σ
  | .execute statement =>
    match statement c.foreignKeys c.tables with
    | some (t, n) => (.ok n, { c with tables := t })
    | none => (.error .constraint, c)
  | .select => (.ok c.tables, c)
  | .draw f => ((f c.tables).2, { c with tables := (f c.tables).1 })
  | .begin =>
    if c.saved.isSome then (.error .transaction, c)
    else (.ok (), { c with saved := some c.tables })
  | .commit =>
    if c.saved.isSome then (.ok (), { c with saved := none }) else (.error .transaction, c)
  | .rollback => ((), { c with tables := c.saved.getD c.tables, saved := none })
  -- the pragma is a no-op inside a transaction
  | .foreignKeys on => (.ok (), if c.saved.isSome then c else { c with foreignKeys := on })

/-- The failure of an operation for a reason of its own. Rolling back ends the transaction in any
case, and the pragma touches nothing but the connection. -/
def fault : (o : Op σ) → Option o.Resp
  | .execute _ | .select | .begin | .commit => some (.error .io)
  | .draw _ | .rollback | .foreignKeys _ => none

/-- How a connection handles an operation. -/
def Handles (c : Connection σ) (o : Op σ) (r : o.Resp) (c' : Connection σ) : Prop :=
  (r, c') = c.answer o ∨ (fault o = some r ∧ c' = c)

end Connection

/-! ### Programs -/

/-- Execute a statement; its result is the number of rows it has changed. -/
def execute (statement : Statement σ) : Prog (Sig σ) (Except Error Nat) :=
  Prog.perform (E := Sig σ) (.execute statement)

/-- A query. -/
def query (f : σ → α) : Prog (Sig σ) (Except Error α) :=
  .op .select fun t ↦ .ret (t.map f)

/-- A query for one row. -/
def queryRow (f : σ → Option α) : Prog (Sig σ) (Except Error α) :=
  .op .select fun t ↦ .ret (t.bind fun t ↦ (f t).elim (.error .noRows) .ok)

/-- Draw a fresh value. -/
def draw (f : σ → σ × Nat) : Prog (Sig σ) (Except Error Nat) :=
  .op (.draw f) fun n ↦ .ret (.ok n)

/-- A `for` loop over an accumulator, left on the first error. -/
def loop (f : β → α → Prog (Sig σ) (Except Error β)) (b : β) :
    List α → Prog (Sig σ) (Except Error β)
  | [] => .ret (.ok b)
  | a :: l => (f b a).attempt fun b' ↦ loop f b' l

/-- A transaction that is committed at the end, and rolled back on an error. -/
def transaction (body : Prog (Sig σ) (Except Error α)) : Prog (Sig σ) (Except Error α) :=
  (Prog.perform (E := Sig σ) .begin).attempt fun _ ↦ body.bind fun
    | .ok a => .op .commit fun
      | .ok _ => .ret (.ok a)
      | .error err => .op .rollback fun _ ↦ .ret (.error err)
    | .error err => .op .rollback fun _ ↦ .ret (.error err)

/-- Run a program while foreign keys are not enforced, and enforce them again whatever its
result. -/
def withForeignKeysOff (p : Prog (Sig σ) (Except Error α)) : Prog (Sig σ) (Except Error α) :=
  (Prog.perform (E := Sig σ) (.foreignKeys false)).attempt fun _ ↦ p.bind fun r ↦
    .op (.foreignKeys true) fun _ ↦ .ret r

/-- A statement, a query or a drawing, all of whose errors are passed on. -/
def Strict : Prog (Sig σ) (Except Error α) → Prop
  | .ret _ => True
  | .op (.execute _) k => (∀ err, k (.error err) = .ret (.error err)) ∧ ∀ n, Strict (k (.ok n))
  | .op .select k => (∀ err, k (.error err) = .ret (.error err)) ∧ ∀ t, Strict (k (.ok t))
  | .op (.draw _) k => ∀ n, Strict (k n)
  | .op .begin _ | .op .commit _ | .op .rollback _ | .op (.foreignKeys _) _ => False

/-- What the statements of a program do to the tables, and its result; `none` is an error. -/
def exec (enforced : Bool) : Prog (Sig σ) (Except Error α) → σ → Option (σ × α)
  | .ret (.ok a), t => some (t, a)
  | .ret (.error _), _ => none
  | .op (.execute statement) k, t =>
    (statement enforced t).bind fun r ↦ exec enforced (k (.ok r.2)) r.1
  | .op .select k, t => exec enforced (k (.ok t)) t
  | .op (.draw f) k, t => exec enforced (k (f t).2) (f t).1
  | .op .begin _, _ | .op .commit _, _ | .op .rollback _, _ | .op (.foreignKeys _) _, _ => none

/-! ### The rules of `exec` -/

section Exec

variable {enforced : Bool} {t : σ}

@[simp] theorem exec_ok (a : α) : exec enforced (.ret (.ok a)) t = some (t, a) := rfl

@[simp] theorem exec_execute (statement : Statement σ) :
    exec enforced (execute statement) t = statement enforced t := by
  show (statement enforced t).bind (fun r ↦ some (r.1, r.2)) = _
  exact Option.bind_fun_some _

@[simp] theorem exec_query (f : σ → α) : exec enforced (query f) t = some (t, f t) := rfl

@[simp] theorem exec_queryRow (f : σ → Option α) :
    exec enforced (queryRow f) t = (f t).map fun a ↦ (t, a) := by
  show exec enforced (.ret ((f t).elim (.error .noRows) .ok)) t = _
  cases f t <;> rfl

@[simp] theorem exec_draw (f : σ → σ × Nat) : exec enforced (draw f) t = some (f t) := rfl

/-- **The sequencing rule.** -/
theorem exec_attempt (p : Prog (Sig σ) (Except Error α))
    (f : α → Prog (Sig σ) (Except Error β)) :
    exec enforced (p.attempt f) t =
      (exec enforced p t).bind fun r ↦ exec enforced (f r.2) r.1 := by
  induction p generalizing t with
  | ret r => cases r <;> rfl
  | op o k ih =>
    cases o with
    | execute statement =>
      show (statement enforced t).bind _ = ((statement enforced t).bind _).bind _
      rw [Option.bind_assoc]
      exact congrArg _ (funext fun r ↦ ih (.ok r.2))
    | select => exact ih (.ok t)
    | draw g => exact ih (g t).2
    | begin | commit | rollback | foreignKeys => rfl

theorem exec_attempt_eq_some {p : Prog (Sig σ) (Except Error α)}
    {f : α → Prog (Sig σ) (Except Error β)} {r : σ × β} :
    exec enforced (p.attempt f) t = some r ↔
      ∃ t' a, exec enforced p t = some (t', a) ∧ exec enforced (f a) t' = some r := by
  rw [exec_attempt, Option.bind_eq_some_iff, Prod.exists]

theorem exec_loop_cons {f : β → α → Prog (Sig σ) (Except Error β)} {b : β} {a : α} {l : List α}
    {r : σ × β} : exec enforced (loop f b (a :: l)) t = some r ↔
      ∃ t' b', exec enforced (f b a) t = some (t', b') ∧
        exec enforced (loop f b' l) t' = some r :=
  exec_attempt_eq_some

/-- **The loop rule.** What every round keeps of the elements done holds of all of them in the
end. -/
theorem loop_done_invariant {f : β → α → Prog (Sig σ) (Except Error β)}
    {I : List α → σ → β → Prop} {l : List α}
    (hstep : ∀ done a t b t' b', I done t b → exec enforced (f b a) t = some (t', b') →
      I (done ++ [a]) t' b') {b b' : β} {t' : σ} (h₀ : I [] t b)
    (h : exec enforced (loop f b l) t = some (t', b')) : I l t' b' := by
  suffices hrest : ∀ (rest done : List α) (t : σ) (b : β), I done t b →
      exec enforced (loop f b rest) t = some (t', b') → I (done ++ rest) t' b' from
    hrest l [] t b h₀ h
  intro rest
  induction rest with
  | nil =>
    intro done t b hI h
    obtain ⟨rfl, rfl⟩ := Prod.mk.inj (Option.some.inj h)
    rwa [List.append_nil]
  | cons a rest ih =>
    intro done t b hI h
    obtain ⟨t₁, b₁, h₁, hrest⟩ := exec_loop_cons.1 h
    have := ih (done ++ [a]) t₁ b₁ (hstep done a t b t₁ b₁ hI h₁) hrest
    rwa [List.append_assoc] at this

/-- The loop rule for what does not depend on the elements done. -/
theorem loop_invariant {f : β → α → Prog (Sig σ) (Except Error β)} {I : σ → β → Prop}
    {l : List α} (hstep : ∀ a t b t' b', I t b → exec enforced (f b a) t = some (t', b') →
      I t' b') {b b' : β} {t' : σ} (h₀ : I t b)
    (h : exec enforced (loop f b l) t = some (t', b')) : I t' b' :=
  loop_done_invariant (I := fun _ ↦ I) (fun _ ↦ hstep) h₀ h

variable (enforced) in
/-- **The loop rule with progress.** A loop whose rounds succeed where the invariant holds of the
elements done succeeds, and the invariant holds of all of them in the end. -/
theorem exists_exec_loop {f : β → α → Prog (Sig σ) (Except Error β)}
    {I : List α → σ → β → Prop} {l : List α}
    (hstep : ∀ done a rest t b, l = done ++ a :: rest → I done t b →
      ∃ t' b', exec enforced (f b a) t = some (t', b') ∧ I (done ++ [a]) t' b') {b : β}
    (h₀ : I [] t b) : ∃ t' b', exec enforced (loop f b l) t = some (t', b') ∧ I l t' b' := by
  suffices h : ∀ (rest done : List α) (t : σ) (b : β), l = done ++ rest → I done t b →
      ∃ t' b', exec enforced (loop f b rest) t = some (t', b') ∧ I l t' b' from
    h l [] t b rfl h₀
  intro rest
  induction rest with
  | nil =>
    intro done t b hl hI
    rw [List.append_nil] at hl
    exact ⟨t, b, rfl, hl ▸ hI⟩
  | cons a rest ih =>
    intro done t b hl hI
    obtain ⟨t₁, b₁, h₁, hI₁⟩ := hstep done a rest t b hl hI
    obtain ⟨t', b', h', hI'⟩ := ih (done ++ [a]) t₁ b₁ (by rw [hl, List.append_assoc]; rfl) hI₁
    exact ⟨t', b', exec_loop_cons.2 ⟨t₁, b₁, h₁, h'⟩, hI'⟩

end Exec

/-! ### Relations and frames -/

/-- Every way the operation can change the tables is in `R`. -/
def Op.Within (enforced : Bool) (R : σ → σ → Prop) : Op σ → Prop
  | execute statement => ∀ t t' n, statement enforced t = some (t', n) → R t t'
  | draw f => ∀ t, R t (f t).1
  | select | begin | commit | rollback | foreignKeys _ => True

theorem performs_loop {S : Op σ → Prop} {f : β → α → Prog (Sig σ) (Except Error β)} {b : β}
    {l : List α} (hf : ∀ b a, Prog.Performs S (f b a)) : Prog.Performs S (loop f b l) := by
  induction l generalizing b with
  | nil => trivial
  | cons a l ih => exact (hf b a).attempt fun _ ↦ ih

/-- **The relation rule.** A relation that can be composed holds of a program if it holds of its
operations. -/
theorem rel_of_exec {enforced : Bool} {R : σ → σ → Prop} (hrefl : ∀ t, R t t)
    (htrans : ∀ t t' t'', R t t' → R t' t'' → R t t'') {p : Prog (Sig σ) (Except Error α)}
    (hp : Prog.Performs (Op.Within enforced R) p) {t t' : σ} {a : α}
    (h : exec enforced p t = some (t', a)) : R t t' := by
  induction p generalizing t with
  | ret r =>
    cases r with
    | ok b => exact (Prod.mk.inj (Option.some.inj h)).1 ▸ hrefl t
    | error err => cases h
  | op o k ih =>
    cases o with
    | execute statement =>
      obtain ⟨⟨t₁, n⟩, h₁, hrest⟩ := Option.bind_eq_some_iff.1 h
      exact htrans _ _ _ (hp.1 _ _ _ h₁) (ih _ (hp.2 _) hrest)
    | select => exact ih _ (hp.2 _) h
    | draw f => exact htrans _ _ _ (hp.1 t) (ih _ (hp.2 _) h)
    | begin | commit | rollback | foreignKeys => cases h

/-- No operation of the program sees or touches what `g` changes. -/
def Frames (enforced : Bool) (g : σ → σ) : Prog (Sig σ) (Except Error α) → Prop
  | .ret _ => True
  | .op (.execute statement) k =>
    (∀ t, statement enforced (g t) = (statement enforced t).map fun r ↦ (g r.1, r.2)) ∧
      ∀ n, Frames enforced g (k (.ok n))
  | .op .select k => ∀ t, k (.ok (g t)) = k (.ok t) ∧ Frames enforced g (k (.ok t))
  | .op (.draw f) k => (∀ t, f (g t) = (g (f t).1, (f t).2)) ∧ ∀ n, Frames enforced g (k n)
  | .op .begin _ | .op .commit _ | .op .rollback _ | .op (.foreignKeys _) _ => False

section Frames

variable {enforced : Bool} {g : σ → σ}

theorem frames_ok (a : α) :
    Frames enforced g (.ret (.ok a) : Prog (Sig σ) (Except Error α)) := trivial

theorem frames_execute {statement : Statement σ}
    (h : ∀ t, statement enforced (g t) = (statement enforced t).map fun r ↦ (g r.1, r.2)) :
    Frames enforced g (execute statement) := ⟨h, fun _ ↦ trivial⟩

theorem frames_queryRow {f : σ → Option α} (h : ∀ t, f (g t) = f t) :
    Frames enforced g (queryRow f) := fun t ↦ by
  refine ⟨?_, trivial⟩
  show Prog.ret ((f (g t)).elim _ _) = Prog.ret ((f t).elim _ _)
  rw [h]

theorem frames_draw {f : σ → σ × Nat} (h : ∀ t, f (g t) = (g (f t).1, (f t).2)) :
    Frames enforced g (draw f) := ⟨h, fun _ ↦ trivial⟩

theorem Frames.attempt {p : Prog (Sig σ) (Except Error α)}
    {f : α → Prog (Sig σ) (Except Error β)} (hp : Frames enforced g p)
    (hf : ∀ a, Frames enforced g (f a)) : Frames enforced g (p.attempt f) := by
  induction p with
  | ret r =>
    cases r with
    | ok a => exact hf a
    | error err => trivial
  | op o k ih =>
    cases o with
    | execute => exact ⟨hp.1, fun n ↦ ih (.ok n) (hp.2 n)⟩
    | select =>
      intro t
      refine ⟨?_, ih (.ok t) (hp t).2⟩
      show (k (.ok (g t))).bind _ = (k (.ok t)).bind _
      rw [(hp t).1]
    | draw => exact ⟨hp.1, fun n ↦ ih n (hp.2 n)⟩
    | begin | commit | rollback | foreignKeys => exact hp.elim

theorem frames_loop {f : β → α → Prog (Sig σ) (Except Error β)} {b : β} {l : List α}
    (hf : ∀ b a, Frames enforced g (f b a)) : Frames enforced g (loop f b l) := by
  induction l generalizing b with
  | nil => trivial
  | cons a l ih => exact (hf b a).attempt fun _ ↦ ih

/-- **The frame rule.** -/
theorem exec_frame {p : Prog (Sig σ) (Except Error α)} (hp : Frames enforced g p) (t : σ) :
    exec enforced p (g t) = (exec enforced p t).map fun r ↦ (g r.1, r.2) := by
  induction p generalizing t with
  | ret r => cases r <;> rfl
  | op o k ih =>
    cases o with
    | execute statement =>
      obtain ⟨hstatement, hk⟩ := hp
      show (statement enforced (g t)).bind _ = ((statement enforced t).bind _).map _
      rw [hstatement, Option.bind_map, Option.map_bind]
      exact congrArg _ (funext fun r ↦ ih (.ok r.2) (hk r.2) r.1)
    | select =>
      obtain ⟨hsame, hk⟩ := hp t
      show exec enforced (k (.ok (g t))) (g t) = _
      rw [hsame]
      exact ih (.ok t) hk t
    | draw f =>
      obtain ⟨hdraw, hk⟩ := hp
      show exec enforced (k (f (g t)).2) (f (g t)).1 = _
      rw [hdraw]
      exact ih (f t).2 (hk _) (f t).1
    | begin | commit | rollback | foreignKeys => exact hp.elim

end Frames

/-! ### Outside a transaction -/

/-- Run a program that controls no transaction: every statement is committed by itself, with foreign
keys enforced. The statement or query number `fails`, counted from zero, fails for a reason of its
own. -/
def autocommit : Prog (Sig σ) (Except Error α) → Option Nat → σ → σ × Except Error α
  | .ret r, _, t => (t, r)
  | .op (.execute statement) k, fails, t =>
    if fails = some 0 then autocommit (k (.error .io)) none t
    else match statement true t with
      | some (t', n) => autocommit (k (.ok n)) (fails.map (· - 1)) t'
      | none => autocommit (k (.error .constraint)) (fails.map (· - 1)) t
  | .op .select k, fails, t =>
    if fails = some 0 then autocommit (k (.error .io)) none t
    else autocommit (k (.ok t)) (fails.map (· - 1)) t
  | .op (.draw f) k, fails, t => autocommit (k (f t).2) fails (f t).1
  | .op .begin _, _, t | .op .commit _, _, t | .op .rollback _, _, t
  | .op (.foreignKeys _) _, _, t => (t, .error .transaction)

section Autocommit

variable {fails : Option Nat} {t : σ}

@[simp] theorem autocommit_ret (r : Except Error α) : autocommit (.ret r) fails t = (t, r) := rfl

theorem autocommit_execute {statement : Statement σ} {f : Nat → Prog (Sig σ) (Except Error α)} :
    autocommit ((execute statement).attempt f) fails t =
      if fails = some 0 then (t, .error .io)
      else match statement true t with
        | some (t', n) => autocommit (f n) (fails.map (· - 1)) t'
        | none => (t, .error .constraint) := by
  rw [execute, Prog.perform, Prog.attempt, Prog.bind, autocommit]
  split
  · rfl
  · cases statement true t <;> rfl

theorem autocommit_queryRow {g : σ → Option β} {f : β → Prog (Sig σ) (Except Error α)} :
    autocommit ((queryRow g).attempt f) fails t =
      if fails = some 0 then (t, .error .io)
      else match g t with
        | some b => autocommit (f b) (fails.map (· - 1)) t
        | none => (t, .error .noRows) := by
  rw [queryRow, Prog.attempt, Prog.bind, autocommit]
  split
  · rfl
  · show autocommit ((Prog.ret ((g t).elim (.error .noRows) .ok)).attempt f) _ t = _
    cases g t <;> rfl

theorem autocommit_query {g : σ → β} {f : β → Prog (Sig σ) (Except Error α)} :
    autocommit ((query g).attempt f) fails t =
      if fails = some 0 then (t, .error .io) else autocommit (f (g t)) (fails.map (· - 1)) t := by
  rw [query, Prog.attempt, Prog.bind, autocommit]
  rfl

theorem autocommit_draw {g : σ → σ × Nat} {f : Nat → Prog (Sig σ) (Except Error α)} :
    autocommit ((draw g).attempt f) fails t = autocommit (f (g t).2) fails (g t).1 := rfl

/-- The count of the statements after one of them. -/
theorem pred_eq_some_iff (h0 : fails ≠ some 0) {n : Nat} :
    fails.map (· - 1) = some n ↔ fails = some (n + 1) := by
  cases fails with
  | none => simp
  | some m =>
    have hm : m ≠ 0 := fun h ↦ h0 (congrArg some h)
    rw [Option.map_some, Option.some.injEq, Option.some.injEq]
    omega

end Autocommit

/-! ### Strict programs -/

theorem strict_ok (a : α) : Strict (.ret (.ok a) : Prog (Sig σ) (Except Error α)) := trivial

theorem strict_execute (statement : Statement σ) : Strict (execute statement) :=
  ⟨fun _ ↦ rfl, fun _ ↦ trivial⟩

theorem strict_query (f : σ → α) : Strict (query f) := ⟨fun _ ↦ rfl, fun _ ↦ trivial⟩

theorem strict_queryRow (f : σ → Option α) : Strict (queryRow f) :=
  ⟨fun _ ↦ rfl, fun _ ↦ trivial⟩

theorem strict_draw (f : σ → σ × Nat) : Strict (draw f) := fun _ ↦ trivial

theorem Strict.attempt {p : Prog (Sig σ) (Except Error α)}
    {f : α → Prog (Sig σ) (Except Error β)} (hp : Strict p) (hf : ∀ a, Strict (f a)) :
    Strict (p.attempt f) := by
  induction p with
  | ret r =>
    cases r with
    | ok a => exact hf a
    | error err => trivial
  | op o k ih =>
    cases o with
    | execute | select =>
      obtain ⟨herror, hok⟩ := hp
      refine ⟨fun err ↦ ?_, fun x ↦ ih (.ok x) (hok x)⟩
      show (k (.error err)).bind _ = _
      rw [herror]
      rfl
    | draw => exact fun n ↦ ih n (hp n)
    | begin | commit | rollback | foreignKeys => exact hp.elim

theorem strict_loop {f : β → α → Prog (Sig σ) (Except Error β)} (hf : ∀ b a, Strict (f b a)) {b : β}
    {l : List α} : Strict (loop f b l) := by
  induction l generalizing b with
  | nil => trivial
  | cons a l ih => exact (hf b a).attempt fun _ ↦ ih

/-! ### Transactions -/

/-- What a program that is run leaves of the connection `c`. -/
structure Leaves (p : Prog (Sig σ) (Except Error α)) (c : Connection σ) (r : Except Error α)
    (c' : Connection σ) : Prop where
  saved : c'.saved = c.saved
  foreignKeys : c'.foreignKeys = c.foreignKeys
  of_ok : ∀ a, r = .ok a → exec c.foreignKeys p c.tables = some (c'.tables, a)
  of_error : ∀ err, r = .error err → err = .io ∨ exec c.foreignKeys p c.tables = none

theorem leaves_error {p : Prog (Sig σ) (Except Error α)} {c : Connection σ} {err : Error}
    (h : err = .io ∨ exec c.foreignKeys p c.tables = none) : Leaves p c (.error err) c where
  saved := rfl
  foreignKeys := rfl
  of_ok _ ha := nomatch ha
  of_error _ herr := Except.error.inj herr ▸ h

/-- The rest `q` of a program `p`, run after its first operation. -/
theorem Leaves.of_rest {p q : Prog (Sig σ) (Except Error α)} {c c₁ c' : Connection σ}
    {r : Except Error α} (h : Leaves q c₁ r c') (hsaved : c₁.saved = c.saved)
    (hkeys : c₁.foreignKeys = c.foreignKeys)
    (hexec : exec c.foreignKeys p c.tables = exec c₁.foreignKeys q c₁.tables) :
    Leaves p c r c' where
  saved := h.saved.trans hsaved
  foreignKeys := h.foreignKeys.trans hkeys
  of_ok a ha := hexec.trans (h.of_ok a ha)
  of_error err herr := (h.of_error err herr).imp_right hexec.trans

/-- **A strict program** does what `exec` says, or fails. -/
theorem wp_strict {p : Prog (Sig σ) (Except Error α)} (hp : Strict p) (c : Connection σ) :
    p.wp Connection.Handles (fun _ _ ↦ True) (Leaves p c) c := by
  induction p generalizing c with
  | ret r =>
    cases r with
    | ok a => exact ⟨rfl, rfl, fun _ ha ↦ Except.ok.inj ha ▸ rfl, fun _ herr ↦ nomatch herr⟩
    | error err => exact leaves_error (Or.inr rfl)
  | op o k ih =>
    cases o with
    | execute statement =>
      obtain ⟨herror, hok⟩ := hp
      refine ⟨trivial, fun r c' hr ↦ ?_⟩
      rcases hr with hr | ⟨hr, rfl⟩
      · rw [Connection.answer] at hr
        split at hr
        case h_1 t n hstatement =>
          obtain ⟨rfl, rfl⟩ := Prod.mk.inj hr
          refine Prog.wp_mono (fun r c' h ↦ h.of_rest rfl rfl ?_) (ih (.ok n) (hok n) _)
          rw [exec, hstatement]
          rfl
        case h_2 hstatement =>
          obtain ⟨rfl, rfl⟩ := Prod.mk.inj hr
          rw [herror]
          refine leaves_error (Or.inr ?_)
          rw [exec, hstatement]
          rfl
      · obtain rfl := Option.some.inj hr
        rw [herror]
        exact leaves_error (Or.inl rfl)
    | select =>
      obtain ⟨herror, hok⟩ := hp
      refine ⟨trivial, fun r c' hr ↦ ?_⟩
      rcases hr with hr | ⟨hr, rfl⟩
      · obtain ⟨rfl, rfl⟩ := Prod.mk.inj hr
        exact Prog.wp_mono (fun r c' h ↦ h.of_rest rfl rfl rfl) (ih (.ok c'.tables) (hok _) _)
      · obtain rfl := Option.some.inj hr
        rw [herror]
        exact leaves_error (Or.inl rfl)
    | draw f =>
      refine ⟨trivial, fun r c' hr ↦ ?_⟩
      rcases hr with hr | ⟨hr, -⟩
      · obtain ⟨rfl, rfl⟩ := Prod.mk.inj hr
        exact Prog.wp_mono (fun r c' h ↦ h.of_rest rfl rfl rfl) (ih _ (hp _) _)
      · cases hr
    | begin | commit | rollback | foreignKeys => exact hp.elim

/-- What a transaction leaves of the connection `c`: what `exec` says, or the old tables. -/
structure Commits (enforced : Bool) (body : Prog (Sig σ) (Except Error α)) (c : Connection σ)
    (r : Except Error α) (c' : Connection σ) : Prop where
  saved : c'.saved = none
  of_ok : ∀ a, r = .ok a → exec enforced body c.tables = some (c'.tables, a)
  of_error : ∀ err, r = .error err →
    c'.tables = c.tables ∧ (err = .io ∨ exec enforced body c.tables = none)

/-- **A transaction** commits what its statements do, or leaves the tables as they were, whatever
fails and where. -/
theorem wp_transaction {body : Prog (Sig σ) (Except Error α)} (hbody : Strict body)
    {c : Connection σ} (hc : c.saved = none) :
    (transaction body).wp Connection.Handles (fun _ _ ↦ True)
      (fun r c' ↦ c'.foreignKeys = c.foreignKeys ∧ Commits c.foreignKeys body c r c') c := by
  have hunbegun : ∀ err, err = .io → Commits c.foreignKeys body c (.error err) c := fun err herr ↦
    ⟨hc, fun _ ha ↦ (nomatch ha), fun _ he ↦ ⟨rfl, Or.inl (Except.error.inj he ▸ herr)⟩⟩
  refine ⟨trivial, fun r c₁ hr ↦ ?_⟩
  rcases hr with hr | ⟨hr, rfl⟩
  · rw [Connection.answer, hc] at hr
    obtain ⟨rfl, rfl⟩ := Prod.mk.inj hr
    show (body.bind _).wp _ _ _ (Connection.mk c.tables (some c.tables) c.foreignKeys)
    refine Prog.wp_bind.2 (Prog.wp_mono (fun r c₂ h ↦ ?_) (wp_strict hbody _))
    have hsaved : c₂.saved = some c.tables := h.saved
    have hkeys : c₂.foreignKeys = c.foreignKeys := h.foreignKeys
    cases r with
    | error err =>
      refine ⟨trivial, fun _ c₃ hr ↦ ?_⟩
      obtain hr | ⟨hr, -⟩ := hr
      · obtain ⟨-, rfl⟩ := Prod.mk.inj hr
        refine ⟨hkeys, rfl, fun _ ha ↦ (nomatch ha), fun err' he ↦ ⟨?_, ?_⟩⟩
        · rw [hsaved]
          rfl
        · exact h.of_error err' he
      · cases hr
    | ok a =>
      have hexec := h.of_ok a rfl
      refine ⟨trivial, fun r c₃ hr ↦ ?_⟩
      rw [Connection.Handles, Connection.answer, hsaved] at hr
      rcases hr with hr | ⟨hr, rfl⟩
      · obtain ⟨rfl, rfl⟩ := Prod.mk.inj hr
        exact ⟨hkeys, rfl, fun a' ha ↦ Except.ok.inj ha ▸ hexec, fun _ he ↦ nomatch he⟩
      · obtain rfl := Option.some.inj hr
        refine ⟨trivial, fun _ c₄ hr ↦ ?_⟩
        obtain hr | ⟨hr, -⟩ := hr
        · obtain ⟨-, rfl⟩ := Prod.mk.inj hr
          refine ⟨hkeys, rfl, fun _ ha ↦ (nomatch ha), fun err he ↦ ⟨?_, ?_⟩⟩
          · rw [hsaved]
            rfl
          · exact Or.inl (Except.error.inj he).symm
        · cases hr
  · obtain rfl := Option.some.inj hr
    exact ⟨rfl, hunbegun .io rfl⟩

/-- **A transaction without enforcement** commits what its statements do, or leaves the tables as
they were; in either case foreign keys are enforced afterwards. -/
theorem wp_withForeignKeysOff {body : Prog (Sig σ) (Except Error α)} (hbody : Strict body)
    {c : Connection σ} (hc : c.saved = none) :
    (withForeignKeysOff (transaction body)).wp Connection.Handles (fun _ _ ↦ True)
      (fun r c' ↦ c'.foreignKeys = true ∧ Commits false body c r c') c := by
  refine ⟨trivial, fun r c₁ hr ↦ ?_⟩
  obtain hr | ⟨hr, -⟩ := hr
  · rw [Connection.answer, hc] at hr
    obtain ⟨rfl, rfl⟩ := Prod.mk.inj hr
    show ((transaction body).bind fun r ↦ .op (.foreignKeys true) fun _ ↦ .ret r).wp _ _ _
      (Connection.mk c.tables none false)
    refine Prog.wp_bind.2 (Prog.wp_mono (fun r c₂ h ↦ ?_) (wp_transaction hbody rfl))
    obtain ⟨-, h⟩ := h
    refine ⟨trivial, fun _ c₃ hr ↦ ?_⟩
    obtain hr | ⟨hr, -⟩ := hr
    · rw [Connection.answer, h.saved] at hr
      obtain ⟨-, rfl⟩ := Prod.mk.inj hr
      exact ⟨rfl, rfl, h.of_ok, h.of_error⟩
    · cases hr
  · cases hr

end Sql
