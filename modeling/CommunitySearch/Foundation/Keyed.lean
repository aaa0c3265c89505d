import CommunitySearch.Foundation.Table
import Mathlib.Data.List.Induction

/-!
# Services that keep a state for each key

Two general notions.

A `KeyTable key` is a table whose only constraint is that no two rows have the same key: a
`PRIMARY KEY`. `put` is the upsert that replaces the row of a key or appends it; `find_put` and
`find_erase` say what the row of a key is after each statement, and `find_foldl_upsertWith` what it
is after a sequence of upserts that combine the stored row with the new one.

A `KeyedService` answers calls on a shared table. Every call names a key, and two laws say that it
concerns no other key: its answer and the state it leaves under its key are computed from the state
under its key alone (`call_step`), and the state under every other key stays (`call_frame`). The
table is behind a mutex (`Locked`): a call that panics while it holds the lock poisons it, and every
later call panics too. Two results about any sequence of calls follow from the laws:

* `filter_trace` — the answers given to one key are those of the calls of that key alone, as long as
  no call can panic;
* `history_invariant` — a relation between what a key has been answered and the state kept under it
  holds after every sequence of calls, whatever is called on the other keys in between.
-/

/-! ### Tables with a primary key -/

/-- Rows no two of which have the same key. -/
abbrev KeyTable {ρ κ : Type*} (key : ρ → κ) := Table fun a b : ρ ↦ key a = key b

namespace KeyTable

variable {ρ κ : Type*} [DecidableEq κ] {key : ρ → κ}

/-- The row of a key. -/
def find (t : KeyTable key) (k : κ) : Option ρ := t.rows.find? fun r ↦ key r = k

/-- `INSERT … ON CONFLICT DO UPDATE`: replace the row of the key of `r`, or append `r`. -/
def put (t : KeyTable key) (r : ρ) : KeyTable key :=
  if h : ∀ a ∈ t.rows, key a ≠ key r then
    ⟨t.rows ++ [r], List.pairwise_append.2 ⟨t.unique, List.pairwise_singleton _ _,
      fun a ha b hb ↦ by
        rw [List.mem_singleton.1 hb]
        exact h a ha⟩⟩
  else t.modify (fun a ↦ if key a = key r then r else a) fun a b hab ↦ by
    split at hab <;> split at hab <;> simp_all

/-- `DELETE … WHERE key = k`. -/
def erase (t : KeyTable key) (k : κ) : KeyTable key := t.deleteWhere fun r ↦ key r = k

theorem find_map_replace (l : List ρ) (r : ρ) (k : κ) :
    (l.map fun a ↦ if key a = key r then r else a).find? (fun a ↦ decide (key a = k)) =
      if key r = k then (l.find? fun a ↦ key a = key r).map fun _ ↦ r
      else l.find? fun a ↦ key a = k := by
  induction l with
  | nil => simp
  | cons a l ih =>
    rw [List.map_cons, List.find?_cons, List.find?_cons, List.find?_cons]
    by_cases har : key a = key r
    · by_cases hk : key r = k
      · simp [har, hk]
      · simp only [har, if_true, decide_eq_false hk, ih, if_neg hk]
    · by_cases hk : key r = k
      · have hak : ¬ key a = k := fun h ↦ har (h.trans hk.symm)
        simp only [if_neg har, decide_eq_false hak, ih, if_pos hk, decide_eq_false har]
      · simp only [if_neg har, ih, if_neg hk]

/-- The row of a key after an upsert. -/
theorem find_put (t : KeyTable key) (r : ρ) (k : κ) :
    (t.put r).find k = if key r = k then some r else t.find k := by
  rw [put]
  split
  case isTrue h =>
    rw [find, List.find?_append]
    by_cases hk : key r = k
    · have hnone : t.rows.find? (fun a ↦ decide (key a = k)) = none :=
        List.find?_eq_none.2 fun a ha ↦ by simpa [← hk] using h a ha
      simp [hnone, hk]
    · simp only [List.find?_cons, decide_eq_false hk, List.find?_nil, Option.or_none, if_neg hk]
      rfl
  case isFalse h =>
    have hmem : ∃ a ∈ t.rows, key a = key r := by simpa using h
    obtain ⟨a, ha, har⟩ := hmem
    have hsome : (t.rows.find? fun a ↦ key a = key r).isSome :=
      List.find?_isSome.2 ⟨a, ha, by simpa using har⟩
    obtain ⟨b, hb⟩ := Option.isSome_iff_exists.1 hsome
    refine (find_map_replace t.rows r k).trans ?_
    rw [hb]
    rfl

/-- The row of a key after a deletion. -/
theorem find_erase (t : KeyTable key) (k k' : κ) :
    (t.erase k).find k' = if k = k' then none else t.find k' := by
  rw [find, erase, Table.deleteWhere]
  by_cases hk : k = k'
  · rw [if_pos hk, List.find?_eq_none]
    intro a ha
    have hne := (List.mem_filter.1 ha).2
    simpa [hk] using hne
  · rw [if_neg hk, List.find?_filter, find]
    congr 1
    funext a
    by_cases ha : key a = k' <;> simp [ha, Ne.symm hk]

theorem find_eq_some_iff {t : KeyTable key} {k : κ} {r : ρ} :
    t.find k = some r ↔ r ∈ t.rows ∧ key r = k := by
  constructor
  · intro h
    exact ⟨List.mem_of_find?_eq_some h, by simpa using List.find?_some h⟩
  · rintro ⟨hr, rfl⟩
    have hsome : (t.rows.find? fun a ↦ key a = key r).isSome :=
      List.find?_isSome.2 ⟨r, hr, decide_eq_true rfl⟩
    obtain ⟨a, ha⟩ := Option.isSome_iff_exists.1 hsome
    have hkey : key a = key r := by simpa using List.find?_some ha
    have hmem : a ∈ t.rows := List.mem_of_find?_eq_some ha
    rw [find, ha, Table.eq_of_clash (fun _ _ ↦ Eq.symm) hmem hr hkey]

theorem find_eq_none_iff {t : KeyTable key} {k : κ} :
    t.find k = none ↔ ∀ r ∈ t.rows, key r ≠ k := by
  rw [find, List.find?_eq_none]
  simp only [decide_eq_true_eq]

@[simp] theorem find_empty (k : κ) : find (Table.empty : KeyTable key) k = none := rfl

/-! #### Upserts with a rule for conflicts -/

section UpsertWith

/-- An upsert: `g` computes the new row of the key of `r` from the stored one and `r`. -/
def upsertWith (g : Option ρ → ρ → ρ) (t : KeyTable key) (r : ρ) : KeyTable key :=
  t.put (g (t.find (key r)) r)

/-- The rule keeps the key. -/
def KeepsKey (key : ρ → κ) (g : Option ρ → ρ → ρ) : Prop :=
  ∀ o r, (∀ a ∈ o, key a = key r) → key (g o r) = key r

variable {g : Option ρ → ρ → ρ}

theorem find_upsertWith (hg : KeepsKey key g) (t : KeyTable key) (r : ρ) (k : κ) :
    (t.upsertWith g r).find k = if key r = k then some (g (t.find k) r) else t.find k := by
  have hkey : key (g (t.find (key r)) r) = key r :=
    hg _ r fun a ha ↦ (find_eq_some_iff.1 ha).2
  rw [upsertWith, find_put, hkey]
  by_cases hk : key r = k
  · rw [if_pos hk, if_pos hk, hk]
  · rw [if_neg hk, if_neg hk]

/-- **A sequence of upserts, key by key**: what is stored under a key in the end is computed from
the row it had and the upserted rows of that key, in order. -/
theorem find_foldl_upsertWith (hg : KeepsKey key g) (l : List ρ) (t : KeyTable key) (k : κ) :
    (l.foldl (upsertWith g) t).find k =
      (l.filter fun r ↦ key r = k).foldl (fun o r ↦ some (g o r)) (t.find k) := by
  induction l generalizing t with
  | nil => rfl
  | cons r l ih =>
    rw [List.foldl_cons, ih, find_upsertWith hg]
    by_cases hk : key r = k
    · rw [if_pos hk, List.filter_cons, if_pos (decide_eq_true hk), List.foldl_cons]
    · rw [if_neg hk, List.filter_cons, if_neg (by simpa using hk)]

/-- The rows of a key in a table that has one. -/
theorem filter_rows_of_find {t : KeyTable key} {k : κ} {r : ρ} (h : t.find k = some r) :
    (t.rows.filter fun a ↦ key a = k) = [r] := by
  obtain ⟨hr, rfl⟩ := find_eq_some_iff.1 h
  have hpair : (t.rows.filter fun a ↦ key a = key r).Pairwise fun a b ↦ ¬ key a = key b :=
    t.unique.filter _
  have hmem : r ∈ t.rows.filter fun a ↦ key a = key r :=
    List.mem_filter.2 ⟨hr, decide_eq_true rfl⟩
  have hkeys : ∀ a ∈ t.rows.filter (fun a ↦ key a = key r), key a = key r := fun a ha ↦ by
    simpa using (List.mem_filter.1 ha).2
  generalize t.rows.filter (fun a ↦ key a = key r) = m at hpair hmem hkeys
  rcases m with - | ⟨a, - | ⟨b, m⟩⟩
  · cases hmem
  · rw [List.mem_singleton.1 hmem]
  · have hab := (List.pairwise_cons.1 hpair).1 b List.mem_cons_self
    exact absurd ((hkeys a (by simp)).trans (hkeys b (by simp)).symm) hab

/-- Upserting the rows of another table, in any order. -/
theorem find_foldl_upsertWith_perm (hg : KeepsKey key g) {l : List ρ} {t' : KeyTable key}
    (hl : l.Perm t'.rows) (t : KeyTable key) (k : κ) :
    (l.foldl (upsertWith g) t).find k =
      match t'.find k with
      | some r => some (g (t.find k) r)
      | none => t.find k := by
  rw [find_foldl_upsertWith hg]
  rcases hf : t'.find k with - | r
  · have hnil : (l.filter fun r ↦ key r = k) = [] := by
      rw [List.filter_eq_nil_iff]
      intro a ha
      simpa using find_eq_none_iff.1 hf a (hl.subset ha)
    rw [hnil, List.foldl_nil]
  · have hperm := (hl.filter fun r ↦ decide (key r = k))
    rw [filter_rows_of_find hf] at hperm
    rw [List.perm_singleton.1 hperm, List.foldl_cons, List.foldl_nil]

end UpsertWith

end KeyTable

/-! ### Services -/

/-- A value behind a mutex. -/
structure Locked (T : Type*) where
  value : T
  /-- A thread has panicked while it held the lock. -/
  poisoned : Bool

/-- A service on a shared table `T` that keeps a state `σ` for each key. -/
structure KeyedService (T κ σ ι ω : Type*) where
  /-- The state kept under a key. -/
  read : T → κ → σ
  /-- What a call does to the state under its key; `none` when it panics. -/
  step : σ → ι → Option (ω × σ)
  /-- What a call does to the table. -/
  call : T → κ → ι → Option (ω × T)
  call_step : ∀ t k i, (call t k i).map (fun r ↦ (r.1, read r.2 k)) = step (read t k) i
  call_frame : ∀ {t k i r}, call t k i = some r → ∀ k' ≠ k, read r.2 k' = read t k'

/-- A call and its answer, `none` when it panicked. -/
structure Exchange (κ ι ω : Type*) where
  key : κ
  input : ι
  answer : Option ω
deriving DecidableEq

namespace KeyedService

variable {T κ σ ι ω : Type*} (S : KeyedService T κ σ ι ω)

/-- A call through the mutex. -/
def lockedCall (m : Locked T) (k : κ) (i : ι) : Option ω × Locked T :=
  if m.poisoned then (none, m)
  else match S.call m.value k i with
    | some (o, t) => (some o, ⟨t, false⟩)
    | none => (none, ⟨m.value, true⟩)

/-- The mutex after a sequence of calls. -/
def after : Locked T → List (κ × ι) → Locked T
  | m, [] => m
  | m, c :: calls => after (S.lockedCall m c.1 c.2).2 calls

/-- A sequence of calls with their answers. -/
def trace : Locked T → List (κ × ι) → List (Exchange κ ι ω)
  | _, [] => []
  | m, c :: calls =>
    ⟨c.1, c.2, (S.lockedCall m c.1 c.2).1⟩ :: trace (S.lockedCall m c.1 c.2).2 calls

@[simp] theorem after_nil (m : Locked T) : S.after m [] = m := rfl

@[simp] theorem trace_nil (m : Locked T) : S.trace m [] = [] := rfl

theorem after_cons (m : Locked T) (c : κ × ι) (calls : List (κ × ι)) :
    S.after m (c :: calls) = S.after (S.lockedCall m c.1 c.2).2 calls := rfl

theorem trace_cons (m : Locked T) (c : κ × ι) (calls : List (κ × ι)) :
    S.trace m (c :: calls) =
      ⟨c.1, c.2, (S.lockedCall m c.1 c.2).1⟩ :: S.trace (S.lockedCall m c.1 c.2).2 calls := rfl

theorem after_append (m : Locked T) (calls calls' : List (κ × ι)) :
    S.after m (calls ++ calls') = S.after (S.after m calls) calls' := by
  induction calls generalizing m with
  | nil => rfl
  | cons c calls ih => exact ih _

theorem trace_append (m : Locked T) (calls calls' : List (κ × ι)) :
    S.trace m (calls ++ calls') = S.trace m calls ++ S.trace (S.after m calls) calls' := by
  induction calls generalizing m with
  | nil => rfl
  | cons c calls ih => rw [List.cons_append, trace_cons, trace_cons, ih, List.cons_append]; rfl

variable {S}

/-- **What a call through the mutex does**: nothing on a poisoned mutex; otherwise it panics and
poisons it, or it is answered. -/
theorem lockedCall_cases (m : Locked T) (k : κ) (i : ι) :
    (S.lockedCall m k i = (none, ⟨m.value, true⟩)) ∨
      ∃ o t, S.call m.value k i = some (o, t) ∧ m.poisoned = false ∧
        S.lockedCall m k i = (some o, ⟨t, false⟩) := by
  rcases hp : m.poisoned with - | -
  · rcases hc : S.call m.value k i with - | ⟨o, t⟩
    · exact Or.inl (by simp [lockedCall, hp, hc])
    · exact Or.inr ⟨o, t, rfl, rfl, by simp [lockedCall, hp, hc]⟩
  · refine Or.inl ?_
    rw [lockedCall, if_pos hp]
    exact congrArg _ (by rw [← hp])

theorem step_of_call {t : T} {k : κ} {i : ι} {o : ω} {t' : T} (h : S.call t k i = some (o, t')) :
    S.step (S.read t k) i = some (o, S.read t' k) := by
  rw [← S.call_step, h]
  rfl

theorem call_of_step {t : T} {k : κ} {i : ι} {o : ω} {s : σ}
    (h : S.step (S.read t k) i = some (o, s)) :
    ∃ t', S.call t k i = some (o, t') ∧ S.read t' k = s := by
  rw [← S.call_step] at h
  obtain ⟨⟨o', t'⟩, hc, he⟩ := Option.map_eq_some_iff.1 h
  obtain ⟨rfl, rfl⟩ := Prod.mk.inj he
  exact ⟨t', hc, rfl⟩

/-- A step is what a call under a sound lock does. -/
theorem lockedCall_of_step {t : T} {k : κ} {i : ι} {o : ω} {s : σ}
    (h : S.step (S.read t k) i = some (o, s)) :
    ∃ t', S.lockedCall ⟨t, false⟩ k i = (some o, ⟨t', false⟩) ∧ S.call t k i = some (o, t') ∧
      S.read t' k = s := by
  obtain ⟨t', hc, hr⟩ := call_of_step h
  exact ⟨t', by simp [lockedCall, hc], hc, hr⟩

/-- A call that cannot panic is answered. -/
theorem exists_lockedCall {k : κ} {i : ι} (h : ∀ s, S.step s i ≠ none) (t : T) :
    ∃ o s t', S.step (S.read t k) i = some (o, s) ∧
      S.lockedCall ⟨t, false⟩ k i = (some o, ⟨t', false⟩) ∧ S.call t k i = some (o, t') ∧
      S.read t' k = s := by
  obtain ⟨⟨o, s⟩, hs⟩ := Option.ne_none_iff_exists'.1 (h (S.read t k))
  obtain ⟨t', hlocked, hc, hr⟩ := lockedCall_of_step hs
  exact ⟨o, s, t', hs, hlocked, hc, hr⟩

/-! ### Independence of the keys -/

section Independence

variable [DecidableEq κ]

/-- **Noninterference.** When no call can panic, the exchanges of one key in a mixed sequence of
calls are those of the calls of that key alone. -/
theorem filter_trace (k : κ) {calls : List (κ × ι)} (hcalls : ∀ c ∈ calls, ∀ s, S.step s c.2 ≠ none)
    {t t' : T} (ht : S.read t k = S.read t' k) :
    (S.trace ⟨t, false⟩ calls).filter (fun e ↦ e.key = k) =
      S.trace ⟨t', false⟩ (calls.filter fun c ↦ c.1 = k) := by
  induction calls generalizing t t' with
  | nil => rfl
  | cons c calls ih =>
    have hrest : ∀ d ∈ calls, ∀ s, S.step s d.2 ≠ none :=
      fun d hd ↦ hcalls d (List.mem_cons_of_mem _ hd)
    obtain ⟨o, s, t₁, hs, hlocked, hc, hr⟩ :=
      exists_lockedCall (S := S) (k := c.1) (hcalls c List.mem_cons_self) t
    rw [trace_cons, hlocked, List.filter_cons, List.filter_cons]
    by_cases hk : c.1 = k
    · -- the same call is answered from the same state
      rw [hk] at hs hr
      rw [ht] at hs
      obtain ⟨t₂, hlocked', -, hr'⟩ := lockedCall_of_step hs
      rw [if_pos (by simpa using hk), if_pos (by simpa using hk), trace_cons, hk, hlocked',
        ih hrest (hr.trans hr'.symm)]
    · rw [if_neg (by simpa using hk), if_neg (by simpa using hk)]
      exact ih hrest ((S.call_frame hc k (Ne.symm hk)).trans ht)

end Independence

/-! ### Invariants of a key's history -/

section History

variable [DecidableEq κ]

/-- What the calls of one key were answered, in order. -/
def history (k : κ) (exchanges : List (Exchange κ ι ω)) : List (ι × ω) :=
  exchanges.filterMap fun e ↦ if e.key = k then e.answer.map (e.input, ·) else none

theorem history_append (k : κ) (l l' : List (Exchange κ ι ω)) :
    history k (l ++ l') = history k l ++ history k l' :=
  List.filterMap_append

/-- Every input answered under a key was called under it. -/
theorem mem_of_mem_history {k : κ} {m : Locked T} {calls : List (κ × ι)} {e : ι × ω}
    (h : e ∈ history k (S.trace m calls)) : (k, e.1) ∈ calls := by
  induction calls generalizing m with
  | nil => exact absurd h List.not_mem_nil
  | cons c calls ih =>
    rw [trace_cons, ← List.singleton_append, history_append, List.mem_append] at h
    rcases h with h | h
    · obtain ⟨x, hx, he⟩ := List.mem_filterMap.1 h
      obtain rfl := List.mem_singleton.1 hx
      split at he
      case isTrue hk =>
        obtain ⟨o, -, rfl⟩ := Option.map_eq_some_iff.1 he
        exact List.mem_cons.2 (Or.inl (Prod.ext hk.symm rfl))
      case isFalse => cases he
    · exact List.mem_cons_of_mem _ (ih h)

/-- **The history principle.** Let `I` relate what a key has been answered to the state under it.
If it holds at the start and every call of the key whose input is admissible (`P`) and related to
the earlier inputs of the key (`R`) keeps it, it holds after every sequence of such calls, mixed
with any calls of other keys, and whether or not a call panics. -/
theorem history_invariant (k : κ) {P : ι → Prop} {R : ι → ι → Prop} {I : List (ι × ω) → σ → Prop}
    (hstep : ∀ h s i o s', I h s → P i → (∀ e ∈ h, R e.1 i) → S.step s i = some (o, s') →
      I (h ++ [(i, o)]) s')
    {m : Locked T} (h₀ : I [] (S.read m.value k)) {calls : List (κ × ι)}
    (hP : ∀ c ∈ calls, c.1 = k → P c.2)
    (hR : calls.Pairwise fun c d ↦ c.1 = k → d.1 = k → R c.2 d.2) :
    I (history k (S.trace m calls)) (S.read (S.after m calls).value k) := by
  induction calls using List.reverseRecOn with
  | nil => exact h₀
  | append_singleton calls c ih =>
    obtain ⟨hR', -, hc⟩ := List.pairwise_append.1 hR
    have hI := ih (fun d hd ↦ hP d (List.mem_append_left _ hd)) hR'
    rw [trace_append, after_append, history_append, after_cons, after_nil, trace_cons, trace_nil]
    -- an exchange that is no answer to the key leaves its history and its state alone
    have hskip : ∀ {a : Option ω} {v : T}, (c.1 ≠ k ∨ a = none) →
        S.read v k = S.read (S.after m calls).value k →
        I (history k (S.trace m calls) ++ history k [⟨c.1, c.2, a⟩]) (S.read v k) := by
      intro a v ha hv
      have hnil : history k [(⟨c.1, c.2, a⟩ : Exchange κ ι ω)] = [] := by
        rcases ha with ha | rfl
        · simp [history, ha]
        · simp [history]
      rw [hnil, List.append_nil, hv]
      exact hI
    rcases lockedCall_cases (S := S) (S.after m calls) c.1 c.2 with hc' | ⟨o, t, hcall, -, hc'⟩
    · rw [hc']
      exact hskip (Or.inr rfl) rfl
    · rw [hc']
      by_cases hk : c.1 = k
      · have hone : history k [(⟨c.1, c.2, some o⟩ : Exchange κ ι ω)] = [(c.2, o)] := by
          simp [history, hk]
        rw [hone]
        refine hstep _ _ _ _ _ hI (hP c (by simp) hk) (fun e he ↦ ?_)
          (by rw [← hk]; exact step_of_call hcall)
        exact hc _ (mem_of_mem_history he) c (List.mem_singleton_self c) rfl hk
      · exact hskip (Or.inl hk) (S.call_frame hcall k (Ne.symm hk))

end History

/-! ### The steps of a key -/

/-- An answered call with the states its key had before and after it. -/
structure Step (σ ι ω : Type*) where
  before : σ
  input : ι
  answer : ω
  after : σ
deriving DecidableEq

variable (S) in
/-- The steps begin in `s`, and each in the state the one before it left. -/
def Chained : σ → List (Step σ ι ω) → Prop
  | _, [] => True
  | s, e :: l => e.before = s ∧ S.step s e.input = some (e.answer, e.after) ∧ Chained e.after l

/-- The state after a list of steps from `s`. -/
def final (s : σ) (l : List (Step σ ι ω)) : σ := (l.getLast?.map Step.after).getD s

section Steps

variable [DecidableEq κ]

variable (S) in
/-- The answered calls of one key, in order. -/
def steps (k : κ) : Locked T → List (κ × ι) → List (Step σ ι ω)
  | _, [] => []
  | m, c :: calls =>
    let m' := (S.lockedCall m c.1 c.2).2
    match (S.lockedCall m c.1 c.2).1 with
    | some o =>
      if c.1 = k then ⟨S.read m.value k, c.2, o, S.read m'.value k⟩ :: steps k m' calls
      else steps k m' calls
    | none => steps k m' calls

/-- **The steps of a key are a chain**, whatever is called on the other keys in between. -/
theorem chained_steps (k : κ) (m : Locked T) (calls : List (κ × ι)) :
    S.Chained (S.read m.value k) (S.steps k m calls) := by
  induction calls generalizing m with
  | nil => trivial
  | cons c calls ih =>
    rw [steps]
    rcases lockedCall_cases (S := S) m c.1 c.2 with hc | ⟨o, t, hcall, -, hc⟩
    · rw [hc]
      exact ih ⟨m.value, true⟩
    · rw [hc]
      dsimp only
      by_cases hk : c.1 = k
      · rw [if_pos hk]
        subst hk
        exact ⟨rfl, step_of_call hcall, ih ⟨t, false⟩⟩
      · rw [if_neg hk, ← S.call_frame hcall k (Ne.symm hk)]
        exact ih ⟨t, false⟩

/-- When no call can panic, every call of the key is a step. -/
theorem map_input_steps (k : κ) {calls : List (κ × ι)}
    (hcalls : ∀ c ∈ calls, ∀ s, S.step s c.2 ≠ none) (t : T) :
    (S.steps k ⟨t, false⟩ calls).map Step.input =
      (calls.filter fun c ↦ c.1 = k).map Prod.snd := by
  induction calls generalizing t with
  | nil => rfl
  | cons c calls ih =>
    have hrest : ∀ d ∈ calls, ∀ s, S.step s d.2 ≠ none :=
      fun d hd ↦ hcalls d (List.mem_cons_of_mem _ hd)
    obtain ⟨o, s, t', -, hlocked, -, -⟩ :=
      exists_lockedCall (S := S) (k := c.1) (hcalls c List.mem_cons_self) t
    rw [steps, hlocked, List.filter_cons]
    dsimp only
    by_cases hk : c.1 = k
    · rw [if_pos hk, if_pos (decide_eq_true hk), List.map_cons, List.map_cons, ih hrest]
    · rw [if_neg hk, if_neg (by simpa using hk), ih hrest]

end Steps

@[simp] theorem final_nil (s : σ) : final s ([] : List (Step σ ι ω)) = s := rfl

@[simp] theorem final_append_singleton (s : σ) (l : List (Step σ ι ω)) (e : Step σ ι ω) :
    final s (l ++ [e]) = e.after := by
  rw [final, List.getLast?_append]
  rfl

theorem final_cons (s : σ) (e : Step σ ι ω) (l : List (Step σ ι ω)) :
    final s (e :: l) = final e.after l := by
  rw [final, List.getLast?_cons, final]
  cases l.getLast? with
  | none => rfl
  | some a => rfl

/-- A chain may be cut anywhere. -/
theorem chained_append {s : σ} {l l' : List (Step σ ι ω)} :
    S.Chained s (l ++ l') ↔ S.Chained s l ∧ S.Chained (final s l) l' := by
  induction l generalizing s with
  | nil => exact (iff_of_eq (true_and _)).symm
  | cons e l ih =>
    rw [List.cons_append, Chained, Chained, final_cons, ih, and_assoc, and_assoc]

/-- **The chain principle.** A relation between the steps so far and the state they lead to that
holds at the start and that every step keeps holds all along. -/
theorem Chained.invariant {I : List (Step σ ι ω) → σ → Prop} {s : σ} {l : List (Step σ ι ω)}
    (hstep : ∀ pre e, (∃ post, l = pre ++ e :: post) → I pre e.before →
      S.step e.before e.input = some (e.answer, e.after) → I (pre ++ [e]) e.after)
    (h₀ : I [] s) (hl : S.Chained s l) : I l (final s l) := by
  induction l using List.reverseRecOn with
  | nil => exact h₀
  | append_singleton l e ih =>
    obtain ⟨hl', hbefore, hs, -⟩ := chained_append.1 hl
    rw [← hbefore] at hs
    rw [final_append_singleton]
    refine hstep l e ⟨[], rfl⟩ ?_ hs
    rw [hbefore]
    refine ih (fun pre e' ⟨post, hpost⟩ ↦ hstep pre e' ⟨post ++ [e], ?_⟩) hl'
    rw [hpost, List.append_assoc, List.cons_append]

/-- What a step of a chain starts from. -/
theorem Chained.step_of_eq {s : σ} {l pre post : List (Step σ ι ω)} {e : Step σ ι ω}
    (hl : S.Chained s l) (he : l = pre ++ e :: post) :
    S.Chained s pre ∧ e.before = final s pre ∧
      S.step e.before e.input = some (e.answer, e.after) ∧ S.Chained e.after post := by
  subst he
  obtain ⟨hpre, hbefore, hs, hpost⟩ := chained_append.1 hl
  exact ⟨hpre, hbefore, hbefore ▸ hs, hpost⟩

end KeyedService
