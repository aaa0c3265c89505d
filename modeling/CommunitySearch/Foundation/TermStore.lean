import Mathlib.Data.List.Basic
import Mathlib.Data.List.Induction
import Mathlib.Logic.Function.Basic

/-!
# Stores with buffered delete-by-term

A document store that deletes by a **term** of the document, its `key`, and publishes a batch of
buffered commands at once. A deletion affects the documents added before it and no later one, so
a batch takes effect in command order.

The one fact everything else rests on is `mem_publish_iff`: what a batch leaves under a key is
decided by the **last** command on that key. Nothing earlier in the batch matters, and a key no
command mentions keeps its documents.

A store with one document for each key is a map (`Represents`), and a batch does to the map what its
commands do one after the other (`represents_publish`).
-/

variable {κ δ : Type*}

/-- A buffered command: replace the documents under the key of `d` by `d`, or delete those under
`k`. -/
inductive TermCmd (κ δ : Type*) where
  /-- Delete the documents under the key of `d`, then add `d`. -/
  | upsert (d : δ)
  /-- Delete the documents under `k`. -/
  | delete (k : κ)

/-- The last element of a list that satisfies `p`. -/
def List.findLast? {α : Type*} (p : α → Bool) (l : List α) : Option α :=
  l.reverse.find? p

theorem List.findLast?_concat {α : Type*} (p : α → Bool) (l : List α) (a : α) :
    (l ++ [a]).findLast? p = if p a then some a else l.findLast? p := by
  rw [findLast?, findLast?, reverse_append, reverse_singleton, singleton_append, find?_cons]
  cases p a <;> rfl

theorem List.findLast?_eq_none_iff {α : Type*} {p : α → Bool} {l : List α} :
    l.findLast? p = none ↔ ∀ a ∈ l, p a = false := by
  simp [findLast?]

theorem List.mem_of_findLast?_eq_some {α : Type*} {p : α → Bool} {l : List α} {a : α}
    (h : l.findLast? p = some a) : a ∈ l :=
  mem_reverse.1 (mem_of_find?_eq_some h)

theorem List.of_findLast?_eq_some {α : Type*} {p : α → Bool} {l : List α} {a : α}
    (h : l.findLast? p = some a) : p a = true :=
  find?_some h

namespace TermCmd

section Publish

variable [DecidableEq κ] (key : δ → κ)

/-- Delete the documents under a term. -/
def deleteTerm (docs : List δ) (k : κ) : List δ :=
  docs.filter fun d ↦ key d ≠ k

/-- Add a document. -/
def addDocument (docs : List δ) (d : δ) : List δ :=
  docs ++ [d]

/-- The effect of one command. -/
def apply (docs : List δ) : TermCmd κ δ → List δ
  | upsert d => addDocument (deleteTerm key docs (key d)) d
  | delete k => deleteTerm key docs k

/-- The effect of a batch, in command order. -/
def publish (docs : List δ) (cmds : List (TermCmd κ δ)) : List δ :=
  cmds.foldl (apply key) docs

/-- The key a command is about. -/
def term : TermCmd κ δ → κ
  | upsert d => key d
  | delete k => k

/-- The last command of a batch on the key `k`. -/
def lastOn (k : κ) (cmds : List (TermCmd κ δ)) : Option (TermCmd κ δ) :=
  cmds.findLast? fun c ↦ c.term key = k

@[simp] theorem publish_nil (docs : List δ) : publish key docs [] = docs := rfl

theorem publish_append (docs : List δ) (cmds cmds' : List (TermCmd κ δ)) :
    publish key docs (cmds ++ cmds') = publish key (publish key docs cmds) cmds' :=
  List.foldl_append

theorem publish_concat (docs : List δ) (cmds : List (TermCmd κ δ)) (c : TermCmd κ δ) :
    publish key docs (cmds ++ [c]) = apply key (publish key docs cmds) c :=
  publish_append key docs cmds [c]

variable {key}

@[simp] theorem mem_deleteTerm {docs : List δ} {k : κ} {x : δ} :
    x ∈ deleteTerm key docs k ↔ x ∈ docs ∧ key x ≠ k := by
  rw [deleteTerm, List.mem_filter, decide_eq_true_iff]

@[simp] theorem mem_addDocument {docs : List δ} {d x : δ} :
    x ∈ addDocument docs d ↔ x ∈ docs ∨ x = d := by
  rw [addDocument, List.mem_append, List.mem_singleton]

theorem mem_apply_upsert {docs : List δ} {d x : δ} :
    x ∈ apply key docs (upsert d) ↔ (x ∈ docs ∧ key x ≠ key d) ∨ x = d := by
  rw [apply, mem_addDocument, mem_deleteTerm]

theorem mem_apply_delete {docs : List δ} {k : κ} {x : δ} :
    x ∈ apply key docs (delete k) ↔ x ∈ docs ∧ key x ≠ k :=
  mem_deleteTerm

/-- A command on another key neither adds nor removes `x`. -/
theorem mem_apply_of_ne {docs : List δ} {c : TermCmd κ δ} {x : δ} (h : c.term key ≠ key x) :
    x ∈ apply key docs c ↔ x ∈ docs := by
  cases c with
  | upsert d =>
    rw [mem_apply_upsert]
    constructor
    · rintro (⟨hx, -⟩ | rfl)
      · exact hx
      · exact absurd rfl h
    · exact fun hx ↦ Or.inl ⟨hx, fun hk ↦ h hk.symm⟩
  | delete k =>
    rw [mem_apply_delete]
    exact ⟨And.left, fun hx ↦ ⟨hx, fun hk ↦ h hk.symm⟩⟩

theorem lastOn_concat (k : κ) (cmds : List (TermCmd κ δ)) (c : TermCmd κ δ) :
    lastOn key k (cmds ++ [c]) = if c.term key = k then some c else lastOn key k cmds := by
  rw [lastOn, List.findLast?_concat]
  simp only [decide_eq_true_eq]
  rfl

/-- **The last command on a key decides.** -/
theorem mem_publish_iff {docs : List δ} {cmds : List (TermCmd κ δ)} {x : δ} :
    x ∈ publish key docs cmds ↔
      match lastOn key (key x) cmds with
      | none => x ∈ docs
      | some (upsert d) => x = d
      | some (delete _) => False := by
  induction cmds using List.reverseRecOn with
  | nil => exact Iff.rfl
  | append_singleton cmds c ih =>
    rw [publish_concat, lastOn_concat]
    by_cases hc : c.term key = key x
    · rw [if_pos hc]
      cases c with
      | upsert d =>
        have hd : key d = key x := hc
        rw [mem_apply_upsert]
        simp [hd]
      | delete k =>
        have hk : k = key x := hc
        rw [mem_apply_delete]
        simp [hk]
    · rw [if_neg hc, mem_apply_of_ne hc, ih]

/-- A key no command mentions keeps its documents. -/
theorem mem_publish_of_lastOn_none {docs : List δ} {cmds : List (TermCmd κ δ)} {x : δ}
    (h : lastOn key (key x) cmds = none) : x ∈ publish key docs cmds ↔ x ∈ docs := by
  rw [mem_publish_iff, h]

/-- Under a key whose last command is an upsert there is that document and nothing else. -/
theorem mem_publish_of_lastOn_upsert {docs : List δ} {cmds : List (TermCmd κ δ)} {x d : δ}
    (h : lastOn key (key x) cmds = some (upsert d)) : x ∈ publish key docs cmds ↔ x = d := by
  rw [mem_publish_iff, h]

theorem term_of_lastOn {k : κ} {cmds : List (TermCmd κ δ)} {c : TermCmd κ δ}
    (h : lastOn key k cmds = some c) : c.term key = k := by
  rw [lastOn] at h
  simpa using List.of_findLast?_eq_some h

/-- The document of a last upsert is published. -/
theorem mem_publish_of_lastOn {docs : List δ} {cmds : List (TermCmd κ δ)} {k : κ} {d : δ}
    (h : lastOn key k cmds = some (upsert d)) : d ∈ publish key docs cmds := by
  obtain rfl : key d = k := term_of_lastOn h
  exact (mem_publish_of_lastOn_upsert h).2 rfl

/-- Every published document was there before or is upserted by the batch. -/
theorem mem_docs_or_upsert_mem {docs : List δ} {cmds : List (TermCmd κ δ)} {x : δ}
    (h : x ∈ publish key docs cmds) : x ∈ docs ∨ upsert x ∈ cmds := by
  rw [mem_publish_iff] at h
  rcases hlast : lastOn key (key x) cmds with - | (d | k)
  · rw [hlast] at h
    exact Or.inl h
  · rw [hlast] at h
    obtain rfl : x = d := h
    exact Or.inr (List.mem_of_findLast?_eq_some hlast)
  · rw [hlast] at h
    exact h.elim

/-- A document that is upserted is published, unless a later command is about its key. -/
theorem mem_publish_or_exists_later (docs : List δ) (before after : List (TermCmd κ δ)) (d : δ) :
    d ∈ publish key docs (before ++ upsert d :: after) ∨
      ∃ c ∈ after, c.term key = key d := by
  by_cases hlater : ∃ c ∈ after, c.term key = key d
  · exact Or.inr hlater
  · have hnone : lastOn key (key d) after = none := by
      rw [lastOn, List.findLast?_eq_none_iff]
      exact fun c hc ↦ decide_eq_false fun hterm ↦ hlater ⟨c, hc, hterm⟩
    have hadded : d ∈ publish key docs (before ++ [upsert d]) := by
      rw [publish_concat, mem_apply_upsert]
      exact Or.inr rfl
    rw [List.append_cons, publish_append]
    exact Or.inl ((mem_publish_of_lastOn_none hnone).2 hadded)

/-- A store with one document for each key has one after a batch. -/
theorem pairwise_publish {docs : List δ} (h : docs.Pairwise fun a b ↦ key a ≠ key b)
    (cmds : List (TermCmd κ δ)) :
    (publish key docs cmds).Pairwise fun a b ↦ key a ≠ key b := by
  induction cmds generalizing docs with
  | nil => exact h
  | cons c cmds ih =>
    refine ih ?_
    cases c with
    | upsert d =>
      refine List.pairwise_append.2 ⟨h.filter _, List.pairwise_singleton _ d, fun a ha b hb ↦ ?_⟩
      rw [List.mem_singleton.1 hb]
      exact (mem_deleteTerm.1 ha).2
    | delete k => exact h.filter _

/-- Documents of different keys are added one after the other. -/
theorem publish_upserts {docs ds : List δ}
    (h : (docs ++ ds).Pairwise fun a b ↦ key a ≠ key b) :
    publish key docs (ds.map upsert) = docs ++ ds := by
  induction ds generalizing docs with
  | nil => exact (List.append_nil docs).symm
  | cons d ds ih =>
    have hfresh : ∀ x ∈ docs, key x ≠ key d := fun x hx ↦
      (List.pairwise_append.1 h).2.2 x hx d List.mem_cons_self
    have hkeep : deleteTerm key docs (key d) = docs :=
      List.filter_eq_self.2 fun x hx ↦ decide_eq_true (hfresh x hx)
    have hfirst : apply key docs (upsert d) = docs ++ [d] := by rw [apply, hkeep, addDocument]
    rw [List.append_cons] at h ⊢
    rw [List.map_cons, publish, List.foldl_cons, hfirst]
    exact ih h

end Publish

/-! ### The store as a map -/

section Represents

variable [DecidableEq κ] {key : δ → κ} {docs : List δ} {m : κ → Option δ}

/-- The documents are the values of the map `m`, one for each key. -/
structure Represents (key : δ → κ) (docs : List δ) (m : κ → Option δ) : Prop where
  unique : docs.Pairwise fun a b ↦ key a ≠ key b
  mem_iff : ∀ d, d ∈ docs ↔ m (key d) = some d
  key_eq : ∀ {k d}, m k = some d → key d = k

omit [DecidableEq κ] in
theorem represents_nil (key : δ → κ) : Represents key [] fun _ ↦ none :=
  ⟨List.Pairwise.nil, fun _ ↦ iff_of_false List.not_mem_nil fun h ↦ (by cases h),
    fun h ↦ by cases h⟩

/-- What a command does to a map. -/
def effect (key : δ → κ) (m : κ → Option δ) : TermCmd κ δ → κ → Option δ
  | upsert d => Function.update m (key d) (some d)
  | delete k => Function.update m k none

theorem Represents.deleteTerm (h : Represents key docs m) (k : κ) :
    Represents key (deleteTerm key docs k) (Function.update m k none) where
  unique := h.unique.filter _
  mem_iff d := by
    rw [mem_deleteTerm, h.mem_iff]
    by_cases hk : key d = k
    · rw [hk, Function.update_self]
      exact iff_of_false (fun hd ↦ hd.2 rfl) fun hd ↦ by cases hd
    · rw [Function.update_of_ne hk, and_iff_left hk]
  key_eq {k' d} hd := by
    by_cases hk : k' = k
    · rw [hk, Function.update_self] at hd
      cases hd
    · rw [Function.update_of_ne hk] at hd
      exact h.key_eq hd

/-- **A command on a store is its effect on the map.** -/
theorem Represents.apply (h : Represents key docs m) (c : TermCmd κ δ) :
    Represents key (apply key docs c) (effect key m c) := by
  cases c with
  | delete k => exact h.deleteTerm k
  | upsert d =>
    refine ⟨?_, fun x ↦ ?_, fun {k x} hx ↦ ?_⟩
    · refine List.pairwise_append.2 ⟨(h.deleteTerm (key d)).unique, List.pairwise_singleton _ _,
        fun a ha b hb ↦ ?_⟩
      rw [List.mem_singleton.1 hb]
      exact (mem_deleteTerm.1 ha).2
    · rw [mem_apply_upsert, h.mem_iff, effect]
      by_cases hk : key x = key d
      · rw [hk, Function.update_self, Option.some_inj]
        exact ⟨fun hx ↦ hx.elim (fun hx ↦ absurd rfl hx.2) Eq.symm, fun hx ↦ Or.inr hx.symm⟩
      · rw [Function.update_of_ne hk, and_iff_left hk]
        exact or_iff_left fun hx ↦ hk (congrArg key hx)
    · rw [effect] at hx
      by_cases hk : k = key d
      · rw [hk, Function.update_self] at hx
        rw [hk, Option.some.inj hx]
      · rw [Function.update_of_ne hk] at hx
        exact h.key_eq hx

/-- **A batch on a store is its effect on the map.** -/
theorem represents_publish (h : Represents key docs m) (cmds : List (TermCmd κ δ)) :
    Represents key (publish key docs cmds) (cmds.foldl (effect key) m) := by
  induction cmds generalizing docs m with
  | nil => exact h
  | cons c cmds ih => exact ih (h.apply c)

end Represents

/-! ### Deleting many keys -/

/-- Delete the documents under each of the keys. -/
def deletes (ks : List κ) : List (TermCmd κ δ) :=
  ks.map delete

theorem mem_publish_deletes [DecidableEq κ] {key : δ → κ} {docs : List δ} {ks : List κ} {x : δ} :
    x ∈ publish key docs (deletes ks) ↔ x ∈ docs ∧ key x ∉ ks := by
  induction ks generalizing docs with
  | nil => simp [deletes]
  | cons k ks ih =>
    have hcons : publish key docs (deletes (k :: ks)) =
        publish key (deleteTerm key docs k) (deletes ks) := rfl
    rw [hcons, ih, mem_deleteTerm, List.mem_cons, not_or, and_assoc]

end TermCmd
