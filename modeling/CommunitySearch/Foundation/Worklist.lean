import Mathlib.Data.List.Basic
import Mathlib.Logic.Relation
import Mathlib.Order.Bounds.Basic

/-!
# Worklist search

A frontier of nodes seen and nodes still to expand. `push` is the guarded insertion of every
worklist algorithm: a node already seen is not queued again. Expanding the head of the queue with
its successors, until the queue is empty, visits exactly the nodes reachable from the seeds
(`Explored.mem_done_iff`), the least set that contains the seeds and is closed under successors
(`isLeast_reach`); the order of the queue plays no role.

The successors may be known from the start (`Explored.expand`), or be learnt while the search goes
on, some nodes being tried more than once (`Explored.take`, `Explored.requeue`, `Explored.learn`).
-/

/-- Nodes seen, and nodes seen but not yet expanded. -/
structure Worklist (α : Type*) where
  /-- Every node ever queued. -/
  visited : List α
  /-- The nodes still to expand, first out first. -/
  queue : List α

namespace Worklist

variable {α : Type*} [DecidableEq α]

/-- Nothing seen. -/
def empty : Worklist α := ⟨[], []⟩

/-- Queue a node unless it has been seen. -/
def push (w : Worklist α) (x : α) : Worklist α :=
  if x ∈ w.visited then w else ⟨w.visited ++ [x], w.queue ++ [x]⟩

/-- Queue a list of nodes, in order. -/
def pushAll (w : Worklist α) (xs : List α) : Worklist α :=
  xs.foldl push w

theorem mem_visited_push {w : Worklist α} {x y : α} :
    y ∈ (w.push x).visited ↔ y ∈ w.visited ∨ y = x := by
  rw [push]
  split
  case isTrue h => exact ⟨Or.inl, fun hy ↦ hy.elim id fun he ↦ by rwa [he]⟩
  case isFalse => rw [List.mem_append, List.mem_singleton]

theorem mem_visited_pushAll {w : Worklist α} {xs : List α} {y : α} :
    y ∈ (w.pushAll xs).visited ↔ y ∈ w.visited ∨ y ∈ xs := by
  induction xs generalizing w with
  | nil => simp [pushAll]
  | cons x xs ih =>
    have hcons : w.pushAll (x :: xs) = (w.push x).pushAll xs := rfl
    rw [hcons, ih, mem_visited_push, List.mem_cons, or_assoc]

/-- The elements of a list that are not in `seen`, each once. -/
def fresh (seen : List α) : List α → List α
  | [] => []
  | x :: xs => if x ∈ seen then fresh seen xs else x :: fresh (seen ++ [x]) xs

theorem mem_fresh {seen xs : List α} {y : α} : y ∈ fresh seen xs ↔ y ∈ xs ∧ y ∉ seen := by
  induction xs generalizing seen with
  | nil => simp [fresh]
  | cons x xs ih =>
    rw [fresh]
    split
    case isTrue h =>
      rw [ih, List.mem_cons]
      exact ⟨fun hy ↦ ⟨.inr hy.1, hy.2⟩,
        fun hy ↦ ⟨hy.1.resolve_left fun he ↦ hy.2 (he ▸ h), hy.2⟩⟩
    case isFalse h =>
      rw [List.mem_cons, List.mem_cons, ih, List.mem_append, List.mem_singleton]
      by_cases hy : y = x
      · simp [hy, h]
      · simp [hy]

theorem fresh_append (seen xs ys : List α) :
    fresh seen (xs ++ ys) = fresh seen xs ++ fresh (seen ++ fresh seen xs) ys := by
  induction xs generalizing seen with
  | nil => rw [fresh, List.append_nil, List.nil_append, List.nil_append]
  | cons x xs ih =>
    rw [List.cons_append, fresh, fresh]
    split
    · exact ih seen
    · rw [ih, List.append_assoc]
      rfl

theorem nodup_fresh (seen xs : List α) : (fresh seen xs).Nodup := by
  induction xs generalizing seen with
  | nil => exact List.nodup_nil
  | cons x xs ih =>
    rw [fresh]
    split
    · exact ih seen
    · refine List.nodup_cons.2 ⟨fun hx ↦ ?_, ih _⟩
      exact (mem_fresh.1 hx).2 (List.mem_append_right _ List.mem_cons_self)

/-- Queued nodes were queued before or are new. -/
theorem mem_queue_push {w : Worklist α} {x y : α} (h : y ∈ (w.push x).queue) :
    y ∈ w.queue ∨ y = x := by
  rw [push] at h
  split at h
  · exact Or.inl h
  · exact (List.mem_append.1 h).imp_right List.mem_singleton.1

theorem mem_queue_pushAll {w : Worklist α} {xs : List α} {y : α} (h : y ∈ (w.pushAll xs).queue) :
    y ∈ w.queue ∨ y ∈ xs := by
  induction xs generalizing w with
  | nil => exact Or.inl h
  | cons x xs ih =>
    rcases ih h with hq | hx
    · rcases mem_queue_push hq with hw | rfl
      · exact Or.inl hw
      · exact Or.inr List.mem_cons_self
    · exact Or.inr (List.mem_cons_of_mem _ hx)

/-- Pushing never drops a queued node. -/
theorem mem_queue_push_of_mem {w : Worklist α} {x y : α} (h : y ∈ w.queue) :
    y ∈ (w.push x).queue := by
  rw [push]
  split
  · exact h
  · exact List.mem_append_left _ h

/-- A node that becomes visited by a push is queued by it. -/
theorem mem_queue_push_of_new {w : Worklist α} {x y : α} (h : y ∈ (w.push x).visited)
    (hn : y ∉ w.visited) : y ∈ (w.push x).queue := by
  rw [push] at h ⊢
  split at h
  · exact absurd h hn
  · rename_i hx
    rw [if_neg hx]
    exact List.mem_append_right _ ((List.mem_append.1 h).resolve_left hn)

/-- Only new nodes are queued. -/
theorem mem_queue_pushAll_new {w : Worklist α} {xs : List α} {y : α}
    (h : y ∈ (w.pushAll xs).queue) : y ∈ w.queue ∨ y ∉ w.visited := by
  induction xs generalizing w with
  | nil => exact Or.inl h
  | cons x xs ih =>
    have hcons : w.pushAll (x :: xs) = (w.push x).pushAll xs := rfl
    rw [hcons] at h
    rcases ih h with hq | hv
    · rw [push] at hq
      split at hq
      case isTrue => exact Or.inl hq
      case isFalse hx =>
        rcases List.mem_append.1 hq with hq | hq
        · exact Or.inl hq
        · exact Or.inr (List.mem_singleton.1 hq ▸ hx)
    · exact Or.inr fun hy ↦ hv (mem_visited_push.2 (Or.inl hy))

/-- **No node is queued twice**, if the queue holds only seen nodes. -/
theorem nodup_queue_pushAll {w : Worklist α} (xs : List α) (hnodup : w.queue.Nodup)
    (hseen : ∀ x ∈ w.queue, x ∈ w.visited) : (w.pushAll xs).queue.Nodup := by
  induction xs generalizing w with
  | nil => exact hnodup
  | cons x xs ih =>
    have hcons : w.pushAll (x :: xs) = (w.push x).pushAll xs := rfl
    rw [hcons]
    refine ih ?_ fun y hy ↦ mem_visited_push.2 ((mem_queue_push hy).imp_left (hseen y))
    rw [push]
    split
    case isTrue => exact hnodup
    case isFalse hx =>
      have hnew : ∀ y ∈ w.queue, ∀ z ∈ [x], y ≠ z := fun y hy z hz hyz ↦ by
        rw [hyz, List.mem_singleton.1 hz] at hy
        exact hx (hseen x hy)
      exact List.nodup_append.2 ⟨hnodup, List.pairwise_singleton _ x, hnew⟩

/-! ### Reachability from seeds -/

/-- `y` is reachable from a seed along `next`. -/
def Reach (next : α → List α) (seeds : List α) (y : α) : Prop :=
  ∃ x ∈ seeds, Relation.ReflTransGen (fun a b ↦ b ∈ next a) x y

omit [DecidableEq α] in
theorem Reach.seed {next : α → List α} {seeds : List α} {x : α} (h : x ∈ seeds) :
    Reach next seeds x := ⟨x, h, .refl⟩

omit [DecidableEq α] in
theorem Reach.step {next : α → List α} {seeds : List α} {x y : α} (h : Reach next seeds x)
    (hy : y ∈ next x) : Reach next seeds y := by
  obtain ⟨s, hs, hp⟩ := h
  exact ⟨s, hs, hp.tail hy⟩

omit [DecidableEq α] in
/-- The induction principle of reachability. -/
theorem Reach.induction {next : α → List α} {seeds : List α} {C : α → Prop}
    (hseed : ∀ x ∈ seeds, C x)
    (hstep : ∀ x y, Reach next seeds x → C x → y ∈ next x → C y) {y : α}
    (h : Reach next seeds y) : C y := by
  obtain ⟨s, hs, hp⟩ := h
  induction hp with
  | refl => exact hseed s hs
  | tail hp hy ih => exact hstep _ _ ⟨s, hs, hp⟩ ih hy

omit [DecidableEq α] in
theorem Reach.mono {next next' : α → List α} {seeds : List α} {y : α} (h : Reach next seeds y)
    (hnext : ∀ a, ∀ b ∈ next a, b ∈ next' a) : Reach next' seeds y := by
  obtain ⟨s, hs, hp⟩ := h
  exact ⟨s, hs, Relation.ReflTransGen.mono (fun a b hb ↦ hnext a b hb) _ _ hp⟩

omit [DecidableEq α] in
/-- **Reachability is the least closed set** that contains the seeds. -/
theorem isLeast_reach (next : α → List α) (seeds : List α) :
    IsLeast {C : Set α | (∀ x ∈ seeds, x ∈ C) ∧ ∀ x ∈ C, ∀ y ∈ next x, y ∈ C}
      {y | Reach next seeds y} := by
  refine ⟨⟨fun x hx ↦ .seed hx, fun x hx y hy ↦ Reach.step hx hy⟩, ?_⟩
  rintro C ⟨hseeds, hclosed⟩ y hy
  exact Reach.induction (C := fun y ↦ y ∈ C) hseeds (fun x y _ hx hxy ↦ hclosed x hx y hxy) hy

/-! ### The search invariant -/

/-- The state of a search that has expanded exactly `done`. -/
structure Explored (next : α → List α) (seeds : List α) (w : Worklist α) (done : List α) :
    Prop where
  /-- The seeds have been seen. -/
  seeds_visited : ∀ x ∈ seeds, x ∈ w.visited
  /-- Nothing unreachable has been seen. -/
  reach : ∀ x ∈ w.visited, Reach next seeds x
  /-- What has been seen is still queued or has been expanded. -/
  queued_or_done : ∀ x ∈ w.visited, x ∈ w.queue ∨ x ∈ done
  /-- The queue holds only seen nodes. -/
  queue_visited : ∀ x ∈ w.queue, x ∈ w.visited
  /-- Only seen nodes have been expanded. -/
  done_visited : ∀ x ∈ done, x ∈ w.visited
  /-- The successors of an expanded node have been seen. -/
  closed : ∀ x ∈ done, ∀ y ∈ next x, y ∈ w.visited

namespace Explored

variable {next : α → List α} {seeds : List α} {w : Worklist α} {done : List α}

/-- Every visited node of `w.pushAll xs` is queued in it or was expanded. -/
theorem queued_or_done_pushAll {w : Worklist α} {done xs : List α}
    (h : ∀ x ∈ w.visited, x ∈ w.queue ∨ x ∈ done) :
    ∀ x ∈ (w.pushAll xs).visited, x ∈ (w.pushAll xs).queue ∨ x ∈ done := by
  induction xs generalizing w with
  | nil => exact h
  | cons y xs ih =>
    refine ih fun x hx ↦ ?_
    by_cases hv : x ∈ w.visited
    · exact (h x hv).imp_left mem_queue_push_of_mem
    · exact Or.inl (mem_queue_push_of_new hx hv)

theorem queue_visited_pushAll {w : Worklist α} {xs : List α}
    (h : ∀ x ∈ w.queue, x ∈ w.visited) :
    ∀ x ∈ (w.pushAll xs).queue, x ∈ (w.pushAll xs).visited := fun _ hx ↦
  mem_visited_pushAll.2 ((mem_queue_pushAll hx).imp_left (h _))

omit [DecidableEq α] in
/-- The head of the queue is one of the expanded nodes from now on. -/
theorem queued_or_done_head {x : α} {rest : List α} (h : Explored next seeds w done)
    (hq : w.queue = x :: rest) : ∀ y ∈ w.visited, y ∈ rest ∨ y ∈ done ++ [x] := by
  intro y hy
  rcases h.queued_or_done y hy with hmem | hd
  · rw [hq, List.mem_cons] at hmem
    rcases hmem with rfl | hr
    · exact Or.inr (List.mem_append_right _ (List.mem_singleton_self _))
    · exact Or.inl hr
  · exact Or.inr (List.mem_append_left _ hd)

omit [DecidableEq α] in
theorem done_visited_head {x : α} {rest : List α} (h : Explored next seeds w done)
    (hq : w.queue = x :: rest) : ∀ y ∈ done ++ [x], y ∈ w.visited := by
  intro y hy
  rcases List.mem_append.1 hy with hd | hx
  · exact h.done_visited y hd
  · exact h.queue_visited y (hq ▸ List.mem_singleton.1 hx ▸ List.mem_cons_self)

/-- **The start**: the seeds have been pushed and nothing has been expanded. -/
theorem start (next : α → List α) (seeds : List α) :
    Explored next seeds ((empty : Worklist α).pushAll seeds) [] where
  seeds_visited _ hx := mem_visited_pushAll.2 (Or.inr hx)
  reach _ hx := .seed ((mem_visited_pushAll.1 hx).resolve_left List.not_mem_nil)
  queued_or_done := queued_or_done_pushAll fun _ hx ↦ absurd hx List.not_mem_nil
  queue_visited := queue_visited_pushAll fun _ hx ↦ absurd hx List.not_mem_nil
  done_visited _ hx := absurd hx List.not_mem_nil
  closed _ hx := absurd hx List.not_mem_nil

/-- **The step**: the head of the queue is expanded and its successors are pushed. -/
theorem expand {x : α} {rest : List α} (h : Explored next seeds w done)
    (hq : w.queue = x :: rest) :
    Explored next seeds ((⟨w.visited, rest⟩ : Worklist α).pushAll (next x)) (done ++ [x]) where
  seeds_visited y hy := mem_visited_pushAll.2 (Or.inl (h.seeds_visited y hy))
  reach y hy := by
    rcases mem_visited_pushAll.1 hy with hv | hn
    · exact h.reach y hv
    · exact (h.reach x (h.queue_visited x (hq ▸ List.mem_cons_self))).step hn
  queued_or_done := queued_or_done_pushAll (h.queued_or_done_head hq)
  queue_visited := queue_visited_pushAll fun y hy ↦
    h.queue_visited y (hq ▸ List.mem_cons_of_mem _ hy)
  done_visited y hy := mem_visited_pushAll.2 (Or.inl (h.done_visited_head hq y hy))
  closed y hy z hz := by
    rcases List.mem_append.1 hy with hd | hx
    · exact mem_visited_pushAll.2 (Or.inl (h.closed y hd z hz))
    · rw [List.mem_singleton.1 hx] at hz
      exact mem_visited_pushAll.2 (Or.inr hz)

omit [DecidableEq α] in
/-- The head of the queue is taken to be expanded; what is known of its successors has been
seen. -/
theorem take {x : α} {rest : List α} (h : Explored next seeds w done) (hq : w.queue = x :: rest)
    (hx : ∀ y ∈ next x, y ∈ w.visited) :
    Explored next seeds ⟨w.visited, rest⟩ (done ++ [x]) where
  seeds_visited := h.seeds_visited
  reach := h.reach
  queued_or_done := h.queued_or_done_head hq
  queue_visited y hy := h.queue_visited y (hq ▸ List.mem_cons_of_mem _ hy)
  done_visited := h.done_visited_head hq
  closed y hy := by
    rcases List.mem_append.1 hy with hd | hyx
    · exact h.closed y hd
    · rwa [List.mem_singleton.1 hyx]

omit [DecidableEq α] in
/-- A node that was taken is put back, to be tried again. -/
theorem requeue {x : α} (h : Explored next seeds w done) (hx : x ∈ w.visited) :
    Explored next seeds ⟨w.visited, x :: w.queue⟩ done where
  seeds_visited := h.seeds_visited
  reach := h.reach
  queued_or_done y hy := (h.queued_or_done y hy).imp_left (List.mem_cons_of_mem _)
  queue_visited y hy := by
    rcases List.mem_cons.1 hy with rfl | hy
    · exact hx
    · exact h.queue_visited y hy
  done_visited := h.done_visited
  closed := h.closed

/-- **Successors are learnt**: `xs` turn out to be successors of `x`, and are pushed. -/
theorem learn {next' : α → List α} {x : α} {xs : List α} (h : Explored next seeds w done)
    (hx : x ∈ w.visited) (hnext : ∀ a b, b ∈ next' a ↔ b ∈ next a ∨ a = x ∧ b ∈ xs) :
    Explored next' seeds (w.pushAll xs) done where
  seeds_visited y hy := mem_visited_pushAll.2 (Or.inl (h.seeds_visited y hy))
  reach y hy := by
    have hmono : ∀ z ∈ w.visited, Reach next' seeds z := fun z hz ↦
      (h.reach z hz).mono fun a b hb ↦ (hnext a b).2 (Or.inl hb)
    rcases mem_visited_pushAll.1 hy with hv | hn
    · exact hmono y hv
    · exact (hmono x hx).step ((hnext x y).2 (Or.inr ⟨rfl, hn⟩))
  queued_or_done := queued_or_done_pushAll h.queued_or_done
  queue_visited := queue_visited_pushAll h.queue_visited
  done_visited y hy := mem_visited_pushAll.2 (Or.inl (h.done_visited y hy))
  closed y hy z hz := by
    rcases (hnext y z).1 hz with hold | ⟨-, hnew⟩
    · exact mem_visited_pushAll.2 (Or.inl (h.closed y hy z hold))
    · exact mem_visited_pushAll.2 (Or.inr hnew)

omit [DecidableEq α] in
/-- Only which seeds there are matters, not their order. -/
theorem congr_seeds {seeds' : List α} (h : Explored next seeds w done)
    (hseeds : ∀ x, x ∈ seeds ↔ x ∈ seeds') : Explored next seeds' w done where
  seeds_visited x hx := h.seeds_visited x ((hseeds x).2 hx)
  reach x hx := by
    obtain ⟨s, hs, hp⟩ := h.reach x hx
    exact ⟨s, (hseeds s).1 hs, hp⟩
  queued_or_done := h.queued_or_done
  queue_visited := h.queue_visited
  done_visited := h.done_visited
  closed := h.closed

omit [DecidableEq α] in
/-- **Exactness**: when the queue is empty, the nodes expanded are the reachable ones. -/
theorem mem_done_iff (h : Explored next seeds w done) (hq : w.queue = []) {y : α} :
    y ∈ done ↔ Reach next seeds y := by
  have hdone : ∀ x ∈ w.visited, x ∈ done := fun x hx ↦
    (h.queued_or_done x hx).resolve_left (hq ▸ List.not_mem_nil)
  refine ⟨fun hy ↦ h.reach y (h.done_visited y hy), fun hy ↦ ?_⟩
  refine Reach.induction (C := fun y ↦ y ∈ done) (fun x hx ↦ hdone x (h.seeds_visited x hx)) ?_ hy
  exact fun x y _ hx hxy ↦ hdone y (h.closed x hx y hxy)

end Explored

end Worklist
