import CommunitySearch.Api.Gossip
import CommunitySearch.Foundation.Machine
import CommunitySearch.Foundation.Spreading
import Mathlib.Data.Set.Lattice

/-!
# Convergence of gossip

A network of engines that exchange their lists of discovered engines, any number of exchanges at a
time. An exchange is three steps: the source lists its table and sends it (`start`), the target
merges it and answers with its list before the merge (`serve`), and the source merges the answer
with the list it sent (`finish`); it may also fail at any point. Other exchanges of either engine
may fall between the steps.

No engine ever loses a URL, and no URL comes from outside the network. An exchange that is carried
out within a stretch of steps brings both engines everything either held at the beginning of the
stretch (`le_of_carriesOut`), which makes URLs spread over the graph of the engines' exchanges round
by round.
-/

namespace CommunitySearch

open Gossip

/-- An exchange in progress: the list that has been sent, and the answer once there is one. -/
structure NetExchange (ι : Type*) where
  source : ι
  target : ι
  snapshot : List DiscoveredEngine
  reply : Option ExchangeResponse

/-- The tables of the engines and the exchanges in progress. -/
structure GossipNetwork (ι : Type*) where
  table : ι → DiscoveredEngines
  exchanges : ℕ → Option (NetExchange ι)

/-- What can happen in the network; `k` numbers the exchange, and `now` is the clock of the engine
that merges. -/
inductive NetLabel (ι : Type*) where
  | start (k : ℕ) (source target : ι)
  | serve (k : ℕ) (now : Int)
  | finish (k : ℕ) (now : Int)
  /-- The source gets no answer it can use. -/
  | fail (k : ℕ)

/-- The exchange a step belongs to. -/
def NetLabel.exchange {ι : Type*} : NetLabel ι → ℕ
  | .start k _ _ => k
  | .serve k _ => k
  | .finish k _ => k
  | .fail k => k

namespace GossipNetwork

variable {ι : Type*} [DecidableEq ι]

/-- The exchange `k` is over, or as given. -/
def setExchange (s : GossipNetwork ι) (k : ℕ) (x : Option (NetExchange ι)) : GossipNetwork ι :=
  { s with exchanges := Function.update s.exchanges k x }

/-- The engine `i` has a new table. -/
def setTable (s : GossipNetwork ι) (i : ι) (t : DiscoveredEngines) : GossipNetwork ι :=
  { s with table := Function.update s.table i t }

/-- The network of engines of which `i` speaks the protocol `version i`. -/
def machine (X : Crates) (version : ι → String) : Machine (GossipNetwork ι) (NetLabel ι) where
  step s
    | .start k source target =>
      match s.exchanges k with
      | none => some (s.setExchange k (some ⟨source, target, (s.table source).list, none⟩))
      | some _ => none
    | .serve k now =>
      match s.exchanges k with
      | some ⟨source, target, snapshot, none⟩ =>
        match Gossip.exchange X (version target) now (request (version source) snapshot)
          (s.table target) with
        | .ok (reply, t) =>
          some ((s.setTable target t).setExchange k (some ⟨source, target, snapshot, some reply⟩))
        | .error _ => some (s.setExchange k none)
      | _ => none
    | .finish k now =>
      match s.exchanges k with
      | some ⟨source, _, snapshot, some reply⟩ =>
        match readAnswer X (version source) (.response reply) with
        | .ok body =>
          let t := mergeInto snapshot body.engines now (s.table source)
          some ((s.setTable source t).setExchange k none)
        | .error _ => some (s.setExchange k none)
      | _ => none
    | .fail k => (s.exchanges k).map fun _ ↦ s.setExchange k none

/-- What a step of the exchange `k` does. -/
inductive Change (version : ι → String) (s : GossipNetwork ι) (k : ℕ) : GossipNetwork ι → Prop
  | start (source target : ι) :
    Change version s k (s.setExchange k (some ⟨source, target, (s.table source).list, none⟩))
  | serve {x : NetExchange ι} (now : Int) (hx : s.exchanges k = some x) :
    Change version s k ((s.setTable x.target (mergeInto (s.table x.target).list
      (x.snapshot.map DiscoveredEngine.summary) now (s.table x.target))).setExchange k
        (some ⟨x.source, x.target, x.snapshot,
          some ⟨version x.target, payload (s.table x.target)⟩⟩))
  | finish {x : NetExchange ι} {reply : ExchangeResponse} (now : Int)
    (hx : s.exchanges k = some x) (hreply : x.reply = some reply) :
    Change version s k ((s.setTable x.source (mergeInto x.snapshot reply.engines now
      (s.table x.source))).setExchange k none)
  | drop : Change version s k (s.setExchange k none)

variable {X : Crates} {version : ι → String} {s s' : GossipNetwork ι} {l : NetLabel ι}
  {ls : List (NetLabel ι)} {k : ℕ}

theorem change_of_step (h : (machine X version).step s l = some s') :
    Change version s l.exchange s' := by
  rcases l with ⟨k, i, j⟩ | ⟨k, now⟩ | ⟨k, now⟩ | k
  · rw [machine] at h
    dsimp only at h
    split at h
    · obtain rfl := Option.some.inj h
      exact .start i j
    · cases h
  · rw [machine] at h
    dsimp only at h
    split at h
    case h_1 i j snapshot hx =>
      generalize hr : Gossip.exchange X (version j) now (request (version i) snapshot)
        (s.table j) = r at h
      rcases r with error | r
      · obtain rfl := Option.some.inj h
        exact .drop
      · obtain ⟨-, rfl⟩ := exchange_eq_ok.1 hr
        obtain rfl := Option.some.inj h
        exact .serve now hx
    · cases h
  · rw [machine] at h
    dsimp only at h
    split at h
    case h_1 i j snapshot reply hx =>
      generalize hr : readAnswer X (version i) (.response reply) = r at h
      rcases r with error | body
      · obtain rfl := Option.some.inj h
        exact .drop
      · obtain rfl := PeerAnswer.response.inj (eq_response_of_readAnswer hr)
        obtain rfl := Option.some.inj h
        exact .finish now hx rfl
    · cases h
  · obtain ⟨-, -, rfl⟩ := Option.map_eq_some_iff.1 h
    exact .drop

omit [DecidableEq ι] in
theorem exchanges_setExchange (s : GossipNetwork ι) (k k' : ℕ) (x : Option (NetExchange ι)) :
    (s.setExchange k x).exchanges k' = if k' = k then x else s.exchanges k' :=
  Function.update_apply s.exchanges k x k'

theorem table_setTable (s : GossipNetwork ι) (i j : ι) (t : DiscoveredEngines) :
    (s.setTable i t).table j = if j = i then t else s.table j :=
  Function.update_apply s.table i t j

omit [DecidableEq ι] in
@[simp] theorem table_setExchange (s : GossipNetwork ι) (k : ℕ) (x : Option (NetExchange ι)) :
    (s.setExchange k x).table = s.table := rfl

@[simp] theorem exchanges_setTable (s : GossipNetwork ι) (i : ι) (t : DiscoveredEngines) :
    (s.setTable i t).exchanges = s.exchanges := rfl

/-- The URLs an engine has discovered. -/
def urls (s : GossipNetwork ι) (i : ι) : Set String := (s.table i).urls

theorem urls_setTable_mergeInto (s : GossipNetwork ι) (i j : ι) (engines : List DiscoveredEngine)
    (entries : List EngineSummary) (now : Int) :
    (s.setTable i (mergeInto engines entries now (s.table i))).urls j =
      if j = i then s.urls i ∪ (listUrls engines ∪ payloadUrls entries) else s.urls j := by
  rw [urls, table_setTable]
  split
  · exact urls_mergeInto
  · rfl

/-! ### No URL is lost -/

theorem urls_subset_of_change (h : Change version s k s') (i : ι) : s.urls i ⊆ s'.urls i := by
  have hmerge : ∀ (j : ι) (engines : List DiscoveredEngine) (entries : List EngineSummary)
      (now : Int), s.urls i ⊆
        (s.setTable j (mergeInto engines entries now (s.table j))).urls i := by
    intro j engines entries now
    rw [urls_setTable_mergeInto]
    split
    case isTrue hj =>
      rw [hj]
      exact Set.subset_union_left
    case isFalse => exact subset_rfl
  cases h with
  | start => exact subset_rfl
  | serve now hx => exact hmerge _ _ _ _
  | finish now hx hreply => exact hmerge _ _ _ _
  | drop => exact subset_rfl

/-- **Growth.** Over every run, an engine only discovers more. -/
theorem urls_subset_of_run (h : (machine X version).run s ls = some s') (i : ι) :
    s.urls i ⊆ s'.urls i :=
  Machine.invariant (I := fun u ↦ s.urls i ⊆ u.urls i)
    (fun _ _ _ hI hs ↦ hI.trans (urls_subset_of_change (change_of_step hs) i)) subset_rfl ⟨ls, h⟩

/-! ### No URL comes from outside -/

/-- What is in transit is known to the engine it comes from. -/
def Sound (s : GossipNetwork ι) : Prop :=
  ∀ k x, s.exchanges k = some x → listUrls x.snapshot ⊆ s.urls x.source ∧
    ∀ reply, x.reply = some reply → payloadUrls reply.engines ⊆ s.urls x.target

/-- The URLs of all engines. -/
def allUrls (s : GossipNetwork ι) : Set String := ⋃ i, s.urls i

theorem Sound.of_change (hs : s.Sound) (h : Change version s k s') : s'.Sound := by
  have hgrow := urls_subset_of_change h
  -- the exchanges that were there stay sound, as the tables grow
  have hold : ∀ k' x, s.exchanges k' = some x → listUrls x.snapshot ⊆ s'.urls x.source ∧
      ∀ reply, x.reply = some reply → payloadUrls reply.engines ⊆ s'.urls x.target :=
    fun k' x hx ↦ ⟨(hs k' x hx).1.trans (hgrow _),
      fun reply hreply ↦ ((hs k' x hx).2 reply hreply).trans (hgrow _)⟩
  intro k' x hx
  cases h with
  | start source target =>
    rw [exchanges_setExchange] at hx
    split at hx
    · obtain rfl := Option.some.inj hx
      exact ⟨(listUrls_list _).subset, fun reply hreply ↦ by cases hreply⟩
    · exact hold k' x hx
  | serve now hx₀ =>
    rw [exchanges_setExchange, exchanges_setTable] at hx
    split at hx
    · obtain rfl := Option.some.inj hx
      refine ⟨(hold _ _ hx₀).1, fun reply hreply ↦ ?_⟩
      obtain rfl := Option.some.inj hreply
      exact (payloadUrls_payload _).subset.trans (hgrow _)
    · exact hold k' x hx
  | finish now hx₀ hreply =>
    rw [exchanges_setExchange, exchanges_setTable] at hx
    split at hx
    · cases hx
    · exact hold k' x hx
  | drop =>
    rw [exchanges_setExchange] at hx
    split at hx
    · cases hx
    · exact hold k' x hx

theorem allUrls_of_change (hs : s.Sound) (h : Change version s k s') :
    s'.allUrls ⊆ s.allUrls := by
  have hmerge : ∀ (j : ι) (engines : List DiscoveredEngine) (entries : List EngineSummary)
      (now : Int), listUrls engines ⊆ s.allUrls → payloadUrls entries ⊆ s.allUrls →
      ∀ i, (s.setTable j (mergeInto engines entries now (s.table j))).urls i ⊆ s.allUrls := by
    intro j engines entries now hengines hentries i
    rw [urls_setTable_mergeInto]
    split
    · exact Set.union_subset (Set.subset_iUnion s.urls j) (Set.union_subset hengines hentries)
    · exact Set.subset_iUnion s.urls i
  refine Set.iUnion_subset fun i ↦ ?_
  cases h with
  | start => exact Set.subset_iUnion s.urls i
  | serve now hx =>
    refine hmerge _ _ _ _ ?_ ?_ i
    · rw [listUrls_list]
      exact Set.subset_iUnion s.urls _
    · rw [payloadUrls_summary]
      exact (hs _ _ hx).1.trans (Set.subset_iUnion s.urls _)
  | finish now hx hreply =>
    obtain ⟨hsnapshot, hanswer⟩ := hs _ _ hx
    exact hmerge _ _ _ _ (hsnapshot.trans (Set.subset_iUnion s.urls _))
      ((hanswer _ hreply).trans (Set.subset_iUnion s.urls _)) i
  | drop => exact Set.subset_iUnion s.urls i

theorem Sound.of_run (hs : s.Sound) (h : (machine X version).run s ls = some s') :
    s'.Sound ∧ s'.allUrls ⊆ s.allUrls :=
  Machine.invariant (I := fun u ↦ u.Sound ∧ u.allUrls ⊆ s.allUrls)
    (fun _ _ _ hI hstep ↦ ⟨hI.1.of_change (change_of_step hstep),
      (allUrls_of_change hI.1 (change_of_step hstep)).trans hI.2⟩) ⟨hs, subset_rfl⟩ ⟨ls, h⟩

omit [DecidableEq ι] in
theorem sound_of_idle (hs : ∀ k, s.exchanges k = none) : s.Sound := fun k x hx ↦ by
  rw [hs k] at hx
  cases hx

/-! ### An exchange that is carried out -/

/-- The two engines understand each other. -/
def Compatible (X : Crates) (version : ι → String) (i j : ι) : Prop :=
  checkCompatibility X (version i) (version j) ≠ .incompatible

instance (X : Crates) (version : ι → String) (i j : ι) : Decidable (Compatible X version i j) :=
  instDecidableNot

theorem step_serve {x : NetExchange ι} (hx : s.exchanges k = some x) (hreply : x.reply = none)
    (hc : Compatible X version x.source x.target) (now : Int) :
    (machine X version).step s (.serve k now) =
      some ((s.setTable x.target (mergeInto (s.table x.target).list
        (x.snapshot.map DiscoveredEngine.summary) now (s.table x.target))).setExchange k
          (some ⟨x.source, x.target, x.snapshot,
            some ⟨version x.target, payload (s.table x.target)⟩⟩)) := by
  rcases x with ⟨i, j, snapshot, reply⟩
  obtain rfl : reply = none := hreply
  have hcheck : checkRequest X (version j) (request (version i) snapshot) = .ok () := by
    refine checkRequest_eq_ok ?_
    rw [checkCompatibility_comm]
    exact hc
  have hexchange := exchange_eq_ok.2
    ⟨hcheck, (Eq.refl (answer (version j) now (request (version i) snapshot).engines (s.table j)))⟩
  rw [machine]
  dsimp only
  rw [hx]
  dsimp only
  rw [hexchange]
  rfl

theorem step_finish {x : NetExchange ι} {reply : ExchangeResponse}
    (hx : s.exchanges k = some x) (hreply : x.reply = some reply)
    (hc : checkCompatibility X (version x.source) reply.protocolVersion ≠ .incompatible)
    (now : Int) :
    (machine X version).step s (.finish k now) =
      some ((s.setTable x.source (mergeInto x.snapshot reply.engines now
        (s.table x.source))).setExchange k none) := by
  rcases x with ⟨i, j, snapshot, reply'⟩
  obtain rfl : reply' = some reply := hreply
  rw [machine]
  dsimp only
  rw [hx]
  dsimp only
  rw [readAnswer_eq_ok hc]

theorem step_start (hk : s.exchanges k = none) (i j : ι) :
    (machine X version).step s (.start k i j) =
      some (s.setExchange k (some ⟨i, j, (s.table i).list, none⟩)) := by
  rw [machine]
  dsimp only
  rw [hk]

/-- A step of another exchange leaves an exchange alone. -/
theorem exchanges_of_change (h : Change version s k s') {k' : ℕ} (hk : k' ≠ k) :
    s'.exchanges k' = s.exchanges k' := by
  cases h with
  | start => rw [exchanges_setExchange, if_neg hk]
  | serve => rw [exchanges_setExchange, if_neg hk, exchanges_setTable]
  | finish => rw [exchanges_setExchange, if_neg hk, exchanges_setTable]
  | drop => rw [exchanges_setExchange, if_neg hk]

theorem exchanges_of_run (hls : ∀ l ∈ ls, l.exchange ≠ k)
    (h : (machine X version).run s ls = some s') : s'.exchanges k = s.exchanges k := by
  refine Machine.guarded_invariant (I := fun u ↦ u.exchanges k = s.exchanges k) ?_ rfl
    (Machine.guarded_of_forall _ hls) h
  intro u l u' hu hl hstep
  exact (exchanges_of_change (change_of_step hstep) hl.symm).trans hu

/-- An exchange from `i` to `j` is started and served and finished among the steps `ls`; steps of
other exchanges may fall in between. -/
def CarriesOut (ls : List (NetLabel ι)) (i j : ι) : Prop :=
  ∃ k now now' l₁ l₂ l₃ l₄, ls = l₁ ++ .start k i j :: (l₂ ++ .serve k now :: (l₃ ++
    .finish k now' :: l₄)) ∧ (∀ l ∈ l₂, l.exchange ≠ k) ∧ ∀ l ∈ l₃, l.exchange ≠ k

/-- **A carried out exchange**: afterwards both engines have what either had before. -/
theorem le_of_carriesOut {i j : ι} (hc : Compatible X version i j) (hls : CarriesOut ls i j)
    (h : (machine X version).run s ls = some s') :
    s.urls i ⊆ s'.urls j ∧ s.urls j ⊆ s'.urls i := by
  obtain ⟨k, now, now', l₁, l₂, l₃, l₄, rfl, hl₂, hl₃⟩ := hls
  rw [Machine.run_append, Option.bind_eq_some_iff] at h
  obtain ⟨s₁, h₁, h⟩ := h
  obtain ⟨s₂, h₂, h⟩ := Machine.run_cons_eq_some _ |>.1 h
  rw [Machine.run_append, Option.bind_eq_some_iff] at h
  obtain ⟨s₃, h₃, h⟩ := h
  obtain ⟨s₄, h₄, h⟩ := Machine.run_cons_eq_some _ |>.1 h
  rw [Machine.run_append, Option.bind_eq_some_iff] at h
  obtain ⟨s₅, h₅, h⟩ := h
  obtain ⟨s₆, h₆, h₇⟩ := Machine.run_cons_eq_some _ |>.1 h
  -- the list of `i` is sent
  have hidle : s₁.exchanges k = none := by
    rcases hx : s₁.exchanges k with - | x
    · rfl
    · rw [machine] at h₂
      dsimp only at h₂
      rw [hx] at h₂
      cases h₂
  obtain rfl := Option.some.inj ((step_start hidle i j).symm.trans h₂)
  have hsent : s₃.exchanges k = some ⟨i, j, (s₁.table i).list, none⟩ := by
    rw [exchanges_of_run hl₂ h₃, exchanges_setExchange, if_pos rfl]
  -- `j` merges it and answers
  obtain rfl := Option.some.inj ((step_serve hsent rfl hc now).symm.trans h₄)
  have hserved : s₅.exchanges k = some ⟨i, j, (s₁.table i).list,
      some ⟨version j, payload (s₃.table j)⟩⟩ := by
    rw [exchanges_of_run hl₃ h₅, exchanges_setExchange, if_pos rfl]
  -- `i` merges the answer
  obtain rfl := Option.some.inj ((step_finish hserved rfl hc now').symm.trans h₆)
  constructor
  · calc s.urls i ⊆ s₁.urls i := urls_subset_of_run h₁ i
      _ ⊆ _ := by
        show _ ⊆ GossipNetwork.urls (s₃.setTable j _) j
        rw [urls_setTable_mergeInto, if_pos rfl, payloadUrls_summary]
        exact fun u hu ↦ Or.inr (Or.inr ((listUrls_list (s₁.table i)).superset hu))
      _ ⊆ s₅.urls j := urls_subset_of_run h₅ j
      _ ⊆ _ := urls_subset_of_change (change_of_step h₆) j
      _ ⊆ s'.urls j := urls_subset_of_run h₇ j
  · calc s.urls j ⊆ s₁.urls j := urls_subset_of_run h₁ j
      _ ⊆ s₃.urls j := urls_subset_of_run h₃ j
      _ ⊆ _ := by
        show _ ⊆ GossipNetwork.urls (s₅.setTable i _) i
        rw [urls_setTable_mergeInto, if_pos rfl, payloadUrls_payload]
        exact fun u hu ↦ Or.inr (Or.inr hu)
      _ ⊆ s'.urls i := urls_subset_of_run h₇ i

/-- Every edge of the graph carries out an exchange, from one of its ends to the other. -/
def IsRound (G : SimpleGraph ι) (ls : List (NetLabel ι)) : Prop :=
  ∀ i j, G.Adj i j → CarriesOut ls i j ∨ CarriesOut ls j i

theorem urls_subset_of_isRound {G : SimpleGraph ι}
    (hG : ∀ i j, G.Adj i j → Compatible X version i j) (hls : IsRound G ls)
    (h : (machine X version).run s ls = some s') {i j : ι} (hadj : G.Adj i j) :
    s.urls i ⊆ s'.urls j := by
  rcases hls i j hadj with hij | hji
  · exact (le_of_carriesOut (hG i j hadj) hij h).1
  · exact (le_of_carriesOut (hG j i hadj.symm) hji h).2

/-- **An undisturbed exchange**: both engines hold the union of what they held. -/
theorem exchange_undisturbed {i j : ι} (hc : Compatible X version i j)
    (hk : s.exchanges k = none) (now now' : Int) :
    ∃ s', (machine X version).run s [.start k i j, .serve k now, .finish k now'] = some s' ∧
      s'.urls i = s.urls i ∪ s.urls j ∧ s'.urls j = s.urls i ∪ s.urls j := by
  obtain ⟨s₁, h₁, hx₁, ht₁⟩ : ∃ s₁, (machine X version).step s (.start k i j) = some s₁ ∧
      s₁.exchanges k = some ⟨i, j, (s.table i).list, none⟩ ∧ s₁.table = s.table :=
    ⟨_, step_start hk i j, by rw [exchanges_setExchange, if_pos rfl], rfl⟩
  obtain ⟨s₂, h₂, hx₂, hu₂⟩ : ∃ s₂, (machine X version).step s₁ (.serve k now) = some s₂ ∧
      s₂.exchanges k = some ⟨i, j, (s.table i).list, some ⟨version j, payload (s.table j)⟩⟩ ∧
      ∀ x, s₂.urls x = if x = j then s.urls j ∪ (s.urls j ∪ s.urls i) else s.urls x := by
    refine ⟨_, step_serve hx₁ rfl hc now, ?_, fun x ↦ ?_⟩
    · rw [exchanges_setExchange, if_pos rfl, ht₁]
    · refine (urls_setTable_mergeInto s₁ j x _ _ now).trans ?_
      rw [listUrls_list, payloadUrls_summary, listUrls_list, ht₁, urls, urls, ht₁]
      rfl
  obtain ⟨s₃, h₃, hu₃⟩ : ∃ s₃, (machine X version).step s₂ (.finish k now') = some s₃ ∧
      ∀ x, s₃.urls x = if x = i then s₂.urls i ∪ (s.urls i ∪ s.urls j) else s₂.urls x := by
    refine ⟨_, step_finish hx₂ rfl hc now', fun x ↦ ?_⟩
    refine (urls_setTable_mergeInto s₂ i x _ _ now').trans ?_
    rw [listUrls_list, payloadUrls_payload]
    rfl
  -- the answer was made before the merge on the other side, and both sides hold the union
  refine ⟨s₃, ?_, ?_, ?_⟩
  · rw [Machine.run_cons, h₁, Option.bind_some, Machine.run_cons, h₂, Option.bind_some,
      Machine.run_cons, h₃]
    rfl
  · rw [hu₃, if_pos rfl, hu₂]
    split
    case isTrue hij =>
      subst hij
      simp only [Set.union_self]
    case isFalse => rw [← Set.union_assoc, Set.union_self]
  · rw [hu₃, hu₂ j, if_pos rfl]
    split
    case isTrue hji =>
      subst hji
      rw [hu₂, if_pos rfl]
      simp only [Set.union_self]
    case isFalse => rw [← Set.union_assoc, Set.union_self, Set.union_comm]

/-- **Rounds**: in a connected graph of `n` engines, `n - 1` rounds of exchanges bring every engine
every URL, and no other. -/
theorem urls_of_rounds [Fintype ι] {G : SimpleGraph ι} (hG : G.Connected)
    (hc : ∀ i j, G.Adj i j → Compatible X version i j) {s : ℕ → GossipNetwork ι} (hs : (s 0).Sound)
    {ls : ℕ → List (NetLabel ι)}
    (hrounds : ∀ t < Fintype.card ι - 1,
      (machine X version).run (s t) (ls t) = some (s (t + 1)) ∧ IsRound G (ls t)) (i : ι) :
    (s (Fintype.card ι - 1)).urls i = ⋃ j, (s 0).urls j := by
  have hspreads : Spreads G (fun t ↦ (s t).urls) (Fintype.card ι - 1) :=
    ⟨fun t ht ↦ urls_subset_of_run (hrounds t ht).1, fun t ht i j hadj ↦
      urls_subset_of_isRound hc (hrounds t ht).2 (hrounds t ht).1 hadj⟩
  have hall : ∀ t ≤ Fintype.card ι - 1, (s t).Sound ∧ (s t).allUrls ⊆ (s 0).allUrls := by
    intro t ht
    induction t with
    | zero => exact ⟨hs, subset_rfl⟩
    | succ t ih =>
      obtain ⟨hsound, hsub⟩ := ih (by omega)
      obtain ⟨hsound', hsub'⟩ := hsound.of_run (hrounds t (by omega)).1
      exact ⟨hsound', hsub'.trans hsub⟩
  exact hspreads.eq_iSup hG
    (fun j ↦ (Set.subset_iUnion _ j).trans (hall _ le_rfl).2) i

/-- **Convergence of gossip.** In every run of exchanges each engine only discovers more; an
undisturbed exchange between compatible engines leaves both with the union of what they knew; and
in a connected graph of `n` engines, after `n - 1` rounds in which every edge carries out an
exchange, all engines know the union of what they knew at the beginning. -/
theorem gossip_converges (X : Crates) (version : ι → String) :
    (∀ s ls s', (machine X version).run s ls = some s' → ∀ i, s.urls i ⊆ s'.urls i) ∧
    (∀ (s : GossipNetwork ι) i j k now now', Compatible X version i j → s.exchanges k = none →
      ∃ s', (machine X version).run s [.start k i j, .serve k now, .finish k now'] = some s' ∧
        s'.urls i = s.urls i ∪ s.urls j ∧ s'.urls j = s.urls i ∪ s.urls j) ∧
    ∀ [Fintype ι] (G : SimpleGraph ι), G.Connected →
      (∀ i j, G.Adj i j → Compatible X version i j) →
      ∀ (s₀ : GossipNetwork ι) (s : ℕ → GossipNetwork ι) (ls : ℕ → List (NetLabel ι)),
        (∀ k, s₀.exchanges k = none) → (machine X version).Reachable s₀ (s 0) →
        (∀ t < Fintype.card ι - 1,
          (machine X version).run (s t) (ls t) = some (s (t + 1)) ∧ IsRound G (ls t)) →
        ∀ i, (s (Fintype.card ι - 1)).urls i = ⋃ j, (s 0).urls j := by
  refine ⟨fun s ls s' h ↦ urls_subset_of_run h, fun s i j k now now' hc hk ↦
    exchange_undisturbed hc hk now now', ?_⟩
  intro _ G hG hc s₀ s ls hs₀ ⟨ls₀, hrun⟩ hrounds
  exact urls_of_rounds hG hc ((sound_of_idle hs₀).of_run hrun).1 hrounds

namespace TwoEngines

def crates : Crates := .ofTables ⟨[], [], [], [], []⟩

/-- An engine that knows itself. -/
def alone (url : String) : DiscoveredEngines := DiscoveredEngines.upsert .empty ⟨url, "", "", 0, 0⟩

/-- Two engines that have not heard of each other. -/
def before : GossipNetwork Bool :=
  ⟨fun i ↦ alone (if i then "https://b" else "https://a"), fun _ ↦ none⟩

def round : List (NetLabel Bool) := [.start 0 false true, .serve 0 5, .finish 0 6]

def after : GossipNetwork Bool :=
  ((machine crates fun _ ↦ PROTOCOL_VERSION).run before round).getD before

theorem run_round : (machine crates fun _ ↦ PROTOCOL_VERSION).run before round = some after := by
  have h : ((machine crates fun _ ↦ PROTOCOL_VERSION).run before round).isSome := by decide +kernel
  obtain ⟨s, hs⟩ := Option.isSome_iff_exists.1 h
  rw [after, hs, Option.getD_some]

theorem isRound_round : IsRound (⊤ : SimpleGraph Bool) round := by
  have h : CarriesOut round false true :=
    ⟨0, 5, 6, [], [], [], [], rfl, fun _ h ↦ absurd h List.not_mem_nil,
      fun _ h ↦ absurd h List.not_mem_nil⟩
  rintro (- | -) (- | -) hadj
  · exact absurd rfl hadj
  · exact Or.inl h
  · exact Or.inr h
  · exact absurd rfl hadj

/-- One exchange between the two engines is a round of their graph, after which both know both. -/
theorem after_converged : "https://b" ∉ before.urls false ∧
    after.urls false = ⋃ j, before.urls j ∧ after.urls true = ⋃ j, before.urls j := by
  have h := (gossip_converges crates fun _ : Bool ↦ PROTOCOL_VERSION).2.2 ⊤
    SimpleGraph.connected_top (fun i j _ ↦ by
      rw [Compatible, checkCompatibility_self crates (by decide)]
      decide)
    before (fun t ↦ if t = 0 then before else after) (fun _ ↦ round) (fun _ ↦ rfl) (.refl _)
    (fun t ht ↦ by
      obtain rfl : t = 0 := Nat.lt_one_iff.1 ht
      exact ⟨run_round, isRound_round⟩)
  have hb : "https://b" ∉ (before.table false).urls := by decide +kernel
  exact ⟨hb, h false, h true⟩

end TwoEngines

end GossipNetwork

end CommunitySearch
