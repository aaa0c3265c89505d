import CommunitySearch.Federation.SelfEntry

/-!
# The URLs an engine advertises

The protocol wants the URL of every engine in a payload absolute and without a trailing slash.
Nothing checks it where URLs come in: `SELF_URL` is taken as it is, and is empty when unset, and the
URLs of a received payload are stored and sent on verbatim. `advertises_iff` says what it takes for
an engine to advertise well-formed URLs only, all along a run.
-/

namespace CommunitySearch

open Gossip

variable (X : Crates)

/-- An absolute URL without trailing slash. -/
def IsEngineUrl (url : String) : Prop := (X.parse url).isSome ∧ Text.endsWith url "/" = false

instance (url : String) : Decidable (IsEngineUrl X url) :=
  inferInstanceAs (Decidable (_ ∧ _))

/-- Every URL of the list is well formed. -/
def RowsWellFormed (engines : List DiscoveredEngine) : Prop := ∀ e ∈ engines, IsEngineUrl X e.url

namespace GossipNode

/-- Every engine URL the node can send in this state is well formed. -/
def Advertises (s : GossipNode) : Prop :=
  ∀ l payload, s.outgoing l = some payload → ∀ e ∈ payload, IsEngineUrl X e.url

/-- The payload that is merged, if one is, lists well-formed URLs only. -/
def MergesWellFormed (s : GossipNode) : GossipLabel → Prop
  | .merge k => ∀ x ∈ s.waiting k, ∀ e ∈ x.engines, IsEngineUrl X e.url
  | _ => True

instance (s : GossipNode) : (l : GossipLabel) → Decidable (MergesWellFormed X s l)
  | .merge k => inferInstanceAs (Decidable (∀ x ∈ s.waiting k, ∀ e ∈ x.engines, _))
  | .tick _ | .ask _ | .hear _ _ | .call _ _ | .remove _ | .promote _ => instDecidableTrue

variable {X} {cfg : SelfConfig} {s s' : GossipNode} {l : GossipLabel} {ls : List GossipLabel}

/-- What is sent is what is stored. -/
theorem advertises_iff_urls : Advertises X s ↔ ∀ url ∈ s.table.urls, IsEngineUrl X url := by
  have hpayload : (∀ e ∈ payload s.table, IsEngineUrl X e.url) ↔
      ∀ url ∈ s.table.urls, IsEngineUrl X url := by
    rw [← payloadUrls_payload]
    exact ⟨fun h url ⟨e, he, hurl⟩ ↦ hurl ▸ h e he, fun h e he ↦ h e.url ⟨e, he, rfl⟩⟩
  rw [← hpayload]
  constructor
  · exact fun h ↦ h (.ask 0) _ rfl
  · intro h l p hp
    rcases l with d | k | ⟨k, a⟩ | ⟨k, req⟩ | k | url | url
    case ask => rwa [← Option.some.inj hp]
    case merge =>
      obtain ⟨x, -, hx⟩ := Option.bind_eq_some_iff.1 hp
      split at hx
      · rwa [← Option.some.inj hx]
      · cases hx
    all_goals cases hp

/-- The list a task merges with, if it is fixed already, is well formed. -/
def TaskWellFormed (X : Crates) : GossipTask → Prop
  | .asked snapshot => RowsWellFormed X snapshot
  | .received x => ∀ snapshot, x.snapshot = some snapshot → RowsWellFormed X snapshot

/-- What is true in every state of a run that merges well-formed payloads. -/
structure WellFormedInv (X : Crates) (s : GossipNode) : Prop where
  table : ∀ url ∈ s.table.urls, IsEngineUrl X url
  tasks : ∀ k a, s.task k = some a → TaskWellFormed X a

theorem rowsWellFormed_iff {engines : List DiscoveredEngine} :
    RowsWellFormed X engines ↔ ∀ url ∈ listUrls engines, IsEngineUrl X url :=
  ⟨fun h _ ⟨e, he, hurl⟩ ↦ hurl ▸ h e he, fun h e he ↦ h e.url ⟨e, he, rfl⟩⟩

theorem WellFormedInv.rows (h : WellFormedInv X s) : RowsWellFormed X s.table.list :=
  rowsWellFormed_iff.2 (listUrls_list s.table ▸ h.table)

theorem WellFormedInv.base (h : WellFormedInv X s) {k : ℕ} {x : Received}
    (hx : s.waiting k = some x) : RowsWellFormed X (x.base s.table) := by
  rcases hsnap : x.snapshot with - | snapshot
  · rw [Received.base, hsnap]
    exact h.rows
  · rw [Received.base, hsnap]
    exact h.tasks k _ (waiting_eq_some.1 hx) snapshot hsnap

/-- **A merge keeps the URLs well formed exactly when its payload is.** -/
theorem urls_mergeReceived_iff (h : WellFormedInv X s) {k : ℕ} {x : Received}
    (hx : s.waiting k = some x) :
    (∀ url ∈ (s.mergeReceived x).urls, IsEngineUrl X url) ↔
      ∀ e ∈ x.engines, IsEngineUrl X e.url := by
  rw [mergeReceived, urls_mergeInto]
  constructor
  · exact fun hall e he ↦ hall e.url (Or.inr (Or.inr ⟨e, he, rfl⟩))
  · rintro hpayload url (hurl | hurl | ⟨e, he, rfl⟩)
    · exact h.table url hurl
    · exact rowsWellFormed_iff.1 (h.base hx) url hurl
    · exact hpayload e he

/-- **The step lemma.** -/
theorem WellFormedInv.of_change (h : WellFormedInv X s) (hl : MergesWellFormed X s l)
    (hs : Change cfg s l s') : WellFormedInv X s' := by
  refine ⟨?_, fun k a ha ↦ ?_⟩
  · have hchange := table_of_change hs
    generalize s'.table = t' at hchange
    cases hchange with
    | same => exact h.table
    | merge hk => exact (urls_mergeReceived_iff h hk).2 (hl _ hk)
    | remove hr =>
      obtain ⟨-, -, hget⟩ := removeDiscovered_eq_ok hr
      intro url hurl
      obtain ⟨e, he⟩ := DiscoveredEngines.mem_urls.1 hurl
      rw [hget] at he
      split at he
      · cases he
      · exact h.table url (DiscoveredEngines.mem_urls.2 ⟨e, he⟩)
  · rcases task_of_change hs ha with hold | hnew
    · exact h.tasks k a hold
    · cases hnew with
      | asked => exact h.rows
      | @heard k snapshot hk =>
        intro snapshot' hx
        rw [← Option.some.inj hx]
        exact h.tasks k _ hk
      | called =>
        intro snapshot hx
        cases hx

/-- Any other merge stores a malformed URL. -/
theorem not_wellFormed_of_step (h : WellFormedInv X s) (hl : ¬ MergesWellFormed X s l)
    (hs : (machine X cfg).step s l = some s') : ¬ ∀ url ∈ s'.table.urls, IsEngineUrl X url := by
  rcases l with d | k | ⟨k, a⟩ | ⟨k, req⟩ | k | url | url
  case merge =>
    have hchange := change_of_step hs
    cases hchange with
    | @merge _ x hk =>
      intro hall
      refine hl fun y hy ↦ ?_
      obtain rfl := Option.some.inj (hk.symm.trans hy)
      exact (urls_mergeReceived_iff h hk).1 hall
    | refuse hmerge => exact absurd rfl (hmerge k)
  all_goals exact absurd trivial hl

theorem urls_startup (cfg : SelfConfig) (t : DiscoveredEngines) (peers : Table NodePeerRow.Clash)
    (clock : Int) (url : String) :
    url ∈ (startup cfg t peers clock).table.urls ↔ url = cfg.selfUrl ∨ url ∈ t.urls := by
  rw [DiscoveredEngines.mem_urls, DiscoveredEngines.mem_urls, startup,
    DiscoveredEngines.ensureSelfEntry, DiscoveredEngines.get_upsert]
  by_cases h : cfg.selfUrl = url
  · rw [if_pos h]
    exact iff_of_true ⟨_, rfl⟩ (Or.inl h.symm)
  · rw [if_neg h, or_iff_right (Ne.symm h)]

/-- **The advertised URLs.** In every state of a run after a startup every engine URL that can be
sent is well formed exactly when `SELF_URL` and the URLs of the kept table are, and every payload
that is merged in the run lists well-formed URLs only. -/
theorem advertises_iff (X : Crates) (cfg : SelfConfig) (t : DiscoveredEngines)
    (peers : Table NodePeerRow.Clash) (clock : Int) (ls : List GossipLabel) (s : GossipNode)
    (hrun : (machine X cfg).run (startup cfg t peers clock) ls = some s) :
    (∀ l₁ l₂ u, ls = l₁ ++ l₂ → (machine X cfg).run (startup cfg t peers clock) l₁ = some u →
        Advertises X u) ↔
      IsEngineUrl X cfg.selfUrl ∧ (∀ url ∈ t.urls, IsEngineUrl X url) ∧
        (machine X cfg).Guarded (MergesWellFormed X) (startup cfg t peers clock) ls := by
  have hstart : (∀ url ∈ (startup cfg t peers clock).table.urls, IsEngineUrl X url) ↔
      IsEngineUrl X cfg.selfUrl ∧ ∀ url ∈ t.urls, IsEngineUrl X url := by
    simp only [urls_startup, or_imp, forall_and, forall_eq]
  have hguard : (∀ url ∈ (startup cfg t peers clock).table.urls, IsEngineUrl X url) →
      ((∀ l₁ l₂ u, ls = l₁ ++ l₂ → (machine X cfg).run (startup cfg t peers clock) l₁ = some u →
        Advertises X u) ↔
      (machine X cfg).Guarded (MergesWellFormed X) (startup cfg t peers clock) ls) := by
    intro htable
    have hinv : WellFormedInv X (startup cfg t peers clock) := ⟨htable, fun k a h ↦ by cases h⟩
    refine Machine.forall_prefix_iff_guarded (fun u h ↦ advertises_iff_urls.2 h.table)
      (fun _ _ _ h _ hl hs ↦ h.of_change hl (change_of_step hs))
      (fun _ _ _ h _ hl hs hu ↦ not_wellFormed_of_step h hl hs (advertises_iff_urls.1 hu)) hinv
      (Machine.guarded_true _ _) hrun
  rw [← and_assoc, ← hstart]
  constructor
  · intro h
    have htable := advertises_iff_urls.1 (h [] ls _ rfl rfl)
    exact ⟨htable, (hguard htable).1 h⟩
  · exact fun h ↦ (hguard h.1).2 h.2

namespace Advertised

/-- Two engines whose URLs parse. -/
def crates : Crates :=
  .ofTables ⟨[("https://self", ⟨"https", "", none, some "self", none, "/", none, none⟩),
    ("https://peer", ⟨"https", "", none, some "peer", none, "/", none, none⟩)], [], [], [], []⟩

/-- A peer lists itself. -/
def labels : List GossipLabel :=
  [.call 0 ⟨PROTOCOL_VERSION, [⟨"https://peer", "Peer", ""⟩]⟩, .merge 0]

/-- All that is advertised then is well formed. -/
theorem advertises_labels : (∃ s,
    (machine crates ⟨"https://self", "Self", ""⟩).run
      (startup ⟨"https://self", "Self", ""⟩ .empty .empty 10) labels = some s) ∧
    ∀ l₁ l₂ u, labels = l₁ ++ l₂ →
      (machine crates ⟨"https://self", "Self", ""⟩).run
        (startup ⟨"https://self", "Self", ""⟩ .empty .empty 10) l₁ = some u →
      Advertises crates u := by
  have hany : ((machine crates ⟨"https://self", "Self", ""⟩).run
      (startup ⟨"https://self", "Self", ""⟩ .empty .empty 10) labels).any fun _ ↦ true := by
    decide +kernel
  obtain ⟨s, hs, -⟩ := Machine.exists_run_of_any hany
  have hguarded : (machine crates ⟨"https://self", "Self", ""⟩).Guarded (MergesWellFormed crates)
      (startup ⟨"https://self", "Self", ""⟩ .empty .empty 10) labels := by
    decide +kernel
  have hempty : ∀ url ∈ DiscoveredEngines.urls .empty, IsEngineUrl crates url := by
    rintro url ⟨e, he, -⟩
    exact absurd he List.not_mem_nil
  exact ⟨⟨s, hs⟩,
    (advertises_iff crates ⟨"https://self", "Self", ""⟩ .empty .empty 10 labels s hs).2
      ⟨by decide +kernel, hempty, hguarded⟩⟩

/-- Without a `SELF_URL` the engine advertises the empty URL from its first exchange on. -/
theorem not_advertises : ∃ payload,
    (startup ⟨"", "Self", ""⟩ .empty .empty 10).outgoing (.ask 0) = some payload ∧
      ∃ e ∈ payload, e.url = "" ∧ ¬ IsEngineUrl crates e.url :=
  ⟨_, rfl, ⟨"", "Self", ""⟩, by decide, rfl, by decide⟩

end Advertised

end GossipNode

end CommunitySearch
