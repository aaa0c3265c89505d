import CommunitySearch.Federation.GossipNode

/-!
# The engine's own entry

At startup the engine writes its own entry, as it is configured. Nobody can remove it, but the
merge treats it like any other: a payload that lists our URL under another name renames us until the
next startup, and from then on every payload we send says so. `selfKept_iff` says exactly which
merges do that.
-/

namespace CommunitySearch

open Gossip

/-- The entry that describes the engine as it is configured. -/
def SelfConfig.summary (cfg : SelfConfig) : EngineSummary :=
  ⟨cfg.selfUrl, cfg.selfName, cfg.selfDescription⟩

/-- The payload lists the engine as it is configured, and in no other way. -/
def DescribesSelf (cfg : SelfConfig) (payload : List EngineSummary) : Prop :=
  cfg.summary ∈ payload ∧ ∀ e ∈ payload, e.url = cfg.selfUrl → e = cfg.summary

namespace GossipNode

/-- A start of the engine on a table that was kept. -/
def startup (cfg : SelfConfig) (t : DiscoveredEngines) (peers : Table NodePeerRow.Clash)
    (clock : Int) : GossipNode where
  table := t.ensureSelfEntry cfg.selfUrl cfg.selfName cfg.selfDescription clock
  nodePeers := peers
  clock := clock
  tasks := .empty

/-- The row of the engine is there, and describes it as it is configured. -/
def SelfIntact (cfg : SelfConfig) (t : DiscoveredEngines) : Prop :=
  ∃ e, t.get cfg.selfUrl = some e ∧ e.summary = cfg.summary

/-- All along the run `ls` the engine's row is intact and its payloads describe it. -/
def SelfKept (X : Crates) (cfg : SelfConfig) (s₀ : GossipNode) (ls : List GossipLabel) : Prop :=
  ∀ l₁ l₂ s, ls = l₁ ++ l₂ → (machine X cfg).run s₀ l₁ = some s →
    SelfIntact cfg s.table ∧ ∀ l payload, s.outgoing l = some payload → DescribesSelf cfg payload

/-- The step does not rename the engine: the last entry of a merged payload for our URL describes us
as we are configured, or comes before the row it is merged with was last seen. -/
def SparesSelf (cfg : SelfConfig) (s : GossipNode) : GossipLabel → Prop
  | .merge k => ∀ x ∈ s.waiting k, ∀ e ∈ mention cfg.selfUrl x.engines,
      e = cfg.summary ∨ ∃ b ∈ x.base s.table, b.url = cfg.selfUrl ∧ x.now < b.lastSeen
  | _ => True

instance (cfg : SelfConfig) (s : GossipNode) : (l : GossipLabel) → Decidable (SparesSelf cfg s l)
  | .merge k => inferInstanceAs (Decidable (∀ x ∈ s.waiting k, ∀ e ∈ mention cfg.selfUrl x.engines,
      e = cfg.summary ∨ ∃ b ∈ x.base s.table, b.url = cfg.selfUrl ∧ x.now < b.lastSeen))
  | .tick _ | .ask _ | .hear _ _ | .call _ _ | .remove _ | .promote _ => instDecidableTrue

variable {X : Crates} {cfg : SelfConfig} {s s' : GossipNode} {l : GossipLabel}
  {ls : List GossipLabel}

theorem describesSelf_payload {t : DiscoveredEngines} (h : SelfIntact cfg t) :
    DescribesSelf cfg (payload t) := by
  obtain ⟨e, he, hsummary⟩ := h
  refine ⟨mem_payload.2 ⟨e, he, hsummary⟩, fun e' he' hurl ↦ ?_⟩
  obtain ⟨c, hc, rfl⟩ := mem_payload.1 he'
  rw [hurl] at hc
  rw [← hsummary, Option.some.inj (he.symm.trans hc)]

theorem describesSelf_outgoing (h : SelfIntact cfg s.table) {payload : List EngineSummary}
    (hp : s.outgoing l = some payload) : DescribesSelf cfg payload := by
  rcases l with d | k | ⟨k, a⟩ | ⟨k, req⟩ | k | url | url
  case ask =>
    rw [← Option.some.inj hp]
    exact describesSelf_payload h
  case merge =>
    obtain ⟨x, -, hx⟩ := Option.bind_eq_some_iff.1 hp
    split at hx
    · rw [← Option.some.inj hx]
      exact describesSelf_payload h
    · cases hx
  all_goals cases hp

/-- A list to merge with has one row for us, and it is intact. -/
def SelfListed (cfg : SelfConfig) (engines : List DiscoveredEngine) : Prop :=
  ∃ b, KeyTable.find (seed engines) cfg.selfUrl = some b ∧ b.summary = cfg.summary ∧
    ∀ b' ∈ engines, b'.url = cfg.selfUrl → b' = b

theorem selfListed_list {t : DiscoveredEngines} (h : SelfIntact cfg t) : SelfListed cfg t.list := by
  obtain ⟨e, he, hsummary⟩ := h
  refine ⟨e, find_seed_list.trans he, hsummary, fun b' hb' hurl ↦ ?_⟩
  have hget := DiscoveredEngines.mem_list.1 hb'
  rw [hurl] at hget
  exact Option.some.inj (hget.symm.trans he)

/-- The list a task merges with, if it is fixed already, has our row. -/
def TaskListsSelf (cfg : SelfConfig) : GossipTask → Prop
  | .asked snapshot => SelfListed cfg snapshot
  | .received x => ∀ snapshot, x.snapshot = some snapshot → SelfListed cfg snapshot

/-- What is true in every state of a run that spares our entry. -/
structure SelfInv (cfg : SelfConfig) (s : GossipNode) : Prop where
  intact : SelfIntact cfg s.table
  tasks : ∀ k a, s.task k = some a → TaskListsSelf cfg a

theorem SelfInv.base (h : SelfInv cfg s) {k : ℕ} {x : Received} (hx : s.waiting k = some x) :
    SelfListed cfg (x.base s.table) := by
  rcases hsnap : x.snapshot with - | snapshot
  · rw [Received.base, hsnap]
    exact selfListed_list h.intact
  · rw [Received.base, hsnap]
    exact h.tasks k _ (waiting_eq_some.1 hx) snapshot hsnap

/-- **A merge spares our entry or ruins it.** -/
theorem selfIntact_mergeReceived (h : SelfInv cfg s) {k : ℕ} {x : Received}
    (hx : s.waiting k = some x) :
    SelfIntact cfg (s.mergeReceived x) ↔ SparesSelf cfg s (.merge k) := by
  obtain ⟨b, hb, hsummary, huniq⟩ := h.base hx
  obtain ⟨c, hc, -⟩ := h.intact
  have hcu : c.url = cfg.selfUrl := DiscoveredEngines.url_of_get hc
  have hbmem := mem_of_find_seed hb
  -- our row describes us the way the merged row does
  have hwritten : ∀ r : DiscoveredEngine,
      mergedRow (x.base s.table) x.engines x.now cfg.selfUrl = some r →
      (SelfIntact cfg (s.mergeReceived x) ↔ (⟨cfg.selfUrl, r.name, r.description⟩ : EngineSummary) =
        cfg.summary) := by
    intro r hr
    have hget := get_mergeReceived s x cfg.selfUrl
    rw [hr, hc] at hget
    rw [SelfIntact, hget]
    constructor
    · rintro ⟨e, he, hsum⟩
      rw [← hsum, ← Option.some.inj he, ← hcu]
      rfl
    · intro hr'
      refine ⟨_, rfl, ?_⟩
      rw [← hr', ← hcu]
      rfl
  have hspares : SparesSelf cfg s (.merge k) ↔ ∀ e ∈ mention cfg.selfUrl x.engines,
      e = cfg.summary ∨ x.now < b.lastSeen := by
    constructor
    · intro hl e he
      refine (hl x hx e he).imp_right ?_
      rintro ⟨b', hb', hurl, hlt⟩
      rwa [huniq b' hb' hurl] at hlt
    · intro hl y hy e he
      obtain rfl := Option.some.inj (hx.symm.trans hy)
      exact (hl e he).imp_right fun hlt ↦ ⟨b, hbmem.1, hbmem.2, hlt⟩
  have hours : (⟨cfg.selfUrl, b.name, b.description⟩ : EngineSummary) = cfg.summary := by
    rw [← hsummary, DiscoveredEngine.summary, hbmem.2]
  rw [hspares]
  rcases hm : mention cfg.selfUrl x.engines with - | e
  · rw [hwritten b (by rw [mergedRow, hm, hb])]
    exact iff_of_true hours fun e he ↦ by cases he
  · have heu := (mention_eq_some hm).2
    have hrow : mergedRow (x.base s.table) x.engines x.now cfg.selfUrl =
        some (heard x.now (some b) e) := by rw [mergedRow, hm, hb]
    rw [hwritten _ hrow]
    by_cases hle : b.lastSeen ≤ x.now
    · have htheirs : (⟨cfg.selfUrl, (heard x.now (some b) e).name,
          (heard x.now (some b) e).description⟩ : EngineSummary) = e := by
        rw [heard, if_pos hle, ← heu]
      rw [htheirs]
      constructor
      · rintro rfl e' he'
        exact Or.inl (Option.some.inj he').symm
      · intro h
        exact (h e rfl).resolve_right (by omega)
    · have hsame : (⟨cfg.selfUrl, (heard x.now (some b) e).name,
          (heard x.now (some b) e).description⟩ : EngineSummary) = cfg.summary := by
        rw [heard, if_neg hle]
        exact hours
      exact iff_of_true hsame fun e' _ ↦ Or.inr (by omega)

theorem selfInv_startup (cfg : SelfConfig) (t : DiscoveredEngines)
    (peers : Table NodePeerRow.Clash) (clock : Int) : SelfInv cfg (startup cfg t peers clock) where
  intact := by
    refine ⟨_, (DiscoveredEngines.get_upsert t _ cfg.selfUrl).trans (if_pos rfl), ?_⟩
    rcases hc : t.get cfg.selfUrl with - | c
    · rfl
    · have hcu := DiscoveredEngines.url_of_get hc
      show (⟨c.url, cfg.selfName, cfg.selfDescription⟩ : EngineSummary) = cfg.summary
      rw [hcu]
      rfl
  tasks _ _ h := by cases h

/-- **The step lemma.** -/
theorem SelfInv.of_change (h : SelfInv cfg s) (hl : SparesSelf cfg s l) (hs : Change cfg s l s') :
    SelfInv cfg s' := by
  refine ⟨?_, fun k a ha ↦ ?_⟩
  · have hchange := table_of_change hs
    generalize s'.table = t' at hchange
    cases hchange with
    | same => exact h.intact
    | merge hk => exact (selfIntact_mergeReceived h hk).2 hl
    | remove hr =>
      obtain ⟨hself, -, hget⟩ := removeDiscovered_eq_ok hr
      rw [SelfIntact, hget, if_neg hself]
      exact h.intact
  · rcases task_of_change hs ha with hold | hnew
    · exact h.tasks k a hold
    · cases hnew with
      | asked => exact selfListed_list h.intact
      | @heard k snapshot hk =>
        intro snapshot' hx
        rw [← Option.some.inj hx]
        exact h.tasks k _ hk
      | called =>
        intro snapshot hx
        cases hx

/-- Any other merge ruins our entry. -/
theorem not_selfIntact_of_step (h : SelfInv cfg s) (hl : ¬ SparesSelf cfg s l)
    (hs : (machine X cfg).step s l = some s') : ¬ SelfIntact cfg s'.table := by
  rcases l with d | k | ⟨k, a⟩ | ⟨k, req⟩ | k | url | url
  case merge =>
    have hchange := change_of_step hs
    cases hchange with
    | @merge _ x hk => exact fun hintact ↦ hl ((selfIntact_mergeReceived h hk).1 hintact)
    | refuse hmerge => exact absurd rfl (hmerge k)
  all_goals exact absurd trivial hl

/-- **The engine's own entry**: it is kept all along a run after a startup, and so described in
every payload sent, exactly when every merge of the run spares it. -/
theorem selfKept_iff (X : Crates) (cfg : SelfConfig) (t : DiscoveredEngines)
    (peers : Table NodePeerRow.Clash) (clock : Int) (ls : List GossipLabel) (s : GossipNode)
    (hrun : (machine X cfg).run (startup cfg t peers clock) ls = some s) :
    SelfKept X cfg (startup cfg t peers clock) ls ↔
      (machine X cfg).Guarded (SparesSelf cfg) (startup cfg t peers clock) ls := by
  rw [← Machine.forall_prefix_iff_guarded (fun _ h ↦ SelfInv.intact h)
    (fun _ _ _ h _ hl hs ↦ h.of_change hl (change_of_step hs))
    (fun _ _ _ h _ hl hs ↦ not_selfIntact_of_step h hl hs) (selfInv_startup cfg t peers clock)
    (Machine.guarded_true _ _) hrun]
  constructor
  · exact fun h l₁ l₂ u hls hu ↦ (h l₁ l₂ u hls hu).1
  · exact fun h l₁ l₂ u hls hu ↦
      ⟨h l₁ l₂ u hls hu, fun l p hp ↦ describesSelf_outgoing (h l₁ l₂ u hls hu) hp⟩

namespace Renamed

def crates : Crates := .ofTables ⟨[], [], [], [], []⟩

def config : SelfConfig := ⟨"https://self", "Self", ""⟩

def start : GossipNode := startup config .empty .empty 10

/-- A peer lists us under a name of its own. -/
def labels : List GossipLabel :=
  [.call 0 ⟨PROTOCOL_VERSION, [⟨"https://self", "Spam", ""⟩]⟩, .merge 0]

/-- From then on we are called so. -/
theorem not_selfKept : ¬ ∀ X cfg t peers clock ls,
    (∃ s, (machine X cfg).run (startup cfg t peers clock) ls = some s) →
    SelfKept X cfg (startup cfg t peers clock) ls := by
  intro h
  have hany : ((machine crates config).run start labels).any fun s ↦
      s.table.get "https://self" == some ⟨"https://self", "Spam", "", 10, 10⟩ := by decide +kernel
  obtain ⟨s, hs, hrow⟩ := Machine.exists_run_of_any hany
  obtain ⟨⟨e, he, hsummary⟩, -⟩ := h crates config .empty .empty 10 labels ⟨s, hs⟩ labels [] s
    (List.append_nil _).symm hs
  have hspam : s.table.get config.selfUrl = some ⟨"https://self", "Spam", "", 10, 10⟩ :=
    eq_of_beq hrow
  obtain rfl := Option.some.inj (he.symm.trans hspam)
  exact absurd hsummary (by decide)

/-- A peer lists only itself. -/
def politeLabels : List GossipLabel :=
  [.call 0 ⟨PROTOCOL_VERSION, [⟨"https://peer", "Peer", ""⟩]⟩, .merge 0]

/-- That spares our entry. -/
theorem selfKept_polite : (machine crates config).Guarded (SparesSelf config) start politeLabels ∧
    SelfKept crates config start politeLabels := by
  have hany : ((machine crates config).run start politeLabels).any fun _ ↦ true := by decide +kernel
  obtain ⟨s, hs, -⟩ := Machine.exists_run_of_any hany
  have hguarded : (machine crates config).Guarded (SparesSelf config) start politeLabels := by
    decide +kernel
  exact ⟨hguarded, (selfKept_iff crates config .empty .empty 10 politeLabels s hs).2 hguarded⟩

end Renamed

end GossipNode

end CommunitySearch
