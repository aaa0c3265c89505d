import CommunitySearch.Federation.GossipNode

/-!
# Snapshots written back too late

An exchange of our own releases the lock between the snapshot it sends and the merge it writes back,
and the merge writes every row of the snapshot, whether the answer lists it or not. Two things are
lost by that: a removal in between is undone (`not_removalsHold`), and a name learned in between is
replaced by the old one (`not_namesFresh`). Runs in which no merge does either are what the code
promises: there a removed engine comes back only by a payload received later
(`removalsHold_of_guarded`), and every engine is stored as the latest payload describes it
(`namesFresh_of_guarded`).
-/

namespace CommunitySearch

open Gossip

namespace GossipNode

variable {X : Crates} {cfg : SelfConfig} {s s' : GossipNode} {l : GossipLabel}
  {ls : List GossipLabel} {url : String}

/-! ### Removals -/

/-- In the run `ls`, a URL that an operator has removed comes back only after a payload that lists
it has come in. -/
def RemovalsHold (X : Crates) (cfg : SelfConfig) (s₀ : GossipNode) (ls : List GossipLabel) : Prop :=
  ∀ l₁ url l₂ s r s', ls = l₁ ++ .remove url :: l₂ → (machine X cfg).run s₀ l₁ = some s →
    removeDiscovered cfg s.table url = .ok r →
    (machine X cfg).run s (.remove url :: l₂) = some s' → url ∈ s'.table.urls →
    ∃ l ∈ l₂, url ∈ payloadUrls l.incoming

/-- The step undoes no removal: a merge writes back no URL of its snapshot that has left the table
and that the answer does not list; and when a URL is removed, no payload that lists it waits for
the lock. -/
def RespectsRemovals (cfg : SelfConfig) (s : GossipNode) : GossipLabel → Prop
  | .merge k => ∀ x ∈ s.waiting k, ∀ snapshot ∈ x.snapshot, ∀ e ∈ snapshot,
      e.url ∈ s.table.urls ∨ e.url ∈ payloadUrls x.engines
  | .remove url => url ≠ cfg.selfUrl → url ∈ s.table.urls →
      ∀ p ∈ s.tasks.rows, ∀ x ∈ p.2.waiting, url ∉ payloadUrls x.engines
  | _ => True

instance (cfg : SelfConfig) (s : GossipNode) : (l : GossipLabel) →
    Decidable (RespectsRemovals cfg s l)
  | .merge k => inferInstanceAs (Decidable (∀ x ∈ s.waiting k, ∀ snapshot ∈ x.snapshot,
      ∀ e ∈ snapshot, e.url ∈ s.table.urls ∨ e.url ∈ payloadUrls x.engines))
  | .remove url => inferInstanceAs (Decidable (url ≠ cfg.selfUrl → url ∈ s.table.urls →
      ∀ p ∈ s.tasks.rows, ∀ x ∈ p.2.waiting, url ∉ payloadUrls x.engines))
  | .tick _ | .ask _ | .hear _ _ | .call _ _ | .promote _ => instDecidableTrue

/-- The URL is neither in the table nor about to be. -/
def Gone (url : String) (s : GossipNode) : Prop :=
  url ∉ s.table.urls ∧ ∀ k x, s.waiting k = some x → url ∉ payloadUrls x.engines

theorem Gone.of_change (h : Gone url s) (hl : RespectsRemovals cfg s l)
    (hin : url ∉ payloadUrls l.incoming) (hs : Change cfg s l s') : Gone url s' := by
  obtain ⟨htable, hwait⟩ := h
  refine ⟨?_, fun k x hx ↦ ?_⟩
  · have hchange := table_of_change hs
    generalize s'.table = t' at hchange
    cases hchange with
    | same => exact htable
    | @merge k x hk =>
      rw [mergeReceived, urls_mergeInto]
      rintro (hmem | hmem | hmem)
      · exact htable hmem
      · -- the snapshot may be written back only where the table or the answer has the URL
        obtain ⟨e, he, rfl⟩ := hmem
        rcases hx : x.snapshot with - | snapshot
        · rw [Received.base, hx] at he
          exact htable (DiscoveredEngines.mem_urls.2 ⟨e, DiscoveredEngines.mem_list.1 he⟩)
        · rw [Received.base, hx] at he
          rcases hl x hk snapshot hx e he with h | h
          · exact htable h
          · exact hwait k x hk h
      · exact hwait k x hk hmem
    | remove hr =>
      obtain ⟨-, -, hget⟩ := removeDiscovered_eq_ok hr
      rw [DiscoveredEngines.not_mem_urls] at htable ⊢
      rw [hget]
      split
      · rfl
      · exact htable
  · rcases waiting_of_change hs hx with hx | hx
    · exact hwait k x hx
    · rw [hx]
      exact hin

theorem mem_tasks_of_waiting {k : ℕ} {x : Received} (h : s.waiting k = some x) :
    ∃ p ∈ s.tasks.rows, x ∈ p.2.waiting := by
  rw [waiting_eq_some, task, Option.map_eq_some_iff] at h
  obtain ⟨p, hp, hx⟩ := h
  exact ⟨p, (KeyTable.find_eq_some_iff.1 hp).1, by rw [hx]; rfl⟩

/-- A removal, when no payload that lists the URL waits for the lock. -/
theorem gone_of_remove {r : DiscoveredEngines × ℕ} (hr : removeDiscovered cfg s.table url = .ok r)
    (hl : RespectsRemovals cfg s (.remove url))
    (hs : (machine X cfg).step s (.remove url) = some s') : Gone url s' := by
  obtain ⟨t, n⟩ := r
  obtain ⟨hself, hmem, hget⟩ := removeDiscovered_eq_ok hr
  have hstep : (machine X cfg).step s (.remove url) = some { s with table := t } := by
    rw [machine]
    dsimp only
    rw [hr]
  obtain rfl := Option.some.inj (hstep.symm.trans hs)
  constructor
  · rw [DiscoveredEngines.not_mem_urls, hget, if_pos rfl]
  · intro k x hx
    obtain ⟨p, hp, hpx⟩ := mem_tasks_of_waiting (s := s) hx
    exact hl hself hmem p hp x hpx

/-- **Removals hold** in every run in which no step undoes one. -/
theorem removalsHold_of_guarded {s₀ : GossipNode}
    (hok : (machine X cfg).Guarded (RespectsRemovals cfg) s₀ ls) : RemovalsHold X cfg s₀ ls := by
  rintro l₁ url l₂ s r s' rfl hs hr hrun hmem
  obtain ⟨hremove, hrest⟩ := hok.right hs
  obtain ⟨s₁, hs₁, hrun⟩ := Machine.run_cons_eq_some _ |>.1 hrun
  have hgone := gone_of_remove hr hremove hs₁
  by_contra hnone
  have hin : ∀ l ∈ l₂, url ∉ payloadUrls l.incoming := fun l hl h ↦ hnone ⟨l, hl, h⟩
  have hgone' : Gone url s' := Machine.guarded_invariant
    (fun t l t' ht hl hstep ↦ ht.of_change hl.1 hl.2 (change_of_step hstep)) hgone
    ((hrest s₁ hs₁).and (Machine.guarded_of_forall _ hin)) hrun
  exact hgone'.1 hmem

namespace StaleRemoval

def crates : Crates := .ofTables ⟨[], [], [], [], []⟩

def config : SelfConfig := ⟨"https://self", "Self", ""⟩

/-- The engine and one that it has discovered, at the time 10. -/
def start : GossipNode where
  table := DiscoveredEngines.upsert
    (DiscoveredEngines.ensureSelfEntry .empty config.selfUrl config.selfName
      config.selfDescription 10)
    ⟨"https://spam", "Spam", "", 10, 10⟩
  nodePeers := .empty
  clock := 10
  tasks := .empty

/-- The operator removes the engine while an exchange with a peer that has never heard of it is in
progress. -/
def labels : List GossipLabel :=
  [.ask 0, .remove "https://spam", .hear 0 (.response ⟨PROTOCOL_VERSION, []⟩), .merge 0]

/-- It is in the table again. -/
theorem not_removalsHold : ¬ ∀ X cfg s₀ ls, RemovalsHold X cfg s₀ ls := by
  intro h
  have hremove : ((machine crates config).run start [.ask 0]).any fun s ↦
      (removeDiscovered config s.table "https://spam").toBool := by decide +kernel
  have hback : ((machine crates config).run start labels).any fun s ↦
      decide ("https://spam" ∈ s.table.urls) := by decide +kernel
  obtain ⟨s, hs, hr⟩ := Machine.exists_run_of_any hremove
  obtain ⟨s', hs', hmem⟩ := Machine.exists_run_of_any hback
  generalize hres : removeDiscovered config s.table "https://spam" = res at hr
  rcases res with error | r
  · cases hr
  · have hrun : (machine crates config).run s (.remove "https://spam" ::
        [.hear 0 (.response ⟨PROTOCOL_VERSION, []⟩), .merge 0]) = some s' := by
      have happend := Machine.run_append (machine crates config) start [.ask 0]
        (.remove "https://spam" :: [.hear 0 (.response ⟨PROTOCOL_VERSION, []⟩), .merge 0])
      rw [hs, Option.bind_some] at happend
      exact happend.symm.trans hs'
    obtain ⟨l, hl, s₀, hin, -⟩ := h crates config start labels [.ask 0] "https://spam" _ s r s' rfl
      hs hres hrun (of_decide_eq_true hmem)
    rcases List.mem_pair.1 hl with rfl | rfl
    · cases hin
    · cases hin

/-- A removal during an exchange whose answer lists the engine: it comes back, as it may. -/
theorem removalsHold_of_listed : RemovalsHold crates config start
    [.ask 0, .remove "https://spam",
      .hear 0 (.response ⟨PROTOCOL_VERSION, [⟨"https://spam", "Spam", ""⟩]⟩), .merge 0] :=
  removalsHold_of_guarded (by decide +kernel)

end StaleRemoval

/-! ### Names -/

/-- The payloads merged so far, when the payloads `H` were merged before the step. -/
def mergedPayloads (H : List Received) (s : GossipNode) : GossipLabel → List Received
  | .merge k => H ++ (s.waiting k).toList
  | _ => H

/-- The row says what the latest payload says that lists its URL, and was last seen then. -/
def Latest (H : List Received) (url : String) (row : DiscoveredEngine) : Prop :=
  (∀ y ∈ H, url ∈ payloadUrls y.engines → y.now ≤ row.lastSeen) ∧
    ∃ y ∈ H, y.now = row.lastSeen ∧ row.summary ∈ y.engines

/-- Every engine that a merged payload lists is stored as the latest of them describes it. -/
def NamesFresh (t : DiscoveredEngines) (H : List Received) : Prop :=
  ∀ x ∈ H, ∀ url ∈ payloadUrls x.engines, ∃ row, t.get url = some row ∧ Latest H url row

/-- The step writes no stale name: what a merge writes back of its snapshot without the answer
listing it is what is stored, and what the answer lists replaces nothing later. (No engine is
removed.) -/
def WritesFresh (s : GossipNode) : GossipLabel → Prop
  | .merge k => ∀ x ∈ s.waiting k, ∀ snapshot ∈ x.snapshot,
      (∀ e ∈ snapshot, e.url ∉ payloadUrls x.engines → ∀ c ∈ s.table.get e.url,
        c.summary = e.summary) ∧
      ∀ e ∈ x.engines, mention e.url x.engines = some e → ∀ c ∈ s.table.get e.url,
        c.lastSeen ≤ x.now ∨ c.summary = e
  | .remove _ => False
  | _ => True

instance (s : GossipNode) : (l : GossipLabel) → Decidable (WritesFresh s l)
  | .merge k => inferInstanceAs (Decidable (∀ x ∈ s.waiting k, ∀ snapshot ∈ x.snapshot,
      (∀ e ∈ snapshot, e.url ∉ payloadUrls x.engines → ∀ c ∈ s.table.get e.url,
        c.summary = e.summary) ∧
      ∀ e ∈ x.engines, mention e.url x.engines = some e → ∀ c ∈ s.table.get e.url,
        c.lastSeen ≤ x.now ∨ c.summary = e))
  | .remove _ => instDecidableFalse
  | .tick _ | .ask _ | .hear _ _ | .call _ _ | .promote _ => instDecidableTrue

/-- A start of the engine at the time of its clock, before any exchange. -/
structure Started (s : GossipNode) : Prop where
  idle : ∀ k, s.task k = none
  seen : ∀ url c, s.table.get url = some c → c.lastSeen ≤ s.clock

/-- The rows of a list are stored, seen at the latest at `now`, and not later than stored. -/
def Snapshot (t : DiscoveredEngines) (now : Int) (snapshot : List DiscoveredEngine) : Prop :=
  ∀ e ∈ snapshot, e.lastSeen ≤ now ∧ ∃ c, t.get e.url = some c ∧ e.lastSeen ≤ c.lastSeen

/-- What holds of a task, in a run that started at `c₀`. -/
def TaskOk (c₀ : Int) (s : GossipNode) : GossipTask → Prop
  | .asked snapshot => Snapshot s.table s.clock snapshot
  | .received x => c₀ ≤ x.now ∧ x.now ≤ s.clock ∧
      ∀ snapshot, x.snapshot = some snapshot → Snapshot s.table x.now snapshot

/-- What a merge may do to the row of a URL. -/
inductive RowMerged (x : Received) (url : String) (old : Option DiscoveredEngine) :
    Option DiscoveredEngine → Prop
  /-- The payload does not list the URL. -/
  | kept (hurl : url ∉ payloadUrls x.engines) : RowMerged x url old old
  /-- The payload is the latest. -/
  | replaced {row : DiscoveredEngine} (hrow : row.summary ∈ x.engines) (hnow : row.lastSeen = x.now)
    (hold : ∀ c, old = some c → c.lastSeen ≤ x.now) : RowMerged x url old (some row)
  /-- There is a later one. -/
  | older {row c : DiscoveredEngine} (hold : old = some c) (hrow : row.summary = c.summary)
    (hnow : row.lastSeen = c.lastSeen) (hlater : x.now < c.lastSeen) :
    RowMerged x url old (some row)

theorem rowMerged_call {x : Received} (hx : x.snapshot = none) :
    RowMerged x url (s.table.get url) ((s.mergeReceived x).get url) := by
  rw [get_mergeReceived, mergedRow, Received.base, hx, Option.getD_none, find_seed_list]
  rcases hm : mention url x.engines with - | e
  · have hurl := mention_eq_none.1 hm
    rcases s.table.get url with - | c
    · exact .kept hurl
    · show RowMerged x url (some c) (some (DiscoveredEngines.onConflict (some c) c))
      rw [DiscoveredEngines.onConflict_self]
      exact .kept hurl
  · obtain ⟨he, hurl⟩ := mention_eq_some hm
    dsimp only
    rcases hc : s.table.get url with - | c
    · exact .replaced he rfl fun c hc ↦ by cases hc
    · have hcu : c.url = e.url := (DiscoveredEngines.url_of_get hc).trans hurl.symm
      by_cases hle : c.lastSeen ≤ x.now
      · refine .replaced ?_ ?_ fun c' hc' ↦ by rwa [← Option.some.inj hc']
        · have hsummary : (DiscoveredEngines.onConflict (some c) (heard x.now (some c) e)).summary =
              e := by
            simp [heard, hle, DiscoveredEngines.onConflict, DiscoveredEngine.summary, hcu]
          rw [hsummary]
          exact he
        · simp [heard, hle, DiscoveredEngines.onConflict]
      · refine .older rfl ?_ ?_ (by omega)
        · simp [heard, hle, DiscoveredEngines.onConflict, DiscoveredEngine.summary]
        · simp [heard, hle, DiscoveredEngines.onConflict]

theorem rowMerged_answer {x : Received} {snapshot : List DiscoveredEngine}
    (hx : x.snapshot = some snapshot) (hs : Snapshot s.table x.now snapshot)
    (hkeep : ∀ e ∈ snapshot, e.url ∉ payloadUrls x.engines → ∀ c ∈ s.table.get e.url,
      c.summary = e.summary)
    (hlate : ∀ e ∈ x.engines, mention e.url x.engines = some e → ∀ c ∈ s.table.get e.url,
      c.lastSeen ≤ x.now ∨ c.summary = e) :
    RowMerged x url (s.table.get url) ((s.mergeReceived x).get url) := by
  rw [get_mergeReceived, mergedRow, Received.base, hx, Option.getD_some]
  rcases hm : mention url x.engines with - | e
  · have hurl := mention_eq_none.1 hm
    rcases hr : KeyTable.find (seed snapshot) url with - | e
    · exact .kept hurl
    · -- what is written back is what is stored
      obtain ⟨he, rfl⟩ := mem_of_find_seed hr
      obtain ⟨-, c, hc, hle⟩ := hs e he
      have hsummary := hkeep e he hurl c hc
      have hkept : DiscoveredEngines.onConflict (some c) e = c := by
        have hname : c.name = e.name := congrArg EngineSummary.name hsummary
        have hdescription : c.description = e.description :=
          congrArg EngineSummary.description hsummary
        rw [DiscoveredEngines.onConflict, max_eq_left hle, ← hname, ← hdescription]
      dsimp only
      rw [hc, hkept]
      exact .kept hurl
  · obtain ⟨he, hurl⟩ := mention_eq_some hm
    -- the payload is later than the snapshot, so its entry counts
    obtain ⟨r, hr, hsummary, hnow⟩ : ∃ r,
        heard x.now (KeyTable.find (seed snapshot) url) e = r ∧ r.summary = e ∧
          r.lastSeen = x.now := by
      refine ⟨_, rfl, ?_⟩
      rcases hf : KeyTable.find (seed snapshot) url with - | b
      · exact ⟨rfl, rfl⟩
      · obtain ⟨hb, hbu⟩ := mem_of_find_seed hf
        have hle := (hs b hb).1
        rw [heard, if_pos hle]
        exact ⟨by rw [DiscoveredEngine.summary, hbu, ← hurl], rfl⟩
    dsimp only
    rw [hr]
    rcases hc : s.table.get url with - | c
    · refine .replaced ?_ hnow fun c hc ↦ by cases hc
      rw [DiscoveredEngines.onConflict, hsummary]
      exact he
    · have hcu : c.url = r.url := by
        rw [DiscoveredEngines.url_of_get hc, ← hurl, ← hsummary]
        rfl
      have hwritten : (DiscoveredEngines.onConflict (some c) r).summary = e := by
        rw [← hsummary, DiscoveredEngines.onConflict, DiscoveredEngine.summary, hcu]
        rfl
      have hmax : (DiscoveredEngines.onConflict (some c) r).lastSeen = max c.lastSeen x.now := by
        rw [← hnow]
        rfl
      by_cases hle : c.lastSeen ≤ x.now
      · refine .replaced ?_ ?_ fun c' hc' ↦ by rwa [← Option.some.inj hc']
        · rw [hwritten]
          exact he
        · rw [hmax, max_eq_right hle]
      · -- a later payload has been merged meanwhile, and says the same
        rw [← hurl] at hm hc
        have hsame : c.summary = e := (hlate e he hm c hc).resolve_left hle
        exact .older rfl (hwritten.trans hsame.symm) (by rw [hmax, max_eq_left (by omega)])
          (by omega)

/-- A merge that writes nothing stale, URL by URL. -/
theorem rowMerged_of_writesFresh {c₀ : Int} {k : ℕ} {x : Received} (hx : s.waiting k = some x)
    (hl : WritesFresh s (.merge k)) (htask : TaskOk c₀ s (.received x)) (url : String) :
    RowMerged x url (s.table.get url) ((s.mergeReceived x).get url) := by
  rcases hsnap : x.snapshot with - | snapshot
  · exact rowMerged_call hsnap
  · obtain ⟨hkeep, hlate⟩ := hl x hx snapshot hsnap
    exact rowMerged_answer hsnap (htask.2.2 snapshot hsnap) hkeep hlate

theorem RowMerged.grow {x : Received} {old new : Option DiscoveredEngine}
    (h : RowMerged x url old new) {c : DiscoveredEngine} (hc : old = some c) :
    ∃ c', new = some c' ∧ c.lastSeen ≤ c'.lastSeen := by
  cases h with
  | kept => exact ⟨c, hc, le_rfl⟩
  | @replaced row hrow hnow hold => exact ⟨row, rfl, hnow ▸ hold c hc⟩
  | @older row c' hold hrow hnow hlater =>
    obtain rfl := Option.some.inj (hold.symm.trans hc)
    exact ⟨row, rfl, hnow.ge⟩

/-- What is true in every state of a run that started at `c₀` and writes nothing stale, when the
payloads `H` have been merged. -/
structure Inv (c₀ : Int) (s : GossipNode) (H : List Received) : Prop where
  clock : c₀ ≤ s.clock
  seen : ∀ url c, s.table.get url = some c → c.lastSeen ≤ s.clock
  /-- A row no payload has listed is as old as the start. -/
  unlisted : ∀ url c, s.table.get url = some c → (∀ y ∈ H, url ∉ payloadUrls y.engines) →
    c.lastSeen ≤ c₀
  tasks : ∀ k a, s.task k = some a → TaskOk c₀ s a
  fresh : NamesFresh s.table H

theorem TaskOk.mono {c₀ : Int} {a : GossipTask} (h : TaskOk c₀ s a)
    (hgrow : ∀ url c, s.table.get url = some c →
      ∃ c', s'.table.get url = some c' ∧ c.lastSeen ≤ c'.lastSeen)
    (hclock : s.clock ≤ s'.clock) : TaskOk c₀ s' a := by
  have hsnap : ∀ {now now' : Int} {snapshot : List DiscoveredEngine}, now ≤ now' →
      Snapshot s.table now snapshot → Snapshot s'.table now' snapshot := by
    intro now now' snapshot hnow hs e he
    obtain ⟨hle, c, hc, hec⟩ := hs e he
    obtain ⟨c', hc', hcc⟩ := hgrow _ c hc
    exact ⟨hle.trans hnow, c', hc', hec.trans hcc⟩
  rcases a with snapshot | x
  · exact hsnap hclock h
  · exact ⟨h.1, h.2.1.trans hclock, fun snapshot hx ↦ hsnap le_rfl (h.2.2 snapshot hx)⟩

theorem Latest.append {H : List Received} {x : Received} {row row' : DiscoveredEngine}
    (h : Latest H url row) (hsummary : row'.summary = row.summary)
    (hlast : row'.lastSeen = row.lastSeen)
    (hx : url ∈ payloadUrls x.engines → x.now ≤ row.lastSeen) : Latest (H ++ [x]) url row' := by
  obtain ⟨hle, y, hy, hnow, hmem⟩ := h
  refine ⟨fun z hz hzu ↦ ?_, y, List.mem_append_left _ hy, by rw [hlast, hnow], by rwa [hsummary]⟩
  rw [hlast]
  rcases List.mem_append.1 hz with hz | hz
  · exact hle z hz hzu
  · obtain rfl := List.mem_singleton.1 hz
    exact hx hzu

/-- **The merge step**: the row of every URL is that of the latest payload. -/
theorem namesFresh_mergeReceived {c₀ : Int} {H : List Received} (h : Inv c₀ s H) {k : ℕ}
    {x : Received} (hx : s.waiting k = some x) (hl : WritesFresh s (.merge k)) :
    NamesFresh (s.mergeReceived x) (H ++ [x]) := by
  have htask : TaskOk c₀ s (.received x) := h.tasks k _ (waiting_eq_some.1 hx)
  intro y hy url hyu
  have hm := rowMerged_of_writesFresh hx hl htask url
  generalize hold : s.table.get url = old at hm
  generalize (s.mergeReceived x).get url = new at hm
  -- a row that a merged payload has listed is its latest
  have hfresh : ∀ z ∈ H, url ∈ payloadUrls z.engines →
      ∃ row, old = some row ∧ Latest H url row := by
    rw [← hold]
    exact fun z hz hzu ↦ h.fresh z hz url hzu
  cases hm with
  | kept hurl =>
    have hyH : y ∈ H := (List.mem_append.1 hy).resolve_right fun hyx ↦ by
      rw [List.mem_singleton.1 hyx] at hyu
      exact hurl hyu
    obtain ⟨row, hrow, hlatest⟩ := hfresh y hyH hyu
    exact ⟨row, hrow, hlatest.append rfl rfl fun hxu ↦ absurd hxu hurl⟩
  | @replaced row hmem hlast hle =>
    refine ⟨row, rfl, fun z hz hzu ↦ ?_, x, by simp, hlast.symm, hmem⟩
    rcases List.mem_append.1 hz with hz | hz
    · obtain ⟨c, hc, hlatest⟩ := hfresh z hz hzu
      exact (hlatest.1 z hz hzu).trans ((hle c hc).trans hlast.ge)
    · rw [List.mem_singleton.1 hz]
      exact hlast.ge
  | @older row c hc hsummary hlast hlater =>
    -- the stored row is later than the start, so some payload has listed it
    have htold : ∃ z ∈ H, url ∈ payloadUrls z.engines := by
      by_contra hnone
      have hle := h.unlisted url c (hold.trans hc) fun z hz hzu ↦ hnone ⟨z, hz, hzu⟩
      have hstart := htask.1
      omega
    obtain ⟨z, hz, hzu⟩ := htold
    obtain ⟨c', hc', hlatest⟩ := hfresh z hz hzu
    obtain rfl := Option.some.inj (hc.symm.trans hc')
    exact ⟨row, rfl, hlatest.append hsummary hlast fun _ ↦ hlater.le⟩

theorem Inv.of_merge {c₀ : Int} {H : List Received} (h : Inv c₀ s H) {k : ℕ} {x : Received}
    (hx : s.waiting k = some x) (hl : WritesFresh s (.merge k))
    (htable : s'.table = s.mergeReceived x) (hclock : s.clock ≤ s'.clock)
    (htasks : ∀ k a, s'.task k = some a → TaskOk c₀ s' a) : Inv c₀ s' (H ++ [x]) := by
  have htask : TaskOk c₀ s (.received x) := h.tasks k _ (waiting_eq_some.1 hx)
  refine ⟨h.clock.trans hclock, fun url c hc ↦ ?_, fun url c hc hun ↦ ?_, htasks, ?_⟩
  · have hm := rowMerged_of_writesFresh hx hl htask url
    generalize hold : s.table.get url = old at hm
    rw [htable] at hc
    rw [hc] at hm
    cases hm with
    | kept => exact (h.seen url c hold).trans hclock
    | replaced _ hlast _ => exact (hlast.le.trans htask.2.1).trans hclock
    | @older row c' hc' _ hlast _ =>
      exact (hlast.le.trans (h.seen url c' (hold.trans hc'))).trans hclock
  · have hxu : url ∉ payloadUrls x.engines := hun x (by simp)
    have hH : ∀ y ∈ H, url ∉ payloadUrls y.engines := fun y hy ↦ hun y (List.mem_append_left _ hy)
    have hm := rowMerged_of_writesFresh hx hl htask url
    generalize hold : s.table.get url = old at hm
    rw [htable] at hc
    rw [hc] at hm
    cases hm with
    | kept => exact h.unlisted url c hold hH
    | replaced hmem _ _ => exact absurd ⟨_, hmem, DiscoveredEngines.url_of_get hc⟩ hxu
    | @older row c' hc' hsum hlast _ =>
      exact hlast.le.trans (h.unlisted url c' (hold.trans hc') hH)
  · rw [htable]
    exact namesFresh_mergeReceived h hx hl

/-- The rows a step leaves are seen as late as before. -/
theorem Inv.grow {c₀ : Int} {H : List Received} (h : Inv c₀ s H) (hl : WritesFresh s l)
    (hs : Change cfg s l s') {c : DiscoveredEngine} (hc : s.table.get url = some c) :
    ∃ c', s'.table.get url = some c' ∧ c.lastSeen ≤ c'.lastSeen := by
  have hchange := table_of_change hs
  generalize s'.table = t' at hchange
  cases hchange with
  | same => exact ⟨c, hc, le_rfl⟩
  | merge hk =>
    exact (rowMerged_of_writesFresh hk hl (h.tasks _ _ (waiting_eq_some.1 hk)) url).grow hc
  | remove => exact hl.elim

/-- **The step lemma.** -/
theorem Inv.of_change {c₀ : Int} {H : List Received} (h : Inv c₀ s H) (hl : WritesFresh s l)
    (hs : Change cfg s l s') : Inv c₀ s' (mergedPayloads H s l) := by
  have hclock := clock_le_of_change hs
  have htasks : ∀ k a, s'.task k = some a → TaskOk c₀ s' a := by
    intro k a ha
    refine TaskOk.mono (s := s) ?_ (fun url c hc ↦ h.grow hl hs hc) hclock
    rcases task_of_change hs ha with hold | hnew
    · exact h.tasks k a hold
    · cases hnew with
      | asked =>
        intro e he
        have hc := DiscoveredEngines.mem_list.1 he
        exact ⟨h.seen _ _ hc, e, hc, le_rfl⟩
      | @heard k snapshot hk =>
        refine ⟨h.clock, le_rfl, fun snapshot' hx ↦ ?_⟩
        obtain rfl := Option.some.inj hx
        exact h.tasks k _ hk
      | called => exact ⟨h.clock, le_rfl, fun snapshot hx ↦ by cases hx⟩
  have hchange := table_of_change hs
  generalize ht : s'.table = t' at hchange
  cases hchange with
  | same hmerge =>
    have hH : mergedPayloads H s l = H := by
      rcases l with - | - | - | - | k | - | -
      case merge => exact absurd rfl (hmerge k)
      all_goals rfl
    rw [hH]
    refine ⟨h.clock.trans hclock, fun url c hc ↦ ?_, fun url c hc ↦ ?_, htasks, ?_⟩
    · rw [ht] at hc
      exact (h.seen url c hc).trans hclock
    · rw [ht] at hc
      exact h.unlisted url c hc
    · rw [ht]
      exact h.fresh
  | @merge k x hk =>
    have hH : mergedPayloads H s (.merge k) = H ++ [x] := by
      rw [mergedPayloads, hk, Option.toList_some]
    rw [hH]
    exact h.of_merge hk hl ht hclock htasks
  | remove => exact hl.elim

theorem Started.inv (h : Started s) : Inv s.clock s [] where
  clock := le_rfl
  seen := h.seen
  unlisted url c hc _ := h.seen url c hc
  tasks k a ha := by
    rw [h.idle k] at ha
    cases ha
  fresh x hx := absurd hx List.not_mem_nil

/-- **No stale name** in any run of exchanges in which no step writes one: every engine that a
merged payload lists is stored as the latest of these payloads describes it, and was last seen
then. -/
theorem namesFresh_of_guarded {s₀ s : GossipNode} (hs₀ : Started s₀)
    (hok : (machine X cfg).Guarded WritesFresh s₀ ls) (hrun : (machine X cfg).run s₀ ls = some s) :
    NamesFresh s.table ((machine X cfg).observe mergedPayloads [] s₀ ls) :=
  (Machine.observed_invariant (f := mergedPayloads) (I := fun t H ↦ Inv s₀.clock t H)
    (fun _ _ _ _ hI hl hstep ↦ hI.of_change hl (change_of_step hstep)) hs₀.inv hok hrun).fresh

namespace StaleName

def crates : Crates := .ofTables ⟨[], [], [], [], []⟩

def config : SelfConfig := ⟨"https://self", "Self", ""⟩

/-- The engine and one that it has discovered, at the time 10. -/
def start : GossipNode where
  table := DiscoveredEngines.upsert
    (DiscoveredEngines.ensureSelfEntry .empty config.selfUrl config.selfName
      config.selfDescription 10)
    ⟨"https://peer", "Old", "", 10, 10⟩
  nodePeers := .empty
  clock := 10
  tasks := .empty

/-- A peer calls with its new name, ten seconds into an exchange with another engine that has not
heard of the peer. -/
def labels : List GossipLabel :=
  [.ask 0, .tick 10, .call 1 ⟨PROTOCOL_VERSION, [⟨"https://peer", "New", ""⟩]⟩, .merge 1,
    .hear 0 (.response ⟨PROTOCOL_VERSION, []⟩), .merge 0]

theorem started_start : Started start where
  idle _ := rfl
  seen url c hc := by
    have hmem : c ∈ start.table.rows := (KeyTable.find_eq_some_iff.1 hc).1
    have hall : ∀ c ∈ start.table.rows, c.lastSeen ≤ start.clock := by decide +kernel
    exact hall c hmem

/-- The peer is stored under its old name, last seen when it called with the new one. -/
theorem not_namesFresh : ¬ ∀ X cfg s₀ ls s, Started s₀ →
    (∀ l ∈ ls, ∀ url, l ≠ .remove url) → (machine X cfg).run s₀ ls = some s →
    NamesFresh s.table ((machine X cfg).observe mergedPayloads [] s₀ ls) := by
  intro h
  have hany : ((machine crates config).run start labels).any fun s ↦
      s.table.get "https://peer" == some ⟨"https://peer", "Old", "", 10, 20⟩ := by decide +kernel
  obtain ⟨s, hs, hrow⟩ := Machine.exists_run_of_any hany
  have hfresh := h crates config start labels s started_start
    (by
      intro l hl url hremove
      rw [hremove, labels] at hl
      simp at hl) hs
  have hlisted : ∃ x ∈ (machine crates config).observe mergedPayloads [] start labels,
      "https://peer" ∈ payloadUrls x.engines := by decide +kernel
  have hold : ∀ x ∈ (machine crates config).observe mergedPayloads [] start labels,
      (⟨"https://peer", "Old", ""⟩ : EngineSummary) ∉ x.engines := by decide +kernel
  obtain ⟨x, hx, hurl⟩ := hlisted
  obtain ⟨row, hget, -, y, hy, -, hmem⟩ := hfresh x hx _ hurl
  obtain rfl := Option.some.inj (hget.symm.trans (by simpa using hrow))
  exact hold y hy hmem

/-- The exchange with the other engine is over before the peer calls. -/
def calmLabels : List GossipLabel :=
  [.ask 0, .hear 0 (.response ⟨PROTOCOL_VERSION, []⟩), .merge 0, .tick 10,
    .call 1 ⟨PROTOCOL_VERSION, [⟨"https://peer", "New", ""⟩]⟩, .merge 1]

/-- Then its new name stays. -/
theorem namesFresh_after : ∃ s, (machine crates config).run start calmLabels = some s ∧
    NamesFresh s.table ((machine crates config).observe mergedPayloads [] start calmLabels) := by
  have hany : ((machine crates config).run start calmLabels).any fun _ ↦ true := by decide +kernel
  obtain ⟨s, hs, -⟩ := Machine.exists_run_of_any hany
  exact ⟨s, hs, namesFresh_of_guarded started_start (by decide +kernel) hs⟩

end StaleName

end GossipNode

end CommunitySearch
