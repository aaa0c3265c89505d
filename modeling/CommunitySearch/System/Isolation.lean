import CommunitySearch.System.JournalSoundness

/-!
# Isolation of collections

What the indexer receives — a job, or a batch of deletions — belongs to one collection, but it acts
on URLs, whatever collection the documents under them belong to. So a committed document of another
collection is spared by a message exactly if its URL is none of the message's (`stands_iff`), and a
run in which every message spares the documents of the other collections isolates the collections
(`stands_of_guarded`).
-/

namespace CommunitySearch

/-- What the indexer receives: URLs to write or delete, on behalf of a collection. -/
structure IndexMessage where
  collectionId : Uuid
  urls : List String

namespace Engine

/-- The message an event brings. -/
def message (e : Engine) : IndexerEvent → Option IndexMessage
  | .upsert => e.upsertQueue.head?.map fun job ↦ ⟨job.collectionId, [job.url]⟩
  | .delete => e.deleteQueue.head?.map fun batch ↦ ⟨batch.collectionId, batch.urls⟩
  | .timer | .closed => none

/-- The document is committed, and nothing buffered removes or replaces it. -/
def Stands (e : Engine) (d : Document) : Prop :=
  d ∈ e.index ∧ d ∈ e.published

instance (e : Engine) (d : Document) : Decidable (e.Stands d) :=
  instDecidableAnd

variable {e e' : Engine} {d : Document} {event : IndexerEvent} {outcome : FlushOutcome}

/-- The commands received are on the URLs of the message, and each of these gets one. -/
theorem term_received {u : String} :
    (∃ cmd ∈ e.received event, TermCmd.term Document.url cmd = u) ↔
      ∃ m ∈ e.message event, u ∈ m.urls := by
  cases event with
  | upsert =>
    rcases hq : e.upsertQueue with - | ⟨job, queue⟩
    · simp [received, message, hq]
    · simp [received, message, hq, TermCmd.term, IndexJob.asDocument, eq_comm]
  | delete =>
    rcases hq : e.deleteQueue with - | ⟨batch, batches⟩
    · simp [received, message, hq]
    · simp [received, message, hq, TermCmd.deletes, TermCmd.term]
  | timer => simp [received, message]
  | closed => simp [received, message]

/-- A document under a URL the message does not have stands after its turn. -/
theorem Stands.turn (h : e.Stands d) (hspares : ∀ m ∈ e.message event, d.url ∉ m.urls)
    (hturn : e.Turn event outcome e') : e'.Stands d := by
  have hnone : ∀ cmd ∈ e.received event, TermCmd.term Document.url cmd ≠ d.url := by
    intro cmd hcmd hterm
    obtain ⟨m, hm, hu⟩ := term_received.1 ⟨cmd, hcmd, hterm⟩
    exact hspares m hm hu
  have hpublish : d ∈ TermCmd.publish Document.url e.index (e.buffered ++ e.received event) := by
    rw [TermCmd.publish_append, TermCmd.mem_publish_of_lastOn_none]
    · exact h.2
    · exact List.findLast?_eq_none_iff.2 fun cmd hcmd ↦ decide_eq_false (hnone cmd hcmd)
  cases hturn with
  | @kept _ _ ix _ hcommands _ he =>
    refine ⟨he ▸ h.1, ?_⟩
    have hp : e'.published = TermCmd.publish Document.url e.index ix.writer.commands := by
      rw [he]
      rfl
    rwa [hp, hcommands]
  | committed _ hcommands _ _ hindex _ hbuffered _ _ =>
    rw [Stands, published, hbuffered, TermCmd.publish_nil, hindex, hcommands]
    exact ⟨hpublish, hpublish⟩
  | unjournaled _ hcommands _ _ hindex _ hexit =>
    rw [Stands, published, buffered, hexit.1, TermCmd.publish_nil, hindex, hcommands]
    exact ⟨hpublish, hpublish⟩
  | lost _ hindex _ hexit =>
    rw [Stands, published, buffered, hexit.1, TermCmd.publish_nil, hindex]
    exact ⟨h.1, h.1⟩

/-- The documents received are of the collection of the message. -/
theorem collection_received (h : TermCmd.upsert d ∈ e.received event) :
    ∃ m ∈ e.message event, d.collectionId = m.collectionId := by
  cases event with
  | upsert =>
    rcases hq : e.upsertQueue with - | ⟨job, queue⟩
    · simp [received, hq] at h
    · have hd : d = job.asDocument := by simpa [received, hq] using h
      exact ⟨⟨job.collectionId, [job.url]⟩, by simp [message, hq], hd ▸ rfl⟩
  | delete => simp [received, TermCmd.deletes] at h
  | timer | closed => cases h

/-- **What a message spares.** A document of another collection stands after a message if and only
if its URL is none of the message's — unless the commit fails, and the message is lost. -/
theorem stands_iff (h : e.Stands d) {m : IndexMessage} (hm : e.message event = some m)
    (hother : d.collectionId ≠ m.collectionId) (hcommit : outcome ≠ .commitFails)
    (hstep : e.indexerStep event outcome = some e') : e'.Stands d ↔ d.url ∉ m.urls := by
  constructor
  · intro hstands hu
    -- the last command on the URL is one of the message, and it is no upsert of `d`
    have hgone : d ∉ TermCmd.publish Document.url e.index (e.buffered ++ e.received event) := by
      obtain ⟨cmd, hcmd, hterm⟩ : ∃ cmd ∈ e.received event, TermCmd.term Document.url cmd = d.url :=
        term_received.2 ⟨m, hm, hu⟩
      rw [TermCmd.publish_append, TermCmd.mem_publish_iff]
      rcases hl : TermCmd.lastOn Document.url d.url (e.received event) with - | (d' | k)
      · exact absurd hterm (of_decide_eq_false (List.findLast?_eq_none_iff.1 hl cmd hcmd))
      · rintro rfl
        obtain ⟨m', hm', hc⟩ := collection_received (List.mem_of_findLast?_eq_some hl)
        obtain rfl := Option.some.inj (hm.symm.trans hm')
        exact hother hc
      · exact id
    cases turn_of_indexerStep hstep with
    | @kept _ _ ix _ hcommands _ he =>
      have hp : e'.published = TermCmd.publish Document.url e.index ix.writer.commands := by
        rw [he]
        rfl
      rw [← hcommands, ← hp] at hgone
      exact hgone hstands.2
    | committed _ hcommands _ _ hindex =>
      rw [← hcommands, ← hindex] at hgone
      exact hgone hstands.1
    | unjournaled _ hcommands _ _ hindex =>
      rw [← hcommands, ← hindex] at hgone
      exact hgone hstands.1
    | lost houtcome => exact hcommit houtcome
  · intro hu
    refine h.turn (fun m' hm' ↦ ?_) (turn_of_indexerStep hstep)
    obtain rfl := Option.some.inj (hm.symm.trans hm')
    exact hu

end Engine

/-! ### Runs -/

/-- The admissible steps: a message spares the committed documents of the other collections. -/
def Isolates (s : Sys) : SysLabel → Prop
  | .indexer event _ => ∀ m ∈ s.engine.message event, ∀ d ∈ s.engine.index,
      s.engine.Stands d → d.collectionId ≠ m.collectionId → d.url ∉ m.urls
  | _ => True

/-- A message of the collection itself spares the URL. -/
def OwnSpares (collectionId : Uuid) (url : String) (s : Sys) : SysLabel → Prop
  | .indexer event _ => ∀ m ∈ s.engine.message event, m.collectionId = collectionId → url ∉ m.urls
  | _ => True

instance (s : Sys) : (l : SysLabel) → Decidable (Isolates s l)
  | .indexer event _ => inferInstanceAs (Decidable (∀ m ∈ s.engine.message event,
      ∀ d ∈ s.engine.index, s.engine.Stands d → d.collectionId ≠ m.collectionId → d.url ∉ m.urls))
  | .collections .. | .crawlTargets .. | .sendDeletes _ | .importEnvelope .. | .import_ ..
  | .endImport _ | .hangUp _ | .startRun .. | .crawl .. | .endRun .. | .upsertFails | .crash =>
    isTrue trivial

instance (collectionId : Uuid) (url : String) (s : Sys) :
    (l : SysLabel) → Decidable (OwnSpares collectionId url s l)
  | .indexer event _ => inferInstanceAs (Decidable (∀ m ∈ s.engine.message event,
      m.collectionId = collectionId → url ∉ m.urls))
  | .collections .. | .crawlTargets .. | .sendDeletes _ | .importEnvelope .. | .import_ ..
  | .endImport _ | .hangUp _ | .startRun .. | .crawl .. | .endRun .. | .upsertFails | .crash =>
    isTrue trivial

variable {X : Crates} {s s' : Sys} {d : Document}

/-- A document stands after a step whose message spares its URL. -/
theorem stands_of_step {l : SysLabel} (h : s.engine.Stands d) (hok : Isolates s l)
    (hown : OwnSpares d.collectionId d.url s l) (hs : (sysMachine X).step s l = some s') :
    s'.engine.Stands d := by
  by_cases hl : ∃ event outcome, l = .indexer event outcome
  · obtain ⟨event, outcome, rfl⟩ := hl
    cases Sys.change_of_step hs with
    | extended _ => exact h
    | retuned _ => exact h
    | indexed hturn =>
      refine h.turn (fun m hm ↦ ?_) (Engine.turn_of_indexerStep hturn)
      by_cases hc : m.collectionId = d.collectionId
      · exact hown m hm hc
      · exact hok m hm d h.1 h fun he ↦ hc he.symm
  · obtain ⟨hindex, hbuffered⟩ :=
      Sys.index_of_step hs fun event outcome he ↦ hl ⟨event, outcome, he⟩
    rw [Engine.Stands, Engine.published, hindex]
    rcases hbuffered with hb | hb
    · rw [hb]
      exact h
    · rw [hb]
      exact ⟨h.1, h.1⟩

/-- **Isolation of collections.** In every run from any state in which each message the indexer
receives has no URL of a committed document of another collection, a committed document that its own
collection does not touch stays committed. -/
theorem committed_of_guarded {labels : List SysLabel} {t : Sys} (h : s.engine.Stands d)
    (hok : (sysMachine X).Guarded Isolates s labels)
    (hown : (sysMachine X).Guarded (OwnSpares d.collectionId d.url) s labels)
    (hrun : (sysMachine X).run s labels = some t) : d ∈ t.engine.index := by
  have hI : t.engine.Stands d := by
    refine Machine.guarded_invariant (I := fun s ↦ s.engine.Stands d) ?_ h (hok.and hown) hrun
    exact fun s l s' hI hl hs ↦ stands_of_step hI hl.1 hl.2 hs
  exact hI.1

/-! ### A document that an import replaces, and one that it spares -/

namespace Mirror

/-- The document of the page. -/
def document : Document where
  collection := "guide"
  url := "https://guide.example/"
  title := ""
  body := "Welcome"
  indexedAt := 0
  collectionId := ⟨0⟩
  contentHash := OnePage.hash
  crawlTargetId := some ⟨1⟩

/-- A collection that has a document under another URL. -/
def elsewhere : ExportEnvelope where
  formatVersion := 1
  exportedAt := "t1"
  selfUrl := "https://mirror.example"
  collections := [{
    name := "mirror", description := "", createdAt := "", updatedAt := ""
    documents := [⟨"https://mirror.example/", "Mirror", "Copy", 0⟩] }]

/-- The import commits its document. -/
def importElsewhere : List SysLabel :=
  [.importEnvelope elsewhere "t2", .import_ 0 .ok, .import_ 0 .ok, .endImport 0] ++ OnePage.flush

end Mirror

/-- An import into another collection replaces the page. -/
theorem not_committed : ¬ ∀ s d labels t, Sys.Reachable OnePage.crates s → s.engine.Stands d →
    (sysMachine OnePage.crates).Guarded (OwnSpares d.collectionId d.url) s labels →
    (sysMachine OnePage.crates).run s labels = some t → d ∈ t.engine.index := by
  obtain ⟨s, hrun, hs⟩ : ∃ s, (sysMachine OnePage.crates).run .init Mirror.crawled = some s ∧
      (decide (s.engine.Stands Mirror.document) &&
        decide ((sysMachine OnePage.crates).Guarded
          (OwnSpares Mirror.document.collectionId Mirror.document.url) s Mirror.imported) &&
        ((sysMachine OnePage.crates).run s Mirror.imported).any fun t ↦
          decide (Mirror.document ∉ t.engine.index)) = true :=
    Machine.exists_run_of_any (by decide +kernel)
  simp only [Bool.and_eq_true, decide_eq_true_eq] at hs
  obtain ⟨⟨hstands, hown⟩, hany⟩ := hs
  obtain ⟨t, hrun', hgone⟩ := Machine.exists_run_of_any hany
  exact fun h ↦ of_decide_eq_true hgone (h s _ _ t ⟨_, hrun⟩ hstands hown hrun')

/-- An import that does not touch the URL of the page. -/
theorem committed_of_guarded_elsewhere : ∃ s t,
    (sysMachine OnePage.crates).run .init Mirror.crawled = some s ∧
    (sysMachine OnePage.crates).run s Mirror.importElsewhere = some t ∧
    t.engine.index.length = 2 ∧ Mirror.document ∈ t.engine.index := by
  obtain ⟨s, hrun, hs⟩ : ∃ s, (sysMachine OnePage.crates).run .init Mirror.crawled = some s ∧
      (decide (s.engine.Stands Mirror.document) &&
        decide ((sysMachine OnePage.crates).Guarded Isolates s Mirror.importElsewhere) &&
        decide ((sysMachine OnePage.crates).Guarded
          (OwnSpares Mirror.document.collectionId Mirror.document.url) s Mirror.importElsewhere) &&
        ((sysMachine OnePage.crates).run s Mirror.importElsewhere).any fun t ↦
          decide (t.engine.index.length = 2)) = true :=
    Machine.exists_run_of_any (by decide +kernel)
  simp only [Bool.and_eq_true, decide_eq_true_eq] at hs
  obtain ⟨⟨⟨hstands, hok⟩, hown⟩, hany⟩ := hs
  obtain ⟨t, hrun', hlength⟩ := Machine.exists_run_of_any hany
  exact ⟨s, t, hrun, hrun', of_decide_eq_true hlength, committed_of_guarded hstands hok hown hrun'⟩

end CommunitySearch
