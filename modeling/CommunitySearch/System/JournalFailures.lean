import CommunitySearch.System.JobConservation

/-!
# Failures of the journal update

A flush commits the index and then marks the pages of its journal as indexed. The comment on
`flush` promises that a failure to journal does not abort the indexer; but `flush` returns the
error, the loop passes it on, and the indexer task ends, with the jobs queued and the counter of
jobs in flight as they are. The one flush that may fail so is the last one, after which the loop is
left anyway, and one that returns no journal writes nothing and cannot fail.

`toleratesJournalFailures_iff`: over the runs in which every commit succeeds, the indexer keeps
running, and closing the channel leaves every job committed and the counter at zero, exactly when no
flush before the closing one fails to write a journal that is not empty. The zero is the indexer's:
what an import counted and dropped when its client hung up stays in the counter, and no turn of the
indexer changes that.
-/

namespace CommunitySearch

/-! ### The turns of a run before the channel closes -/

/-- Nothing fails in the step but the journal update; the process lives on and the upsert channel
is open. -/
def SysLabel.Commits : SysLabel → Prop
  | .indexer event outcome => event ≠ .closed ∧ outcome ≠ .commitFails
  | .upsertFails | .crash => False
  | _ => True

instance : (l : SysLabel) → Decidable l.Commits
  | .indexer event outcome => inferInstanceAs (Decidable (event ≠ .closed ∧ outcome ≠ .commitFails))
  | .upsertFails | .crash => inferInstanceAs (Decidable False)
  | .collections .. | .crawlTargets .. | .sendDeletes _ | .importEnvelope .. | .import_ .. |
    .endImport _ | .hangUp _ | .startRun .. | .crawl .. | .endRun .. =>
    inferInstanceAs (Decidable True)

theorem SysLabel.Commits.cases {l : SysLabel} (h : l.Commits) :
    l.OfTask ∧ l.Succeeds ∨ ∃ event outcome, l = .indexer event outcome := by
  cases l with
  | indexer event outcome => exact Or.inr ⟨event, outcome, rfl⟩
  | upsertFails | crash => exact False.elim h
  | _ => exact Or.inl ⟨trivial, trivial⟩

/-- The journal update of the step does not fail, unless there is nothing to journal. -/
def Sys.Journals (s : Sys) : SysLabel → Prop
  | .indexer event .journalFails => ∀ w ∈ s.engine.flushing event, w.pending = []
  | _ => True

instance (s : Sys) : (l : SysLabel) → Decidable (s.Journals l)
  | .indexer event .journalFails =>
    inferInstanceAs (Decidable (∀ w ∈ s.engine.flushing event, w.pending = []))
  | .indexer _ .done | .indexer _ .commitFails | .collections .. | .crawlTargets .. |
    .sendDeletes _ | .importEnvelope .. | .import_ .. | .endImport _ | .hangUp _ | .startRun .. |
    .crawl .. | .endRun .. | .upsertFails | .crash => inferInstanceAs (Decidable True)

namespace Engine

variable {e e' : Engine} {event : IndexerEvent} {outcome : FlushOutcome}

theorem flushing_eq_some {w : IndexWriter} :
    e.flushing event = some w ↔
      ∃ e₁ ix, e.receive event = some (e₁, ix, true) ∧ ix.writer = w := by
  rw [flushing]
  split
  case h_1 e₁ ix hr =>
    rw [hr]
    constructor
    · rintro ⟨⟩
      exact ⟨e₁, ix, rfl, rfl⟩
    · rintro ⟨_, _, ⟨⟩, rfl⟩
      rfl
  case h_2 hno =>
    refine ⟨fun h ↦ absurd h.symm (Option.some_ne_none w), ?_⟩
    rintro ⟨e₁, ix, hr, -⟩
    exact absurd hr (hno e₁ ix)

/-- Nothing is written for an empty journal, so nothing fails. -/
theorem flush_journalFails (e : Engine) {w : IndexWriter} (h : w.pending = []) :
    e.flush w .journalFails = e.flush w .done := by
  have hdb : e.db.markIndexedBatch (w.pending.map JournalEntry.entry) = e.db := by
    rw [h]
    rfl
  have hempty : w.pending.isEmpty = true := List.isEmpty_iff.2 h
  simp only [flush, IndexWriter.commit, hdb, hempty, if_true]

theorem indexerStep_journalFails (h : ∀ w ∈ e.flushing event, w.pending = []) :
    e.indexerStep event .journalFails = e.indexerStep event .done := by
  refine Option.map_congr fun ⟨e₁, ix, flushes⟩ hr ↦ ?_
  cases flushes with
  | false => rfl
  | true =>
    have hempty : ix.writer.pending = [] := h _ (flushing_eq_some.2 ⟨e₁, ix, hr, rfl⟩)
    dsimp only
    rw [if_pos rfl, if_pos rfl, flush_journalFails e₁ hempty]

/-- The loop goes on after a turn in which nothing fails. -/
theorem isSome_of_indexerStep_done (hopen : event ≠ .closed)
    (h : e.indexerStep event .done = some e') : e'.indexer.isSome := by
  obtain ⟨⟨e₁, ix, flushes⟩, -, rfl⟩ := Option.map_eq_some_iff.1 h
  dsimp only
  rw [if_neg hopen]
  cases flushes <;> rfl

/-- The task ends when a journal that is not empty cannot be written. -/
theorem indexer_of_journalFails {w : IndexWriter} (hw : e.flushing event = some w)
    (hjournal : w.pending ≠ []) (h : e.indexerStep event .journalFails = some e') :
    e'.indexer = none := by
  obtain ⟨e₁, ix, hr, rfl⟩ := flushing_eq_some.1 hw
  rw [indexerStep, hr, Option.map_some] at h
  obtain rfl := Option.some.inj h
  have hnonempty : ix.writer.pending.isEmpty = false := List.isEmpty_eq_false_iff.2 hjournal
  have hflush : (e₁.flush ix.writer .journalFails).indexer = none := by
    simp only [flush, IndexWriter.commit, hnonempty]
    rfl
  dsimp only
  rw [if_pos rfl]
  split
  · rfl
  · exact hflush

/-- The turn in which the channel closes ends the task with nothing queued, and with the counter
where it would be if nothing failed. -/
theorem closed_cases (houtcome : outcome ≠ .commitFails)
    (h : e.indexerStep .closed outcome = some e') :
    e.upsertQueue = [] ∧ e'.indexer = none ∧
      ∃ e'', e.indexerStep .closed .done = some e'' ∧ e'.inflight = e''.inflight := by
  obtain ⟨⟨e₁, ix, flushes⟩, hr, rfl⟩ := Option.map_eq_some_iff.1 h
  have hqueue : e.upsertQueue = [] := by
    rw [receive] at hr
    split at hr
    case h_1 hq => exact hq
    case h_2 => cases hr
  refine ⟨hqueue, rfl, _, by rw [indexerStep, hr, Option.map_some], ?_⟩
  cases flushes with
  | false => rfl
  | true =>
    cases outcome with
    | done => rfl
    | commitFails => exact absurd rfl houtcome
    | journalFails =>
      show (e₁.flush ix.writer .journalFails).inflight = _
      rw [flush]
      dsimp only
      split <;> rfl

/-! ### What is committed -/

/-- A turn whose commit does not fail adds what it receives to what is published. -/
theorem Turn.published_eq (h : e.Turn event outcome e') (houtcome : outcome ≠ .commitFails) :
    e'.published = TermCmd.publish Document.url e.published (e.received event) := by
  have hpublish : TermCmd.publish Document.url e.published (e.received event) =
      TermCmd.publish Document.url e.index (e.buffered ++ e.received event) := by
    rw [published, ← TermCmd.publish_append]
  rw [hpublish]
  cases h with
  | kept _ hcommands _ he =>
    subst he
    rw [← hcommands]
    rfl
  | committed _ hcommands _ _ hindex _ hbuffered _ _ =>
    rw [published, hbuffered, hindex, hcommands]
    rfl
  | unjournaled _ hcommands _ _ hindex _ hexit =>
    rw [published, buffered, hexit.1, hindex, hcommands]
    rfl
  | lost hlost => exact absurd hlost houtcome

theorem documents_deletes (urls : List String) :
    (TermCmd.deletes urls : List IndexCmd).filterMap IndexCmd.document? = [] := by
  rw [List.filterMap_eq_nil_iff]
  intro cmd hcmd
  obtain ⟨u, -, rfl⟩ := List.mem_map.1 hcmd
  rfl

/-- The documents a turn receives are those of its jobs. -/
theorem documents_received (e : Engine) (event : IndexerEvent) :
    (e.received event).filterMap IndexCmd.document? =
      (e.receivedJobs event).map IndexJob.asDocument := by
  cases event with
  | upsert =>
    rw [received, receivedJobs, List.filterMap_map]
    exact congrFun List.filterMap_eq_map _
  | delete =>
    rw [received, List.filterMap_flatMap]
    exact List.flatMap_eq_nil_iff.2 fun batch _ ↦ documents_deletes batch.urls
  | timer | closed => rfl

end Engine

namespace Sys

variable {X : Crates} {s s' : Sys}

/-- The indexer task is the indexer's: no step of another task touches it. -/
theorem indexer_of_step {l : SysLabel} (hl : l.OfTask) (h : (sysMachine X).step s l = some s') :
    s'.engine.indexer = s.engine.indexer ∧ s'.engine.index = s.engine.index := by
  have hperform : ∀ {e : Engine} {o : CrawlOp} {a : Answer} {r : o.Resp},
      s.engine.perform o a = some (r, e) →
      e.indexer = s.engine.indexer ∧ e.index = s.engine.index := fun hr ↦
    ⟨(Engine.outgoing_of_perform hr).1, (Engine.index_of_perform hr).1⟩
  cases change_of_step h with
  | indexed | refused | crashed => exact False.elim hl
  | importStepped _ hr => exact hperform hr
  | crawled _ hr =>
    obtain rfl | ⟨_, _, _, -, -, hr⟩ := CrawlRun.perform_of_step hr
    · exact ⟨rfl, rfl⟩
    · exact hperform hr
  | _ => exact ⟨rfl, rfl⟩

/-- A turn whose journal update fails with nothing to journal is one in which nothing fails. -/
theorem step_done {t : Traffic} {l : SysLabel} {event : IndexerEvent} {outcome : FlushOutcome}
    (hl : l = .indexer event outcome) (hcommits : l.Commits) (hjournals : s.Journals l)
    (hstep : (sysMachine X).step s l = some s') :
    (sysMachine X).step s (.indexer event .done) = some s' ∧
      s.watch t l = s.watch t (.indexer event .done) := by
  subst hl
  cases outcome with
  | done => exact ⟨hstep, rfl⟩
  | commitFails => exact absurd rfl hcommits.2
  | journalFails =>
    have hsame : s.engine.indexerStep event .journalFails = s.engine.indexerStep event .done :=
      Engine.indexerStep_journalFails hjournals
    refine ⟨?_, rfl⟩
    rw [← hstep]
    show s.step X (.indexer event .done) = s.step X (.indexer event .journalFails)
    simp only [Sys.step, hsame]

/-- The indexer keeps running if the journal is written where there is one. -/
theorem running_of_step {l : SysLabel} (h : s.engine.indexer.isSome) (hcommits : l.Commits)
    (hjournals : s.Journals l) (hstep : (sysMachine X).step s l = some s') :
    s'.engine.indexer.isSome := by
  obtain ⟨htask, -⟩ | ⟨event, outcome, rfl⟩ := hcommits.cases
  · rw [(indexer_of_step htask hstep).1]
    exact h
  · obtain ⟨hdone, -⟩ := step_done (t := .none) rfl hcommits hjournals hstep
    obtain ⟨-, hs⟩ := Option.ite_none_left_eq_some.1
      (show s.step X (.indexer event .done) = some s' from hdone)
    obtain ⟨e, he, rfl⟩ := Option.map_eq_some_iff.1 hs
    exact Engine.isSome_of_indexerStep_done hcommits.1 he

/-- The indexer ends where it is not. -/
theorem not_running_of_step {l : SysLabel} (hjournals : ¬ s.Journals l)
    (hstep : (sysMachine X).step s l = some s') : ¬ s'.engine.indexer.isSome := by
  cases l with
  | indexer event outcome =>
    cases outcome with
    | done | commitFails => exact absurd trivial hjournals
    | journalFails =>
      obtain ⟨w, hw⟩ := not_forall.1 hjournals
      obtain ⟨hw, hjournal⟩ := Classical.not_imp.1 hw
      obtain ⟨-, hs⟩ := Option.ite_none_left_eq_some.1
        (show s.step X (.indexer event .journalFails) = some s' from hstep)
      obtain ⟨e, he, rfl⟩ := Option.map_eq_some_iff.1 hs
      have hgone : e.indexer = none := Engine.indexer_of_journalFails hw hjournal he
      rw [hgone]
      exact Bool.false_ne_true
  | _ => exact absurd trivial hjournals

end Sys

/-! ### Every run -/

/-- What the comment on `flush` promises, in a state and after what has been watched so far, of a
process that has started over the documents `index`. -/
structure JournalFailuresTolerated (X : Crates) (index : List Document) (s : Sys) (t : Traffic) :
    Prop where
  /-- The indexer keeps running. -/
  running : s.engine.indexer.isSome
  /-- When the upsert channel closes, whether or not the last journal can be written, the counter
  is zero, but for the jobs of imports that were dropped, and the index is what it was at the start
  after commands that upsert the documents of the jobs sent, in order. -/
  closed : ∀ outcome s', outcome ≠ .commitFails →
    (sysMachine X).step s (.indexer .closed outcome) = some s' →
    s'.engine.inflight = t.hungUp ∧ ∃ cmds : List IndexCmd,
      s'.engine.index = TermCmd.publish Document.url index cmds ∧
        cmds.filterMap IndexCmd.document? = t.sent.map IndexJob.asDocument

/-- The run keeps the promise all along. -/
def ToleratesJournalFailures (X : Crates) (db : Database) (index : List Document)
    (labels : List SysLabel) : Prop :=
  ∀ l₁ l₂ s, labels = l₁ ++ l₂ →
    (sysMachine X).run ⟨.start db index, [], [], []⟩ l₁ = some s →
    JournalFailuresTolerated X index s ((sysMachine X).observe Sys.watch .none
      ⟨.start db index, [], [], []⟩ l₁)

/-- The invariant behind the promise. -/
structure Tolerant (index : List Document) (s : Sys) (t : Traffic) : Prop where
  balanced : Balanced s t
  running : s.engine.indexer.isSome
  published : ∃ cmds : List IndexCmd,
    s.engine.published = TermCmd.publish Document.url index cmds ∧
      cmds.filterMap IndexCmd.document? = t.received.map IndexJob.asDocument

namespace Tolerant

variable {X : Crates} {index : List Document} {s s' : Sys} {t : Traffic}

theorem start (db : Database) (index : List Document) :
    Tolerant index ⟨.start db index, [], [], []⟩ .none where
  balanced := .start db index
  running := rfl
  published := ⟨[], rfl, rfl⟩

/-- What a turn receives is published after it. -/
theorem published_of_turn (h : Tolerant index s t) {event : IndexerEvent} {outcome : FlushOutcome}
    {e : Engine} (houtcome : outcome ≠ .commitFails)
    (hturn : s.engine.indexerStep event outcome = some e) :
    ∃ cmds : List IndexCmd, e.published = TermCmd.publish Document.url index cmds ∧
      cmds.filterMap IndexCmd.document? =
        (t.received ++ s.engine.receivedJobs event).map IndexJob.asDocument := by
  obtain ⟨cmds, hpublished, hdocuments⟩ := h.published
  refine ⟨cmds ++ s.engine.received event, ?_, ?_⟩
  · rw [(Engine.turn_of_indexerStep hturn).published_eq houtcome, hpublished,
      TermCmd.publish_append]
  · rw [List.filterMap_append, hdocuments, Engine.documents_received, List.map_append]

/-- **One step keeps the promise**, if the journal is written where there is one. -/
theorem step (h : Tolerant index s t) {l : SysLabel} (hcommits : l.Commits)
    (hjournals : s.Journals l) (hstep : (sysMachine X).step s l = some s') :
    Tolerant index s' (s.watch t l) := by
  have hrunning := Sys.running_of_step h.running hcommits hjournals hstep
  obtain ⟨htask, hsucceeds⟩ | ⟨event, outcome, rfl⟩ := hcommits.cases
  · obtain ⟨hindexer, hindex⟩ := Sys.indexer_of_step htask hstep
    have hpublished : s'.engine.published = s.engine.published := by
      rw [Engine.published, Engine.published, Engine.buffered, Engine.buffered, hindexer, hindex]
    have hreceived : (s.watch t l).received = t.received := by rw [Sys.watch_of_task htask]
    refine ⟨h.balanced.step hsucceeds hstep, hrunning, ?_⟩
    rw [hpublished, hreceived]
    exact h.published
  · obtain ⟨hdone, hwatch⟩ := Sys.step_done (t := t) rfl hcommits hjournals hstep
    rw [hwatch]
    have hbalanced : Balanced s' (s.watch t (.indexer event .done)) := h.balanced.step rfl hdone
    obtain ⟨-, hs⟩ := Option.ite_none_left_eq_some.1
      (show s.step X (.indexer event .done) = some s' from hdone)
    obtain ⟨e, he, rfl⟩ := Option.map_eq_some_iff.1 hs
    have hpublished := h.published_of_turn (by decide) he
    exact ⟨hbalanced, hrunning, hpublished⟩

/-- Closing the channel commits everything, whether or not the journal can be written. -/
theorem closes (h : Tolerant index s t) {outcome : FlushOutcome} (houtcome : outcome ≠ .commitFails)
    (hstep : (sysMachine X).step s (.indexer .closed outcome) = some s') :
    s'.engine.inflight = t.hungUp ∧ ∃ cmds : List IndexCmd,
      s'.engine.index = TermCmd.publish Document.url index cmds ∧
        cmds.filterMap IndexCmd.document? = t.sent.map IndexJob.asDocument := by
  obtain ⟨hidle, hs⟩ := Option.ite_none_left_eq_some.1
    (show s.step X (.indexer .closed outcome) = some s' from hstep)
  obtain ⟨e, he, rfl⟩ := Option.map_eq_some_iff.1 hs
  obtain ⟨hqueue, hgone, e₁, he₁, hinflight⟩ := Engine.closed_cases houtcome he
  have hdone : (sysMachine X).step s (.indexer .closed .done) = some { s with engine := e₁ } := by
    show s.step X (.indexer .closed .done) = _
    rw [Sys.step, if_neg hidle, he₁]
    rfl
  obtain ⟨hzero, -⟩ := h.balanced.closed hdone
  obtain ⟨cmds, hpublished, hdocuments⟩ := h.published_of_turn houtcome he
  have hsent : t.sent = t.received := by
    rw [h.balanced.sent_eq, hqueue, List.append_nil]
  refine ⟨hinflight.trans hzero, cmds, ?_, ?_⟩
  · have hindex : e.published = e.index := by
      rw [Engine.published, Engine.buffered, hgone]
      rfl
    exact hindex.symm.trans hpublished
  · rw [hdocuments, hsent]
    exact congrArg _ (List.append_nil _)

theorem tolerated (h : Tolerant index s t) : JournalFailuresTolerated X index s t where
  running := h.running
  closed _ _ houtcome hstep := h.closes houtcome hstep

end Tolerant

/-- **Tolerance of journal failures.** Over the runs of a process, on whatever database and index it
starts with, in which every commit succeeds: the indexer keeps running, and closing the channel
leaves every job sent committed and the counter of jobs in flight at zero, but for what dropped
imports have counted, all along a run exactly when no journal that is not empty fails to be written
before the channel closes. -/
theorem toleratesJournalFailures_iff (X : Crates) (db : Database) (index : List Document)
    (labels : List SysLabel) (s : Sys) (hcommits : ∀ l ∈ labels, l.Commits)
    (hrun : (sysMachine X).run ⟨.start db index, [], [], []⟩ labels = some s) :
    ToleratesJournalFailures X db index labels ↔
      (sysMachine X).Guarded Sys.Journals ⟨.start db index, [], [], []⟩ labels := by
  have hbase : (sysMachine X).Guarded (fun _ l ↦ l.Commits) ⟨.start db index, [], [], []⟩ labels :=
    (sysMachine X).guarded_of_forall hcommits
  constructor
  · intro h
    rw [← Machine.forall_prefix_iff_guarded (fun _ hI ↦ hI)
      (fun _ _ _ hI hl hj hs ↦ Sys.running_of_step hI hl hj hs)
      (fun _ _ _ _ _ hj hs ↦ Sys.not_running_of_step hj hs) rfl hbase hrun]
    exact fun l₁ l₂ u hls hu ↦ (h l₁ l₂ u hls hu).running
  · rintro hjournals l₁ l₂ u rfl hu
    refine Tolerant.tolerated (Machine.observed_invariant (I := Tolerant index) ?_
      (.start db index) (hbase.left.and hjournals.left) hu)
    exact fun _ _ _ _ hI hl hs ↦ hI.step hl.1 hl.2 hs

namespace OnePage

/-- A page is crawled, and SQLite refuses the journal of its commit. -/
def unjournaled : List SysLabel :=
  install ++ [startRun due 1000] ++ fetch 0 false page ++ send 0 ++ write 0 ++
    [.indexer .upsert .done, .indexer .timer .journalFails]

/-- That ends the indexer, although the commit succeeds. -/
theorem not_toleratesJournalFailures :
    ¬ ∀ X db index labels, (∀ l ∈ labels, SysLabel.Commits l) →
      (∃ s, (sysMachine X).run ⟨.start db index, [], [], []⟩ labels = some s) →
      ToleratesJournalFailures X db index labels := by
  intro h
  have hany : ((sysMachine crates).run ⟨.start .empty [], [], [], []⟩ unjournaled).any fun s ↦
      s.engine.indexer.isNone := by decide +kernel
  obtain ⟨s, hrun, hgone⟩ := Machine.exists_run_of_any hany
  have hrunning := (h crates .empty [] unjournaled (by decide) ⟨s, hrun⟩ unjournaled [] s
    (List.append_nil _).symm hrun).running
  rw [Option.isNone_iff_eq_none.1 hgone] at hrunning
  cases hrunning

/-- The page is committed and journaled, and then SQLite refuses everything. -/
def journaled : List SysLabel :=
  install ++ [startRun due 1000] ++ fetch 0 false page ++ send 0 ++ write 0 ++
    [.indexer .upsert .done, .indexer .timer .done, .indexer .timer .journalFails]

/-- With nothing to journal that is harmless. -/
theorem toleratesJournalFailures_journaled :
    (sysMachine crates).Guarded Sys.Journals ⟨.start .empty [], [], [], []⟩ journaled ∧
      ToleratesJournalFailures crates .empty [] journaled := by
  have hany : ((sysMachine crates).run ⟨.start .empty [], [], [], []⟩ journaled).any fun _ ↦
      true := by decide +kernel
  obtain ⟨s, hrun, -⟩ := Machine.exists_run_of_any hany
  have hguarded : (sysMachine crates).Guarded Sys.Journals ⟨.start .empty [], [], [], []⟩
      journaled := by decide +kernel
  exact ⟨hguarded,
    (toleratesJournalFailures_iff crates .empty [] journaled s (by decide) hrun).2 hguarded⟩

end OnePage

end CommunitySearch
