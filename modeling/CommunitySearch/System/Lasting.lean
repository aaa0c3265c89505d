import CommunitySearch.System

/-!
# What lasts

A document **lasts** if it will be in the index once the upserts on their way are committed, and no
deletion on its way is for its URL. When the indexer has drained, these are the documents of the
index. A step makes a document last only by sending it, or by losing in a crash what would have
replaced it (`Sys.Lasting.of_step`).
-/

namespace CommunitySearch

/-- The URLs of the deletions that are queued or about to be sent. -/
def Sys.pendingDeletes (s : Sys) : List String :=
  (s.engine.deleteQueue ++ s.removals).flatMap DeleteBatch.urls

/-- A document that will be in the index, and that no pending deletion is for. -/
def Sys.Lasting (s : Sys) (d : Document) : Prop :=
  s.engine.indexer.isSome ∧ d ∈ s.engine.eventual ∧ d.url ∉ s.pendingDeletes

instance (s : Sys) (d : Document) : Decidable (s.Lasting d) :=
  instDecidableAnd

/-- Every removal has returned, and the indexer has taken and committed what was sent to it. -/
structure Sys.Settled (s : Sys) : Prop where
  removals : s.removals = []
  upsertQueue : s.engine.upsertQueue = []
  deleteQueue : s.engine.deleteQueue = []
  indexer : s.engine.indexer.isSome
  buffered : s.engine.buffered = []

/-- `Sys.Settled`, to be evaluated. -/
def Sys.isSettled (s : Sys) : Bool :=
  s.removals.isEmpty && s.engine.upsertQueue.isEmpty && s.engine.deleteQueue.isEmpty &&
    s.engine.indexer.isSome && s.engine.buffered.isEmpty

variable {X : Crates} {s s' : Sys}

theorem Sys.isSettled_iff : s.isSettled = true ↔ s.Settled := by
  simp only [isSettled, Bool.and_eq_true, List.isEmpty_iff, and_assoc]
  exact ⟨fun ⟨h₁, h₂, h₃, h₄, h₅⟩ ↦ ⟨h₁, h₂, h₃, h₄, h₅⟩,
    fun h ↦ ⟨h.removals, h.upsertQueue, h.deleteQueue, h.indexer, h.buffered⟩⟩

theorem Sys.Settled.eventual (h : s.Settled) : s.engine.eventual = s.engine.index := by
  rw [Engine.eventual, Engine.outgoing, h.buffered, h.upsertQueue]
  rfl

theorem Sys.Settled.pendingDeletes (h : s.Settled) : s.pendingDeletes = [] := by
  rw [Sys.pendingDeletes, h.deleteQueue, h.removals]
  rfl

/-- What lasts when nothing is on its way. -/
theorem Sys.Settled.lasting_iff (h : s.Settled) {d : Document} :
    s.Lasting d ↔ d ∈ s.engine.index := by
  rw [Sys.Lasting, h.eventual, h.pendingDeletes]
  exact ⟨fun hd ↦ hd.2.1, fun hd ↦ ⟨h.indexer, hd, List.not_mem_nil⟩⟩

/-! ### What a step makes last -/

/-- A document that will be in the index after an operation of a task. -/
theorem Engine.eventual_of_perform {e e' : Engine} {o : CrawlOp} {a : Answer} {r : o.Resp}
    (h : e.perform o a = some (r, e')) {d : Document} (hd : d ∈ e'.eventual) :
    d ∈ e.eventual ∨ ∃ job, o = .send job ∧ d = job.asDocument := by
  have hindex := (index_of_perform h).1
  obtain ⟨-, -, hcases⟩ := outgoing_of_perform h
  have hsame : e'.outgoing = e.outgoing → d ∈ e.eventual := fun hout ↦ by
    rw [eventual, hindex, hout] at hd
    exact hd
  rcases hcases with ⟨hout, -⟩ | ⟨hout, -⟩ | ⟨hout, -⟩ | ⟨job, ho, hout, -⟩
  · exact Or.inl (hsame hout)
  · exact Or.inl (hsame hout)
  · exact Or.inl (hsame hout)
  · -- the document of the job replaces what is under its URL
    rw [eventual, hindex, hout, TermCmd.publish_concat, TermCmd.mem_apply_upsert] at hd
    exact hd.imp And.left fun he ↦ ⟨job, ho, he⟩

/-- A batch that is sent is pending before and after. -/
theorem Sys.mem_pendingDeletes_of_sent {k : Nat} {batch : DeleteBatch}
    (hk : s.removals[k]? = some batch) {u : String} (hu : u ∈ s.pendingDeletes) :
    u ∈ (s.engine.deleteQueue ++ [batch] ++ s.removals.eraseIdx k).flatMap DeleteBatch.urls := by
  rw [pendingDeletes, List.mem_flatMap] at hu
  obtain ⟨b, hb, hu⟩ := hu
  refine List.mem_flatMap.2 ⟨b, ?_, hu⟩
  rw [List.append_assoc]
  refine (List.mem_append.1 hb).elim (List.mem_append_left _) fun hb ↦
    List.mem_append_right _ ?_
  obtain ⟨i, hi⟩ := List.mem_iff_getElem?.1 hb
  by_cases he : i = k
  · exact List.mem_cons.2 (Or.inl (Option.some.inj (hi.symm.trans (he ▸ hk))))
  · exact List.mem_cons_of_mem _ (List.mem_eraseIdx_iff_getElem?.2 ⟨i, he, hi⟩)

/-- A turn of the indexer makes no document last. -/
theorem Sys.Lasting.of_turn {event : IndexerEvent} {outcome : FlushOutcome} {e : Engine}
    (hturn : s.engine.indexerStep event outcome = some e) {d : Document}
    (h : Sys.Lasting { s with engine := e } d) : s.Lasting d := by
  obtain ⟨halive, hd, hurl⟩ := h
  have halive' : s.engine.indexer.isSome := by
    obtain ⟨⟨_, _, _⟩, hr, -⟩ := Option.map_eq_some_iff.1 hturn
    exact (Engine.receive_cases hr).1
  obtain ⟨heventual, hqueue⟩ | ⟨batch, hqueue, heventual⟩ :=
    (Engine.turn_of_indexerStep hturn).eventual halive
  · refine ⟨halive', heventual ▸ hd, ?_⟩
    rw [Sys.pendingDeletes, ← hqueue]
    exact hurl
  · -- the batch has been applied
    replace hd : d ∈ e.eventual := hd
    rw [heventual, TermCmd.mem_publish_deletes] at hd
    refine ⟨halive', hd.1, fun hmem ↦ ?_⟩
    rw [Sys.pendingDeletes, hqueue, List.cons_append, List.flatMap_cons, List.mem_append] at hmem
    exact hmem.elim hd.2 hurl

/-- An operation of a task makes the document it sends last. -/
theorem Sys.Lasting.of_perform {d : Document} (h : s'.Lasting d) {o : CrawlOp} {a : Answer}
    {r : o.Resp} (hperform : s.engine.perform o a = some (r, s'.engine))
    (hremovals : s'.removals = s.removals) :
    s.Lasting d ∨ s.engine.indexer.isSome ∧ d.url ∉ s.pendingDeletes ∧
      ∃ job, o = .send job ∧ d = job.asDocument := by
  obtain ⟨halive, hd, hurl⟩ := h
  obtain ⟨hindexer, hdelete, -⟩ := Engine.outgoing_of_perform hperform
  rw [hindexer] at halive
  rw [Sys.pendingDeletes, hdelete, hremovals] at hurl
  rcases Engine.eventual_of_perform hperform hd with hd | hjob
  · exact Or.inl ⟨halive, hd, hurl⟩
  · exact Or.inr ⟨halive, hurl, hjob⟩

/-- **Where a document comes from** that lasts after a step: it did before, or the step sends it, or
what was on its way is lost and it is what is committed. -/
theorem Sys.Lasting.of_step {l : SysLabel} (h : (sysMachine X).step s l = some s') {d : Document}
    (hd : s'.Lasting d) :
    s.Lasting d ∨
      (s.engine.indexer.isSome ∧ d.url ∉ s.pendingDeletes ∧
        ∃ job ∈ s.sending l, d = job.asDocument) ∨
      l = .crash ∧ d ∈ s.engine.index := by
  cases Sys.change_of_step h with
  | extended | imported | renamed | deleted | retuned | importEnded | importDropped | runStarted
  | runEnded =>
    exact Or.inl hd
  | removed ht =>
    refine Or.inl ⟨hd.1, hd.2.1, fun hmem ↦ hd.2.2 ?_⟩
    rw [Sys.pendingDeletes, ← List.append_assoc, List.flatMap_append]
    exact List.mem_append_left _ hmem
  | deletesSent hk _ =>
    exact Or.inl ⟨hd.1, hd.2.1, fun hmem ↦ hd.2.2 (Sys.mem_pendingDeletes_of_sent hk hmem)⟩
  | deletesLost hix =>
    have halive : s.engine.indexer.isSome := hd.1
    rw [hix] at halive
    cases halive
  | importStepped hk hperform =>
    refine (hd.of_perform hperform rfl).imp_right fun ⟨halive, hurl, job, ho, he⟩ ↦
      Or.inl ⟨halive, hurl, job, ?_, he⟩
    subst ho
    rw [Sys.sending, hk]
    rfl
  | crawled hk hr =>
    obtain rfl | ⟨o, a, r, rfl, hop, hperform⟩ := CrawlRun.perform_of_step hr
    · exact Or.inl hd
    · refine (hd.of_perform hperform rfl).imp_right fun ⟨halive, hurl, job, ho, he⟩ ↦
        Or.inl ⟨halive, hurl, job, ?_, he⟩
      rw [Sys.sending, hk]
      exact CrawlRun.sending_eq_some.2 (ho ▸ hop)
  | indexed hturn => exact Or.inl (hd.of_turn hturn)
  | refused => exact absurd hd.1 Bool.false_ne_true
  | crashed => exact Or.inr (Or.inr ⟨rfl, hd.2.1⟩)

/-- A step that sends nothing and is no crash makes no document last. -/
theorem Sys.Lasting.of_quiet {l : SysLabel} (h : (sysMachine X).step s l = some s')
    (hsends : s.sending l = none) (hcrash : l ≠ .crash) {d : Document} (hd : s'.Lasting d) :
    s.Lasting d := by
  rcases hd.of_step h with hlast | ⟨-, -, job, hjob, -⟩ | ⟨hl, -⟩
  · exact hlast
  · rw [hsends] at hjob
    cases hjob
  · exact absurd hl hcrash

end CommunitySearch
