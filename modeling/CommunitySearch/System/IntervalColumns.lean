import CommunitySearch.System.Targets

/-!
# The interval columns of a target

A target has its recrawl interval twice: `recrawl_interval_s` is read by the scheduler, and
`recrawl_interval_secs` by the admin API. Whoever adds a target writes one value to both, and so
does whoever sets its interval; an import writes to each column what the envelope has for it.

`intervalsInSync_iff_guarded` says that the columns are equal all along a run exactly when no import
brings a target whose two intervals differ. Where they are equal, the listing shows the interval the
scheduler goes by (`Database.intervalsInSync_iff`).
-/

namespace CommunitySearch

/-- At the time `now` the scheduler goes by the interval of the row `item` of the listing: it passes
that interval on, and it crawls the target again once that interval has passed. -/
structure Database.SchedulesAsShown (db : Database) (t : CrawlTargetRow)
    (item : CrawlTargetListItem) (now : Int) : Prop where
  interval : ∀ d ∈ db.listDueTargets now, d.id = t.id →
    d.recrawlIntervalSecs = item.recrawlIntervalSecs
  due : (∃ d ∈ db.listDueTargets now, d.id = t.id) ↔
    t.enabled = 1 ∧ item.lastCrawledAt.all fun last ↦ last + item.recrawlIntervalSecs ≤ now

/-- **The interval columns are equal**, so the interval that the listing shows of a target is the
one the scheduler uses. -/
structure Database.IntervalsInSync (db : Database) : Prop where
  columns : ∀ t ∈ db.crawlTargets, t.recrawlIntervalS = t.recrawlIntervalSecs
  shown : ∀ t ∈ db.crawlTargets, ∀ item ∈ db.listTargets, item.id = t.rowid →
    ∀ now, db.SchedulesAsShown t item now

namespace Database

variable {db : Database}

/-- What is due under the identifier of a target is that target. -/
theorem of_mem_listDueTargets {t : CrawlTargetRow} (ht : t ∈ db.crawlTargets) {now : Int}
    {d : DueTarget} (hd : d ∈ db.listDueTargets now) (hid : d.id = t.id) :
    t.enabled = 1 ∧ (t.lastCrawledAt.all fun last ↦ last + t.recrawlIntervalS ≤ now) = true ∧
      d.recrawlIntervalSecs = t.recrawlIntervalS := by
  obtain ⟨t', ht', hdue, _, -, rfl⟩ := mem_listDueTargets.1 hd
  obtain rfl : t' = t := eq_of_mem_crawlTargets ht' ht (Or.inr (Or.inl hid))
  exact ⟨hdue.1, hdue.2, rfl⟩

/-- A target is due when it is enabled and its interval has passed. -/
theorem exists_mem_listDueTargets_iff {t : CrawlTargetRow} (ht : t ∈ db.crawlTargets)
    (hcollection : db.HasCollection t.collectionId) {now : Int} :
    (∃ d ∈ db.listDueTargets now, d.id = t.id) ↔
      t.enabled = 1 ∧ t.lastCrawledAt.all fun last ↦ last + t.recrawlIntervalS ≤ now := by
  constructor
  · rintro ⟨d, hd, hid⟩
    obtain ⟨henabled, hpassed, -⟩ := of_mem_listDueTargets ht hd hid
    exact ⟨henabled, hpassed⟩
  · intro hdue
    obtain ⟨c, hc, hid⟩ := hcollection
    have hfound : (db.collections.rows.find? fun c ↦ c.id = t.collectionId).isSome :=
      List.find?_isSome.2 ⟨c, hc, decide_eq_true hid⟩
    obtain ⟨c', hc'⟩ := Option.isSome_iff_exists.1 hfound
    exact ⟨_, mem_listDueTargets.2 ⟨t, ht, hdue, c', hc', rfl⟩, rfl⟩

/-- **Equal columns**: the listing shows what the scheduler uses. -/
theorem intervalsInSync_iff :
    db.IntervalsInSync ↔ ∀ t ∈ db.crawlTargets, t.recrawlIntervalS = t.recrawlIntervalSecs := by
  refine ⟨fun h ↦ h.columns, fun h ↦ ⟨h, fun t ht item hitem hid now ↦ ?_⟩⟩
  obtain ⟨t', ht', c, hc, hcollection, rfl⟩ := mem_listTargets.1 hitem
  obtain rfl : t' = t := eq_of_mem_crawlTargets ht' ht (Or.inl hid)
  have hsame := h t' ht
  constructor
  · intro d hd hdid
    obtain ⟨-, -, hinterval⟩ := of_mem_listDueTargets ht hd hdid
    exact hinterval.trans hsame
  · rw [exists_mem_listDueTargets_iff ht ⟨c, hc, hcollection⟩, hsame]
    exact Iff.rfl

end Database

/-! ### The columns over a run -/

namespace Sys

/-- The targets a step imports: those of the collections that are created, if the envelope is
accepted. -/
def importedTargets (X : Crates) (s : Sys) : TargetLabel → List ExportedCrawlTarget
  | .other (.importEnvelope env ts) =>
    match acceptImport X s.engine.db ts (.ok env) with
    | .ok _ =>
      (newCollections s.engine.db.collectionNames env.collections).flatMap
        ExportedCollection.crawlTargets
    | .error _ => []
  | _ => []

/-- No target is imported whose two intervals differ. -/
def ImportsInSync (X : Crates) (s : Sys) (l : TargetLabel) : Prop :=
  ∀ e ∈ s.importedTargets X l, e.recrawlIntervalS = e.recrawlIntervalSecs

instance (X : Crates) (s : Sys) (l : TargetLabel) : Decidable (s.ImportsInSync X l) :=
  inferInstanceAs (Decidable (∀ e ∈ s.importedTargets X l, _))

end Sys

variable {X : Crates} {s s' : Sys} {l : TargetLabel}

/-- **One step** keeps the columns equal, unless it imports a target whose intervals differ. -/
theorem columns_of_step
    (h : ∀ t ∈ s.engine.db.crawlTargets, t.recrawlIntervalS = t.recrawlIntervalSecs)
    (hok : s.ImportsInSync X l) (hstep : (targetMachine X).step s l = some s') :
    ∀ t ∈ s'.engine.db.crawlTargets, t.recrawlIntervalS = t.recrawlIntervalSecs := by
  have hchange := targetChange_of_step hstep
  generalize s'.engine.db = db at hchange ⊢
  intro t' ht'
  cases hchange with
  | kept hkept =>
    obtain ⟨t, ht, hsame⟩ := hkept t' ht'
    rw [hsame]
    exact h t ht
  | added _ hadd htargets =>
    obtain ⟨c, -, targets, hins, rfl⟩ := Database.addTarget_eq hadd
    rw [htargets] at ht'
    rcases (Table.mem_of_insert hins).1 ht' with hold | rfl
    · exact h t' hold
    · rfl
  | reset =>
    obtain ⟨t, ht, rfl⟩ := List.mem_map.1 ht'
    split
    · rfl
    · exact h t ht
  | imported hl hr =>
    obtain rfl := hl
    have hinserts := inserts_of_committedImport (committedImport_of_acceptImport hr)
    have hcolumns : ∀ {a : TargetColumns}, a = t'.columns →
        a.recrawlIntervalS = a.recrawlIntervalSecs →
        t'.recrawlIntervalS = t'.recrawlIntervalSecs := fun ha hsame ↦ by rwa [ha] at hsame
    obtain ⟨t, ht, hsame⟩ | ⟨e, he, hsame⟩ := hinserts.mem_columns.1 ⟨t', ht', rfl⟩
    · exact hcolumns hsame (h t ht)
    · refine hcolumns hsame (hok e ?_)
      rw [Sys.importedTargets, hr]
      exact he

/-- What is imported stands in the table as the envelope has it. -/
theorem exists_row_of_import (hstep : (targetMachine X).step s l = some s')
    {e : ExportedCrawlTarget} (he : e ∈ s.importedTargets X l) :
    ∃ t ∈ s'.engine.db.crawlTargets, t.columns = e.columns := by
  unfold Sys.importedTargets at he
  split at he
  case h_1 env ts =>
    have himport : (sysMachine X).step s (.importEnvelope env ts) = some s' := hstep
    cases Sys.move_of_step himport with
    | imported hr =>
      rw [hr] at he
      have hinserts := inserts_of_committedImport (committedImport_of_acceptImport hr)
      exact hinserts.mem_columns.2 (Or.inr ⟨e, he, rfl⟩)
    | importRefused herr =>
      rw [herr] at he
      exact absurd he List.not_mem_nil
  case h_2 => exact absurd he List.not_mem_nil

/-- **The interval columns stay equal** over all targets that are added, set, promoted and imported,
all along a run exactly when it imports no target whose two intervals differ. -/
theorem intervalsInSync_iff_guarded (X : Crates) (labels : List TargetLabel) (s : Sys)
    (hrun : (targetMachine X).run .init labels = some s) :
    (∀ l₁ l₂ u, labels = l₁ ++ l₂ → (targetMachine X).run .init l₁ = some u →
      u.engine.db.IntervalsInSync) ↔
        (targetMachine X).Guarded (Sys.ImportsInSync X) .init labels := by
  refine Machine.forall_prefix_iff_guarded (B := fun _ _ ↦ True)
    (I := fun u : Sys ↦ u.engine.db.IntervalsInSync) (fun _ h ↦ h)
    (fun u l u' h _ hok hs ↦ ?_) (fun u l u' _ _ hbad hs h ↦ ?_) ?_ (Machine.guarded_true _ _) hrun
  · exact Database.intervalsInSync_iff.2 (columns_of_step h.columns hok hs)
  · rw [Sys.ImportsInSync] at hbad
    push Not at hbad
    obtain ⟨e, he, hdiffer⟩ := hbad
    obtain ⟨t, ht, hcolumns⟩ := exists_row_of_import hs he
    have hs : t.recrawlIntervalS = e.recrawlIntervalS :=
      congrArg TargetColumns.recrawlIntervalS hcolumns
    have hsecs : t.recrawlIntervalSecs = e.recrawlIntervalSecs :=
      congrArg TargetColumns.recrawlIntervalSecs hcolumns
    exact hdiffer (hs.symm.trans ((h.columns t ht).trans hsecs))
  · exact Database.intervalsInSync_iff.2 fun t ht ↦ absurd ht (Table.not_mem_empty _)

namespace TwoIntervals

/-- A collection with one target, and a host to review. -/
def envelope (recrawlIntervalS recrawlIntervalSecs : Int) : ExportEnvelope where
  formatVersion := 1
  exportedAt := "t0"
  selfUrl := ""
  collections := [{
    name := "guide"
    description := ""
    createdAt := ""
    updatedAt := ""
    crawlTargets :=
      [⟨"https://guide.example/", recrawlIntervalS, recrawlIntervalSecs, 1, none, "", []⟩]
    outlinkHostSuggestions := [⟨"blog.example", 1, .parses [], 0, 0, "pending"⟩] }]

/-- The envelope is imported, a target added, the host promoted, and the interval of the imported
target set. -/
def written (recrawlIntervalS recrawlIntervalSecs : Int) : List TargetLabel :=
  [.other (.importEnvelope (envelope recrawlIntervalS recrawlIntervalSecs) "t1"),
    .add 1 "https://wiki.example/" 7200 none "t2",
    .promote 1 ⟨86400, none⟩ "t3",
    .other (.crawlTargets (.setInterval 1 1800) none "t4")]

/-- Three targets, and four writes that keep their columns equal. -/
theorem intervalsInSync_written : ∃ s,
    (targetMachine OnePage.crates).run .init (written 3600 3600) = some s ∧
      s.engine.db.crawlTargets.rows.map CrawlTargetRow.recrawlIntervalSecs = [1800, 7200, 86400] ∧
      s.engine.db.IntervalsInSync := by
  obtain ⟨s, hrun, hs⟩ : ∃ s, (targetMachine OnePage.crates).run .init (written 3600 3600) =
      some s ∧ decide (s.engine.db.crawlTargets.rows.map CrawlTargetRow.recrawlIntervalSecs =
        [1800, 7200, 86400]) = true :=
    Machine.exists_run_of_any (by decide +kernel)
  exact ⟨s, hrun, of_decide_eq_true hs, (intervalsInSync_iff_guarded _ _ s hrun).2
    (by decide +kernel) _ [] s (List.append_nil _).symm hrun⟩

/-- **The target is crawled once a day and shown as crawled every hour.** -/
theorem not_intervalsInSync : ¬ ∀ labels s,
    (targetMachine OnePage.crates).run .init labels = some s → s.engine.db.IntervalsInSync := by
  obtain ⟨s, hrun, hs⟩ : ∃ s, (targetMachine OnePage.crates).run .init
      [.other (.importEnvelope (envelope 86400 3600) "t1")] = some s ∧
      decide (∃ t ∈ s.engine.db.crawlTargets.rows,
        t.recrawlIntervalS = 86400 ∧ t.recrawlIntervalSecs = 3600) = true :=
    Machine.exists_run_of_any (by decide +kernel)
  obtain ⟨t, ht, hinterval, hsecs⟩ := of_decide_eq_true hs
  intro h
  have hsame := (h _ s hrun).columns t ht
  rw [hinterval, hsecs] at hsame
  revert hsame
  decide

end TwoIntervals

end CommunitySearch
