import CommunitySearch.System.Lasting

/-!
# Completeness of removals

Removing a target deletes its rows and sends the URLs they had to the indexer. What survives of it
in the index is what was crawled for it and has no row at that moment: a page whose job is sent
before its row is written, a document under a URL other than the one crawled, a job sent by a crawl
that is still running. If no removal and no send leaves such a document behind (`Clears`), then,
once the messages are through, every document of a removed target belongs to a row of another one
(`removalComplete_of_guarded`).

The invariant is about the documents that last (`Sys.Lasting`).
-/

namespace CommunitySearch

/-- The document was produced by the crawl of a target that is gone. -/
def Document.FromRemoved (d : Document) (db : Database) : Prop :=
  ∃ target ∈ d.crawlTargetId, ¬ db.HasTarget target

/-- The page of the document has a row. -/
def Document.Owned (d : Document) (db : Database) : Prop :=
  db.HasPage d.collectionId d.url

instance (d : Document) (db : Database) : Decidable (d.FromRemoved db) :=
  inferInstanceAs (Decidable (∃ target ∈ d.crawlTargetId, ¬ db.HasTarget target))

instance (d : Document) (db : Database) : Decidable (d.Owned db) :=
  inferInstanceAs (Decidable (db.HasPage d.collectionId d.url))

/-- **Completeness of removals**: every committed document of a removed target belongs to a row of a
target that remains. -/
def Sys.RemovalComplete (s : Sys) : Prop :=
  ∀ d ∈ s.engine.index, d.FromRemoved s.engine.db →
    ∃ p ∈ s.engine.db.crawledPages, p.collectionId = d.collectionId ∧ p.url = d.url ∧
      ∃ t ∈ s.engine.db.crawlTargets, t.id = p.crawlTargetId

/-- Every document of a removed target that will be in the index, and that no pending deletion is
for, has a row. -/
def Cleared (s : Sys) : Prop :=
  s.engine.indexer.isSome → ∀ d ∈ s.engine.eventual, d.url ∉ s.pendingDeletes →
    d.FromRemoved s.engine.db → d.Owned s.engine.db

/-! ### The database -/

/-- No target and no page is lost. -/
structure Database.Retains (db db' : Database) : Prop where
  target : ∀ {id}, db.HasTarget id → db'.HasTarget id
  page : ∀ {c u}, db.HasPage c u → db'.HasPage c u

section Retains

variable {db db' : Database}

theorem Database.Retains.refl (db : Database) : db.Retains db :=
  ⟨fun h ↦ h, fun h ↦ h⟩

theorem Database.Extends.retains (h : db.Extends db') : db.Retains db' :=
  ⟨h.hasTarget, h.hasPage⟩

theorem Database.Retunes.retains (h : db.Retunes db') : db.Retains db' where
  target := h.hasTarget_iff.2
  page hp := by
    obtain ⟨_, rfl⟩ := h.eq
    exact hp

theorem Database.retains_updateItem {id : Int} {name description ts : String}
    {r : Option CollectionRecord} (h : db.updateItem id name description ts = some (db', r)) :
    db.Retains db' := by
  obtain ⟨_, rfl⟩ := Database.updateItem_eq h
  exact ⟨fun h ↦ h, fun h ↦ h⟩

theorem Database.retains_upsertPage {row : CrawledPageRow} (h : db.upsertPage row = some db') :
    db.Retains db' where
  target ht := by
    obtain ⟨-, -, _, _, rfl, -⟩ := Database.upsertPage_cases h
    exact ht
  page hp := (Database.hasPage_of_upsertPage h).2 (Or.inl hp)

theorem Database.Suggests.retains (h : db.Suggests db') : db.Retains db' := by
  obtain ⟨_, _, rfl, -⟩ := h.eq
  exact ⟨fun h ↦ h, fun h ↦ h⟩

theorem Database.retains_markIndexedBatch (entries : List IndexedEntry) :
    db.Retains (db.markIndexedBatch entries) where
  target ht := by
    obtain ⟨_, he⟩ := Database.markIndexedBatch_eq db entries
    exact he ▸ ht
  page hp := Database.hasPage_markIndexedBatch.2 hp

/-- What is no longer owed in a database is not owed in one that retains it. -/
theorem Database.Retains.owned (h : db.Retains db') {d : Document}
    (hd : d.FromRemoved db → d.Owned db) (hfrom : d.FromRemoved db') : d.Owned db' := by
  obtain ⟨target, htarget, hgone⟩ := hfrom
  exact h.page (hd ⟨target, htarget, fun ht ↦ hgone (h.target ht)⟩)

end Retains

/-! ### Steps -/

/-- The admissible steps. A target is removed when each of its documents has a row; what is sent for
a removed target has a row or a pending deletion; and a collection that is deleted, or deletions
that are lost in a crash, leave no document of a removed target without a row. -/
def Clears (s : Sys) (l : SysLabel) : Prop :=
  (∀ job ∈ s.sending l, job.asDocument.FromRemoved s.engine.db →
    job.asDocument.Owned s.engine.db ∨ job.url ∈ s.pendingDeletes) ∧
  match l with
  | .crawlTargets (.remove id) _ _ => ∀ t ∈ s.engine.db.targetByRowid id,
      ∀ d ∈ s.engine.eventual, d.crawlTargetId = some t.id → d.Owned s.engine.db
  | .collections (.delete id) _ => ∀ c ∈ s.engine.db.collectionByRowid id,
      ∀ d ∈ s.engine.eventual, d.FromRemoved (s.engine.db.cascadeCollection c.id) →
        d.Owned (s.engine.db.cascadeCollection c.id)
  | .crash => ∀ d ∈ s.engine.index, d.FromRemoved s.engine.db → d.Owned s.engine.db
  | _ => True

instance (s : Sys) (l : SysLabel) : Decidable (Clears s l) := by
  unfold Clears
  refine @instDecidableAnd _ _ inferInstance ?_
  split <;> infer_instance

variable {X : Crates} {s s' : Sys}

/-- **A step loses no target and no page**, but for a removal and a deletion. -/
theorem Database.retains_of_step {l : SysLabel} (h : (sysMachine X).step s l = some s') :
    s.engine.db.Retains s'.engine.db ∨
      (∃ id detected ts t, l = .crawlTargets (.remove id) detected ts ∧
        s.engine.db.targetByRowid id = some t ∧
        s'.engine.db = s.engine.db.cascadeTarget t.id) ∨
      ∃ id ts c, l = .collections (.delete id) ts ∧ s.engine.db.collectionByRowid id = some c ∧
        s'.engine.db = s.engine.db.cascadeCollection c.id := by
  have hchange := Sys.dbChange_of_step h
  generalize s'.engine.db = db at hchange ⊢
  cases hchange with
  | same => exact Or.inl (.refl _)
  | extended hext => exact Or.inl hext.retains
  | renamed hupdate => exact Or.inl (Database.retains_updateItem hupdate)
  | deleted hc => exact Or.inr (Or.inr ⟨_, _, _, rfl, hc, rfl⟩)
  | removed ht => exact Or.inr (Or.inl ⟨_, _, _, _, rfl, ht, rfl⟩)
  | retuned hr => exact Or.inl hr.retains
  | upserted hdb => exact Or.inl (Database.retains_upsertPage hdb)
  | suggested hdb => exact Or.inl hdb.retains
  | journaled => exact Or.inl (Database.retains_markIndexedBatch _)

/-- The batch of a removal is pending after it. -/
theorem Sys.mem_pendingDeletes_of_removed {id : Int} {detected : Option String} {ts : String}
    (h : (sysMachine X).step s (.crawlTargets (.remove id) detected ts) = some s')
    {t : CrawlTargetRow} (ht : s.engine.db.targetByRowid id = some t) {batch : DeleteBatch}
    (hbatch : batch ∈ removalBatch s.engine.db id) {u : String} (hu : u ∈ batch.urls) :
    u ∈ s'.pendingDeletes := by
  have hok : handleCrawlTargets s.engine.db ts detected (.remove id) =
      .ok (s.engine.db.cascadeTarget t.id, ⟨none, removalBatch s.engine.db id⟩) := by
    rw [handleCrawlTargets, Database.removeTarget, ht]
  have hstep : s.step X (.crawlTargets (.remove id) detected ts) =
      some { s.withDb (s.engine.db.cascadeTarget t.id) with
        removals := s.removals ++ (removalBatch s.engine.db id).toList } := by
    rw [step, hok]
  obtain rfl := Option.some.inj (hstep.symm.trans h)
  refine List.mem_flatMap.2 ⟨batch, ?_, hu⟩
  exact List.mem_append_right _ (List.mem_append_right _ (Option.mem_toList.2 hbatch))

/-- A removal. -/
theorem Cleared.remove (hI : Cleared s) {rowid : Int} {t : CrawlTargetRow}
    (ht : s.engine.db.targetByRowid rowid = some t)
    (hok : ∀ d ∈ s.engine.eventual, d.crawlTargetId = some t.id → d.Owned s.engine.db)
    {d : Document} (hd : s.Lasting d)
    (hurl : ∀ batch ∈ removalBatch s.engine.db rowid, d.url ∉ batch.urls)
    (hfrom : d.FromRemoved (s.engine.db.cascadeTarget t.id)) :
    d.Owned (s.engine.db.cascadeTarget t.id) := by
  obtain ⟨target, htarget, hgone⟩ := hfrom
  -- the document had a row before
  have howned : d.Owned s.engine.db := by
    by_cases he : target = t.id
    · exact hok d hd.2.1 (he ▸ htarget)
    · refine hI hd.1 d hd.2.1 hd.2.2 ⟨target, htarget, ?_⟩
      rintro ⟨t', ht', rfl⟩
      exact hgone ⟨t', Database.mem_crawlTargets_cascadeTarget.2 ⟨ht', he⟩, rfl⟩
  -- a row of the target is in the batch, and the other rows stay
  obtain ⟨p, hp, hc, hu⟩ := howned
  by_cases hpt : p.crawlTargetId = t.id
  · obtain ⟨batch, hbatch, hin⟩ := mem_removalBatch ht hp hpt
    exact absurd (hu ▸ hin) (hurl batch hbatch)
  · exact ⟨p, Database.mem_crawledPages_cascadeTarget.2 ⟨hp, hpt⟩, hc, hu⟩

theorem cleared_of_step {l : SysLabel} (hI : Cleared s) (hok : Clears s l)
    (h : (sysMachine X).step s l = some s') : Cleared s' := by
  intro halive d hd hurl hfrom
  have hlast : s'.Lasting d := ⟨halive, hd, hurl⟩
  rcases Database.retains_of_step h with hretains | ⟨id, _, _, t, rfl, ht, hdb⟩ |
    ⟨id, _, c, rfl, hc, hdb⟩
  · refine hretains.owned (fun hfrom ↦ ?_) hfrom
    rcases hlast.of_step h with hlast | ⟨-, hpending, job, hjob, rfl⟩ | ⟨rfl, hindex⟩
    · exact hI hlast.1 d hlast.2.1 hlast.2.2 hfrom
    · exact (hok.1 job hjob hfrom).resolve_right hpending
    · exact hok.2 d hindex hfrom
  · rw [hdb] at hfrom ⊢
    refine hI.remove ht (hok.2 t ht) (hlast.of_quiet h rfl nofun) (fun batch hbatch hmem ↦ ?_) hfrom
    exact hurl (Sys.mem_pendingDeletes_of_removed h ht hbatch hmem)
  · rw [hdb] at hfrom ⊢
    exact hok.2 c hc d (hlast.of_quiet h rfl nofun).2.1 hfrom

/-! ### Runs -/

namespace RemovedTarget

/-- The crawl is over. -/
def endCrawl : List SysLabel :=
  [.crawl 0 .next, .crawl 0 .next, .endRun 0 true]

/-- The target is removed while its page is in transit: there is no row yet. -/
def during : List SysLabel :=
  OnePage.install ++ [OnePage.startRun OnePage.due 0] ++ OnePage.fetch 0 false OnePage.page ++
    [.crawlTargets (.remove 1) none "t2"] ++ OnePage.send 0 ++ OnePage.write 0 ++ endCrawl ++
    OnePage.flush

/-- The target is removed after its crawl. -/
def afterwards : List SysLabel :=
  OnePage.install ++ [OnePage.startRun OnePage.due 0] ++ OnePage.fetch 0 false OnePage.page ++
    OnePage.send 0 ++ OnePage.write 0 ++ endCrawl ++ OnePage.flush ++
    [.crawlTargets (.remove 1) none "t2", .sendDeletes 0, .indexer .delete .done]

end RemovedTarget

end CommunitySearch
