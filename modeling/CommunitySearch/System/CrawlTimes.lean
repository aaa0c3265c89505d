import CommunitySearch.Api.ImportRows
import CommunitySearch.System.Tasks

/-!
# The times of the crawls

`last_crawled_at` of a target is written by one statement, at the end of a crawl of it. Every other
operation leaves the times alone (`KeepsTimes`): it drops targets, or adds some that have no time
and an identifier that no target has had before (`keepsTimes_of_sysStep`, `keepsTimes_of_step`).
-/

namespace CommunitySearch

variable {X : Crates}

namespace Database

/-- Every target of `db'` is one of `db` with the time it had, or is new and has none. -/
structure KeepsTimes (db db' : Database) : Prop where
  supply : db.nextUuid ≤ db'.nextUuid
  time : ∀ t' ∈ db'.crawlTargets,
    (∃ t ∈ db.crawlTargets, t.id = t'.id ∧ t.lastCrawledAt = t'.lastCrawledAt) ∨
      t'.lastCrawledAt = none ∧ db.nextUuid ≤ t'.id.serial ∧ t'.id.serial < db'.nextUuid

variable {db db' db'' : Database} {ts : String}

theorem keepsTimes_of_subset (hsupply : db.nextUuid ≤ db'.nextUuid)
    (h : ∀ t ∈ db'.crawlTargets, t ∈ db.crawlTargets) : db.KeepsTimes db' :=
  ⟨hsupply, fun t ht ↦ Or.inl ⟨t, h t ht, rfl, rfl⟩⟩

theorem keepsTimes_of_eq (hsupply : db.nextUuid ≤ db'.nextUuid)
    (h : db'.crawlTargets = db.crawlTargets) : db.KeepsTimes db' :=
  keepsTimes_of_subset hsupply fun _ ht ↦ h ▸ ht

theorem keepsTimes_refl (db : Database) : db.KeepsTimes db :=
  keepsTimes_of_eq (Nat.le_refl _) rfl

theorem KeepsTimes.trans (h : db.KeepsTimes db') (h' : db'.KeepsTimes db'') :
    db.KeepsTimes db'' where
  supply := Nat.le_trans h.supply h'.supply
  time t'' ht'' := by
    rcases h'.time t'' ht'' with ⟨t', ht', hid', htime'⟩ | ⟨hnone, hge, hlt⟩
    · rcases h.time t' ht' with ⟨t, ht, hid, htime⟩ | ⟨hnone, hge, hlt⟩
      · exact Or.inl ⟨t, ht, hid.trans hid', htime.trans htime'⟩
      · exact Or.inr ⟨htime' ▸ hnone, hid' ▸ hge, hid' ▸ Nat.lt_of_lt_of_le hlt h'.supply⟩
    · exact Or.inr ⟨hnone, Nat.le_trans h.supply hge, hlt⟩

/-! ### What the operations leave -/

/-- Settings of targets are set. -/
theorem keepsTimes_modify {f : CrawlTargetRow → CrawlTargetRow}
    {hf : ∀ a b, (f a).Clash (f b) → a.Clash b}
    (hkeeps : ∀ t, (f t).id = t.id ∧ (f t).lastCrawledAt = t.lastCrawledAt) :
    db.KeepsTimes { db with crawlTargets := db.crawlTargets.modify f hf } := by
  refine ⟨Nat.le_refl _, fun t' ht' ↦ Or.inl ?_⟩
  obtain ⟨t, ht, rfl⟩ := List.mem_map.1 ht'
  exact ⟨t, ht, (hkeeps t).1.symm, (hkeeps t).2.symm⟩

/-- A target is inserted that has no time. -/
theorem keepsTimes_insert {t : CrawlTargetRow} {targets : Table CrawlTargetRow.Clash}
    (h : db.crawlTargets.insert t = some targets) (hid : t.id = ⟨db.nextUuid⟩)
    (hnone : t.lastCrawledAt = none) :
    db.KeepsTimes { db with crawlTargets := targets, nextUuid := db.nextUuid + 1 } := by
  refine ⟨Nat.le_succ _, fun t' ht' ↦ ?_⟩
  rcases (Table.mem_of_insert h).1 ht' with hold | rfl
  · exact Or.inl ⟨t', hold, rfl, rfl⟩
  · refine Or.inr ⟨hnone, ?_, ?_⟩
    · rw [hid]
    · rw [hid]
      exact Nat.lt_succ_self _

theorem keepsTimes_addTarget {rowid : Int} {pre : String} {secs : Int} {r : CrawlTargetRecord}
    (h : db.addTarget rowid pre secs ts = some (db', r)) : db.KeepsTimes db' := by
  obtain ⟨c, -, targets, hins, rfl⟩ := addTarget_eq h
  exact keepsTimes_insert hins rfl rfl

theorem keepsTimes_collections {action : CollectionAction} {r : Option CollectionRecord}
    (h : handleCollections db ts action = .ok (db', r)) : db.KeepsTimes db' := by
  obtain ⟨_, _, _, -, hc⟩ | ⟨_, _, _, _, -, hu⟩ | ⟨_, _, -, -, rfl⟩ := handleCollections_cases h
  · obtain ⟨_, rfl⟩ := createItem_eq hc
    exact keepsTimes_of_eq (Nat.le_succ _) rfl
  · obtain ⟨_, rfl⟩ := updateItem_eq hu
    exact keepsTimes_of_eq (Nat.le_refl _) rfl
  · exact keepsTimes_of_subset (Nat.le_refl _) fun t ht ↦
      (mem_crawlTargets_cascadeCollection.1 ht).1

theorem keepsTimes_crawlTargets {detected : Option String} {action : CrawlTargetAction}
    {r : CrawlTargetReply} (h : handleCrawlTargets db ts detected action = .ok (db', r)) :
    db.KeepsTimes db' := by
  cases crawlTargetChange_of_ok h with
  | added hadd => exact keepsTimes_addTarget hadd
  | removed =>
    exact keepsTimes_of_subset (Nat.le_refl _) fun t' ht' ↦
      (mem_crawlTargets_cascadeTarget.1 ht').1
  | interval => exact keepsTimes_modify fun t ↦ by split <;> exact ⟨rfl, rfl⟩
  | delay => exact keepsTimes_modify fun t ↦ by split <;> exact ⟨rfl, rfl⟩

theorem keepsTimes_promoteOutlink {id target : Int} {body : PromoteBody}
    (h : promoteOutlink db ts id body = .ok (db', target)) : db.KeepsTimes db' := by
  obtain ⟨_, _, db₁, _, -, -, -, hadd, rfl, -⟩ := promoteOutlink_eq h
  exact (keepsTimes_addTarget hadd).trans (keepsTimes_of_eq (Nat.le_refl _) rfl)

theorem keepsTimes_suggests (h : db.Suggests db') : db.KeepsTimes db' := by
  obtain ⟨_, _, rfl, hsupply⟩ := h.eq
  exact keepsTimes_of_eq hsupply rfl

theorem keepsTimes_markIndexedBatch (entries : List IndexedEntry) :
    db.KeepsTimes (db.markIndexedBatch entries) := by
  obtain ⟨pages, he⟩ := markIndexedBatch_eq db entries
  rw [he]
  exact keepsTimes_of_eq (Nat.le_refl _) rfl

theorem keepsTimes_upsertPage {row : CrawledPageRow} (h : db.upsertPage row = some db') :
    db.KeepsTimes db' := by
  obtain ⟨-, -, _, _, rfl, -⟩ := upsertPage_cases h
  exact keepsTimes_of_eq (Nat.le_refl _) rfl

/-! ### What an import leaves -/

variable {report report' : ImportReport} {collection : Uuid}

theorem keepsTimes_importTarget {e : ExportedCrawlTarget}
    (h : Sql.exec false (importTarget collection ts report e) db = some (db', report')) :
    db.KeepsTimes db' := by
  rw [exec_importTarget] at h
  obtain ⟨targets, htargets, hpages⟩ := Option.bind_eq_some_iff.1 h
  refine Sql.loop_invariant (I := fun db' _ ↦ db.KeepsTimes db') (fun q db₁ _ db₂ _ hI hq ↦ ?_)
    (keepsTimes_insert htargets rfl rfl) hpages
  rw [exec_importPage] at hq
  obtain ⟨_, -, he⟩ := Option.map_eq_some_iff.1 hq
  obtain ⟨rfl, -⟩ := Prod.mk.inj he
  exact hI.trans (keepsTimes_of_eq (Nat.le_refl _) rfl)

theorem keepsTimes_importCollection {acc acc' : ImportProgress} {c : ExportedCollection}
    (h : Sql.exec false (importCollection X ts acc c) db = some (db', acc')) :
    db.KeepsTimes db' := by
  obtain ⟨cs, db₁, report₁, db₂, report₂, -, htargets, hranking, hhosts, -⟩ :=
    exec_importCollection_eq_some.1 h
  have hinsert : db.KeepsTimes
      { db with collections := cs, nextUuid := db.nextUuid + 1 } :=
    keepsTimes_of_eq (Nat.le_succ _) rfl
  have h₁ : db.KeepsTimes db₁ :=
    Sql.loop_invariant (I := fun db₁ _ ↦ db.KeepsTimes db₁)
      (fun _ _ _ _ _ hI ht ↦ hI.trans (keepsTimes_importTarget ht)) hinsert htargets
  obtain ⟨_, rfl, -⟩ := rankings_of_importRankingConfig hranking
  obtain ⟨_, _, _, rfl, -, -, -, hsupply⟩ := rows_of_importOutlinkHosts hhosts
  exact h₁.trans (keepsTimes_of_eq hsupply rfl)

/-- **An import** brings targets that have no time. -/
theorem keepsTimes_of_committedImport {env : ExportEnvelope} {jobs : List IndexJob}
    (h : committedImport X ts env db = some (db', report, jobs)) : db.KeepsTimes db' := by
  obtain ⟨db₁, acc, db₂, peers, hcollections, hnodes, hpeers, -⟩ := committedImport_eq_some.1 h
  have h₁ : db.KeepsTimes db₁ :=
    newCollections_invariant (I := fun _ db₁ _ ↦ db.KeepsTimes db₁)
      (fun _ _ _ _ _ _ hI hc ↦ hI.trans (keepsTimes_importCollection hc)) (keepsTimes_refl db)
      hcollections
  obtain ⟨_, rfl⟩ := Database.applyNodePeers_eq hnodes
  obtain ⟨_, _, rfl⟩ := sameContent_applyCollectionPeers hpeers
  exact h₁.trans (keepsTimes_of_eq (Nat.le_refl _) rfl)

end Database

/-! ### The steps -/

variable {s s' : Sys}

/-- **A step of the system**, unless it ends a crawl. -/
theorem Sys.keepsTimes_of_sysStep {l : SysLabel} (hl : ∀ k saved, l ≠ .endRun k saved)
    (h : (sysMachine X).step s l = some s') : s.engine.db.KeepsTimes s'.engine.db := by
  have hstep := dbStep_of_step h
  generalize s'.engine.db = db at hstep ⊢
  cases hstep with
  | same => exact Database.keepsTimes_refl _
  | collections hr => exact Database.keepsTimes_collections hr
  | crawlTargets hr => exact Database.keepsTimes_crawlTargets hr
  | imported hr => exact Database.keepsTimes_of_committedImport (committedImport_of_acceptImport hr)
  | performed _ hr =>
    rcases Engine.db_of_perform hr with hdb | ⟨_, -, hdb⟩ | hdb
    · rw [hdb]
      exact Database.keepsTimes_refl _
    · exact Database.keepsTimes_upsertPage hdb
    · exact Database.keepsTimes_suggests hdb
  | timed => exact absurd rfl (hl _ _)
  | turned he =>
    rcases (Engine.turn_of_indexerStep he).db with hdb | ⟨entries, hdb⟩
    · rw [hdb]
      exact Database.keepsTimes_refl _
    · rw [hdb]
      exact Database.keepsTimes_markIndexedBatch entries

/-- **A decision of the review**, a ranking that is saved, or the detection of a prefix before a
target is added. -/
theorem Sys.keepsTimes_of_step {l : TargetLabel} (hl : ∀ l₀, l ≠ .other l₀)
    (h : (targetMachine X).step s l = some s') : s.engine.db.KeepsTimes s'.engine.db := by
  cases move_of_targetStep h with
  | step htoSys hs =>
    cases l with
    | add =>
      obtain rfl := Option.some.inj htoSys
      refine keepsTimes_of_sysStep ?_ hs
      exact fun _ _ ↦ nofun
    | promote | dismiss | putRanking => cases htoSys
    | other l₀ => exact absurd rfl (hl l₀)
  | promoted hr => exact Database.keepsTimes_promoteOutlink hr
  | dismissed hr => exact Database.keepsTimes_suggests (suggests_dismissOutlink hr)
  | ranked hr =>
    obtain ⟨_, _, -, rfl, -⟩ := Database.putRanking_eq hr
    exact Database.keepsTimes_of_eq (Nat.le_refl _) rfl
  | refused => exact Database.keepsTimes_refl _

end CommunitySearch
