import CommunitySearch.System.SuggestionSources

/-!
# Collections and each other

The collections of an installation share its tables, its crawler and its indexer, and the rows of
all of them are deleted by cascades and rewritten by identifiers the database has given out. Still a
step changes the rows of the collection it is about only (`share_of_run`): the collection an admin
request names, that of the crawl that takes the step, or that of the documents the indexer commits.

`touched` says which collection that is. It is read off the request and the state the request
arrives in, so that what is claimed is about requests as they are sent: by rowid.
-/

namespace CommunitySearch

variable {X : Crates} {valid : Url → Prop}

/-- The collection a request to the collections endpoint names. -/
def CollectionAction.touched (db : Database) : CollectionAction → List Uuid
  | .create .. => []
  | .update id .. | .delete id => (db.collectionByRowid id).toList.map CollectionRow.id

/-- The collection a request to the crawl-targets endpoint names, itself or by a target. -/
def CrawlTargetAction.touched (db : Database) : CrawlTargetAction → List Uuid
  | .add id .. => (db.collectionByRowid id).toList.map CollectionRow.id
  | .remove id | .setInterval id _ | .setCrawlDelay id _ =>
    (db.targetByRowid id).toList.map CrawlTargetRow.collectionId

/-- The collection a ranking payload names. -/
def JsonObject.touched (db : Database) (raw : JsonObject) : List Uuid :=
  (raw.namedCollection db).toList.map CollectionRow.id

/-- What is the value of no row found is not that of the row found. -/
theorem ne_of_not_mem_toList {ρ κ : Type*} {found : Option ρ} {key : ρ → κ} {k : κ}
    (h : k ∉ found.toList.map key) {r : ρ} (hr : found = some r) : key r ≠ k := by
  rintro rfl
  exact h (List.mem_map_of_mem (Option.mem_toList.2 hr))

/-- What the database holds of a collection. -/
structure CollectionShare where
  collection : List CollectionRow
  crawlTargets : List CrawlTargetRow
  crawledPages : List CrawledPageRow
  outlinkHostSuggestions : List OutlinkHostRow
  rankingConfig : List RankingConfigRow
deriving DecidableEq

namespace Database

/-- The rows of the collection. Its ranking configuration is found by its rowid. -/
def share (db : Database) (id : Uuid) : CollectionShare :=
  let collection := db.collections.rows.filter fun c ↦ c.id = id
  { collection := collection
    crawlTargets := db.crawlTargets.rows.filter fun t ↦ t.collectionId = id
    crawledPages := db.crawledPages.rows.filter fun p ↦ p.collectionId = id
    outlinkHostSuggestions := db.outlinkHostSuggestions.rows.filter fun o ↦ o.collectionId = id
    rankingConfig := db.rankingConfig.rows.filter fun r ↦
      collection.any fun c ↦ c.rowid = r.collectionId }

/-- The rows of the collection are left alone, and its identifier is not given out again. -/
structure Spares (id : Uuid) (db db' : Database) : Prop where
  supply : db.nextUuid ≤ db'.nextUuid
  share : db'.share id = db.share id

variable {id : Uuid} {db db' : Database} {ts : String}

/-- The rows of each table are left alone. -/
theorem spares_of_rows (hsupply : db.nextUuid ≤ db'.nextUuid)
    (hcollections : (db'.collections.rows.filter fun c ↦ c.id = id) =
      db.collections.rows.filter fun c ↦ c.id = id)
    (htargets : (db'.crawlTargets.rows.filter fun t ↦ t.collectionId = id) =
      db.crawlTargets.rows.filter fun t ↦ t.collectionId = id)
    (hpages : (db'.crawledPages.rows.filter fun p ↦ p.collectionId = id) =
      db.crawledPages.rows.filter fun p ↦ p.collectionId = id)
    (hhosts : (db'.outlinkHostSuggestions.rows.filter fun o ↦ o.collectionId = id) =
      db.outlinkHostSuggestions.rows.filter fun o ↦ o.collectionId = id)
    (hrankings : db'.rankingConfig = db.rankingConfig) : db.Spares id db' where
  supply := hsupply
  share := by
    rw [Database.share, Database.share, hcollections, htargets, hpages, hhosts, hrankings]

theorem spares_refl (id : Uuid) (db : Database) : db.Spares id db := ⟨Nat.le_refl _, rfl⟩

theorem spares_of_eq (h : db' = db) : db.Spares id db' := h ▸ spares_refl id db

/-- What is found by rowid. -/
theorem targetByRowid_eq_some {t : CrawlTargetRow} (ht : t ∈ db.crawlTargets) :
    db.targetByRowid t.rowid = some t := by
  obtain ⟨t', ht'⟩ := Option.isSome_iff_exists.1
    (List.find?_isSome.2 ⟨t, ht, decide_eq_true (Eq.refl t.rowid)⟩ :
      (db.targetByRowid t.rowid).isSome = true)
  have hrowid : t'.rowid = t.rowid := by simpa using List.find?_some ht'
  exact ht'.trans (congrArg some
    (eq_of_mem_crawlTargets (List.mem_of_find?_eq_some ht') ht (Or.inl hrowid)))

theorem outlinkHostByRowid_eq_some {o : OutlinkHostRow} (ho : o ∈ db.outlinkHostSuggestions) :
    db.outlinkHostByRowid o.rowid = some o := by
  obtain ⟨o', ho'⟩ := Option.isSome_iff_exists.1
    (List.find?_isSome.2 ⟨o, ho, decide_eq_true (Eq.refl o.rowid)⟩ :
      (db.outlinkHostByRowid o.rowid).isSome = true)
  have hrowid : o'.rowid = o.rowid := by simpa using List.find?_some ho'
  exact ho'.trans (congrArg some
    (eq_of_mem_suggestions ho (List.mem_of_find?_eq_some ho') (Or.inl hrowid.symm)))

/-! ### Collections -/

theorem spares_createItem (hid : id.serial < db.nextUuid) {name description : String}
    {r : CollectionRecord} (h : db.createItem name description ts = some (db', r)) :
    db.Spares id db' := by
  obtain ⟨cs, hcs, he⟩ := Option.map_eq_some_iff.1 h
  obtain ⟨rfl, -⟩ := Prod.mk.inj he
  refine spares_of_rows (Nat.le_succ _) (Table.filter_insert hcs ?_) rfl rfl rfl rfl
  exact decide_eq_false fun hnew ↦ Nat.ne_of_gt hid (congrArg Uuid.serial hnew)

theorem spares_updateItem {rowid : Int} {name description : String} {r : Option CollectionRecord}
    (hspared : ∀ c, db.collectionByRowid rowid = some c → c.id ≠ id)
    (h : db.updateItem rowid name description ts = some (db', r)) : db.Spares id db' := by
  obtain ⟨cs, hcs, he⟩ := Option.map_eq_some_iff.1 h
  obtain ⟨rfl, -⟩ := Prod.mk.inj he
  refine spares_of_rows (Nat.le_refl _) ?_ rfl rfl rfl rfl
  rw [Table.rows_of_update hcs]
  refine Table.filter_map_of_frame fun c hc ↦ ?_
  split
  case isTrue hrowid =>
    refine ⟨rfl, fun hcid ↦ absurd (of_decide_eq_true hcid) ?_⟩
    exact hspared c (hrowid ▸ collectionByRowid_eq_some hc)
  case isFalse => exact ⟨rfl, fun _ ↦ rfl⟩

/-- The pages of a collection belong to its own targets, so a cascade from another collection does
not reach them. -/
theorem spares_cascadeCollection (hplaced : db.PagesPlaced fun _ _ ↦ True) {id' : Uuid}
    (hne : id' ≠ id) : db.Spares id (db.cascadeCollection id') := by
  have hdelete : ∀ {ρ : Type} {f : ρ → Uuid} {a : ρ}, decide (f a = id) = true →
      decide (f a = id') = false := fun ha ↦
    decide_eq_false fun ha' ↦ hne (ha'.symm.trans (of_decide_eq_true ha))
  refine spares_of_rows (Nat.le_refl _) (Table.filter_deleteWhere fun c _ hc ↦ hdelete hc)
    (Table.filter_deleteWhere fun t _ ht ↦ hdelete ht)
    (Table.filter_deleteWhere fun p hp hpid ↦ ?_)
    (Table.filter_deleteWhere fun o _ ho ↦ hdelete ho) rfl
  have hpid' : p.collectionId = id := of_decide_eq_true hpid
  rw [hdelete hpid, Bool.false_or, List.contains_eq_mem, decide_eq_false_iff_not, List.mem_map]
  rintro ⟨t, ht, htid⟩
  obtain ⟨ht, htcol⟩ := List.mem_filter.1 ht
  obtain ⟨t₀, ht₀, ht₀id, ht₀col, -⟩ := hplaced p hp
  obtain rfl := eq_of_mem_crawlTargets ht ht₀ (Or.inr (Or.inl (htid.trans ht₀id.symm)))
  exact hne ((of_decide_eq_true htcol).symm.trans (ht₀col.trans hpid'))

theorem spares_collections (hplaced : db.PagesPlaced fun _ _ ↦ True)
    (hid : id.serial < db.nextUuid) {action : CollectionAction} {r : Option CollectionRecord}
    (hspared : id ∉ action.touched db)
    (h : handleCollections db ts action = .ok (db', r)) : db.Spares id db' := by
  obtain ⟨_, _, _, rfl, hc⟩ | ⟨_, _, _, _, rfl, hu⟩ | ⟨_, c, rfl, hc, rfl⟩ :=
    handleCollections_cases h
  · exact spares_createItem hid hc
  · exact spares_updateItem (fun _ hc ↦ ne_of_not_mem_toList hspared hc) hu
  · exact spares_cascadeCollection hplaced (ne_of_not_mem_toList hspared hc)

/-! ### Targets -/

/-- A target is added to another collection. -/
theorem spares_addTarget {rowid secs : Int} {pre : String} {r : CrawlTargetRecord}
    (hspared : ∀ c, db.collectionByRowid rowid = some c → c.id ≠ id)
    (h : db.addTarget rowid pre secs ts = some (db', r)) : db.Spares id db' := by
  obtain ⟨c, hc, hrest⟩ := Option.bind_eq_some_iff.1 h
  obtain ⟨targets, htargets, he⟩ := Option.map_eq_some_iff.1 hrest
  obtain ⟨rfl, -⟩ := Prod.mk.inj he
  exact spares_of_rows (Nat.le_succ _) rfl
    (Table.filter_insert htargets (decide_eq_false (hspared c hc))) rfl rfl rfl

/-- A target of another collection is removed, and its pages with it. -/
theorem spares_cascadeTarget (hplaced : db.PagesPlaced fun _ _ ↦ True) {t : CrawlTargetRow}
    (ht : t ∈ db.crawlTargets) (hne : t.collectionId ≠ id) :
    db.Spares id (db.cascadeTarget t.id) := by
  refine spares_of_rows (Nat.le_refl _) rfl (Table.filter_deleteWhere fun t' ht' hid ↦ ?_)
    (Table.filter_deleteWhere fun p hp hid ↦ ?_) rfl rfl
  · refine decide_eq_false fun heq ↦ hne ?_
    obtain rfl := eq_of_mem_crawlTargets ht' ht (Or.inr (Or.inl heq))
    exact of_decide_eq_true hid
  · refine decide_eq_false fun heq ↦ hne ?_
    obtain ⟨t₀, ht₀, ht₀id, ht₀col, -⟩ := hplaced p hp
    obtain rfl := eq_of_mem_crawlTargets ht₀ ht (Or.inr (Or.inl (ht₀id.trans heq)))
    exact ht₀col.trans (of_decide_eq_true hid)

/-- Settings of targets of other collections are set. -/
theorem spares_modifyTargets {f : CrawlTargetRow → CrawlTargetRow}
    {hf : ∀ a b, (f a).Clash (f b) → a.Clash b}
    (hcollection : ∀ t, (f t).collectionId = t.collectionId)
    (hspared : ∀ t ∈ db.crawlTargets, t.collectionId = id → f t = t) :
    db.Spares id { db with crawlTargets := db.crawlTargets.modify f hf } := by
  refine spares_of_rows (Nat.le_refl _) rfl (Table.filter_map_of_frame fun t ht ↦ ?_) rfl rfl rfl
  rw [hcollection]
  exact ⟨rfl, fun hid ↦ hspared t ht (of_decide_eq_true hid)⟩

/-- **A request to the crawl-targets endpoint.** -/
theorem spares_crawlTargets (hplaced : db.PagesPlaced fun _ _ ↦ True) {detected : Option String}
    {action : CrawlTargetAction} {r : CrawlTargetReply} (hspared : id ∉ action.touched db)
    (h : handleCrawlTargets db ts detected action = .ok (db', r)) : db.Spares id db' := by
  -- a target that is found by the rowid of the request is not one of the collection
  have hfound : ∀ {rowid : Int} {t : CrawlTargetRow},
      id ∉ (db.targetByRowid rowid).toList.map CrawlTargetRow.collectionId →
        t ∈ db.crawlTargets → t.collectionId = id → t.rowid ≠ rowid := by
    rintro rowid t hnot ht hid rfl
    exact ne_of_not_mem_toList hnot (targetByRowid_eq_some ht) hid
  cases crawlTargetChange_of_ok h with
  | added hadd => exact spares_addTarget (fun _ hc ↦ ne_of_not_mem_toList hspared hc) hadd
  | removed ht =>
    exact spares_cascadeTarget hplaced (List.mem_of_find?_eq_some ht)
      (ne_of_not_mem_toList hspared ht)
  | interval =>
    exact spares_modifyTargets (fun t ↦ by split <;> rfl) fun t ht hid ↦
      if_neg (hfound hspared ht hid)
  | delay =>
    exact spares_modifyTargets (fun t ↦ by split <;> rfl) fun t ht hid ↦
      if_neg (hfound hspared ht hid)

/-- A crawl that is over writes the time to the target it knows. -/
theorem spares_setLastCrawledAt {site : TargetSite} (hknows : db.Knows site)
    (hne : site.collectionId ≠ id) (now : Int) :
    db.Spares id (db.setLastCrawledAt site.id now) := by
  refine spares_modifyTargets (fun t ↦ by split <;> rfl) fun t ht hid ↦ if_neg fun heq ↦ hne ?_
  have hsite := hknows.site_eq t ht heq
  exact (congrArg TargetSite.collectionId hsite).symm.trans hid

/-! ### Pages -/

theorem spares_upsertPage {row : CrawledPageRow} (hne : row.collectionId ≠ id)
    (h : db.upsertPage row = some db') : db.Spares id db' := by
  rw [upsertPage] at h
  split at h
  case isFalse => cases h
  case isTrue =>
    split at h
    case isTrue =>
      obtain rfl := Option.some.inj h
      refine spares_of_rows (Nat.le_refl _) rfl rfl (Table.filter_map_of_frame fun p _ ↦ ?_) rfl rfl
      split
      case isTrue hkey =>
        exact ⟨rfl, fun hid ↦ absurd (hkey.1.symm.trans (of_decide_eq_true hid)) hne⟩
      case isFalse => exact ⟨rfl, fun _ ↦ rfl⟩
    case isFalse =>
      obtain ⟨pages, hpages, rfl⟩ := Option.map_eq_some_iff.1 h
      exact spares_of_rows (Nat.le_refl _) rfl rfl
        (Table.filter_insert hpages (decide_eq_false hne)) rfl rfl

theorem spares_markIndexedBatch {entries : List IndexedEntry}
    (hne : ∀ e ∈ entries, e.collectionId ≠ id) : db.Spares id (db.markIndexedBatch entries) := by
  induction entries generalizing db with
  | nil => exact spares_refl id db
  | cons e entries ih =>
    obtain ⟨he, hentries⟩ := List.forall_mem_cons.1 hne
    have hone : db.Spares id (db.markIndexed e) := by
      refine spares_of_rows (Nat.le_refl _) rfl rfl (Table.filter_map_of_frame fun p _ ↦ ?_) rfl rfl
      split
      case isTrue hkey =>
        exact ⟨rfl, fun hid ↦ absurd (hkey.1.symm.trans (of_decide_eq_true hid)) he⟩
      case isFalse => exact ⟨rfl, fun _ ↦ rfl⟩
    have hrest : (db.markIndexed e).Spares id _ := ih hentries
    exact ⟨Nat.le_trans hone.supply hrest.supply, hrest.share.trans hone.share⟩

/-! ### Suggestions -/

theorem spares_updateOutlinkHost {rowid : Int} {f : OutlinkHostRow → OutlinkHostRow}
    {hf : ∀ o, (f o).rowid = o.rowid ∧ (f o).id = o.id ∧ (f o).collectionId = o.collectionId ∧
      (f o).host = o.host}
    (hne : ∀ o ∈ db.outlinkHostSuggestions, o.rowid = rowid → o.collectionId ≠ id) :
    db.Spares id (db.updateOutlinkHost rowid f hf) := by
  refine spares_of_rows (Nat.le_refl _) rfl rfl rfl (Table.filter_map_of_frame fun o ho ↦ ?_) rfl
  split
  case isTrue hrowid =>
    refine ⟨?_, fun hid ↦ absurd (of_decide_eq_true hid) (hne o ho hrowid)⟩
    rw [(hf o).2.2.1]
  case isFalse => exact ⟨rfl, fun _ ↦ rfl⟩

theorem spares_recordHit {c : Uuid} (hne : c ≠ id) {host : String} {e : OutlinkExample} {now : Int}
    (h : db.recordHit c host e now = some db') : db.Spares id db' := by
  rw [recordHit] at h
  split at h
  case h_1 row hrow =>
    obtain ⟨hc, -⟩ : row.collectionId = c ∧ row.host = host := by
      simpa using List.find?_some hrow
    split at h
    case isTrue =>
      obtain rfl := Option.some.inj h
      refine spares_updateOutlinkHost fun o ho hrowid hid ↦ hne ?_
      obtain rfl := eq_of_mem_suggestions (List.mem_of_find?_eq_some hrow) ho (Or.inl hrowid.symm)
      exact hc.symm.trans hid
    case isFalse => exact Option.some.inj h ▸ spares_refl id db
  case h_2 =>
    split at h
    case isTrue =>
      obtain ⟨hosts, hhosts, rfl⟩ := Option.map_eq_some_iff.1 h
      exact spares_of_rows (Nat.le_succ _) rfl rfl rfl
        (Table.filter_insert hhosts (decide_eq_false hne)) rfl
    case isFalse => cases h

/-- **A promotion** adds a target to the collection of the host. -/
theorem spares_promoteOutlink {rowid target : Int} {body : PromoteBody}
    (hspared : id ∉ (db.outlinkHostByRowid rowid).toList.map OutlinkHostRow.collectionId)
    (h : promoteOutlink db ts rowid body = .ok (db', target)) : db.Spares id db' := by
  obtain ⟨row, c, db₁, ct, hrow, hc, hcid, hadd, rfl, -⟩ := promoteOutlink_eq h
  have hne := ne_of_not_mem_toList hspared hrow
  have hadded : db.Spares id db₁ := by
    refine spares_addTarget (fun c' hc' ↦ ?_) hadd
    obtain rfl := Option.some.inj ((collectionByRowid_eq_some hc).symm.trans hc')
    exact hcid ▸ hne
  have hhosts : db₁.outlinkHostSuggestions = db.outlinkHostSuggestions := by
    obtain ⟨_, -, _, -, rfl⟩ := addTarget_eq hadd
    rfl
  have hmarked : db₁.Spares id (db₁.markPromoted rowid ct.id).1 := by
    refine @spares_updateOutlinkHost id db₁ rowid
      (fun o ↦ { o with status := "promoted", promotedTargetId := some ct.id })
      (fun _ ↦ ⟨rfl, rfl, rfl, rfl⟩) fun o ho hrowid ↦ ?_
    rw [hhosts] at ho
    obtain rfl := Option.some.inj
      (hrow.symm.trans (hrowid ▸ outlinkHostByRowid_eq_some ho))
    exact hne
  exact ⟨Nat.le_trans hadded.supply hmarked.supply, hmarked.share.trans hadded.share⟩

theorem spares_dismissOutlink {rowid : Int}
    (hspared : id ∉ (db.outlinkHostByRowid rowid).toList.map OutlinkHostRow.collectionId)
    (h : dismissOutlink db rowid = .ok db') : db.Spares id db' := by
  rw [dismissOutlink_eq h]
  refine @spares_updateOutlinkHost id db rowid (fun o ↦ { o with status := "dismissed" })
    (fun _ ↦ ⟨rfl, rfl, rfl, rfl⟩) fun o ho hrowid ↦ ?_
  subst hrowid
  exact ne_of_not_mem_toList hspared (outlinkHostByRowid_eq_some ho)

/-! ### Rankings -/

/-- **A ranking that is saved** replaces the row of the collection it names. -/
theorem spares_putRanking {raw : JsonObject} (hspared : id ∉ raw.touched db)
    (h : putRanking db raw = .ok db') : db.Spares id db' := by
  obtain ⟨c, rows, hc, rfl, row, hrow, hrows⟩ := putRanking_eq h
  have hne : c.id ≠ id := ne_of_not_mem_toList hspared hc
  obtain ⟨_, -, hbyRowid⟩ := Option.bind_eq_some_iff.1 hc
  obtain ⟨hmem, -⟩ := mem_of_collectionByRowid hbyRowid
  have hother : ∀ c' ∈ db.collections.rows.filter fun c ↦ c.id = id, c'.rowid ≠ c.rowid := by
    intro c' hc' hrowid
    obtain ⟨hmem', hid⟩ := List.mem_filter.1 hc'
    obtain rfl := eq_of_mem_collections hmem' hmem (Or.inl hrowid)
    exact hne (of_decide_eq_true hid)
  refine ⟨Nat.le_refl _, ?_⟩
  have hkept : ∀ p : RankingConfigRow → Bool, p row = false →
      (∀ r ∈ db.rankingConfig, r.collectionId = c.rowid → p r = false) →
        rows.rows.filter p = db.rankingConfig.rows.filter p := fun p hp hold ↦ by
    rw [Table.filter_insert hrows hp]
    refine (List.filter_filter ..).trans (List.filter_congr fun r hr ↦ ?_)
    show (p r && !decide (r.collectionId = c.rowid)) = p r
    by_cases hkey : r.collectionId = c.rowid
    · rw [hold r hr hkey, Bool.false_and]
    · rw [decide_eq_false hkey, Bool.not_false, Bool.and_true]
  have hnone : ∀ r : RankingConfigRow, r.collectionId = c.rowid →
      ((db.collections.rows.filter fun c ↦ c.id = id).any fun c' ↦
        c'.rowid = r.collectionId) = false := fun r hr ↦ by
    refine List.any_eq_false.2 fun c' hc' hrowid ↦ hother c' hc' ?_
    exact (of_decide_eq_true hrowid).trans hr
  exact congrArg (CollectionShare.mk _ _ _ _) (hkept _ (hnone row hrow) fun r _ ↦ hnone r)

/-! ### Imports -/

/-- Rows that are added leave those that satisfy `p`, if they do not. -/
theorem filter_added {ρ : Type*} {p : ρ → Bool} {rows rows' : List ρ}
    (h : ∃ added, rows' = rows ++ added ∧ ∀ a ∈ added, p a = false) :
    rows'.filter p = rows.filter p := by
  obtain ⟨added, rfl, hadded⟩ := h
  rw [List.filter_append, List.filter_eq_nil_iff.2 fun a ha ↦ Bool.eq_false_iff.1 (hadded a ha),
    List.append_nil]

/-- **An import** creates collections of its own. -/
theorem spares_committedImport (hid : id.serial < db.nextUuid) {env : ExportEnvelope}
    {report : ImportReport} {jobs : List IndexJob}
    (h : committedImport X ts env db = some (db', report, jobs)) : db.Spares id db' := by
  have hadds := addsUnder_of_committedImport h
  have hne : ∀ {u : Uuid}, db.nextUuid ≤ u.serial → decide (u = id) = false := fun hu ↦
    decide_eq_false fun heq ↦ Nat.not_lt.2 hu (heq ▸ hid)
  have hfilter : ∀ {ρ : Type} {f : ρ → Uuid} {rows rows' : List ρ},
      (∃ added, rows' = rows ++ added ∧ ∀ a ∈ added, db.nextUuid ≤ (f a).serial) →
        (rows'.filter fun a ↦ f a = id) = rows.filter fun a ↦ f a = id :=
    fun hadded ↦ filter_added (hadded.imp fun _ ↦ And.imp_right fun hnew a ha ↦ hne (hnew a ha))
  have hcollections := hfilter hadds.collections
  refine ⟨hadds.supply, ?_⟩
  rw [share, share, hcollections, hfilter hadds.targets, hfilter hadds.pages,
    hfilter (hadds.hosts.imp fun _ h ↦ ⟨h.1, h.2.1⟩)]
  refine congrArg (CollectionShare.mk _ _ _ _) (filter_added
    (hadds.rankings.imp fun _ ↦ And.imp_right fun hnew r hr ↦ ?_))
  rw [List.any_eq_false]
  intro c hc heq
  have hlt : c.rowid < db.nextCollection :=
    lt_nextRowid (List.mem_map_of_mem (List.mem_filter.1 hc).1)
  rw [of_decide_eq_true heq] at hlt
  exact absurd hlt (Int.not_lt.2 (hnew r hr))

end Database

/-! ### The system -/

namespace Sys

/-- The collections whose rows a step of the system may change. -/
def touchedBy (s : Sys) : SysLabel → List Uuid
  | .collections action _ => action.touched s.engine.db
  | .crawlTargets action _ _ => action.touched s.engine.db
  | .crawl k _ | .endRun k _ => s.runs[k]?.toList.map fun run ↦ run.ctx.collectionId
  | .indexer event _ =>
    (s.engine.flushing event).toList.flatMap fun w ↦ w.entries.map IndexedEntry.collectionId
  | .sendDeletes _ | .importEnvelope .. | .import_ .. | .endImport _ | .hangUp _ | .startRun ..
  | .upsertFails | .crash => []

/-- The collections whose rows a step may change. -/
def touched (X : Crates) (s : Sys) : TargetLabel → List Uuid
  | .promote id _ _ | .dismiss id =>
    (s.engine.db.outlinkHostByRowid id).toList.map OutlinkHostRow.collectionId
  | .putRanking raw => raw.touched s.engine.db
  | l => (l.toSys X).toList.flatMap s.touchedBy

variable {s s' : Sys} {id : Uuid}

/-- What a turn writes to the journal is what it flushes. -/
theorem spares_of_turn {event : IndexerEvent} {outcome : FlushOutcome} {e' : Engine}
    (hspared : id ∉ s.touchedBy (.indexer event outcome))
    (h : s.engine.Turn event outcome e') : s.engine.db.Spares id e'.db := by
  cases h with
  | kept _ _ _ he => exact he ▸ Database.spares_refl id s.engine.db
  | committed hflush _ _ _ _ hdb =>
    rw [hdb]
    refine Database.spares_markIndexedBatch fun e he hid ↦ hspared ?_
    rw [touchedBy, hflush]
    exact List.mem_flatMap.2 ⟨_, List.mem_singleton_self _, List.mem_map.2 ⟨e, he, hid⟩⟩
  | unjournaled _ _ _ _ _ hdb => exact hdb ▸ Database.spares_refl id s.engine.db
  | lost _ _ hdb => exact hdb ▸ Database.spares_refl id s.engine.db

/-- A crawl writes rows of its own collection. -/
theorem spares_of_writes {run : CrawlRun} {db db' : Database} (hwithin : run.WritesWithin X)
    (hhits : run.Hits X) (hne : run.ctx.collectionId ≠ id) (h : run.Writes db db') :
    db.Spares id db' := by
  cases h with
  | page ho h =>
    obtain ⟨-, hcollection, -⟩ := hwithin.of_nextOp ho
    exact Database.spares_upsertPage (hcollection ▸ hne) h
  | hit ho h =>
    obtain ⟨rfl, -⟩ := hhits.of_nextOp hwithin.preluding ho
    exact Database.spares_recordHit hne h

/-- **What a step of the system leaves alone.** -/
theorem spares_of_sysStep {history : List TargetLabel} (hplacing : s.Placing X fun _ _ ↦ True)
    (hsourcing : s.Sourcing X history) (hid : id.serial < s.engine.db.nextUuid) {l : SysLabel}
    (hspared : id ∉ s.touchedBy l) (h : (sysMachine X).step s l = some s') :
    s.engine.db.Spares id s'.engine.db := by
  have hrefl := Database.spares_refl id s.engine.db
  have hown : ∀ {k : Nat} {run : CrawlRun}, s.runs[k]? = some run →
      id ∉ (s.runs[k]?.toList.map fun run ↦ run.ctx.collectionId) →
        run.ctx.collectionId ≠ id := fun hk hspared ↦ ne_of_not_mem_toList hspared hk
  cases move_of_step h with
  | collections hr => exact Database.spares_collections hplacing.pages hid hspared hr
  | crawlTargets hr => exact Database.spares_crawlTargets hplacing.pages hspared hr
  | imported hr => exact Database.spares_committedImport hid (committedImport_of_acceptImport hr)
  | importStepped hk hr =>
    have hsend := (hsourcing.imports _ (List.mem_of_getElem? hk)).1
    exact Database.spares_of_eq (Engine.db_of_send hsend hr)
  | crawled hk hr =>
    have hrun := List.mem_of_getElem? hk
    rcases CrawlRun.writes_of_step hr with hdb | hwrites
    · exact Database.spares_of_eq hdb
    · exact spares_of_writes (hplacing.runs _ hrun).1 (hsourcing.runs _ hrun).hits
        (hown hk hspared) hwrites
  | @runEnded k saved run hk =>
    have hne := hown hk hspared
    obtain ⟨-, hknows⟩ := hplacing.runs run (List.mem_of_getElem? hk)
    show s.engine.db.Spares id (s.runTime run saved)
    unfold runTime
    split
    · exact Database.spares_setLastCrawledAt hknows hne _
    · exact hrefl
  | indexed _ he => exact spares_of_turn hspared (Engine.turn_of_indexerStep he)
  | upsertFailed he =>
    rw [Engine.upsertFails_eq he]
    exact hrefl
  | _ => exact hrefl

/-- **What a step leaves alone**: the rows of every collection it does not touch. -/
theorem spares_of_step {history : List TargetLabel} (hplacing : s.Placing X fun _ _ ↦ True)
    (hsourcing : s.Sourcing X history) (hid : id.serial < s.engine.db.nextUuid) {l : TargetLabel}
    (hspared : id ∉ s.touched X l) (h : (targetMachine X).step s l = some s') :
    s.engine.db.Spares id s'.engine.db := by
  cases move_of_targetStep h with
  | @step l l₀ _ hl hs =>
    refine spares_of_sysStep hplacing hsourcing hid (fun hmem ↦ hspared ?_) hs
    have htouched : s.touched X l = (l.toSys X).toList.flatMap s.touchedBy := by
      cases l with
      | promote | dismiss | putRanking => cases hl
      | _ => rfl
    rw [htouched, hl]
    exact List.mem_flatMap.2 ⟨l₀, List.mem_singleton_self _, hmem⟩
  | promoted hr => exact Database.spares_promoteOutlink hspared hr
  | dismissed hr => exact Database.spares_dismissOutlink hspared hr
  | ranked hr => exact Database.spares_putRanking hspared hr
  | refused => exact Database.spares_refl id s.engine.db

end Sys

namespace OnePage

/-- A payload of the ranking endpoint. -/
def ranking (collectionId : Int) : JsonObject :=
  [("collection_id", .integer collectionId), ("freshness_half_life_days", .integer 30),
    ("source_weights", .weights [("local", 1)]), ("domain_boosts", .weights [])]

/-- The site is crawled for its collection, and the ranking of the collection saved. -/
def settled : List TargetLabel :=
  [.other (.collections (.create "guide" "") "t0"), .putRanking (ranking 1),
    .add 1 "https://guide.example/" 3600 none "t1"] ++
  ([startRun due 0] ++ fetch 0 false page ++ send 0 ++ write 0 ++ flush).map .other

/-- Another collection of the site is created, ranked, crawled and deleted, and the process
crashes. -/
def elsewhere : List TargetLabel :=
  [.other (.collections (.create "mirror" "") "t2"), .putRanking (ranking 2),
    .add 2 "https://guide.example/" 3600 none "t3"] ++
  ([startRun ⟨⟨3⟩, ⟨2⟩, "mirror", "https://guide.example/", 3600, none⟩ 60] ++
    fetch 1 true page ++ send 1 ++ write 1 ++
    [SysLabel.collections (.delete 2) "t4", SysLabel.crash]).map .other

end OnePage

end CommunitySearch
