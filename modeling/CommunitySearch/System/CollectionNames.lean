import CommunitySearch.Index.Reader
import CommunitySearch.System.JournalSoundness
import CommunitySearch.System.Removal

/-!
# Names of collections

A document carries the name its collection had when its crawl was started, and a search of a
collection asks for the name it has now. Renaming or deleting a collection leaves the documents as
they are, and a crawl that is running keeps the name it was started with. The two agree in a run in
which a collection is renamed or deleted only while it has no document, and nothing is sent under a
name that is no longer the collection's (`namesAgree_of_guarded`).
-/

namespace CommunitySearch

/-- The document carries the name of its collection. -/
def Document.Current (d : Document) (db : Database) : Prop :=
  ∃ c ∈ db.collections.rows, c.id = d.collectionId ∧ c.name = d.collection

instance (d : Document) (db : Database) : Decidable (d.Current db) :=
  inferInstanceAs (Decidable (∃ c ∈ db.collections.rows, _))

/-- **Names agree** between database and index. -/
structure Sys.NamesAgree (s : Sys) : Prop where
  /-- A search filtered by a name returns documents of the collection of that name only. -/
  only : ∀ (engine : QueryEngine) (q : engine.Query) (name : String) (limit : Nat),
    ∀ hit ∈ engine.topDocs s.engine.index q (some name) limit,
      ∃ c ∈ s.engine.db.collections, c.name = name ∧ c.id = hit.2.collectionId
  /-- A search of a collection by its name, with room for all results, returns every page of the
  collection that is journaled, if the page matches. -/
  reach : ∀ c ∈ s.engine.db.collections, ∀ u h, s.engine.db.Marked c.id u h →
    ∃ d ∈ s.engine.index, d.url = u ∧ d.collectionId = c.id ∧ d.contentHash = h ∧
      ∀ (engine : QueryEngine) (q : engine.Query), engine.isMatch q d = true →
        ∃ hit ∈ engine.topDocs s.engine.index q (some c.name) s.engine.index.length, hit.2 = d

/-! ### Steps -/

/-- No document of the collection lasts. -/
def Sys.Vacant (s : Sys) (c : CollectionRow) : Prop :=
  ∀ d ∈ s.engine.eventual, s.Lasting d → d.collectionId ≠ c.id

instance (s : Sys) (c : CollectionRow) : Decidable (s.Vacant c) :=
  inferInstanceAs (Decidable (∀ d ∈ s.engine.eventual, _))

/-- A collection gets another name, or is deleted, while it has no document, and what is committed
when the process crashes carries the name of its collection. -/
def KeepsVacant (s : Sys) : SysLabel → Prop
  | .collections (.update id name _) _ => ∀ c ∈ s.engine.db.collectionByRowid id, c.name = name ∨
    -- a name that is taken is refused
    (∃ c' ∈ s.engine.db.collections.rows, c'.name = name) ∨ s.Vacant c
  | .collections (.delete id) _ => ∀ c ∈ s.engine.db.collectionByRowid id, s.Vacant c
  | .crash => ∀ d ∈ s.engine.index, d.Current s.engine.db
  | _ => True

instance (s : Sys) : (l : SysLabel) → Decidable (KeepsVacant s l)
  | .collections (.update id name _) _ => inferInstanceAs (Decidable (∀ c ∈
    s.engine.db.collectionByRowid id, c.name = name ∨
      (∃ c' ∈ s.engine.db.collections.rows, c'.name = name) ∨ s.Vacant c))
  | .collections (.delete id) _ =>
    inferInstanceAs (Decidable (∀ c ∈ s.engine.db.collectionByRowid id, s.Vacant c))
  | .crash => inferInstanceAs (Decidable (∀ d ∈ s.engine.index, d.Current s.engine.db))
  | .collections (.create ..) _ | .crawlTargets .. | .sendDeletes _ | .importEnvelope ..
  | .import_ .. | .endImport _ | .hangUp _ | .startRun .. | .crawl .. | .endRun .. | .indexer ..
  | .upsertFails => isTrue trivial

/-- The admissible steps: what is sent to the indexer carries the name of its collection, unless a
deletion is pending for it, and no collection changes its name over its documents. -/
def KeepsNames (s : Sys) (l : SysLabel) : Prop :=
  (∀ job ∈ s.sending l, s.engine.indexer.isSome → job.asDocument.Current s.engine.db ∨
    job.url ∈ s.pendingDeletes) ∧ KeepsVacant s l

instance (s : Sys) (l : SysLabel) : Decidable (KeepsNames s l) :=
  instDecidableAnd

/-- Every document that lasts carries the name of its collection. -/
def Named (s : Sys) : Prop :=
  ∀ d, s.Lasting d → d.Current s.engine.db

variable {X : Crates} {s s' : Sys}

/-- **A step keeps the collections**, but for a rename and a deletion. -/
theorem Database.collections_of_step {l : SysLabel} (h : (sysMachine X).step s l = some s') :
    (∀ c ∈ s.engine.db.collections, c ∈ s'.engine.db.collections) ∨
      (∃ id name description ts record, l = .collections (.update id name description) ts ∧
        s.engine.db.updateItem id name description ts = some (s'.engine.db, some record)) ∨
      ∃ id ts c, l = .collections (.delete id) ts ∧ s.engine.db.collectionByRowid id = some c ∧
        s'.engine.db = s.engine.db.cascadeCollection c.id := by
  have hchange := Sys.dbChange_of_step h
  generalize s'.engine.db = db at hchange ⊢
  cases hchange with
  | same => exact Or.inl fun _ hc ↦ hc
  | extended hext => exact Or.inl hext.collections
  | renamed hupdate => exact Or.inr (Or.inl ⟨_, _, _, _, _, rfl, hupdate⟩)
  | deleted hc => exact Or.inr (Or.inr ⟨_, _, _, rfl, hc, rfl⟩)
  | removed _ => exact Or.inl fun _ hc ↦ hc
  | retuned hr =>
    obtain ⟨_, rfl⟩ := hr.eq
    exact Or.inl fun _ hc ↦ hc
  | upserted hdb =>
    obtain ⟨-, -, _, _, rfl, -⟩ := Database.upsertPage_cases hdb
    exact Or.inl fun _ hc ↦ hc
  | suggested hdb =>
    obtain ⟨_, _, rfl, -⟩ := hdb.eq
    exact Or.inl fun _ hc ↦ hc
  | @journaled _ _ entries =>
    obtain ⟨_, he⟩ := Database.markIndexedBatch_eq s.engine.db entries
    rw [he]
    exact Or.inl fun _ hc ↦ hc

/-- A rename. -/
theorem Document.Current.rename {d : Document} {db db' : Database} (hd : d.Current db) {id : Int}
    {name description ts : String} {record : CollectionRecord}
    (h : db.updateItem id name description ts = some (db', some record))
    (hok : ∀ c ∈ db.collectionByRowid id, c.name = name ∨
      (∃ c' ∈ db.collections.rows, c'.name = name) ∨ d.collectionId ≠ c.id) : d.Current db' := by
  obtain ⟨c, hc, hid, hname⟩ := hd
  have hmem : ∀ c₀ ∈ db.collections, (if c₀.rowid = id then
      { c₀ with name := name, description := description, updatedAt := ts } else c₀) ∈
        db'.collections := fun c₀ hc₀ ↦
    (Database.mem_collections_of_updateItem h).2 ⟨c₀, hc₀, rfl⟩
  have hnew := hmem c hc
  by_cases hrowid : c.rowid = id
  · rw [if_pos hrowid] at hnew
    subst hrowid
    rcases hok c (Database.collectionByRowid_eq_some hc) with hsame | ⟨c', hc', htaken⟩ | hne
    · exact ⟨_, hnew, hid, hsame.symm.trans hname⟩
    · -- the name is taken by the collection itself, or the update would clash
      by_cases hrowid' : c'.rowid = c.rowid
      · obtain rfl := Database.eq_of_mem_collections hc' hc (Or.inl hrowid')
        exact ⟨_, hnew, hid, htaken.symm.trans hname⟩
      · have hold := hmem c' hc'
        rw [if_neg hrowid'] at hold
        have hclash := Database.eq_of_mem_collections hold hnew (Or.inr (Or.inr htaken))
        exact absurd (congrArg CollectionRow.rowid hclash) hrowid'
    · exact absurd hid.symm hne
  · rw [if_neg hrowid] at hnew
    exact ⟨c, hnew, hid, hname⟩

theorem named_of_step {l : SysLabel} (hI : Named s) (hok : KeepsNames s l)
    (h : (sysMachine X).step s l = some s') : Named s' := by
  intro d hd
  rcases Database.collections_of_step h with hkeep | ⟨id, name, _, _, _, rfl, hupdate⟩ |
    ⟨id, _, c, rfl, hc, hdb⟩
  · have hcurrent : d.Current s.engine.db := by
      rcases hd.of_step h with hlast | ⟨halive, hurl, job, hjob, rfl⟩ | ⟨rfl, hindex⟩
      · exact hI d hlast
      · exact (hok.1 job hjob halive).resolve_right hurl
      · exact hok.2 d hindex
    obtain ⟨c, hc, hid, hname⟩ := hcurrent
    exact ⟨c, hkeep c hc, hid, hname⟩
  · have hlast : s.Lasting d := hd.of_quiet h rfl nofun
    refine (hI d hlast).rename hupdate fun c hc ↦ ?_
    exact (hok.2 c hc).imp_right (Or.imp_right fun hvacant ↦ hvacant d hlast.2.1 hlast)
  · have hlast : s.Lasting d := hd.of_quiet h rfl nofun
    obtain ⟨c', hc', hid, hname⟩ := hI d hlast
    have hne : d.collectionId ≠ c.id := hok.2 c hc d hlast.2.1 hlast
    rw [hdb]
    refine ⟨c', Database.mem_collections_cascadeCollection.2 ⟨hc', ?_⟩, hid, hname⟩
    exact fun he ↦ hne (hid.symm.trans he)

/-! ### Runs -/

/-- What is committed carries the names of the collections, once the indexer has drained. -/
theorem Sys.NamesAgree.of_named (hnamed : Named s) (hsettled : s.Settled)
    (hsound : Sound s.engine.db s.engine.index) : s.NamesAgree where
  only engine q name limit hit hhit := by
    obtain ⟨hmem, hhits⟩ := QueryEngine.mem_of_mem_topDocs hhit
    obtain ⟨c, hc, hid, hname⟩ := hnamed hit.2 (hsettled.lasting_iff.2 hmem)
    exact ⟨c, hc, hname.trans (QueryEngine.hits_iff.1 hhits).2, hid⟩
  reach c hc u h hmarked := by
    obtain ⟨d, hd, hu, hid, hhash⟩ := hsound c.id u h hmarked
    refine ⟨d, hd, hu, hid, hhash, fun engine q hmatch ↦ ?_⟩
    obtain ⟨c', hc', hid', hname⟩ := hnamed d (hsettled.lasting_iff.2 hd)
    obtain rfl := Database.eq_of_mem_collections hc' hc (Or.inr (Or.inl (hid'.trans hid)))
    exact ⟨_, QueryEngine.mem_topDocs hd (QueryEngine.hits_iff.2 ⟨hmatch, hname.symm⟩) le_rfl, rfl⟩

/-- **Names agree.** In every run from a fresh installation in which each flush keeps the journal
sound, a collection is renamed or deleted while it has no document, and nothing is sent under a
name that is not its collection's: once the indexer has drained, a search by name returns documents
of the collection of that name only, and can reach every page of it that is journaled. -/
theorem namesAgree_of_guarded {labels : List SysLabel}
    (hjournal : (sysMachine X).Guarded KeepsJournal .init labels)
    (hnames : (sysMachine X).Guarded KeepsNames .init labels)
    (hrun : (sysMachine X).run .init labels = some s) (hsettled : s.Settled) : s.NamesAgree := by
  have hinit : Named .init := fun _ hd ↦ absurd hd.2.1 List.not_mem_nil
  have hnamed : Named s := by
    refine Machine.guarded_invariant (I := Named) ?_ hinit hnames hrun
    exact fun s l s' hI hl hs ↦ named_of_step hI hl hs
  refine .of_named hnamed hsettled (Sys.journalSound_iff.1 ?_)
  exact journalSound_of_guarded hjournal hrun

/-! ### A collection renamed after and before its crawl -/

namespace RenamedCollection

/-- Its page is crawled, and committed. -/
def crawled : List SysLabel :=
  OnePage.install ++ [OnePage.startRun OnePage.due 0] ++ OnePage.fetch 0 false OnePage.page ++
    OnePage.send 0 ++ OnePage.write 0 ++ OnePage.flush

/-- The collection gets its name while it has no document. -/
def before : List SysLabel :=
  [.collections (.create "draft" "") "t0", .collections (.update 1 "guide" "") "t0",
    .crawlTargets (.add 1 "https://guide.example/" 3600) none "t1",
    OnePage.startRun OnePage.due 0] ++ OnePage.fetch 0 false OnePage.page ++ OnePage.send 0 ++
    OnePage.write 0 ++ OnePage.flush

/-- A query that every document matches. -/
def everything : QueryEngine where
  Query := Unit
  parseQuery _ := .ok ()
  isMatch _ _ := true
  score _ _ _ _ := 1.0
  fragment _ _ _ := none
  encodeMinimal := id
  toLowercase := Text.toAsciiLowercase

end RenamedCollection

/-- **A collection renamed after its crawl**: its documents are found by the name it had. -/
theorem not_namesAgree :
    ¬ ∀ s, Sys.Reachable OnePage.crates s → s.Settled → s.NamesAgree := by
  obtain ⟨s, hrun, hs⟩ : ∃ s, (sysMachine OnePage.crates).run .init
      (RenamedCollection.crawled ++ [.collections (.update 1 "manual" "") "t2"]) = some s ∧
        (s.isSettled && decide (∃ d ∈ s.engine.index, d.collection = "guide") &&
          decide (∀ c ∈ s.engine.db.collections.rows, c.name ≠ "guide")) = true :=
    Machine.exists_run_of_any (by decide +kernel)
  simp only [Bool.and_eq_true, decide_eq_true_eq] at hs
  obtain ⟨⟨hsettled, d, hd, hname⟩, hnone⟩ := hs
  intro h
  have hagree := h s ⟨_, hrun⟩ (Sys.isSettled_iff.1 hsettled)
  have hfound : RenamedCollection.everything.hits () (some "guide") d = true :=
    QueryEngine.hits_iff.2 ⟨rfl, hname⟩
  obtain ⟨c, hc, hcname, -⟩ :=
    hagree.only _ _ _ _ _ (QueryEngine.mem_topDocs hd hfound le_rfl)
  exact hnone c hc hcname

/-- A collection renamed before its crawl. -/
theorem namesAgree_of_guarded_before : ∃ s,
    (sysMachine OnePage.crates).run .init RenamedCollection.before = some s ∧
      (∃ p ∈ s.engine.db.crawledPages.rows, p.indexedContentHash = some OnePage.hash) ∧
      s.NamesAgree := by
  obtain ⟨s, hrun, hs⟩ : ∃ s,
      (sysMachine OnePage.crates).run .init RenamedCollection.before = some s ∧
        (s.isSettled && decide (∃ p ∈ s.engine.db.crawledPages.rows,
          p.indexedContentHash = some OnePage.hash)) = true :=
    Machine.exists_run_of_any (by decide +kernel)
  obtain ⟨hsettled, hmarked⟩ := Bool.and_eq_true_iff.1 hs
  exact ⟨s, hrun, of_decide_eq_true hmarked, namesAgree_of_guarded (by decide +kernel)
    (by decide +kernel) hrun (Sys.isSettled_iff.1 hsettled)⟩

end CommunitySearch
