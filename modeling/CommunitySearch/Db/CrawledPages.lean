import CommunitySearch.Db.Schema
import Mathlib.Data.List.Induction

/-!
# Crawled pages

The per-page crawl state. `upsertPage` never touches `indexed_content_hash`; that column is the
**journal** of the index and only `markIndexedBatch` advances it. `Marked` is what the journal
asserts, and the lemmas below say how each operation changes it.
-/

namespace CommunitySearch

/-- One entry of a batch passed to `mark_indexed_batch`. -/
structure IndexedEntry where
  collectionId : Uuid
  url : String
  contentHash : String
deriving DecidableEq

namespace Database

/-- `get_by_url`. -/
def getByUrl (db : Database) (collectionId : Uuid) (url : String) : Option CrawledPageRow :=
  db.crawledPages.rows.find? fun p ↦ p.collectionId = collectionId ∧ p.url = url

/-- The columns an upsert overwrites. -/
def overwrite (row p : CrawledPageRow) : CrawledPageRow :=
  { p with
    crawlTargetId := row.crawlTargetId
    etag := row.etag
    lastModified := row.lastModified
    contentHash := row.contentHash
    lastStatus := row.lastStatus
    lastCrawledAt := row.lastCrawledAt }

/-- `upsert`; `none` is an SQL error: the collection or the target does not exist. -/
def upsertPage (db : Database) (row : CrawledPageRow) : Option Database :=
  if db.HasCollection row.collectionId ∧ db.HasTarget row.crawlTargetId then
    if db.crawledPages.rows.any fun p ↦ p.SameKey row then
      some { db with
        crawledPages := db.crawledPages.modify
          (fun p ↦ if p.SameKey row then overwrite row p else p)
          (fun a b h ↦ by split at h <;> split at h <;> exact h) }
    else
      (db.crawledPages.insert { row with id := db.nextPageId, indexedContentHash := none }).map
        fun pages ↦ { db with crawledPages := pages, nextPageId := db.nextPageId + 1 }
  else none

/-- The statement `mark_indexed_batch` executes for one entry. -/
def markIndexed (db : Database) (e : IndexedEntry) : Database :=
  { db with
    crawledPages := db.crawledPages.modify
      (fun p ↦ if p.collectionId = e.collectionId ∧ p.url = e.url then
        { p with indexedContentHash := some e.contentHash } else p)
      (fun a b h ↦ by split at h <;> split at h <;> exact h) }

/-- `mark_indexed_batch`: one transaction over the entries, in order. -/
def markIndexedBatch (db : Database) (entries : List IndexedEntry) : Database :=
  entries.foldl markIndexed db

/-- The journal asserts that `h` is committed for `url` in the collection. -/
def Marked (db : Database) (collectionId : Uuid) (url h : String) : Prop :=
  ∃ p ∈ db.crawledPages, p.collectionId = collectionId ∧ p.url = url ∧
    p.indexedContentHash = some h

/-- The collection has a row for `url`. -/
def HasPage (db : Database) (collectionId : Uuid) (url : String) : Prop :=
  ∃ p ∈ db.crawledPages, p.collectionId = collectionId ∧ p.url = url

instance (db : Database) (collectionId : Uuid) (url : String) :
    Decidable (db.HasPage collectionId url) :=
  inferInstanceAs (Decidable (∃ p ∈ db.crawledPages.rows, _ ∧ _))

/-- The hash the last entry for a page carries. -/
def lastEntry (entries : List IndexedEntry) (collectionId : Uuid) (url : String) :
    Option String :=
  (entries.reverse.find? fun e ↦ e.collectionId = collectionId ∧ e.url = url).map
    IndexedEntry.contentHash

/-! ### Upserts -/

variable {db db' : Database}

/-- What an upsert can do: both parents exist, and either the row of that key is overwritten or
an unmarked row is added. -/
theorem upsertPage_cases {row : CrawledPageRow} (h : db.upsertPage row = some db') :
    db.HasCollection row.collectionId ∧ db.HasTarget row.crawlTargetId ∧
      ∃ pages n, db' = { db with crawledPages := pages, nextPageId := n } ∧
        ((∃ p₀ ∈ db.crawledPages, p₀.SameKey row) ∧
            (∀ p', p' ∈ pages ↔ ∃ p ∈ db.crawledPages,
              (if p.SameKey row then overwrite row p else p) = p') ∨
          ∀ p', p' ∈ pages ↔ p' ∈ db.crawledPages ∨
            p' = { row with id := db.nextPageId, indexedContentHash := none }) := by
  rw [upsertPage] at h
  split at h
  case isFalse => cases h
  case isTrue hparents =>
    refine ⟨hparents.1, hparents.2, ?_⟩
    split at h
    case isTrue hany =>
      obtain rfl := (Option.some.inj h).symm
      obtain ⟨p₀, hp₀, hkey⟩ := List.any_eq_true.1 hany
      exact ⟨_, db.nextPageId, rfl,
        Or.inl ⟨⟨p₀, hp₀, of_decide_eq_true hkey⟩, fun p' ↦ List.mem_map⟩⟩
    case isFalse =>
      obtain ⟨pages, hpages, rfl⟩ := Option.map_eq_some_iff.1 h
      exact ⟨_, _, rfl, Or.inr fun p' ↦ Table.mem_of_insert hpages⟩

/-- An upsert changes no mark. -/
theorem marked_of_upsertPage {row : CrawledPageRow} (h : db.upsertPage row = some db') {c : Uuid}
    {u v : String} : db'.Marked c u v ↔ db.Marked c u v := by
  obtain ⟨-, -, pages, n, rfl, ⟨-, hmem⟩ | hmem⟩ := upsertPage_cases h
  · constructor
    · rintro ⟨p', hp', hc, hu, hv⟩
      obtain ⟨p, hp, rfl⟩ := (hmem p').1 hp'
      refine ⟨p, hp, ?_⟩
      split at hc <;> split at hu <;> split at hv <;> exact ⟨hc, hu, hv⟩
    · rintro ⟨p, hp, hc, hu, hv⟩
      refine ⟨_, (hmem _).2 ⟨p, hp, rfl⟩, ?_⟩
      split <;> exact ⟨hc, hu, hv⟩
  · constructor
    · rintro ⟨p', hp', hc, hu, hv⟩
      rcases (hmem p').1 hp' with hold | rfl
      · exact ⟨p', hold, hc, hu, hv⟩
      · cases hv
    · rintro ⟨p, hp, hrest⟩
      exact ⟨p, (hmem p).2 (Or.inl hp), hrest⟩

/-- After an upsert the page has a row, and every page that had one still has. -/
theorem hasPage_of_upsertPage {row : CrawledPageRow} (h : db.upsertPage row = some db') {c : Uuid}
    {u : String} :
    db'.HasPage c u ↔ db.HasPage c u ∨ (row.collectionId = c ∧ row.url = u) := by
  obtain ⟨-, -, pages, n, rfl, ⟨⟨p₀, hp₀, hkey⟩, hmem⟩ | hmem⟩ := upsertPage_cases h
  · constructor
    · rintro ⟨p', hp', hc, hu⟩
      obtain ⟨p, hp, rfl⟩ := (hmem p').1 hp'
      refine Or.inl ⟨p, hp, ?_⟩
      split at hc <;> split at hu <;> exact ⟨hc, hu⟩
    · rintro (⟨p, hp, hc, hu⟩ | ⟨rfl, rfl⟩)
      · refine ⟨_, (hmem _).2 ⟨p, hp, rfl⟩, ?_⟩
        split <;> exact ⟨hc, hu⟩
      · refine ⟨_, (hmem _).2 ⟨p₀, hp₀, rfl⟩, ?_⟩
        rw [if_pos hkey]
        exact hkey
  · constructor
    · rintro ⟨p', hp', hc, hu⟩
      rcases (hmem p').1 hp' with hold | rfl
      · exact Or.inl ⟨p', hold, hc, hu⟩
      · exact Or.inr ⟨hc, hu⟩
    · rintro (⟨p, hp, hrest⟩ | ⟨rfl, rfl⟩)
      · exact ⟨p, (hmem p).2 (Or.inl hp), hrest⟩
      · exact ⟨_, (hmem _).2 (Or.inr rfl), rfl, rfl⟩

theorem ForeignKeys.upsertPage (hdb : db.ForeignKeys) {row : CrawledPageRow}
    (h : db.upsertPage row = some db') : db'.ForeignKeys := by
  obtain ⟨hcol, htgt, pages, n, rfl, ⟨-, hmem⟩ | hmem⟩ := upsertPage_cases h
  · constructor
    · exact hdb.target_collection
    · intro p' hp'
      obtain ⟨p, hp, rfl⟩ := (hmem p').1 hp'
      split
      · exact hdb.page_collection p hp
      · exact hdb.page_collection p hp
    · intro p' hp'
      obtain ⟨p, hp, rfl⟩ := (hmem p').1 hp'
      split
      · exact htgt
      · exact hdb.page_target p hp
    · exact hdb.host_collection
    · exact hdb.peer_node
  · constructor
    · exact hdb.target_collection
    · intro p' hp'
      rcases (hmem p').1 hp' with hold | rfl
      · exact hdb.page_collection p' hold
      · exact hcol
    · intro p' hp'
      rcases (hmem p').1 hp' with hold | rfl
      · exact hdb.page_target p' hold
      · exact htgt
    · exact hdb.host_collection
    · exact hdb.peer_node

/-! ### The journal -/

theorem mem_crawledPages_markIndexed {e : IndexedEntry} {p' : CrawledPageRow} :
    p' ∈ (db.markIndexed e).crawledPages ↔ ∃ p ∈ db.crawledPages,
      (if p.collectionId = e.collectionId ∧ p.url = e.url then
        { p with indexedContentHash := some e.contentHash } else p) = p' :=
  List.mem_map

theorem marked_markIndexed {e : IndexedEntry} {c : Uuid} {u v : String} :
    (db.markIndexed e).Marked c u v ↔
      if e.collectionId = c ∧ e.url = u then db.HasPage c u ∧ e.contentHash = v
      else db.Marked c u v := by
  constructor
  · rintro ⟨p', hp', hc, hu, hv⟩
    obtain ⟨p, hp, rfl⟩ := mem_crawledPages_markIndexed.1 hp'
    by_cases hkey : p.collectionId = e.collectionId ∧ p.url = e.url
    · simp only [hkey, and_self, if_true] at hc hu hv
      rw [if_pos ⟨hc, hu⟩]
      exact ⟨⟨p, hp, hkey.1.trans hc, hkey.2.trans hu⟩, Option.some.inj hv⟩
    · simp only [hkey, if_false] at hc hu hv
      rw [if_neg fun he ↦ hkey ⟨hc.trans he.1.symm, hu.trans he.2.symm⟩]
      exact ⟨p, hp, hc, hu, hv⟩
  · intro h
    by_cases he : e.collectionId = c ∧ e.url = u
    · rw [if_pos he] at h
      obtain ⟨⟨p, hp, hc, hu⟩, rfl⟩ := h
      refine ⟨_, mem_crawledPages_markIndexed.2 ⟨p, hp, rfl⟩, ?_⟩
      rw [if_pos ⟨hc.trans he.1.symm, hu.trans he.2.symm⟩]
      exact ⟨hc, hu, rfl⟩
    · rw [if_neg he] at h
      obtain ⟨p, hp, hc, hu, hv⟩ := h
      refine ⟨_, mem_crawledPages_markIndexed.2 ⟨p, hp, rfl⟩, ?_⟩
      rw [if_neg fun hk ↦ he ⟨hk.1.symm.trans hc, hk.2.symm.trans hu⟩]
      exact ⟨hc, hu, hv⟩

theorem key_of_mem_markIndexed {e : IndexedEntry} {p' : CrawledPageRow}
    (h : p' ∈ (db.markIndexed e).crawledPages) : ∃ p ∈ db.crawledPages,
      p.collectionId = p'.collectionId ∧ p.url = p'.url ∧ p.crawlTargetId = p'.crawlTargetId := by
  obtain ⟨p, hp, rfl⟩ := mem_crawledPages_markIndexed.1 h
  refine ⟨p, hp, ?_⟩
  split <;> exact ⟨rfl, rfl, rfl⟩

theorem exists_mem_markIndexed {e : IndexedEntry} {p : CrawledPageRow} (h : p ∈ db.crawledPages) :
    ∃ p' ∈ (db.markIndexed e).crawledPages,
      p.collectionId = p'.collectionId ∧ p.url = p'.url ∧ p.crawlTargetId = p'.crawlTargetId := by
  refine ⟨_, mem_crawledPages_markIndexed.2 ⟨p, h, rfl⟩, ?_⟩
  split <;> exact ⟨rfl, rfl, rfl⟩

/-- A batch changes nothing but marks. -/
theorem key_of_mem_markIndexedBatch {entries : List IndexedEntry} {p' : CrawledPageRow}
    (h : p' ∈ (db.markIndexedBatch entries).crawledPages) : ∃ p ∈ db.crawledPages,
      p.collectionId = p'.collectionId ∧ p.url = p'.url ∧ p.crawlTargetId = p'.crawlTargetId := by
  induction entries generalizing db with
  | nil => exact ⟨p', h, rfl, rfl, rfl⟩
  | cons e entries ih =>
    obtain ⟨p, hp, hc, hu, ht⟩ := ih h
    obtain ⟨p₀, hp₀, hc₀, hu₀, ht₀⟩ := key_of_mem_markIndexed hp
    exact ⟨p₀, hp₀, hc₀.trans hc, hu₀.trans hu, ht₀.trans ht⟩

theorem exists_mem_markIndexedBatch (entries : List IndexedEntry) {p : CrawledPageRow}
    (h : p ∈ db.crawledPages) : ∃ p' ∈ (db.markIndexedBatch entries).crawledPages,
      p.collectionId = p'.collectionId ∧ p.url = p'.url ∧ p.crawlTargetId = p'.crawlTargetId := by
  induction entries generalizing db p with
  | nil => exact ⟨p, h, rfl, rfl, rfl⟩
  | cons e entries ih =>
    obtain ⟨p₁, hp₁, hc₁, hu₁, ht₁⟩ := exists_mem_markIndexed (e := e) h
    obtain ⟨p', hp', hc, hu, ht⟩ := ih hp₁
    exact ⟨p', hp', hc₁.trans hc, hu₁.trans hu, ht₁.trans ht⟩

theorem hasPage_markIndexedBatch {entries : List IndexedEntry} {c : Uuid} {u : String} :
    (db.markIndexedBatch entries).HasPage c u ↔ db.HasPage c u := by
  constructor
  · rintro ⟨p', hp', rfl, rfl⟩
    obtain ⟨p, hp, hc, hu, -⟩ := key_of_mem_markIndexedBatch hp'
    exact ⟨p, hp, hc, hu⟩
  · rintro ⟨p, hp, rfl, rfl⟩
    obtain ⟨p', hp', hc, hu, -⟩ := exists_mem_markIndexedBatch entries hp
    exact ⟨p', hp', hc.symm, hu.symm⟩

theorem markIndexedBatch_eq (db : Database) (entries : List IndexedEntry) :
    ∃ pages, db.markIndexedBatch entries = { db with crawledPages := pages } := by
  induction entries generalizing db with
  | nil => exact ⟨db.crawledPages, rfl⟩
  | cons e entries ih =>
    obtain ⟨pages, h⟩ := ih (db.markIndexed e)
    exact ⟨pages, h⟩

/-- **The journal of a batch**: a page the batch mentions is marked with its last entry, any other
keeps its mark. -/
theorem marked_markIndexedBatch {entries : List IndexedEntry} {c : Uuid} {u v : String} :
    (db.markIndexedBatch entries).Marked c u v ↔
      match lastEntry entries c u with
      | some h => db.HasPage c u ∧ h = v
      | none => db.Marked c u v := by
  induction entries using List.reverseRecOn with
  | nil => exact Iff.rfl
  | append_singleton entries e ih =>
    have hfold : db.markIndexedBatch (entries ++ [e]) =
        (db.markIndexedBatch entries).markIndexed e := by
      rw [markIndexedBatch, List.foldl_append]
      rfl
    have hlast : lastEntry (entries ++ [e]) c u =
        if e.collectionId = c ∧ e.url = u then some e.contentHash
        else lastEntry entries c u := by
      rw [lastEntry, List.reverse_append, List.reverse_singleton, List.singleton_append,
        List.find?_cons]
      by_cases he : e.collectionId = c ∧ e.url = u
      · simp [he]
      · simp only [he, if_false, decide_false]
        rfl
    rw [hfold, marked_markIndexed, hlast]
    by_cases he : e.collectionId = c ∧ e.url = u
    · rw [if_pos he, if_pos he, hasPage_markIndexedBatch]
    · rw [if_neg he, if_neg he, ih]

theorem ForeignKeys.markIndexedBatch (hdb : db.ForeignKeys) (entries : List IndexedEntry) :
    (db.markIndexedBatch entries).ForeignKeys := by
  obtain ⟨pages, h⟩ := markIndexedBatch_eq db entries
  constructor
  · rw [h]
    exact hdb.target_collection
  · intro p' hp'
    obtain ⟨p, hp, hc, -⟩ := key_of_mem_markIndexedBatch hp'
    rw [h, ← hc]
    exact hdb.page_collection p hp
  · intro p' hp'
    obtain ⟨p, hp, -, -, ht⟩ := key_of_mem_markIndexedBatch hp'
    rw [h, ← ht]
    exact hdb.page_target p hp
  · rw [h]
    exact hdb.host_collection
  · rw [h]
    exact hdb.peer_node

end Database

end CommunitySearch
