import CommunitySearch.Db.Schema

/-!
# Outlink suggestions

The review queue of the hosts that crawled pages link to. A crawl records what it sees; once the
admin has promoted or dismissed a host, further links to it change nothing.
-/

namespace CommunitySearch

/-- Cap on how many example URLs are stored per host. -/
def MAX_EXAMPLES : Nat := 5

/-- `merge_example`: a new example is appended, unless there is no room or it is a duplicate. -/
def mergeExample (existingJson : JsonColumn (List OutlinkExample)) (newExample : OutlinkExample) :
    JsonColumn (List OutlinkExample) :=
  let examples := existingJson.unwrapOrDefault
  if MAX_EXAMPLES ≤ examples.length then existingJson
  else if examples.any fun e ↦
    e.sourceUrl = newExample.sourceUrl ∧ e.targetUrl = newExample.targetUrl then existingJson
  else .parses (examples ++ [newExample])

namespace Database

/-- The row inserted on the first sighting of a host. -/
def newOutlinkHost (db : Database) (collectionId : Uuid) (host : String)
    (newExample : OutlinkExample) (now : Int) : OutlinkHostRow where
  rowid := nextRowid (db.outlinkHostSuggestions.rows.map OutlinkHostRow.rowid)
  id := ⟨db.nextUuid⟩
  collectionId := collectionId
  host := host
  linkCount := 1
  examplesJson := .parses [newExample]
  firstSeenAt := now
  lastSeenAt := now
  status := "pending"
  promotedTargetId := none

/-- `UPDATE` of the columns of the suggestion with the given rowid that no constraint mentions. -/
def updateOutlinkHost (db : Database) (rowid : Int) (f : OutlinkHostRow → OutlinkHostRow)
    (hf : ∀ o, (f o).rowid = o.rowid ∧ (f o).id = o.id ∧ (f o).collectionId = o.collectionId ∧
      (f o).host = o.host) : Database :=
  { db with
    outlinkHostSuggestions := db.outlinkHostSuggestions.modify
      (fun o ↦ if o.rowid = rowid then f o else o)
      (fun a b h ↦ by
        obtain ⟨ha, ha', ha'', ha'''⟩ := hf a
        obtain ⟨hb, hb', hb'', hb'''⟩ := hf b
        unfold OutlinkHostRow.Clash at h ⊢
        split at h <;> split at h <;> simp_all) }

/-- `record_hit`; `none` is an SQL error: the collection does not exist. -/
def recordHit (db : Database) (collectionId : Uuid) (host : String) (newExample : OutlinkExample)
    (now : Int) : Option Database :=
  match db.outlinkHostSuggestions.rows.find? fun o ↦
    o.collectionId = collectionId ∧ o.host = host with
  | some row =>
    if row.status = "pending" then
      some (db.updateOutlinkHost row.rowid
        (fun o ↦ { o with
          linkCount := o.linkCount + 1
          lastSeenAt := now
          examplesJson := mergeExample row.examplesJson newExample })
        (fun _ ↦ ⟨rfl, rfl, rfl, rfl⟩))
    else some db
  | none =>
    if db.HasCollection collectionId then
      (db.outlinkHostSuggestions.insert
        (db.newOutlinkHost collectionId host newExample now)).map fun hosts ↦
          { db with outlinkHostSuggestions := hosts, nextUuid := db.nextUuid + 1 }
    else none

/-- `find`: the suggestion with the given rowid. -/
def outlinkHostByRowid (db : Database) (rowid : Int) : Option OutlinkHostRow :=
  db.outlinkHostSuggestions.rows.find? fun o ↦ o.rowid = rowid

/-- `mark_promoted`: whether the suggestion exists. -/
def markPromoted (db : Database) (rowid targetId : Int) : Database × Bool :=
  (db.updateOutlinkHost rowid
      (fun o ↦ { o with status := "promoted", promotedTargetId := some targetId })
      (fun _ ↦ ⟨rfl, rfl, rfl, rfl⟩),
    (db.outlinkHostByRowid rowid).isSome)

/-- `mark_dismissed`: whether the suggestion exists. -/
def markDismissed (db : Database) (rowid : Int) : Database × Bool :=
  (db.updateOutlinkHost rowid (fun o ↦ { o with status := "dismissed" })
      (fun _ ↦ ⟨rfl, rfl, rfl, rfl⟩),
    (db.outlinkHostByRowid rowid).isSome)

/-- Only outlink suggestions differ, and a new one is for a collection that exists. -/
structure Suggests (db db' : Database) : Prop where
  eq : ∃ hosts n, db' = { db with outlinkHostSuggestions := hosts, nextUuid := n } ∧
    db.nextUuid ≤ n
  of_mem : ∀ o' ∈ db'.outlinkHostSuggestions,
    (∃ o ∈ db.outlinkHostSuggestions, o.collectionId = o'.collectionId) ∨
      db.HasCollection o'.collectionId

/-! ### What the operations leave -/

variable {db db' : Database}

theorem suggests_updateOutlinkHost {rowid : Int} {f : OutlinkHostRow → OutlinkHostRow}
    {hf : ∀ o, (f o).rowid = o.rowid ∧ (f o).id = o.id ∧ (f o).collectionId = o.collectionId ∧
      (f o).host = o.host} : db.Suggests (db.updateOutlinkHost rowid f hf) where
  eq := ⟨_, _, rfl, Nat.le_refl _⟩
  of_mem o' ho' := by
    obtain ⟨o, ho, rfl⟩ := List.mem_map.1 ho'
    refine Or.inl ⟨o, ho, ?_⟩
    split
    · exact (hf o).2.2.1.symm
    · rfl

theorem suggests_refl (db : Database) : db.Suggests db where
  eq := ⟨_, _, rfl, Nat.le_refl _⟩
  of_mem o ho := Or.inl ⟨o, ho, rfl⟩

theorem suggests_recordHit {collectionId : Uuid} {host : String} {newExample : OutlinkExample}
    {now : Int} (h : db.recordHit collectionId host newExample now = some db') :
    db.Suggests db' := by
  rw [recordHit] at h
  split at h
  case h_1 row =>
    split at h
    · obtain rfl := Option.some.inj h
      exact suggests_updateOutlinkHost
    · obtain rfl := Option.some.inj h
      exact suggests_refl _
  case h_2 =>
    split at h
    case isTrue hcollection =>
      obtain ⟨hosts, hhosts, rfl⟩ := Option.map_eq_some_iff.1 h
      refine ⟨⟨_, _, rfl, Nat.le_succ _⟩, fun o ho ↦ ?_⟩
      rcases (Table.mem_of_insert hhosts).1 ho with hold | rfl
      · exact Or.inl ⟨o, hold, rfl⟩
      · exact Or.inr hcollection
    case isFalse => cases h

theorem ForeignKeys.suggests (hdb : db.ForeignKeys) (h : db.Suggests db') : db'.ForeignKeys := by
  have hhosts : ∀ o ∈ db'.outlinkHostSuggestions, ∃ c ∈ db.collections, c.id = o.collectionId := by
    intro o ho
    rcases h.of_mem o ho with ⟨o₀, ho₀, hid⟩ | hcollection
    · exact hid ▸ hdb.host_collection o₀ ho₀
    · exact hcollection
  obtain ⟨hosts, n, rfl, -⟩ := h.eq
  exact ⟨hdb.target_collection, hdb.page_collection, hdb.page_target, hhosts, hdb.peer_node⟩

end Database

end CommunitySearch
