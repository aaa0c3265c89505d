import CommunitySearch.Db.Schema

/-!
# Collections

The rowid-based operations behind the admin collections endpoint.
-/

namespace CommunitySearch

/-- The representation of a collection in the admin API. -/
structure CollectionRecord where
  id : Int
  name : String
  description : String
  /-- Filled in by callers that can ask the index. -/
  documents : Nat
deriving DecidableEq

def CollectionRow.record (c : CollectionRow) : CollectionRecord :=
  { id := c.rowid, name := c.name, description := c.description, documents := 0 }

namespace Database

/-- The row `create_item` inserts. -/
def newCollection (db : Database) (name description ts : String) : CollectionRow where
  rowid := nextRowid (db.collections.rows.map CollectionRow.rowid)
  id := ⟨db.nextUuid⟩
  name := name
  description := description
  createdAt := ts
  updatedAt := ts

/-- `create_item`; `none` is an SQL error, such as a name that is taken. -/
def createItem (db : Database) (name description ts : String) :
    Option (Database × CollectionRecord) :=
  let row := db.newCollection name description ts
  (db.collections.insert row).map fun cs ↦
    ({ db with collections := cs, nextUuid := db.nextUuid + 1 }, row.record)

/-- `update_item`: the record is `none` when no row has the rowid. -/
def updateItem (db : Database) (id : Int) (name description ts : String) :
    Option (Database × Option CollectionRecord) :=
  let set (c : CollectionRow) :=
    if c.rowid = id then { c with name := name, description := description, updatedAt := ts }
    else c
  (db.collections.update set).map fun cs ↦
    let db' := { db with collections := cs }
    (db', (db'.collectionByRowid id).map CollectionRow.record)

/-- `delete_item`: whether a row was removed. -/
def deleteItem (db : Database) (id : Int) : Database × Bool :=
  match db.collectionByRowid id with
  | some c => (db.cascadeCollection c.id, true)
  | none => (db, false)

/-- `exists`. -/
def collectionExists (db : Database) (id : Int) : Bool :=
  (db.collectionByRowid id).isSome

/-! ### What the operations leave -/

variable {db db' : Database}

theorem mem_collections_of_createItem {name description ts : String} {r : CollectionRecord}
    (h : db.createItem name description ts = some (db', r)) {c : CollectionRow} :
    c ∈ db'.collections ↔ c ∈ db.collections ∨ c = db.newCollection name description ts := by
  obtain ⟨cs, hcs, he⟩ := Option.map_eq_some_iff.1 h
  obtain ⟨rfl, rfl⟩ := Prod.mk.inj he
  exact Table.mem_of_insert hcs

theorem createItem_eq {name description ts : String} {r : CollectionRecord}
    (h : db.createItem name description ts = some (db', r)) :
    ∃ cs, db' = { db with collections := cs, nextUuid := db.nextUuid + 1 } := by
  obtain ⟨cs, -, he⟩ := Option.map_eq_some_iff.1 h
  exact ⟨cs, (Prod.mk.inj he).1.symm⟩

theorem updateItem_eq {id : Int} {name description ts : String} {r : Option CollectionRecord}
    (h : db.updateItem id name description ts = some (db', r)) :
    ∃ cs, db' = { db with collections := cs } := by
  obtain ⟨cs, -, he⟩ := Option.map_eq_some_iff.1 h
  exact ⟨cs, (Prod.mk.inj he).1.symm⟩

/-- A rename changes no identifier. -/
theorem mem_collections_of_updateItem {id : Int} {name description ts : String}
    {r : Option CollectionRecord} (h : db.updateItem id name description ts = some (db', r))
    {c' : CollectionRow} : c' ∈ db'.collections ↔ ∃ c ∈ db.collections,
      c' = if c.rowid = id then { c with name := name, description := description, updatedAt := ts }
        else c := by
  obtain ⟨cs, hcs, he⟩ := Option.map_eq_some_iff.1 h
  obtain ⟨rfl, rfl⟩ := Prod.mk.inj he
  refine (Table.mem_of_update hcs).trans ?_
  simp only [eq_comm]

theorem ForeignKeys.createItem (hdb : db.ForeignKeys) {name description ts : String}
    {r : CollectionRecord} (h : db.createItem name description ts = some (db', r)) :
    db'.ForeignKeys := by
  have hmem : ∀ c ∈ db.collections, c ∈ db'.collections := fun c hc ↦
    (mem_collections_of_createItem h).2 (Or.inl hc)
  obtain ⟨cs, rfl⟩ := createItem_eq h
  constructor
  · intro t ht
    obtain ⟨c, hc, hid⟩ := hdb.target_collection t ht
    exact ⟨c, hmem c hc, hid⟩
  · intro p hp
    obtain ⟨c, hc, hid⟩ := hdb.page_collection p hp
    exact ⟨c, hmem c hc, hid⟩
  · exact hdb.page_target
  · intro o ho
    obtain ⟨c, hc, hid⟩ := hdb.host_collection o ho
    exact ⟨c, hmem c hc, hid⟩
  · exact hdb.peer_node

theorem ForeignKeys.updateItem (hdb : db.ForeignKeys) {id : Int} {name description ts : String}
    {r : Option CollectionRecord} (h : db.updateItem id name description ts = some (db', r)) :
    db'.ForeignKeys := by
  have hmem : ∀ c ∈ db.collections, ∃ c' ∈ db'.collections, c'.id = c.id := fun c hc ↦ by
    refine ⟨_, (mem_collections_of_updateItem h).2 ⟨c, hc, rfl⟩, ?_⟩
    split <;> rfl
  obtain ⟨cs, rfl⟩ := updateItem_eq h
  constructor
  · intro t ht
    obtain ⟨c, hc, hid⟩ := hdb.target_collection t ht
    obtain ⟨c', hc', hid'⟩ := hmem c hc
    exact ⟨c', hc', hid'.trans hid⟩
  · intro p hp
    obtain ⟨c, hc, hid⟩ := hdb.page_collection p hp
    obtain ⟨c', hc', hid'⟩ := hmem c hc
    exact ⟨c', hc', hid'.trans hid⟩
  · exact hdb.page_target
  · intro o ho
    obtain ⟨c, hc, hid⟩ := hdb.host_collection o ho
    obtain ⟨c', hc', hid'⟩ := hmem c hc
    exact ⟨c', hc', hid'.trans hid⟩
  · exact hdb.peer_node

theorem ForeignKeys.deleteItem (hdb : db.ForeignKeys) (id : Int) :
    (db.deleteItem id).1.ForeignKeys := by
  rw [Database.deleteItem]
  split
  · exact hdb.cascadeCollection _
  · exact hdb

end Database

end CommunitySearch
