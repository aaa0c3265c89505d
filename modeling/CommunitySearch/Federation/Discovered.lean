import CommunitySearch.Foundation.Keyed
import Mathlib.Data.List.Sort
import Mathlib.Data.Set.Defs

/-!
# Discovered engines

The repository of the `discovered_engines` table: one row for each engine URL this engine has heard
of. Each function is one locked statement, and none of them can violate a constraint.
-/

namespace CommunitySearch

/-- A row of `discovered_engines`. -/
structure DiscoveredEngine where
  url : String
  name : String
  description : String
  firstSeen : Int
  lastSeen : Int
deriving DecidableEq

/-- `PRIMARY KEY (url)`. -/
abbrev DiscoveredEngines := KeyTable DiscoveredEngine.url

namespace DiscoveredEngines

/-- The `ON CONFLICT` clause of the upsert: the name and the description are the new ones,
`first_seen` is the stored one. -/
def onConflict (stored : Option DiscoveredEngine) (e : DiscoveredEngine) : DiscoveredEngine :=
  match stored with
  | none => e
  | some old =>
    { old with
      name := e.name
      description := e.description
      lastSeen := max old.lastSeen e.lastSeen }

/-- `upsert`. -/
def upsert : DiscoveredEngines → DiscoveredEngine → DiscoveredEngines :=
  KeyTable.upsertWith onConflict

/-- `list`: ordered by `last_seen`, newest first. -/
def list (t : DiscoveredEngines) : List DiscoveredEngine :=
  t.rows.insertionSort fun a b ↦ b.lastSeen ≤ a.lastSeen

/-- `get`. -/
def get (t : DiscoveredEngines) (url : String) : Option DiscoveredEngine := KeyTable.find t url

/-- `remove`: the table and the number of rows deleted. -/
def remove (t : DiscoveredEngines) (url : String) : DiscoveredEngines × Nat :=
  (KeyTable.erase t url, t.rows.countP fun e ↦ e.url = url)

/-- `ensure_self_entry`. -/
def ensureSelfEntry (t : DiscoveredEngines) (selfUrl name description : String) (now : Int) :
    DiscoveredEngines :=
  upsert t ⟨selfUrl, name, description, now, now⟩

/-- The engine URLs in the table. -/
def urls (t : DiscoveredEngines) : Set String := {url | ∃ e ∈ t.rows, e.url = url}

variable {t : DiscoveredEngines} {e : DiscoveredEngine} {url : String}

theorem mem_urls : url ∈ urls t ↔ ∃ e, get t url = some e := by
  constructor
  · rintro ⟨e, he, hurl⟩
    exact ⟨e, KeyTable.find_eq_some_iff.2 ⟨he, hurl⟩⟩
  · rintro ⟨e, he⟩
    exact ⟨e, KeyTable.find_eq_some_iff.1 he⟩

theorem not_mem_urls : url ∉ urls t ↔ get t url = none := by
  rw [mem_urls, Option.eq_none_iff_forall_ne_some, not_exists]

instance : Decidable (url ∈ urls t) :=
  decidable_of_iff (∃ e ∈ t.rows, e.url = url) Iff.rfl

theorem url_of_get (h : get t url = some e) : e.url = url :=
  (KeyTable.find_eq_some_iff.1 h).2

theorem keepsKey_onConflict : KeyTable.KeepsKey DiscoveredEngine.url onConflict := by
  intro o e ho
  rcases o with - | old
  · rfl
  · exact ho old rfl

/-- Writing a stored row back changes nothing. -/
theorem onConflict_self (e : DiscoveredEngine) : onConflict (some e) e = e := by
  rw [onConflict, max_self]

theorem get_upsert (t : DiscoveredEngines) (e : DiscoveredEngine) (url : String) :
    get (upsert t e) url = if e.url = url then some (onConflict (get t url) e) else get t url :=
  KeyTable.find_upsertWith keepsKey_onConflict t e url

theorem perm_list (t : DiscoveredEngines) : (list t).Perm t.rows := List.perm_insertionSort _ _

theorem mem_list : e ∈ list t ↔ get t e.url = some e := by
  rw [(perm_list t).mem_iff, get, KeyTable.find_eq_some_iff, and_iff_left rfl]

theorem get_remove (t : DiscoveredEngines) (url url' : String) :
    get (remove t url).1 url' = if url = url' then none else get t url' :=
  KeyTable.find_erase t url url'

theorem remove_snd_eq_zero_iff : (remove t url).2 = 0 ↔ url ∉ urls t := by
  rw [remove, List.countP_eq_zero, not_mem_urls, get, KeyTable.find_eq_none_iff]
  simp only [decide_eq_true_eq, ne_eq]

end DiscoveredEngines

end CommunitySearch
