import CommunitySearch.Federation.Discovered
import CommunitySearch.Federation.Protocol
import Mathlib.Data.List.Induction

/-!
# Gossip

Engines exchange the lists of engines they have discovered. The payload of an exchange lists URLs
with their names and descriptions; the receiver stamps it with the time `now` and merges it with a
list of its own, which is the current table when it answers an exchange and an earlier snapshot of
the table when it asked for one (`mergeEngineLists`). The rows of the merged list are then upserted
one by one (`mergeInto`).

`get_mergeInto` says what is stored under a URL afterwards, from the stored row, the row of the
snapshot and the last entry of the payload for the URL (`mention`).
-/

namespace CommunitySearch

/-- An entry of a gossip payload. -/
structure EngineSummary where
  url : String
  name : String
  description : String
deriving DecidableEq

/-- `ExchangeRequest`. -/
structure ExchangeRequest where
  protocolVersion : String
  engines : List EngineSummary
deriving DecidableEq

/-- `ExchangeResponse`. -/
structure ExchangeResponse where
  protocolVersion : String
  /-- The list as it was before the merge. -/
  engines : List EngineSummary
deriving DecidableEq

/-- The entry that describes a discovered engine. -/
def DiscoveredEngine.summary (e : DiscoveredEngine) : EngineSummary :=
  ⟨e.url, e.name, e.description⟩

/-- An entry received at `now`. -/
def EngineSummary.received (now : Int) (s : EngineSummary) : DiscoveredEngine :=
  ⟨s.url, s.name, s.description, now, now⟩

namespace Gossip

/-- The rule of `merge_engine_lists` for one incoming entry. -/
def mergeRow (now : Int) (existing : Option DiscoveredEngine) (inc : DiscoveredEngine) :
    DiscoveredEngine :=
  match existing with
  | some existing =>
    let existing := { existing with firstSeen := min existing.firstSeen inc.firstSeen }
    let existing :=
      if inc.lastSeen ≥ existing.lastSeen then
        { existing with
          name := inc.name
          description := inc.description
          lastSeen := inc.lastSeen }
      else existing
    { existing with lastSeen := max existing.lastSeen now }
  | none => { inc with lastSeen := max inc.lastSeen now }

/-- The map `merge_engine_lists` starts from: the local list by URL. -/
def seed (engines : List DiscoveredEngine) : KeyTable DiscoveredEngine.url :=
  engines.foldl KeyTable.put Table.empty

/-- The map of `merge_engine_lists` after its loop. -/
def mergeMap (engines incoming : List DiscoveredEngine) (now : Int) :
    KeyTable DiscoveredEngine.url :=
  incoming.foldl (KeyTable.upsertWith (mergeRow now)) (seed engines)

/-- `merge_engine_lists`: the map sorted by `last_seen`, newest first, then by URL. -/
def mergeEngineLists (engines incoming : List DiscoveredEngine) (now : Int) :
    List DiscoveredEngine :=
  (mergeMap engines incoming now).rows.insertionSort fun a b ↦
    b.lastSeen < a.lastSeen ∨ b.lastSeen = a.lastSeen ∧ a.url ≤ b.url

/-- What a payload received at `now` becomes when it is merged with the list `engines`. -/
def merged (engines : List DiscoveredEngine) (payload : List EngineSummary) (now : Int) :
    List DiscoveredEngine :=
  mergeEngineLists engines (payload.map (·.received now)) now

/-- Write a merged list back to the table, row by row. -/
def mergeInto (engines : List DiscoveredEngine) (payload : List EngineSummary) (now : Int)
    (t : DiscoveredEngines) : DiscoveredEngines :=
  (merged engines payload now).foldl DiscoveredEngines.upsert t

/-- The payload of the exchanges of an engine with the table `t`. -/
def payload (t : DiscoveredEngines) : List EngineSummary :=
  t.list.map DiscoveredEngine.summary

/-! ### What a merge stores under a URL -/

/-- The last entry of a payload for a URL. -/
def mention (url : String) (payload : List EngineSummary) : Option EngineSummary :=
  (payload.filter fun s ↦ s.url = url).getLast?

/-- A row after its URL has been listed by a payload received at `now`: the entry counts unless the
row has been seen later than `now`. -/
def heard (now : Int) (row : Option DiscoveredEngine) (s : EngineSummary) : DiscoveredEngine :=
  match row with
  | none => s.received now
  | some e =>
    if e.lastSeen ≤ now then ⟨e.url, s.name, s.description, min e.firstSeen now, now⟩
    else { e with firstSeen := min e.firstSeen now }

/-- The row of a URL in a merged list. -/
def mergedRow (engines : List DiscoveredEngine) (payload : List EngineSummary) (now : Int)
    (url : String) : Option DiscoveredEngine :=
  match mention url payload with
  | none => KeyTable.find (seed engines) url
  | some s => some (heard now (KeyTable.find (seed engines) url) s)

variable {engines : List DiscoveredEngine} {entries : List EngineSummary} {now : Int}
  {t : DiscoveredEngines} {url : String}

theorem keepsKey_mergeRow (now : Int) :
    KeyTable.KeepsKey DiscoveredEngine.url (mergeRow now) := by
  intro o inc ho
  rcases o with - | e
  · rfl
  · have he : e.url = inc.url := ho e rfl
    rw [mergeRow]
    dsimp only
    split <;> exact he

theorem mergeRow_received_none (s : EngineSummary) :
    mergeRow now none (s.received now) = heard now none s := by
  rw [mergeRow, heard, EngineSummary.received]
  simp

theorem mergeRow_received_some (e : DiscoveredEngine) (s : EngineSummary) :
    mergeRow now (some e) (s.received now) = heard now (some e) s := by
  rw [mergeRow, heard]
  by_cases h : e.lastSeen ≤ now
  · simp [EngineSummary.received, h]
  · have hlt : now ≤ e.lastSeen := by omega
    simp [EngineSummary.received, h, hlt]

/-- The later of two entries counts. -/
theorem heard_heard (row : Option DiscoveredEngine) (s s' : EngineSummary) :
    heard now (some (heard now row s)) s' =
      match row with
      | none => ⟨s.url, s'.name, s'.description, now, now⟩
      | some e => heard now (some e) s' := by
  rcases row with - | e
  · simp [heard, EngineSummary.received]
  · by_cases h : e.lastSeen ≤ now
    · simp [heard, h]
    · simp [heard, h]

/-- Entries of one URL, merged one after the other: the last one counts. -/
theorem foldl_mergeRow {m : List EngineSummary} (hm : ∀ s ∈ m, s.url = url)
    (row : Option DiscoveredEngine) :
    m.foldl (fun o s ↦ some (mergeRow now o (s.received now))) row =
      match m.getLast? with
      | none => row
      | some s => some (heard now row s) := by
  induction m using List.reverseRecOn with
  | nil => rfl
  | append_singleton m s ih =>
    rw [List.foldl_append, ih fun a ha ↦ hm a (List.mem_append_left _ ha), List.foldl_cons,
      List.foldl_nil, List.getLast?_append, List.getLast?_singleton]
    show some _ = some (heard now row s)
    rcases hlast : m.getLast? with - | s'
    · rcases row with - | e
      · rw [mergeRow_received_none]
      · rw [mergeRow_received_some]
    · have hurl : s'.url = s.url :=
        (hm s' (List.mem_append_left _ (List.mem_of_getLast? hlast))).trans
          (hm s (by simp)).symm
      dsimp only
      rw [mergeRow_received_some, heard_heard]
      rcases row with - | e
      · rw [hurl]
        rfl
      · rfl

/-- **The merged map, URL by URL.** -/
theorem find_mergeMap : KeyTable.find (mergeMap engines (entries.map (·.received now)) now) url =
    mergedRow engines entries now url := by
  have hfilter : ((entries.map (·.received now)).filter fun e ↦ e.url = url) =
      (entries.filter fun s ↦ s.url = url).map (·.received now) := by
    rw [List.filter_map]
    rfl
  have hm : ∀ s ∈ entries.filter (fun s ↦ s.url = url), s.url = url := fun s hs ↦ by
    simpa using (List.mem_filter.1 hs).2
  rw [mergeMap, KeyTable.find_foldl_upsertWith (keepsKey_mergeRow now), hfilter, List.foldl_map,
    foldl_mergeRow hm]
  rfl

/-- **A merge, URL by URL**: the row of the merged list is upserted. -/
theorem get_mergeInto : (mergeInto engines entries now t).get url =
    match mergedRow engines entries now url with
    | none => t.get url
    | some r => some (DiscoveredEngines.onConflict (t.get url) r) := by
  have h := KeyTable.find_foldl_upsertWith_perm DiscoveredEngines.keepsKey_onConflict
    (List.perm_insertionSort (fun a b : DiscoveredEngine ↦
      b.lastSeen < a.lastSeen ∨ b.lastSeen = a.lastSeen ∧ a.url ≤ b.url)
      (mergeMap engines (entries.map (·.received now)) now).rows) t url
  rw [find_mergeMap] at h
  exact h.trans (by rcases mergedRow engines entries now url <;> rfl)

/-- The last row of a URL is the one the map is made with. -/
theorem find_seed :
    KeyTable.find (seed engines) url = (engines.filter fun e ↦ e.url = url).getLast? := by
  have h : seed engines =
      engines.foldl (KeyTable.upsertWith fun _ e ↦ e) (Table.empty : DiscoveredEngines) := rfl
  rw [h, KeyTable.find_foldl_upsertWith fun _ _ _ ↦ rfl, KeyTable.find_empty]
  generalize engines.filter (fun e ↦ e.url = url) = m
  induction m using List.reverseRecOn with
  | nil => rfl
  | append_singleton m e =>
    rw [List.foldl_append, List.foldl_cons, List.foldl_nil, List.getLast?_concat]

theorem mem_of_find_seed {e : DiscoveredEngine} (h : KeyTable.find (seed engines) url = some e) :
    e ∈ engines ∧ e.url = url := by
  rw [find_seed] at h
  obtain ⟨hmem, hurl⟩ := List.mem_filter.1 (List.mem_of_getLast? h)
  exact ⟨hmem, by simpa using hurl⟩

/-- The map made of the table's own list. -/
theorem find_seed_list : KeyTable.find (seed t.list) url = t.get url := by
  have h : seed t.list =
      t.list.foldl (KeyTable.upsertWith fun _ e ↦ e) (Table.empty : DiscoveredEngines) := rfl
  rw [h, KeyTable.find_foldl_upsertWith_perm (fun _ _ _ ↦ rfl) t.perm_list, KeyTable.find_empty]
  rcases hf : KeyTable.find t url with - | e
  · exact hf.symm
  · exact hf.symm

theorem mention_eq_some {s : EngineSummary} (h : mention url entries = some s) :
    s ∈ entries ∧ s.url = url := by
  obtain ⟨hmem, hurl⟩ := List.mem_filter.1 (List.mem_of_getLast? h)
  exact ⟨hmem, by simpa using hurl⟩

theorem mention_eq_none_iff : mention url entries = none ↔ ∀ s ∈ entries, s.url ≠ url := by
  rw [mention, List.getLast?_eq_none_iff, List.filter_eq_nil_iff]
  simp only [decide_eq_true_eq, ne_eq]

theorem mem_payload {s : EngineSummary} :
    s ∈ payload t ↔ ∃ e, t.get s.url = some e ∧ e.summary = s := by
  rw [payload, List.mem_map]
  constructor
  · rintro ⟨e, he, rfl⟩
    exact ⟨e, DiscoveredEngines.mem_list.1 he, rfl⟩
  · rintro ⟨e, he, rfl⟩
    exact ⟨e, DiscoveredEngines.mem_list.2 he, rfl⟩

/-- The URLs of a payload. -/
def payloadUrls (payload : List EngineSummary) : Set String := {url | ∃ s ∈ payload, s.url = url}

instance : Decidable (url ∈ payloadUrls entries) :=
  inferInstanceAs (Decidable (∃ s ∈ entries, s.url = url))

theorem mention_eq_none : mention url entries = none ↔ url ∉ payloadUrls entries := by
  rw [mention_eq_none_iff]
  exact ⟨fun h ⟨s, hs, hurl⟩ ↦ h s hs hurl, fun h s hs hurl ↦ h ⟨s, hs, hurl⟩⟩

/-! ### The URLs of a merge -/

/-- The URLs of a list of rows. -/
def listUrls (engines : List DiscoveredEngine) : Set String := {url | ∃ e ∈ engines, e.url = url}

theorem listUrls_list (t : DiscoveredEngines) : listUrls t.list = t.urls :=
  Set.ext fun _ ↦ exists_congr fun _ ↦ and_congr_left' t.perm_list.mem_iff

theorem payloadUrls_summary (engines : List DiscoveredEngine) :
    payloadUrls (engines.map DiscoveredEngine.summary) = listUrls engines := by
  ext url
  constructor
  · rintro ⟨s, hs, rfl⟩
    obtain ⟨e, he, rfl⟩ := List.mem_map.1 hs
    exact ⟨e, he, rfl⟩
  · rintro ⟨e, he, rfl⟩
    exact ⟨e.summary, List.mem_map_of_mem he, rfl⟩

theorem payloadUrls_payload (t : DiscoveredEngines) : payloadUrls (payload t) = t.urls :=
  (payloadUrls_summary t.list).trans (listUrls_list t)

theorem find_seed_eq_none_iff :
    KeyTable.find (seed engines) url = none ↔ url ∉ listUrls engines := by
  rw [find_seed, List.getLast?_eq_none_iff, List.filter_eq_nil_iff]
  simp [listUrls]

/-- **The URLs after a merge** are those of the table, of the snapshot and of the payload. -/
theorem urls_mergeInto : (mergeInto engines entries now t).urls =
    t.urls ∪ (listUrls engines ∪ payloadUrls entries) := by
  ext url
  have hrow : mergedRow engines entries now url = none ↔
      url ∉ listUrls engines ∪ payloadUrls entries := by
    rw [Set.mem_union, not_or, ← find_seed_eq_none_iff, ← mention_eq_none, mergedRow]
    rcases mention url entries with - | s
    · exact (and_iff_left rfl).symm
    · exact iff_of_false (Option.some_ne_none _) fun h ↦ Option.some_ne_none _ h.2
  rw [Set.mem_union, ← not_iff_not, not_or, ← hrow, DiscoveredEngines.not_mem_urls,
    DiscoveredEngines.not_mem_urls, get_mergeInto]
  rcases mergedRow engines entries now url with - | r
  · exact (and_iff_left rfl).symm
  · exact iff_of_false (Option.some_ne_none _) fun h ↦ Option.some_ne_none _ h.2

end Gossip

end CommunitySearch
