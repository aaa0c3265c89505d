import CommunitySearch.Federation.Gossip
import Mathlib.Data.List.Sort
import Mathlib.Data.String.Basic

/-!
# The laws of merging

`mergeEngineLists` on any two lists, not only on the table and a payload. A merged list is the
sorted list of the rows of a map, so it is known by what the map holds under each URL
(`mergeEngineLists_congr`), and that is the result of one rule, applied to the local row and the
incoming entries of the URL one after the other (`mergeRows`).

Three facts about `mergeRows` carry the algebra: no bound is lost (`bounds_mergeRows`), lists that
agree URL by URL merge alike, and a second round of the same entries changes nothing
(`mergeRows_mergeRows`), although an entry that ties with another replaces its name and is replaced
again within each round.
-/

namespace CommunitySearch

namespace Gossip

variable {engines incoming : List DiscoveredEngine} {now : Int} {url : String}
  {e r : DiscoveredEngine} {o : Option DiscoveredEngine}

/-! ### The order of a merged list -/

/-- Newest first, then by URL. -/
def Precedes (a b : DiscoveredEngine) : Prop :=
  b.lastSeen < a.lastSeen ∨ b.lastSeen = a.lastSeen ∧ a.url ≤ b.url

instance : DecidableRel Precedes := fun a b ↦
  inferInstanceAs (Decidable (b.lastSeen < a.lastSeen ∨ b.lastSeen = a.lastSeen ∧ a.url ≤ b.url))

instance : Std.Total Precedes where
  total a b := by
    rcases lt_trichotomy a.lastSeen b.lastSeen with h | h | h
    · exact Or.inr (Or.inl h)
    · exact (le_total a.url b.url).imp (fun hu ↦ Or.inr ⟨h.symm, hu⟩) fun hu ↦ Or.inr ⟨h, hu⟩
    · exact Or.inl (Or.inl h)

instance : IsTrans DiscoveredEngine Precedes where
  trans a b c := by
    rintro (hab | ⟨hab, hu⟩) (hbc | ⟨hbc, hv⟩)
    · exact Or.inl (hbc.trans hab)
    · exact Or.inl (hbc.trans_lt hab)
    · exact Or.inl (hbc.trans_eq hab)
    · exact Or.inr ⟨hbc.trans hab, hu.trans hv⟩

theorem Precedes.antisymm {a b : DiscoveredEngine} (hab : Precedes a b) (hba : Precedes b a) :
    a.url = b.url := by
  rcases hab with hab | ⟨hab, hu⟩
  · rcases hba with hba | ⟨hba, -⟩
    · exact absurd hab hba.asymm
    · exact absurd hba hab.ne'
  · rcases hba with hba | ⟨-, hv⟩
    · exact absurd hab hba.ne'
    · exact le_antisymm hu hv

theorem pairwise_mergeEngineLists (engines incoming : List DiscoveredEngine) (now : Int) :
    (mergeEngineLists engines incoming now).Pairwise Precedes :=
  List.pairwise_insertionSort Precedes _

theorem perm_mergeEngineLists (engines incoming : List DiscoveredEngine) (now : Int) :
    (mergeEngineLists engines incoming now).Perm (mergeMap engines incoming now).rows :=
  List.perm_insertionSort _ _

/-- **A merged list holds what the map holds.** -/
theorem mem_mergeEngineLists :
    e ∈ mergeEngineLists engines incoming now ↔
      KeyTable.find (mergeMap engines incoming now) e.url = some e := by
  rw [(perm_mergeEngineLists engines incoming now).mem_iff, KeyTable.find_eq_some_iff,
    and_iff_left rfl]

/-- **The URLs of a merged list are distinct.** -/
theorem pairwise_url_mergeEngineLists (engines incoming : List DiscoveredEngine) (now : Int) :
    (mergeEngineLists engines incoming now).Pairwise fun a b ↦ a.url ≠ b.url :=
  ((perm_mergeEngineLists engines incoming now).pairwise_iff fun h ↦ Ne.symm h).2
    (mergeMap engines incoming now).unique

theorem nodup_rows (t : DiscoveredEngines) : t.rows.Nodup :=
  t.unique.imp fun h he ↦ h (congrArg DiscoveredEngine.url he)

/-- **A merged list is known by its map.** -/
theorem mergeEngineLists_congr {engines' incoming' : List DiscoveredEngine}
    (h : ∀ url, KeyTable.find (mergeMap engines' incoming' now) url =
      KeyTable.find (mergeMap engines incoming now) url) :
    mergeEngineLists engines' incoming' now = mergeEngineLists engines incoming now := by
  have hmem : ∀ a, a ∈ mergeEngineLists engines' incoming' now ↔
      a ∈ mergeEngineLists engines incoming now := fun a ↦ by
    rw [mem_mergeEngineLists, mem_mergeEngineLists, h]
  have hnodup : ∀ l l' : List DiscoveredEngine, (mergeEngineLists l l' now).Nodup := fun l l' ↦
    (perm_mergeEngineLists l l' now).nodup_iff.2 (nodup_rows _)
  refine List.Perm.eq_of_pairwise (fun a b ha hb hab hba ↦ ?_)
    (pairwise_mergeEngineLists engines' incoming' now)
    (pairwise_mergeEngineLists engines incoming now)
    ((List.perm_ext_iff_of_nodup (hnodup _ _) (hnodup _ _)).2 hmem)
  -- two entries in the same place have one URL
  have ha' := mem_mergeEngineLists.1 ((hmem a).1 ha)
  have hb' := mem_mergeEngineLists.1 hb
  rw [hab.antisymm hba, hb'] at ha'
  exact (Option.some.inj ha').symm

/-! ### One URL -/

/-- The entries of a URL, merged one after the other. -/
def mergeRows (now : Int) (o : Option DiscoveredEngine) (l : List DiscoveredEngine) :
    Option DiscoveredEngine :=
  l.foldl (fun o r ↦ some (mergeRow now o r)) o

@[simp] theorem mergeRows_nil : mergeRows now o [] = o := rfl

theorem mergeRows_append_singleton (l : List DiscoveredEngine) :
    mergeRows now o (l ++ [r]) = some (mergeRow now (mergeRows now o l) r) :=
  List.foldl_append

theorem find_mergeMap_eq (engines incoming : List DiscoveredEngine) (now : Int) (url : String) :
    KeyTable.find (mergeMap engines incoming now) url =
      mergeRows now (KeyTable.find (seed engines) url) (incoming.filter fun i ↦ i.url = url) :=
  KeyTable.find_foldl_upsertWith (keepsKey_mergeRow now) _ _ _

theorem mergeRow_none (r : DiscoveredEngine) :
    mergeRow now none r = { r with lastSeen := max r.lastSeen now } := rfl

/-- The rule, field by field. -/
theorem mergeRow_some (e r : DiscoveredEngine) :
    mergeRow now (some e) r =
      { url := e.url
        name := if e.lastSeen ≤ r.lastSeen then r.name else e.name
        description := if e.lastSeen ≤ r.lastSeen then r.description else e.description
        firstSeen := min e.firstSeen r.firstSeen
        lastSeen := max (max e.lastSeen r.lastSeen) now } := by
  rw [mergeRow]
  by_cases h : e.lastSeen ≤ r.lastSeen
  · simp [h]
  · simp [h, (Int.not_le.1 h).le]

/-- Entries within the bounds of a row change at most its name and description. -/
theorem mergeRow_of_le {b : DiscoveredEngine} (hfirst : b.firstSeen ≤ r.firstSeen)
    (hlast : r.lastSeen ≤ b.lastSeen) (hnow : now ≤ b.lastSeen) :
    mergeRow now (some b) r =
      { b with
        name := if b.lastSeen ≤ r.lastSeen then r.name else b.name
        description := if b.lastSeen ≤ r.lastSeen then r.description else b.description } := by
  rw [mergeRow_some, min_eq_left hfirst, max_eq_left hlast, max_eq_left hnow]

theorem mergeRows_eq_none {l : List DiscoveredEngine} (h : mergeRows now o l = none) :
    o = none ∧ l = [] := by
  rcases List.eq_nil_or_concat l with rfl | ⟨l', b, rfl⟩
  · exact ⟨h, rfl⟩
  · rw [List.concat_eq_append, mergeRows_append_singleton] at h
    cases h

/-- **No bound is lost**: neither of the row there was nor of any entry. -/
theorem bounds_mergeRows {l : List DiscoveredEngine} (h : mergeRows now o l = some e) :
    (∀ a ∈ o, e.firstSeen ≤ a.firstSeen ∧ a.lastSeen ≤ e.lastSeen) ∧
      ∀ a ∈ l, e.firstSeen ≤ a.firstSeen ∧ a.lastSeen ≤ e.lastSeen ∧ now ≤ e.lastSeen := by
  induction l using List.reverseRecOn generalizing e with
  | nil =>
    rw [mergeRows_nil] at h
    subst h
    refine ⟨fun a ha ↦ ?_, fun a ha ↦ absurd ha List.not_mem_nil⟩
    rw [Option.mem_some.1 ha]
    exact ⟨le_rfl, le_rfl⟩
  | append_singleton l r ih =>
    rw [mergeRows_append_singleton] at h
    obtain rfl := Option.some.inj h
    cases hprev : mergeRows now o l with
    | none =>
      -- the first entry of a new URL
      obtain ⟨rfl, rfl⟩ := mergeRows_eq_none hprev
      rw [mergeRow_none]
      refine ⟨fun a ha ↦ absurd ha (Option.not_mem_none a), fun a ha ↦ ?_⟩
      rw [List.mem_singleton.1 ha]
      exact ⟨le_rfl, le_max_left _ _, le_max_right _ _⟩
    | some b =>
      obtain ⟨hrow, hentries⟩ := ih hprev
      rw [mergeRow_some]
      dsimp only
      refine ⟨fun a ha ↦ ?_, fun a ha ↦ ?_⟩
      · obtain ⟨hfirst, hlast⟩ := hrow a ha
        omega
      · rcases List.mem_append.1 ha with ha | ha
        · obtain ⟨hfirst, hlast, -⟩ := hentries a ha
          omega
        · rw [List.mem_singleton.1 ha]
          omega

/-- Another round of the same entries, from a row with wider bounds, leaves the name of the row or
gives it the one of the first round. -/
theorem mergeRows_of_le {l : List DiscoveredEngine} {b : DiscoveredEngine}
    (h : mergeRows now o l = some e) (hfirst : b.firstSeen ≤ e.firstSeen)
    (hlast : e.lastSeen ≤ b.lastSeen) (hnow : now ≤ b.lastSeen) :
    mergeRows now (some b) l = some b ∨ e.lastSeen = b.lastSeen ∧
      mergeRows now (some b) l = some { b with name := e.name, description := e.description } := by
  induction l using List.reverseRecOn generalizing e with
  | nil => exact Or.inl rfl
  | append_singleton l r ih =>
    have hr := (bounds_mergeRows h).2 r (List.mem_append_right _ (List.mem_singleton_self r))
    rw [mergeRows_append_singleton] at h
    -- what the last entry does to any row with the bounds of `b`
    have hround : ∀ f : DiscoveredEngine, f.firstSeen = b.firstSeen → f.lastSeen = b.lastSeen →
        mergeRow now (some f) r =
          { f with
            name := if b.lastSeen ≤ r.lastSeen then r.name else f.name
            description := if b.lastSeen ≤ r.lastSeen then r.description else f.description } := by
      intro f hf hl
      rw [mergeRow_of_le (by omega) (by omega) (by omega), hl]
    rw [mergeRows_append_singleton]
    cases hprev : mergeRows now o l with
    | none =>
      obtain ⟨rfl, rfl⟩ := mergeRows_eq_none hprev
      rw [hprev, mergeRow_none] at h
      obtain rfl := Option.some.inj h
      rw [mergeRows_nil, hround b rfl rfl]
      by_cases hwin : b.lastSeen ≤ r.lastSeen
      · rw [if_pos hwin, if_pos hwin]
        exact Or.inr ⟨le_antisymm hlast (hwin.trans hr.2.1), rfl⟩
      · rw [if_neg hwin, if_neg hwin]
        exact Or.inl rfl
    | some a =>
      rw [hprev, mergeRow_some] at h
      obtain rfl := Option.some.inj h
      dsimp only at hfirst hlast hr ⊢
      have hprior := ih hprev (hfirst.trans (min_le_left _ _))
        (((le_max_left _ _).trans (le_max_left _ _)).trans hlast)
      by_cases hwin : b.lastSeen ≤ r.lastSeen
      · -- the entry ties with the row, in this round as in the first
        have htie : a.lastSeen ≤ r.lastSeen := by omega
        have hsame : max (max a.lastSeen r.lastSeen) now = b.lastSeen := by omega
        rw [if_pos htie, if_pos htie]
        refine Or.inr ⟨hsame, ?_⟩
        rcases hprior with hprior | ⟨-, hprior⟩
        · rw [hprior, hround b rfl rfl, if_pos hwin, if_pos hwin]
        · rw [hprior, hround { b with name := a.name, description := a.description } rfl rfl,
            if_pos hwin, if_pos hwin]
      · rcases hprior with hprior | ⟨hlevel, hprior⟩
        · rw [hprior, hround b rfl rfl, if_neg hwin, if_neg hwin]
          exact Or.inl rfl
        · -- the name is the one of the first round, and stays
          have hkept : ¬ a.lastSeen ≤ r.lastSeen := by omega
          have hsame : max (max a.lastSeen r.lastSeen) now = b.lastSeen := by omega
          rw [hprior, hround { b with name := a.name, description := a.description } rfl rfl,
            if_neg hwin, if_neg hwin, if_neg hkept, if_neg hkept]
          exact Or.inr ⟨hsame, rfl⟩

/-- **A second round changes nothing.** -/
theorem mergeRows_mergeRows (o : Option DiscoveredEngine) (l : List DiscoveredEngine) :
    mergeRows now (mergeRows now o l) l = mergeRows now o l := by
  cases h : mergeRows now o l with
  | none =>
    obtain ⟨-, rfl⟩ := mergeRows_eq_none h
    rfl
  | some e =>
    cases l with
    | nil => rfl
    | cons r l =>
      have hnow : now ≤ e.lastSeen := ((bounds_mergeRows h).2 r List.mem_cons_self).2.2
      rcases mergeRows_of_le h le_rfl le_rfl hnow with hround | ⟨-, hround⟩
      · exact hround
      · exact hround

/-! ### What merging guarantees -/

/-- The rows of the map made of a merged list are those of the list. -/
theorem find_seed_mergeEngineLists (engines incoming : List DiscoveredEngine) (now : Int)
    (url : String) : KeyTable.find (seed (mergeEngineLists engines incoming now)) url =
      KeyTable.find (mergeMap engines incoming now) url := by
  have h : seed (mergeEngineLists engines incoming now) =
      (mergeEngineLists engines incoming now).foldl (KeyTable.upsertWith fun _ e ↦ e)
        (Table.empty : DiscoveredEngines) := rfl
  rw [h, KeyTable.find_foldl_upsertWith_perm (fun _ _ _ ↦ rfl)
    (perm_mergeEngineLists engines incoming now), KeyTable.find_empty]
  cases KeyTable.find (mergeMap engines incoming now) url with
  | none => rfl
  | some e => rfl

/-- The lists agree URL by URL: they differ in the order of distinct URLs only. -/
def SameByUrl (l l' : List DiscoveredEngine) : Prop :=
  ∀ url, (l.filter fun e ↦ e.url = url) = l'.filter fun e ↦ e.url = url

/-- The entry of a list that counts for its URL: the last one. -/
def Counts (l : List DiscoveredEngine) (e : DiscoveredEngine) : Prop :=
  (l.filter fun a ↦ a.url = e.url).getLast? = some e

theorem counts_iff : Counts engines e ↔ KeyTable.find (seed engines) e.url = some e := by
  rw [find_seed, Counts]

theorem exists_counts (he : e ∈ engines) : ∃ a, Counts engines a ∧ a.url = e.url := by
  have hmem : e ∈ engines.filter fun a ↦ a.url = e.url :=
    List.mem_filter.2 ⟨he, decide_eq_true rfl⟩
  have hlast := List.getLast?_eq_some_getLast (List.ne_nil_of_mem hmem)
  set a := (engines.filter fun a ↦ a.url = e.url).getLast (List.ne_nil_of_mem hmem)
  have hurl : a.url = e.url := of_decide_eq_true (List.mem_filter.1 (List.mem_of_getLast? hlast)).2
  exact ⟨a, by rw [Counts, hurl]; exact hlast, hurl⟩

theorem find_seed_congr {engines' : List DiscoveredEngine} (h : SameByUrl engines' engines)
    (url : String) : KeyTable.find (seed engines') url = KeyTable.find (seed engines) url := by
  rw [find_seed, find_seed, h url]

/-- **Every entry that goes in comes out**, within its bounds. -/
theorem exists_mem_mergeEngineLists (engines incoming : List DiscoveredEngine) (now : Int)
    (he : Counts engines e ∨ e ∈ incoming) : ∃ m ∈ mergeEngineLists engines incoming now,
      m.url = e.url ∧ m.firstSeen ≤ e.firstSeen ∧ e.lastSeen ≤ m.lastSeen := by
  have hin : e ∈ incoming → e ∈ incoming.filter fun i ↦ i.url = e.url := fun h ↦
    List.mem_filter.2 ⟨h, decide_eq_true rfl⟩
  have hfind := find_mergeMap_eq engines incoming now e.url
  cases hm : mergeRows now (KeyTable.find (seed engines) e.url)
      (incoming.filter fun i ↦ i.url = e.url) with
  | none =>
    obtain ⟨hnone, hnil⟩ := mergeRows_eq_none hm
    rcases he with he | he
    · rw [counts_iff.1 he] at hnone
      cases hnone
    · exact absurd (hnil ▸ hin he) List.not_mem_nil
  | some m =>
    rw [hm] at hfind
    have hurl : m.url = e.url := (KeyTable.find_eq_some_iff.1 hfind).2
    obtain ⟨hrow, hentries⟩ := bounds_mergeRows hm
    refine ⟨m, mem_mergeEngineLists.2 (hurl ▸ hfind), hurl, ?_⟩
    rcases he with he | he
    · exact hrow e (counts_iff.1 he)
    · exact ⟨(hentries e (hin he)).1, (hentries e (hin he)).2.1⟩

/-- **The algebra of merging.** For all lists, with duplicates and any timestamps, and every `now`:
the URLs of the result are distinct, and it is sorted, newest first and then by URL; lists that
differ only in the order of distinct URLs give the same result; `first_seen` never increases and
`last_seen` never decreases, from the local entry that counts for a URL, the last one, or from any
incoming entry; no URL is lost; and merging the same incoming list again at the same time changes
nothing. -/
theorem mergeEngineLists_algebra (engines incoming : List DiscoveredEngine) (now : Int) :
    let result := mergeEngineLists engines incoming now
    ((result.Pairwise fun a b ↦ a.url ≠ b.url) ∧ result.Pairwise Precedes) ∧
      (∀ engines' incoming', SameByUrl engines' engines → SameByUrl incoming' incoming →
        mergeEngineLists engines' incoming' now = result) ∧
      (∀ e, Counts engines e ∨ e ∈ incoming → ∃ m ∈ result,
        m.url = e.url ∧ m.firstSeen ≤ e.firstSeen ∧ e.lastSeen ≤ m.lastSeen) ∧
      (∀ e ∈ engines, ∃ m ∈ result, m.url = e.url) ∧
      mergeEngineLists result incoming now = result := by
  refine ⟨⟨pairwise_url_mergeEngineLists _ _ _, pairwise_mergeEngineLists _ _ _⟩,
    fun engines' incoming' he hi ↦ ?_, fun e he ↦ exists_mem_mergeEngineLists _ _ _ he,
    fun e he ↦ ?_, ?_⟩
  · refine mergeEngineLists_congr fun url ↦ ?_
    rw [find_mergeMap_eq, find_mergeMap_eq, find_seed_congr he, hi url]
  · obtain ⟨a, ha, hurl⟩ := exists_counts he
    obtain ⟨m, hm, hmurl, -⟩ :=
      exists_mem_mergeEngineLists engines incoming now (Or.inl ha)
    exact ⟨m, hm, hmurl.trans hurl⟩
  · refine mergeEngineLists_congr fun url ↦ ?_
    rw [find_mergeMap_eq, find_seed_mergeEngineLists, find_mergeMap_eq, mergeRows_mergeRows]

/-- Of two local entries for one URL the last one counts, also where it is the younger or was seen
earlier: the bounds of the other one are lost. -/
theorem exists_bounds_lost :
    let engines : List DiscoveredEngine :=
      [⟨"https://a", "", "", 1, 100⟩, ⟨"https://a", "", "", 5, 7⟩]
    ∃ e ∈ engines, ∃ m ∈ mergeEngineLists engines [] 0,
      m.url = e.url ∧ e.firstSeen < m.firstSeen ∧ m.lastSeen < e.lastSeen := by
  decide

/-! ### Lists without duplicates -/

/-- The merge of two lists by cases. `incomingWins` says of the local and the incoming `last_seen`
whose name and description are taken. -/
structure MergeLaw (incomingWins : Int → Int → Bool) (engines incoming : List DiscoveredEngine)
    (now : Int) (result : List DiscoveredEngine) : Prop where
  /-- One entry for each URL of the union. -/
  unique : result.Pairwise fun a b ↦ a.url ≠ b.url
  urls : listUrls result = listUrls engines ∪ listUrls incoming
  both : ∀ e ∈ engines, ∀ i ∈ incoming, e.url = i.url →
    { url := e.url
      name := if incomingWins e.lastSeen i.lastSeen then i.name else e.name
      description := if incomingWins e.lastSeen i.lastSeen then i.description else e.description
      firstSeen := min e.firstSeen i.firstSeen
      lastSeen := max (max e.lastSeen i.lastSeen) now } ∈ result
  onlyLocal : ∀ e ∈ engines, e.url ∉ listUrls incoming → e ∈ result
  onlyIncoming : ∀ i ∈ incoming, i.url ∉ listUrls engines →
    { i with lastSeen := max i.lastSeen now } ∈ result

/-- The entries of a URL in a list without duplicates. -/
theorem filter_url_of_mem (h : incoming.Pairwise fun a b ↦ a.url ≠ b.url) (he : e ∈ incoming) :
    (incoming.filter fun i ↦ i.url = e.url) = [e] :=
  KeyTable.filter_rows_of_find (t := (⟨incoming, h⟩ : DiscoveredEngines))
    (KeyTable.find_eq_some_iff.2 ⟨he, rfl⟩)

/-- In a list without duplicates every entry counts. -/
theorem counts_of_pairwise (h : engines.Pairwise fun a b ↦ a.url ≠ b.url) (he : e ∈ engines) :
    Counts engines e := by
  rw [Counts, filter_url_of_mem h he]
  rfl

theorem filter_url_of_not_mem (h : url ∉ listUrls incoming) :
    (incoming.filter fun i ↦ i.url = url) = [] :=
  List.filter_eq_nil_iff.2 fun i hi hu ↦ h ⟨i, hi, of_decide_eq_true hu⟩

/-- **The law of merging.** For lists without duplicate URLs and every `now` the result has exactly
one entry for each URL of the union. For a URL on both sides `first_seen` is the smaller one and
`last_seen` the latest of both and `now`, and name and description are those of the side with the
later `last_seen`, of the incoming one in a tie; what is only in the local list is unchanged, and
what is only in the incoming list is seen at `now` at the earliest. -/
theorem mergeLaw_mergeEngineLists (he : engines.Pairwise fun a b ↦ a.url ≠ b.url)
    (hi : incoming.Pairwise fun a b ↦ a.url ≠ b.url) (now : Int) :
    MergeLaw (fun here there ↦ here ≤ there) engines incoming now
      (mergeEngineLists engines incoming now) := by
  have hseed : ∀ {e}, e ∈ engines → KeyTable.find (seed engines) e.url = some e := fun hmem ↦
    counts_iff.1 (counts_of_pairwise he hmem)
  refine ⟨pairwise_url_mergeEngineLists _ _ _, ?_, fun e hmem i hmem' hurl ↦ ?_,
    fun e hmem hurl ↦ ?_, fun i hmem hurl ↦ ?_⟩
  · ext url
    have hfind := find_mergeMap_eq engines incoming now url
    constructor
    · rintro ⟨m, hm, rfl⟩
      by_contra hnot
      obtain ⟨hlocal, hincoming⟩ := not_or.1 hnot
      rw [filter_url_of_not_mem hincoming, find_seed_eq_none_iff.2 hlocal, mergeRows_nil,
        mem_mergeEngineLists.1 hm] at hfind
      cases hfind
    · rintro (⟨e, hmem, rfl⟩ | ⟨i, hmem, rfl⟩)
      · obtain ⟨m, hm, hurl, -⟩ := exists_mem_mergeEngineLists engines incoming now
          (Or.inl (counts_of_pairwise he hmem))
        exact ⟨m, hm, hurl⟩
      · obtain ⟨m, hm, hurl, -⟩ := exists_mem_mergeEngineLists engines incoming now
          (Or.inr hmem)
        exact ⟨m, hm, hurl⟩
  · rw [mem_mergeEngineLists, find_mergeMap_eq, hseed hmem, hurl, filter_url_of_mem hi hmem']
    show some (mergeRow now (some e) i) = _
    rw [mergeRow_some]
    simp only [hurl, decide_eq_true_eq]
  · rw [mem_mergeEngineLists, find_mergeMap_eq, hseed hmem, filter_url_of_not_mem hurl]
    rfl
  · rw [mem_mergeEngineLists, find_mergeMap_eq]
    dsimp only
    rw [find_seed_eq_none_iff.2 hurl, filter_url_of_mem hi hmem]
    rfl

/-- Two engines known to both sides, one of which ties, and one known to each alone. -/
theorem mergeLaw_mergeEngineLists_four :
    let here : List DiscoveredEngine := [⟨"https://a", "A", "", 10, 50⟩,
      ⟨"https://b", "B", "", 10, 60⟩, ⟨"https://c", "C", "", 10, 10⟩]
    let there : List DiscoveredEngine := [⟨"https://a", "A2", "", 5, 50⟩,
      ⟨"https://b", "B2", "", 20, 20⟩, ⟨"https://d", "D", "", 30, 30⟩]
    MergeLaw (fun here there ↦ here ≤ there) here there 40 (mergeEngineLists here there 40) := by
  intro here there
  exact mergeLaw_mergeEngineLists (by decide) (by decide) 40

/-- **In a tie the local name does not stay.** -/
theorem not_mergeLaw_ties_local :
    ¬ MergeLaw (fun here there ↦ here < there) [⟨"https://a", "OLD", "", 10, 50⟩]
      [⟨"https://a", "NEW", "", 10, 50⟩] 100
      (mergeEngineLists [⟨"https://a", "OLD", "", 10, 50⟩] [⟨"https://a", "NEW", "", 10, 50⟩]
        100) := by
  intro h
  have hmem := h.both _ (List.mem_singleton_self _) _ (List.mem_singleton_self _) rfl
  revert hmem
  decide

end Gossip

end CommunitySearch
