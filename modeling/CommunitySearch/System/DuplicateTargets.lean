import CommunitySearch.System.Targets

/-!
# Duplicate targets

Prefixes come into the table of targets by three ways. A detected prefix is in normal form; what an
admin types where nothing is detected, what a promotion makes of a host, and what an envelope lists
are stored as they are. The table keeps spellings apart, not what they normalise to.

`noDuplicates_of_guarded` says that two targets of a collection never normalise alike as long as
every prefix that is stored as given is in normal form.
-/

namespace CommunitySearch

/-- The prefix of every target is that of a target there was, or in the list. -/
def Database.PrefixesFrom (db db' : Database) (ps : List String) : Prop :=
  ∀ t' ∈ db'.crawlTargets,
    (∃ t ∈ db.crawlTargets, t.urlPrefix = t'.urlPrefix) ∨ t'.urlPrefix ∈ ps

/-- The prefixes a step stores as they are given: all but one that is detected. -/
def Sys.givenPrefixes (X : Crates) (s : Sys) : TargetLabel → List String
  | .add _ urlPrefix _ response _ =>
    if (detectCanonicalPrefix X urlPrefix response).isSome then [] else [urlPrefix]
  | l => s.storedPrefixes X l

/-- The spelling that normalisation leaves alone, or one that it refuses. -/
def InNormalForm (X : Crates) (pre : String) : Prop :=
  ∀ n ∈ normalizeUrl X pre, n = pre

instance (X : Crates) (pre : String) : Decidable (InNormalForm X pre) :=
  inferInstanceAs (Decidable (∀ n ∈ normalizeUrl X pre, n = pre))

/-- **No duplicate targets**: no two targets of a collection have prefixes that normalise alike. -/
def NoDuplicates (X : Crates) (db : Database) : Prop :=
  ∀ a ∈ db.crawlTargets, ∀ b ∈ db.crawlTargets, a.collectionId = b.collectionId →
    ∀ n, normalizeUrl X a.urlPrefix = some n → normalizeUrl X b.urlPrefix = some n → a = b

/-- What the step stores as given is in normal form. -/
def Sys.GivesNormal (X : Crates) (s : Sys) (l : TargetLabel) : Prop :=
  ∀ pre ∈ s.givenPrefixes X l, InNormalForm X pre

instance (X : Crates) (s : Sys) (l : TargetLabel) : Decidable (s.GivesNormal X l) :=
  inferInstanceAs (Decidable (∀ pre ∈ s.givenPrefixes X l, InNormalForm X pre))

variable {X : Crates} {s s' : Sys}

/-- Targets in normal form are told apart by the table. -/
theorem noDuplicates_of_normal {db : Database}
    (h : ∀ t ∈ db.crawlTargets, InNormalForm X t.urlPrefix) : NoDuplicates X db := by
  intro a ha b hb hcollection n hna hnb
  have hspelling : a.urlPrefix = b.urlPrefix := (h a ha n hna).symm.trans (h b hb n hnb)
  exact Database.eq_of_mem_crawlTargets ha hb (Or.inr (Or.inr ⟨hcollection, hspelling⟩))

/-- **A step brings in the prefixes it stores** and no others. -/
theorem prefixesFrom_of_step {l : TargetLabel} (h : (targetMachine X).step s l = some s') :
    s.engine.db.PrefixesFrom s'.engine.db (s.storedPrefixes X l) := by
  have hchange := targetChange_of_step h
  generalize s'.engine.db = db at hchange ⊢
  intro t' ht'
  cases hchange with
  | kept hkept =>
    obtain ⟨t, ht, hsame⟩ := hkept t' ht'
    exact Or.inl ⟨t, ht, by rw [hsame]⟩
  | added hpre hadd htargets =>
    obtain ⟨c, -, targets, hins, rfl⟩ := Database.addTarget_eq hadd
    rw [htargets] at ht'
    rcases (Table.mem_of_insert hins).1 ht' with hold | rfl
    · exact Or.inl ⟨t', hold, rfl⟩
    · exact Or.inr hpre
  | reset =>
    obtain ⟨t, ht, rfl⟩ := List.mem_map.1 ht'
    exact Or.inl ⟨t, ht, by split <;> rfl⟩
  | imported hl hr =>
    obtain rfl := hl
    have hinserts := inserts_of_committedImport (committedImport_of_acceptImport hr)
    obtain ⟨t, ht, hsame⟩ | ⟨e, he, hsame⟩ := hinserts.mem_columns.1 ⟨t', ht', rfl⟩
    · exact Or.inl ⟨t, ht, congrArg TargetColumns.urlPrefix hsame⟩
    · obtain ⟨c, hc, he⟩ := List.mem_flatMap.1 he
      have hpre : e.urlPrefix = t'.urlPrefix := congrArg TargetColumns.urlPrefix hsame
      exact Or.inr (List.mem_flatMap.2 ⟨c, hc, hpre ▸ List.mem_map_of_mem he⟩)

/-- A step that gives prefixes in normal form stores no others. -/
theorem Sys.GivesNormal.stored {valid : Url → Prop} (hX : X.UrlLaws valid) {l : TargetLabel}
    (h : s.GivesNormal X l) : ∀ pre ∈ s.storedPrefixes X l, InNormalForm X pre := by
  cases l with
  | add id pre secs response ts =>
    cases hd : detectCanonicalPrefix X pre response with
    | none =>
      rw [GivesNormal, givenPrefixes, hd] at h
      rwa [storedPrefixes, hd]
    | some c =>
      intro pre' hpre'
      rw [storedPrefixes, hd, List.mem_singleton] at hpre'
      obtain rfl := hpre'
      intro n hn
      exact Option.some.inj (hn.symm.trans (normalizeUrl_detected hX hd))
  | promote | dismiss | putRanking | other => exact h

/-- **No duplicate targets**: in every run whose every prefix that is stored as given — typed where
nothing is detected, promoted or imported — is in normal form, no two targets of a collection have
prefixes that normalise alike. -/
theorem noDuplicates_of_guarded {valid : Url → Prop} (hX : X.UrlLaws valid)
    {labels : List TargetLabel} {s : Sys}
    (hrun : (targetMachine X).run .init labels = some s)
    (hok : (targetMachine X).Guarded (Sys.GivesNormal X) .init labels) :
    NoDuplicates X s.engine.db := by
  refine noDuplicates_of_normal (Machine.guarded_invariant
    (I := fun s : Sys ↦ ∀ t ∈ s.engine.db.crawlTargets, InNormalForm X t.urlPrefix)
    (fun s l s' hI hl hs ↦ ?_) (fun t ht ↦ absurd ht (Table.not_mem_empty _)) hok hrun)
  intro t ht
  rcases prefixesFrom_of_step hs t ht with ⟨t₀, ht₀, hpre⟩ | hpre
  · exact hpre ▸ hI t₀ ht₀
  · exact hl.stored hX _ hpre

namespace Spellings

def home (host : String) : Url := ⟨"https", "", none, some host, none, "/", none, none⟩

/-- Two spellings of a URL, the first in normal form, and its `www.` twin. -/
def crates : Crates := .ofTables
  ⟨[("https://example.com/", home "example.com"), ("https://example.com", home "example.com"),
    ("https://www.example.com/", home "www.example.com")], [], [], [], []⟩

/-- A collection is created, and its site added under the spellings; all lead to the bare host. -/
def added (prefixes : List String) : List TargetLabel :=
  .other (.collections (.create "guide" "") "t0") ::
    prefixes.map fun pre ↦ .add 1 pre 3600 (some ⟨home "example.com", 200⟩) "t1"

/-- The site is stored once, under the host that is detected. -/
theorem noDuplicates_added : ∃ s,
    (targetMachine crates).run .init
      (added ["https://www.example.com/", "https://example.com/"]) = some s ∧
      s.engine.db.crawlTargets.rows.length = 1 ∧ NoDuplicates crates s.engine.db := by
  obtain ⟨s, hrun, hs⟩ : ∃ s, (targetMachine crates).run .init
      (added ["https://www.example.com/", "https://example.com/"]) = some s ∧
      decide (s.engine.db.crawlTargets.rows.length = 1) = true :=
    Machine.exists_run_of_any (by decide +kernel)
  have hlaws : crates.UrlLaws _ :=
    Crates.urlLaws_ofTables (by decide) fun _ hj ↦ absurd hj List.not_mem_nil
  exact ⟨s, hrun, of_decide_eq_true hs, noDuplicates_of_guarded hlaws hrun (by decide +kernel)⟩

/-- **The site is stored twice**, once without its slash. -/
theorem not_noDuplicates : ¬ ∀ labels s, (targetMachine crates).run .init labels = some s →
    NoDuplicates crates s.engine.db := by
  obtain ⟨s, hrun, hs⟩ : ∃ s, (targetMachine crates).run .init
      (added ["https://example.com", "https://example.com/"]) = some s ∧
      decide (∃ a ∈ s.engine.db.crawlTargets.rows, ∃ b ∈ s.engine.db.crawlTargets.rows,
        a.collectionId = b.collectionId ∧ a.urlPrefix = "https://example.com" ∧
          b.urlPrefix = "https://example.com/") = true :=
    Machine.exists_run_of_any (by decide +kernel)
  obtain ⟨a, ha, b, hb, hcollection, hpa, hpb⟩ := of_decide_eq_true hs
  intro h
  have hsame := h _ s hrun a ha b hb hcollection "https://example.com/" (by rw [hpa]; decide)
    (by rw [hpb]; decide)
  rw [hsame, hpb] at hpa
  revert hpa
  decide

end Spellings

end CommunitySearch
