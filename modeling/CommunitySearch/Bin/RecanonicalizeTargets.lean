import CommunitySearch.Foundation.Machine
import CommunitySearch.Foundation.Renaming
import CommunitySearch.System.DuplicateTargets

/-!
# The maintenance script for target prefixes

`recanonicalize_targets` is run while the server is stopped. It reads all targets, asks the server
at each prefix for its canonical form, and rewrites the row in place where the answer differs. An
update that the `UNIQUE` constraint refuses is counted and skipped; any other error ends the script.

A step of the machine is one row, with what the detection receives for it and whether SQLite fails.
`recanonicalize_conserves` is about every run, whatever the servers answer and wherever the script
stops: each row is judged by the answer that was given for it (`Database.Judged`).
`recanonicalize_settles` is about servers whose answers stay, and runs in which no statement fails:
it rests on the general facts about passes of `Renaming`, of which the script is one
(`pass_of_run`).
-/

namespace CommunitySearch

/-! ### The statements -/

/-- The target with another prefix. -/
def CrawlTargetRow.withPrefix (t : CrawlTargetRow) (urlPrefix : String) : CrawlTargetRow :=
  { t with urlPrefix := urlPrefix }

namespace Database

/-- `SELECT id, url_prefix FROM crawl_targets ORDER BY url_prefix`, sorted once more. -/
def targetsByPrefix (db : Database) : List (Uuid × String) :=
  (db.crawlTargets.rows.map fun t ↦ (t.id, t.urlPrefix)).insertionSort fun a b ↦ a.2 ≤ b.2

/-- `UPDATE crawl_targets SET url_prefix = ?1 WHERE id = ?2`; `none` is the `UNIQUE` error. -/
def setUrlPrefix (db : Database) (id : Uuid) (canonical : String) : Option Database :=
  (db.crawlTargets.update fun t ↦
    if t.id = id then t.withPrefix canonical else t).map fun targets ↦
      { db with crawlTargets := targets }

end Database

/-! ### The script -/

/-- The three counters of the report. -/
structure RewriteCounts where
  changed : Nat
  unchanged : Nat
  skippedConflict : Nat
deriving DecidableEq

def RewriteCounts.total (t : RewriteCounts) : Nat := t.changed + t.unchanged + t.skippedConflict

/-- The state of the script. -/
structure Recanonicalization where
  db : Database
  /-- The rows still to be looked at, as they were loaded. -/
  rows : List (Uuid × String)
  tally : RewriteCounts
  /-- The script has ended with an error. -/
  failed : Bool

/-- What happens while a row is looked at. -/
structure RowAnswer where
  /-- What the detection receives. -/
  response : Option FinalResponse
  /-- The update fails with an error that is not about a constraint. -/
  refused : Bool

namespace Recanonicalization

/-- The rows are loaded. -/
def start (db : Database) : Recanonicalization := ⟨db, db.targetsByPrefix, ⟨0, 0, 0⟩, false⟩

/-- One round of the loop. -/
def step (X : Crates) (s : Recanonicalization) (a : RowAnswer) : Option Recanonicalization :=
  match s.failed, s.rows with
  | false, (id, current) :: rest =>
    let unchanged := { s with
      rows := rest, tally := { s.tally with unchanged := s.tally.unchanged + 1 } }
    match detectCanonicalPrefix X current a.response with
    | some canonical =>
      if canonical = current then some unchanged
      else if a.refused then some { s with failed := true }
      else
        match s.db.setUrlPrefix id canonical with
        | some db => some { s with
            db := db, rows := rest, tally := { s.tally with changed := s.tally.changed + 1 } }
        | none => some { s with
            rows := rest
            tally := { s.tally with skippedConflict := s.tally.skippedConflict + 1 } }
    | none => some unchanged
  | _, _ => none

/-- A round with all that it checks: the inversion of `step`. -/
inductive Round (X : Crates) (s : Recanonicalization) (a : RowAnswer) (id : Uuid)
    (current : String) (rest : List (Uuid × String)) : Recanonicalization → Prop
  | unchanged (h : ∀ c, detectCanonicalPrefix X current a.response = some c → c = current) :
      Round X s a id current rest { s with
        rows := rest, tally := { s.tally with unchanged := s.tally.unchanged + 1 } }
  | refused {c : String} (h : detectCanonicalPrefix X current a.response = some c)
      (hne : c ≠ current) (hr : a.refused = true) :
      Round X s a id current rest { s with failed := true }
  | changed {c : String} {db : Database} (h : detectCanonicalPrefix X current a.response = some c)
      (hne : c ≠ current) (hset : s.db.setUrlPrefix id c = some db) :
      Round X s a id current rest { s with
        db := db, rows := rest, tally := { s.tally with changed := s.tally.changed + 1 } }
  | conflict {c : String} (h : detectCanonicalPrefix X current a.response = some c)
      (hne : c ≠ current) (hset : s.db.setUrlPrefix id c = none) :
      Round X s a id current rest { s with
        rows := rest, tally := { s.tally with skippedConflict := s.tally.skippedConflict + 1 } }

end Recanonicalization

/-- The script as a machine. -/
def recanonicalizer (X : Crates) : Machine Recanonicalization RowAnswer where
  step := Recanonicalization.step X

variable {X : Crates} {db db₁ db₂ : Database} {s s' : Recanonicalization}

/-- **What a round is.** -/
theorem Recanonicalization.round_of_step {a : RowAnswer}
    (h : (recanonicalizer X).step s a = some s') :
    ∃ id current rest, s.failed = false ∧ s.rows = (id, current) :: rest ∧
      Round X s a id current rest s' := by
  replace h : s.step X a = some s' := h
  unfold step at h
  split at h
  case h_1 id current rest hfailed hrows =>
    refine ⟨id, current, rest, hfailed, hrows, ?_⟩
    dsimp only at h
    split at h
    case h_1 c hc =>
      split at h
      case isTrue hsame =>
        obtain rfl := Option.some.inj h
        exact .unchanged fun d hd ↦ (Option.some.inj (hd.symm.trans hc)).trans hsame
      case isFalse hne =>
        split at h
        case isTrue hr =>
          obtain rfl := Option.some.inj h
          exact .refused hc hne hr
        case isFalse =>
          split at h
          case h_1 db hset =>
            obtain rfl := Option.some.inj h
            exact .changed hc hne hset
          case h_2 hset =>
            obtain rfl := Option.some.inj h
            exact .conflict hc hne hset
    case h_2 hnone =>
      obtain rfl := Option.some.inj h
      exact .unchanged fun d hd ↦ nomatch hnone.symm.trans hd
  case h_2 => cases h

/-- A row that is left is looked at, unless the script has failed. -/
theorem Recanonicalization.exists_step {r : Uuid × String} {rest : List (Uuid × String)}
    (hfailed : s.failed = false) (hrows : s.rows = r :: rest) (a : RowAnswer) :
    ∃ s', (recanonicalizer X).step s a = some s' := by
  show ∃ s', s.step X a = some s'
  unfold step
  rw [hfailed, hrows]
  dsimp only
  split
  · split
    · exact ⟨_, rfl⟩
    · split
      · exact ⟨_, rfl⟩
      · split <;> exact ⟨_, rfl⟩
  · exact ⟨_, rfl⟩

/-! ### Spellings -/

namespace Database

/-- `db'` is `db` with the prefixes spelled as given, and nothing else changed. -/
def Respelled (db : Database) (spelling : Uuid → String) (db' : Database) : Prop :=
  ∃ targets, db' = { db with crawlTargets := targets } ∧
    targets.rows = db.crawlTargets.rows.map fun t ↦ t.withPrefix (spelling t.id)

/-- How the prefix of a target is spelled. -/
def spelling (db : Database) (id : Uuid) : String :=
  ((db.crawlTargets.rows.find? fun t ↦ t.id = id).map CrawlTargetRow.urlPrefix).getD ""

/-- Two targets of one collection. -/
def Rivals (db : Database) (i j : Uuid) : Prop :=
  i ≠ j ∧ ∃ t ∈ db.crawlTargets, ∃ u ∈ db.crawlTargets,
    t.id = i ∧ u.id = j ∧ t.collectionId = u.collectionId

variable {f g : Uuid → String} {t : CrawlTargetRow} {id : Uuid} {c : String}

theorem spelling_id (ht : t ∈ db.crawlTargets) : db.spelling t.id = t.urlPrefix := by
  have hfound : (db.crawlTargets.rows.find? fun u ↦ u.id = t.id).isSome :=
    List.find?_isSome.2 ⟨t, ht, decide_eq_true rfl⟩
  obtain ⟨u, hu⟩ := Option.isSome_iff_exists.1 hfound
  have hid : u.id = t.id := by simpa using List.find?_some hu
  obtain rfl := eq_of_mem_crawlTargets (List.mem_of_find?_eq_some hu) ht (Or.inr (Or.inl hid))
  rw [spelling, hu]
  rfl

theorem respelled_refl (db : Database) : db.Respelled db.spelling db := by
  refine ⟨db.crawlTargets, rfl, ?_⟩
  rw [List.map_congr_left (g := id) fun t ht ↦ by rw [spelling_id ht]; rfl, List.map_id]

theorem Rivals.symm {i j : Uuid} (h : db.Rivals i j) : db.Rivals j i := by
  obtain ⟨hne, t, ht, u, hu, hti, huj, hcollection⟩ := h
  exact ⟨hne.symm, u, hu, t, ht, huj, hti, hcollection.symm⟩

/-- The spelling determines the database. -/
theorem Respelled.eq (h : db.Respelled f db₁) (h' : db.Respelled f db₂) : db₁ = db₂ := by
  obtain ⟨targets, rfl, hrows⟩ := h
  obtain ⟨targets', rfl, hrows'⟩ := h'
  rw [Table.ext (hrows.trans hrows'.symm)]

theorem Respelled.mem_iff (h : db.Respelled f db₁) : t ∈ db₁.crawlTargets ↔
    ∃ t₀ ∈ db.crawlTargets, t₀.withPrefix (f t₀.id) = t := by
  obtain ⟨targets, rfl, hrows⟩ := h
  rw [Table.mem_def, hrows, List.mem_map]
  rfl

theorem Respelled.spelling_eq (h : db.Respelled f db₁) (ht : t ∈ db.crawlTargets) :
    db₁.spelling t.id = f t.id :=
  spelling_id (h.mem_iff.2 ⟨t, ht, rfl⟩)

theorem Respelled.rivals (h : db.Respelled f db₁) {i j : Uuid} (hij : db.Rivals i j) :
    db₁.Rivals i j := by
  obtain ⟨hne, t, ht, u, hu, hti, huj, hcollection⟩ := hij
  exact ⟨hne, _, h.mem_iff.2 ⟨t, ht, rfl⟩, _, h.mem_iff.2 ⟨u, hu, rfl⟩, hti, huj, hcollection⟩

/-- **The constraint on spellings**: no two targets of one collection are spelled alike. -/
theorem pairwise_withPrefix_iff :
    (db.crawlTargets.rows.map fun t ↦ t.withPrefix (f t.id)).Pairwise (fun a b ↦ ¬ a.Clash b) ↔
      ∀ i j, db.Rivals i j → f i ≠ f j := by
  rw [List.pairwise_map]
  constructor
  · rintro h i j ⟨hne, t, ht, u, hu, rfl, rfl, hcollection⟩ hsame
    have : Std.Symm fun a b : CrawlTargetRow ↦
        ¬ (a.withPrefix (f a.id)).Clash (b.withPrefix (f b.id)) :=
      ⟨fun _ _ hab hba ↦ hab (hba.imp Eq.symm (Or.imp Eq.symm (And.imp Eq.symm Eq.symm)))⟩
    exact h.forall ht hu (fun htu ↦ hne (congrArg CrawlTargetRow.id htu))
      (Or.inr (Or.inr ⟨hcollection, hsame⟩))
  · intro h
    refine db.crawlTargets.unique.imp_of_mem fun {a b} ha hb hab hclash ↦ ?_
    rcases hclash with hrowid | hid | ⟨hcollection, hname⟩
    · exact hab (Or.inl hrowid)
    · exact hab (Or.inr (Or.inl hid))
    · have hids : a.id ≠ b.id := fun hids ↦ hab (Or.inr (Or.inl hids))
      exact h a.id b.id ⟨hids, a, ha, b, hb, rfl, rfl, hcollection⟩ hname

/-- What the update makes of the rows. -/
theorem Respelled.map_setUrlPrefix (h : db.Respelled f db₁) :
    db₁.crawlTargets.rows.map (fun t ↦ if t.id = id then t.withPrefix c else t) =
      db.crawlTargets.rows.map fun t ↦ t.withPrefix (Function.update f id c t.id) := by
  obtain ⟨targets, rfl, hrows⟩ := h
  rw [hrows, List.map_map]
  refine List.map_congr_left fun t _ ↦ ?_
  show (if t.id = id then (t.withPrefix (f t.id)).withPrefix c else t.withPrefix (f t.id)) = _
  by_cases hid : t.id = id
  · rw [if_pos hid, hid, Function.update_self]
    rfl
  · rw [if_neg hid, Function.update_of_ne hid]

/-- An update spells one prefix otherwise. -/
theorem Respelled.setUrlPrefix (h : db.Respelled f db₁) (hset : db₁.setUrlPrefix id c = some db₂) :
    db.Respelled (Function.update f id c) db₂ := by
  obtain ⟨targets', hupdate, rfl⟩ := Option.map_eq_some_iff.1 hset
  have hrows := (Table.rows_of_update hupdate).trans h.map_setUrlPrefix
  obtain ⟨targets, rfl, -⟩ := h
  exact ⟨targets', rfl, hrows⟩

/-- **The constraint refuses exactly a prefix that another target of the collection has.** -/
theorem Respelled.setUrlPrefix_eq_none_iff (h : db.Respelled f db₁) :
    db₁.setUrlPrefix id c = none ↔ Renaming.Taken db.Rivals f id c := by
  have hf : ∀ i j, db.Rivals i j → f i ≠ f j := by
    obtain ⟨targets, rfl, hrows⟩ := h
    exact pairwise_withPrefix_iff.1 (hrows ▸ targets.unique)
  have hnone : db₁.setUrlPrefix id c = none ↔
      ¬ ∀ i j, db.Rivals i j → Function.update f id c i ≠ Function.update f id c j := by
    rw [Database.setUrlPrefix, Option.map_eq_none_iff, Table.update_eq_none_iff,
      h.map_setUrlPrefix, pairwise_withPrefix_iff]
  rw [hnone]
  constructor
  · intro hno
    by_contra hfree
    refine hno fun i j hij hsame ↦ ?_
    by_cases hi : i = id
    · subst hi
      rw [Function.update_self, Function.update_of_ne (Ne.symm hij.1)] at hsame
      exact hfree ⟨j, hij, hsame.symm⟩
    · by_cases hj : j = id
      · subst hj
        rw [Function.update_self, Function.update_of_ne hi] at hsame
        exact hfree ⟨i, hij.symm, hsame⟩
      · rw [Function.update_of_ne hi, Function.update_of_ne hj] at hsame
        exact hf i j hij hsame
  · rintro ⟨j, hj, hname⟩ hall
    have hne := hall id j hj
    rw [Function.update_self, Function.update_of_ne (Ne.symm hj.1)] at hne
    exact hne hname.symm

/-- The rows that are loaded are the targets. -/
theorem mem_targetsByPrefix {r : Uuid × String} :
    r ∈ db.targetsByPrefix ↔ ∃ t ∈ db.crawlTargets, (t.id, t.urlPrefix) = r := by
  rw [targetsByPrefix, List.mem_insertionSort, List.mem_map]
  rfl

theorem length_targetsByPrefix : db.targetsByPrefix.length = db.crawlTargets.rows.length := by
  rw [targetsByPrefix, List.length_insertionSort, List.length_map]

/-- Every target is loaded once. -/
theorem nodup_targetsByPrefix : (db.targetsByPrefix.map Prod.fst).Nodup := by
  have hperm := (List.perm_insertionSort (fun a b : Uuid × String ↦ a.2 ≤ b.2)
    (db.crawlTargets.rows.map fun t ↦ (t.id, t.urlPrefix))).map Prod.fst
  refine hperm.nodup_iff.2 ?_
  rw [List.map_map]
  exact List.pairwise_map.2 (db.crawlTargets.unique.imp fun h hid ↦ h (Or.inr (Or.inl hid)))

/-- How many targets are spelled otherwise than before. -/
def respelledCount (db : Database) (f : Uuid → String) : Nat :=
  db.crawlTargets.rows.countP fun t ↦ f t.id ≠ t.urlPrefix

/-- **One more** is spelled otherwise, when a target that is spelled as before is rewritten. -/
theorem respelledCount_update (ht : t ∈ db.crawlTargets) (hf : f t.id = t.urlPrefix)
    (hc : c ≠ t.urlPrefix) :
    db.respelledCount (Function.update f t.id c) = db.respelledCount f + 1 := by
  obtain ⟨l₁, l₂, hrows⟩ := List.append_of_mem ht
  have hunique := db.crawlTargets.unique
  rw [hrows, List.pairwise_append, List.pairwise_cons] at hunique
  obtain ⟨-, ⟨hafter, -⟩, hbefore⟩ := hunique
  have hsame : ∀ u ∈ l₁ ++ l₂, Function.update f t.id c u.id = f u.id := by
    intro u hu
    refine Function.update_of_ne (fun hid ↦ ?_) _ _
    rcases List.mem_append.1 hu with hu | hu
    · exact hbefore u hu t List.mem_cons_self (Or.inr (Or.inl hid))
    · exact hafter u hu (Or.inr (Or.inl hid.symm))
  have hcount : (l₁ ++ l₂).countP (fun u ↦ Function.update f t.id c u.id ≠ u.urlPrefix) =
      (l₁ ++ l₂).countP fun u ↦ f u.id ≠ u.urlPrefix :=
    List.countP_congr fun u hu ↦ by rw [hsame u hu]
  have hsplit : ∀ g : Uuid → String, db.respelledCount g =
      (l₁ ++ l₂).countP (fun u ↦ g u.id ≠ u.urlPrefix) +
        if g t.id ≠ t.urlPrefix then 1 else 0 := by
    intro g
    rw [respelledCount, hrows, List.countP_append, List.countP_append, List.countP_cons]
    simp only [decide_eq_true_eq]
    omega
  rw [hsplit, hsplit, hcount, Function.update_self, if_pos hc, if_neg (not_not_intro hf)]

theorem respelledCount_self : db.respelledCount db.spelling = 0 :=
  List.countP_eq_zero.2 fun t ht ↦ by
    rw [decide_eq_true_eq, not_not, spelling_id ht]

end Database

/-! ### What becomes of a row -/

/-- The three ways in which the script is through with a row. -/
inductive RowVerdict where
  | unchanged
  | changed
  | conflict
deriving DecidableEq

namespace Database

/-- A rival of the target has the prefix when the row number `k` is looked at: by then the rows
before it are spelled as in the end, and the others as they were loaded. -/
def HeldAt (db : Database) (spelling : Uuid → String) (k : ℕ) (id : Uuid) (c : String) : Prop :=
  ∃ j r, db.targetsByPrefix[j]? = some r ∧ db.Rivals id r.1 ∧
    (if j < k then spelling r.1 else r.2) = c

/-- **What becomes of the row number `k`**, by the answer `a` that was given for its prefix: it is
left where the detection makes nothing else of the prefix, it is rewritten to what the detection
makes of it, and it is left where a rival has that. -/
inductive Judged (X : Crates) (db : Database) (spelling : Uuid → String) (k : ℕ)
    (r : Uuid × String) (a : RowAnswer) : RowVerdict → Prop
  | unchanged (h : ∀ c, detectCanonicalPrefix X r.2 a.response = some c → c = r.2)
      (hspelled : spelling r.1 = r.2) : Judged X db spelling k r a .unchanged
  | changed {c : String} (h : detectCanonicalPrefix X r.2 a.response = some c) (hne : c ≠ r.2)
      (hfree : ¬ db.HeldAt spelling k r.1 c) (hspelled : spelling r.1 = c) :
      Judged X db spelling k r a .changed
  | conflict {c : String} (h : detectCanonicalPrefix X r.2 a.response = some c) (hne : c ≠ r.2)
      (hheld : db.HeldAt spelling k r.1 c) (hspelled : spelling r.1 = r.2) :
      Judged X db spelling k r a .conflict

variable {f g : Uuid → String} {k : ℕ} {id : Uuid} {c : String} {r : Uuid × String} {a : RowAnswer}
  {v : RowVerdict}

/-- Only the rows before it matter. -/
theorem HeldAt.congr (h : db.HeldAt f k id c)
    (hfg : ∀ j < k, ∀ r, db.targetsByPrefix[j]? = some r → g r.1 = f r.1) :
    db.HeldAt g k id c := by
  obtain ⟨j, r, hr, hrival, hc⟩ := h
  refine ⟨j, r, hr, hrival, ?_⟩
  split
  case isTrue hj => rw [hfg j hj r hr, ← hc, if_pos hj]
  case isFalse hj => rw [← hc, if_neg hj]

/-- Only the row and those before it matter. -/
theorem Judged.congr (h : db.Judged X f k r a v) (hr : db.targetsByPrefix[k]? = some r)
    (hfg : ∀ j ≤ k, ∀ r, db.targetsByPrefix[j]? = some r → g r.1 = f r.1) :
    db.Judged X g k r a v := by
  have hbefore : ∀ j < k, ∀ r, db.targetsByPrefix[j]? = some r → g r.1 = f r.1 :=
    fun j hj ↦ hfg j hj.le
  have hrow : g r.1 = f r.1 := hfg k le_rfl r hr
  cases h with
  | unchanged h hspelled => exact .unchanged h (hrow.trans hspelled)
  | changed h hne hfree hspelled =>
    refine .changed h hne (fun hheld ↦ hfree ?_) (hrow.trans hspelled)
    exact hheld.congr fun j hj r hr ↦ (hbefore j hj r hr).symm
  | conflict h hne hheld hspelled =>
    exact .conflict h hne (hheld.congr hbefore) (hrow.trans hspelled)

/-- A row is loaded at one place. -/
theorem eq_of_targetsByPrefix {j : ℕ} {r' : Uuid × String} (hr : db.targetsByPrefix[k]? = some r)
    (hr' : db.targetsByPrefix[j]? = some r') (hid : r.1 = r'.1) : k = j := by
  have hfst : (db.targetsByPrefix.map Prod.fst)[k]? = (db.targetsByPrefix.map Prod.fst)[j]? := by
    rw [List.getElem?_map, List.getElem?_map, hr, hr', Option.map_some, Option.map_some, hid]
  have hk : k < (db.targetsByPrefix.map Prod.fst).length := by
    rw [List.length_map]
    exact (List.getElem?_eq_some_iff.1 hr).1
  exact (List.getElem?_inj hk nodup_targetsByPrefix).1 hfst

end Database

/-! ### Every run -/

/-- What holds of the script after the answers: `db` is the database it was started on. -/
structure Recanonicalization.Conserves (X : Crates) (answers : List RowAnswer) (db : Database)
    (spelling : Uuid → String) (verdicts : List RowVerdict) (s : Recanonicalization) : Prop where
  /-- Nothing but prefixes differs. -/
  respelled : db.Respelled spelling s.db
  /-- Every row the script is through with is judged by its own answer. -/
  judged : ∀ k r a v, db.targetsByPrefix[k]? = some r → answers[k]? = some a →
    verdicts[k]? = some v → db.Judged X spelling k r a v
  rows : s.rows = db.targetsByPrefix.drop verdicts.length
  /-- The rows that are left are spelled as they were loaded. -/
  pending : ∀ r ∈ s.rows, spelling r.1 = r.2
  tally : s.tally =
    ⟨verdicts.count .changed, verdicts.count .unchanged, verdicts.count .conflict⟩
  changed : s.tally.changed = db.respelledCount spelling
  counted : s.tally.total + s.rows.length = db.crawlTargets.rows.length
  /-- The row at which the script fails is not judged. -/
  answered : answers.length = verdicts.length + if s.failed then 1 else 0

namespace Recanonicalization

variable {answers : List RowAnswer} {verdicts : List RowVerdict} {f g : Uuid → String}
  {a : RowAnswer} {v : RowVerdict} {t : CrawlTargetRow} {id : Uuid} {c : String}

theorem conserves_start : (start db).Conserves X [] db db.spelling [] where
  respelled := Database.respelled_refl db
  judged _ _ _ _ _ ha := nomatch ha
  rows := rfl
  pending r hr := by
    obtain ⟨t, ht, rfl⟩ := Database.mem_targetsByPrefix.1 hr
    exact Database.spelling_id ht
  tally := rfl
  changed := Database.respelledCount_self.symm
  counted := (Nat.zero_add _).trans Database.length_targetsByPrefix
  answered := rfl

/-- A row that is left is spelled as it was loaded. -/
theorem Conserves.spelled (h : s.Conserves X answers db f verdicts) {j : ℕ} {r : Uuid × String}
    (hr : db.targetsByPrefix[j]? = some r) (hj : verdicts.length ≤ j) : f r.1 = r.2 := by
  refine h.pending r (List.mem_iff_getElem?.2 ⟨j - verdicts.length, ?_⟩)
  rw [h.rows, List.getElem?_drop, Nat.add_sub_cancel' hj, hr]

/-- The prefix a rival has is the one it has now. -/
theorem Conserves.heldAt_iff (h : s.Conserves X answers db f verdicts) :
    db.HeldAt f verdicts.length id c ↔ Renaming.Taken db.Rivals f id c := by
  constructor
  · rintro ⟨j, r, hr, hrival, rfl⟩
    refine ⟨r.1, hrival, ?_⟩
    split
    · rfl
    case isFalse hj => exact h.spelled hr (not_lt.1 hj)
  · rintro ⟨i, hrival, rfl⟩
    have hrow := hrival
    obtain ⟨-, -, -, u, hu, -, rfl, -⟩ := hrow
    obtain ⟨j, hj⟩ := List.mem_iff_getElem?.1 (Database.mem_targetsByPrefix.2 ⟨u, hu, rfl⟩)
    refine ⟨j, _, hj, hrival, ?_⟩
    split
    · rfl
    case isFalse hlt => exact (h.spelled hj (not_lt.1 hlt)).symm

/-- One more row is judged. -/
theorem Conserves.judged_append (h : s.Conserves X answers db f verdicts)
    (hlength : answers.length = verdicts.length)
    (hfg : ∀ j < verdicts.length, ∀ r, db.targetsByPrefix[j]? = some r → g r.1 = f r.1)
    (hnew : ∀ r, db.targetsByPrefix[verdicts.length]? = some r →
      db.Judged X g verdicts.length r a v) (k : ℕ) (r : Uuid × String) (a' : RowAnswer)
    (v' : RowVerdict) (hr : db.targetsByPrefix[k]? = some r)
    (ha' : (answers ++ [a])[k]? = some a') (hv' : (verdicts ++ [v])[k]? = some v') :
    db.Judged X g k r a' v' := by
  rcases Nat.lt_or_ge k verdicts.length with hk | hk
  · rw [List.getElem?_append_left (hlength ▸ hk)] at ha'
    rw [List.getElem?_append_left hk] at hv'
    exact (h.judged k r a' v' hr ha' hv').congr hr fun j hj ↦ hfg j (hj.trans_lt hk)
  · obtain ⟨hlt, -⟩ := List.getElem?_eq_some_iff.1 hv'
    rw [List.length_append, List.length_singleton] at hlt
    obtain rfl : k = verdicts.length := by omega
    rw [List.getElem?_concat_length] at hv'
    rw [← hlength, List.getElem?_concat_length] at ha'
    obtain rfl := Option.some.inj hv'
    obtain rfl := Option.some.inj ha'
    exact hnew r hr

/-- **A round conserves.** -/
theorem Conserves.step (h : s.Conserves X answers db f verdicts)
    (hs : (recanonicalizer X).step s a = some s') :
    ∃ g verdicts', s'.Conserves X (answers ++ [a]) db g verdicts' := by
  obtain ⟨id, current, rest, hfailed, hrows, hround⟩ := round_of_step hs
  have hlength : answers.length = verdicts.length := by
    rw [h.answered, hfailed]
    rfl
  have hdrop : db.targetsByPrefix.drop verdicts.length = (id, current) :: rest :=
    h.rows.symm.trans hrows
  have hrow : db.targetsByPrefix[verdicts.length]? = some (id, current) := by
    rw [← Nat.add_zero verdicts.length, ← List.getElem?_drop, hdrop]
    rfl
  have hrest : ∀ v : RowVerdict, rest = db.targetsByPrefix.drop (verdicts ++ [v]).length := by
    intro v
    rw [List.length_append, List.length_singleton, ← List.tail_drop, hdrop]
    rfl
  have hcurrent : f id = current := h.spelled hrow le_rfl
  have hpending : ∀ r ∈ rest, f r.1 = r.2 := fun r hr ↦
    h.pending r (hrows ▸ List.mem_cons_of_mem _ hr)
  have hother : ∀ j r, db.targetsByPrefix[j]? = some r → j ≠ verdicts.length → r.1 ≠ id :=
    fun j r hr hj hid ↦ hj (Database.eq_of_targetsByPrefix hr hrow hid)
  have hcounted := h.counted
  have htally := h.tally
  have hanswered : ∀ v : RowVerdict, (answers ++ [a]).length = (verdicts ++ [v]).length + 0 :=
    fun v ↦ by rw [List.length_append, List.length_append, hlength]; rfl
  rw [hrows, List.length_cons, RewriteCounts.total] at hcounted
  -- the rows that are through keep their spelling
  have hkept : ∀ v, (∀ r, db.targetsByPrefix[verdicts.length]? = some r →
      db.Judged X f verdicts.length r a v) → _ := fun v hnew ↦
    h.judged_append hlength (fun _ _ _ _ ↦ rfl) hnew
  cases hround with
  | unchanged hsame =>
    refine ⟨f, verdicts ++ [.unchanged], h.respelled, hkept .unchanged fun r hr ↦ ?_,
      hrest .unchanged, hpending, ?_, h.changed, ?_, ?_⟩
    · obtain rfl := Option.some.inj (hrow.symm.trans hr)
      exact .unchanged hsame hcurrent
    · rw [htally, List.count_append, List.count_append, List.count_append]
      rfl
    · rw [RewriteCounts.total]
      dsimp only
      omega
    · rw [hanswered .unchanged, hfailed]
      rfl
  | refused =>
    refine ⟨f, verdicts, h.respelled, fun k r a' v hr ha' hv ↦ ?_, h.rows, h.pending, htally,
      h.changed, h.counted, ?_⟩
    · have hk : k < answers.length := hlength ▸ (List.getElem?_eq_some_iff.1 hv).1
      exact h.judged k r a' v hr (List.getElem?_append_left hk ▸ ha') hv
    · rw [List.length_append, hlength]
      rfl
  | @conflict c hc hne hset =>
    refine ⟨f, verdicts ++ [.conflict], h.respelled, hkept .conflict fun r hr ↦ ?_,
      hrest .conflict, hpending, ?_, h.changed, ?_, ?_⟩
    · obtain rfl := Option.some.inj (hrow.symm.trans hr)
      exact .conflict hc hne (h.heldAt_iff.2 (h.respelled.setUrlPrefix_eq_none_iff.1 hset)) hcurrent
    · rw [htally, List.count_append, List.count_append, List.count_append]
      rfl
    · rw [RewriteCounts.total]
      dsimp only
      omega
    · rw [hanswered .conflict, hfailed]
      rfl
  | @changed c db₁ hc hne hset =>
    have hframe : ∀ j < verdicts.length, ∀ r, db.targetsByPrefix[j]? = some r →
        Function.update f id c r.1 = f r.1 := fun j hj r hr ↦
      Function.update_of_ne (hother j r hr hj.ne) _ _
    obtain ⟨t, ht, he⟩ := Database.mem_targetsByPrefix.1 (List.mem_of_getElem? hrow)
    obtain ⟨rfl, rfl⟩ := Prod.mk.inj he
    refine ⟨Function.update f t.id c, verdicts ++ [.changed], h.respelled.setUrlPrefix hset,
      h.judged_append hlength hframe fun r hr ↦ ?_, hrest .changed, fun r hr ↦ ?_, ?_, ?_, ?_, ?_⟩
    · obtain rfl := Option.some.inj (hrow.symm.trans hr)
      have hfree : ¬ db.HeldAt f verdicts.length t.id c := fun hheld ↦ by
        have hnone := h.respelled.setUrlPrefix_eq_none_iff.2 (h.heldAt_iff.1 hheld)
        cases hnone.symm.trans hset
      refine .changed hc hne (fun hheld ↦ hfree ?_) (Function.update_self ..)
      exact hheld.congr fun j hj r hr ↦ (hframe j hj r hr).symm
    · have hmem : r ∈ db.targetsByPrefix.drop (verdicts.length + 1) := by
        have hr' := hr
        rwa [hrest .changed, List.length_append] at hr'
      obtain ⟨j, hj⟩ := List.mem_iff_getElem?.1 hmem
      rw [List.getElem?_drop] at hj
      rw [Function.update_of_ne (hother _ r hj (by omega))]
      exact hpending r hr
    · rw [htally, List.count_append, List.count_append, List.count_append]
      rfl
    · rw [Database.respelledCount_update ht hcurrent hne, ← h.changed]
    · rw [RewriteCounts.total]
      dsimp only
      omega
    · rw [hanswered .changed, hfailed]
      rfl

/-- **A run conserves.** -/
theorem conserves_of_run (hrun : (recanonicalizer X).run (start db) answers = some s) :
    ∃ f verdicts, s.Conserves X answers db f verdicts :=
  Machine.history_invariant
    (I := fun s answers ↦ ∃ f verdicts, Conserves X answers db f verdicts s)
    (fun _ _ _ _ ⟨_, _, h⟩ hs ↦ h.step hs) ⟨db.spelling, [], conserves_start⟩ hrun

/-- A prefix that differs is what the detection made of the old one, from the answer given for
it. -/
theorem Conserves.detected (h : s.Conserves X answers db f verdicts) (ht : t ∈ db.crawlTargets) :
    f t.id = t.urlPrefix ∨
      ∃ (k : ℕ) (a : RowAnswer), db.targetsByPrefix[k]? = some (t.id, t.urlPrefix) ∧
        answers[k]? = some a ∧ detectCanonicalPrefix X t.urlPrefix a.response = some (f t.id) := by
  obtain ⟨k, hk⟩ := List.mem_iff_getElem?.1 (Database.mem_targetsByPrefix.2 ⟨t, ht, rfl⟩)
  rcases Nat.lt_or_ge k verdicts.length with hlt | hge
  · have hle : verdicts.length ≤ answers.length := h.answered ▸ Nat.le_add_right _ _
    obtain ⟨a, ha⟩ : ∃ a, answers[k]? = some a := ⟨_, List.getElem?_eq_getElem (hlt.trans_le hle)⟩
    obtain ⟨v, hv⟩ : ∃ v, verdicts[k]? = some v := ⟨_, List.getElem?_eq_getElem hlt⟩
    cases h.judged k _ a v hk ha hv with
    | unchanged _ hspelled => exact Or.inl hspelled
    | conflict _ _ _ hspelled => exact Or.inl hspelled
    | changed hc _ _ hspelled => exact Or.inr ⟨k, a, hk, ha, hspelled ▸ hc⟩
  · exact Or.inl (h.spelled hk hge)

end Recanonicalization

/-- Other prefixes touch no foreign key. -/
theorem Database.ForeignKeys.respelled {f : Uuid → String} (h : db.ForeignKeys)
    (hdb : db.Respelled f db₁) : db₁.ForeignKeys := by
  have hmem := fun t ↦ hdb.mem_iff (t := t)
  obtain ⟨targets, rfl, -⟩ := hdb
  refine ⟨fun t ht ↦ ?_, h.page_collection, fun p hp ↦ ?_, h.host_collection, h.peer_node⟩
  · obtain ⟨t₀, ht₀, rfl⟩ := (hmem t).1 ht
    exact h.target_collection t₀ ht₀
  · obtain ⟨t₀, ht₀, hid⟩ := h.page_target p hp
    exact ⟨_, (hmem _).2 ⟨t₀, ht₀, rfl⟩, hid⟩

/-- **The script only respells prefixes**, however its run goes and wherever it stops. Nothing but
prefixes differs from the database it was started on; each row it is through with is judged by the
answer that was given for it, and the report counts the verdicts; a prefix that differs is what the
detection made of the old one from that answer, in normal form; foreign keys hold if they held; and
where all prefixes were in normal form, no two targets of a collection normalise alike
afterwards. -/
theorem recanonicalize_conserves {valid : Url → Prop} (hX : X.UrlLaws valid)
    {answers : List RowAnswer}
    (hrun : (recanonicalizer X).run (.start db) answers = some s) :
    ∃ f verdicts, s.Conserves X answers db f verdicts ∧
      (∀ t ∈ db.crawlTargets, f t.id = t.urlPrefix ∨ normalizeUrl X (f t.id) = some (f t.id) ∧
        ∃ (k : ℕ) (a : RowAnswer), db.targetsByPrefix[k]? = some (t.id, t.urlPrefix) ∧
          answers[k]? = some a ∧
          detectCanonicalPrefix X t.urlPrefix a.response = some (f t.id)) ∧
      (db.ForeignKeys → s.db.ForeignKeys) ∧
      ((∀ t ∈ db.crawlTargets, InNormalForm X t.urlPrefix) → NoDuplicates X s.db) := by
  obtain ⟨f, verdicts, h⟩ := Recanonicalization.conserves_of_run hrun
  refine ⟨f, verdicts, h, fun t ht ↦ ?_, fun hkeys ↦ hkeys.respelled h.respelled,
    fun hnormal ↦ noDuplicates_of_normal fun t ht ↦ ?_⟩
  · refine (h.detected ht).imp_right fun ⟨k, a, hk, ha, hc⟩ ↦ ?_
    exact ⟨normalizeUrl_detected hX hc, k, a, hk, ha, hc⟩
  · obtain ⟨t₀, ht₀, rfl⟩ := h.respelled.mem_iff.1 ht
    show InNormalForm X (f t₀.id)
    rcases h.detected ht₀ with hsame | ⟨k, a, -, -, hc⟩
    · exact hsame ▸ hnormal t₀ ht₀
    · intro n hn
      exact Option.some.inj (hn.symm.trans (normalizeUrl_detected hX hc))

/-! ### Servers whose answers stay -/

/-- The answers of servers that say the same whenever they are asked, to a script whose statements
do not fail. -/
def answersOf (servers : String → Option FinalResponse) (rows : List (Uuid × String)) :
    List RowAnswer :=
  rows.map fun r ↦ ⟨servers r.2, false⟩

section Settles

variable {servers : String → Option FinalResponse} {f : Uuid → String}

/-- **The script is a pass.** From any state whose rows are spelled as they were loaded, it goes
through all of them, and each round visits its target. -/
theorem pass_of_run (hfailed : s.failed = false) (hdb : db.Respelled f s.db)
    (hrows : ∀ r ∈ s.rows, f r.1 = r.2) (hfresh : (s.rows.map Prod.fst).Nodup) :
    ∃ s' g, (recanonicalizer X).run s (answersOf servers s.rows) = some s' ∧ s'.rows = [] ∧
      s'.failed = false ∧ db.Respelled g s'.db ∧
      Renaming.Pass (fun p ↦ detectCanonicalPrefix X p (servers p)) db.Rivals f
        (s.rows.map Prod.fst) g := by
  generalize hl : s.rows = l at hrows hfresh
  induction l generalizing s f with
  | nil => exact ⟨s, f, rfl, hl, hfailed, hdb, .nil⟩
  | cons r rest ih =>
    obtain ⟨s₁, hs₁⟩ := Recanonicalization.exists_step (X := X) hfailed hl ⟨servers r.2, false⟩
    obtain ⟨id, current, rest', -, hrows', hround⟩ := Recanonicalization.round_of_step hs₁
    obtain ⟨rfl, rfl⟩ := List.cons.inj (hl.symm.trans hrows')
    obtain ⟨hcurrent, hrest⟩ := List.forall_mem_cons.1 hrows
    obtain ⟨hid, hfresh⟩ := List.nodup_cons.1 hfresh
    replace hcurrent : f id = current := hcurrent
    have hgoes : ∀ f₁, s₁.rows = rest → s₁.failed = false → db.Respelled f₁ s₁.db →
        Renaming.Visit (fun p ↦ detectCanonicalPrefix X p (servers p)) db.Rivals f id f₁ →
        ∃ s' g, (recanonicalizer X).run s (answersOf servers ((id, current) :: rest)) = some s' ∧
          s'.rows = [] ∧ s'.failed = false ∧ db.Respelled g s'.db ∧
          Renaming.Pass (fun p ↦ detectCanonicalPrefix X p (servers p)) db.Rivals f
            (id :: rest.map Prod.fst) g := by
      intro f₁ hl₁ hfailed₁ hdb₁ hvisit
      have hframe : ∀ r ∈ rest, f₁ r.1 = r.2 := fun r hr ↦
        (hvisit.frame fun hsame ↦ hid (List.mem_map.2 ⟨r, hr, hsame⟩)).trans (hrest r hr)
      obtain ⟨s', g, hrun, hdone, hok, hdb', hpass⟩ := ih hfailed₁ hdb₁ hl₁ hframe hfresh
      exact ⟨s', g, (recanonicalizer X).run_cons_eq_some.2 ⟨s₁, hs₁, hrun⟩, hdone, hok, hdb',
        .cons hvisit hpass⟩
    cases hround with
    | unchanged h => exact hgoes f rfl hfailed hdb (.kept fun c hc ↦ Or.inl (by
        rw [hcurrent] at hc ⊢
        exact h c hc))
    | refused _ _ hr => cases hr
    | changed h hne hset =>
      refine hgoes _ rfl hfailed (hdb.setUrlPrefix hset) (.renamed (by rwa [hcurrent])
        (by rwa [hcurrent]) fun htaken ↦ ?_)
      exact nomatch (hdb.setUrlPrefix_eq_none_iff.2 htaken).symm.trans hset
    | conflict h hne hset => exact hgoes f rfl hfailed hdb (.kept fun c hc ↦ Or.inr (by
        rw [hcurrent] at hc
        obtain rfl := Option.some.inj (hc.symm.trans h)
        exact hdb.setUrlPrefix_eq_none_iff.1 hset))

/-- The script goes through all rows of a database. -/
theorem pass_of_start (X : Crates) (servers : String → Option FinalResponse) (db : Database) :
    ∃ s g,
    (recanonicalizer X).run (.start db) (answersOf servers db.targetsByPrefix) = some s ∧
      s.rows = [] ∧ s.failed = false ∧ db.Respelled g s.db ∧
      Renaming.Pass (fun p ↦ detectCanonicalPrefix X p (servers p)) db.Rivals db.spelling
        (db.targetsByPrefix.map Prod.fst) g := by
  refine pass_of_run (s := .start db) rfl (Database.respelled_refl db) (fun r hr ↦ ?_)
    Database.nodup_targetsByPrefix
  obtain ⟨t, ht, rfl⟩ := Database.mem_targetsByPrefix.1 hr
  exact Database.spelling_id ht

/-- **Where all targets are settled the script changes nothing.** -/
theorem unchanged_of_settled
    (h : ∀ t ∈ db.crawlTargets, Renaming.Settled
      (fun p ↦ detectCanonicalPrefix X p (servers p)) db.Rivals db.spelling t.id) :
    ∃ s, (recanonicalizer X).run (.start db) (answersOf servers db.targetsByPrefix) = some s ∧
      s.db = db ∧ s.tally.changed = 0 := by
  obtain ⟨s, g, hrun, -, -, hdb, hpass⟩ := pass_of_start X servers db
  have hg : g = db.spelling := by
    refine hpass.eq_of_settled fun id hid ↦ ?_
    obtain ⟨r, hr, rfl⟩ := List.mem_map.1 hid
    obtain ⟨t, ht, rfl⟩ := Database.mem_targetsByPrefix.1 hr
    exact h t ht
  subst hg
  have hsame : s.db = db := hdb.eq (Database.respelled_refl db)
  refine ⟨s, hrun, hsame, ?_⟩
  obtain ⟨f, _, hf⟩ := Recanonicalization.conserves_of_run hrun
  rw [hf.changed]
  refine List.countP_eq_zero.2 fun t ht ↦ ?_
  rw [decide_eq_true_eq, not_not, ← hf.respelled.spelling_eq ht, hsame]
  exact Database.spelling_id ht

/-- **The script settles the targets**, where no statement fails, servers say the same whenever they
are asked and a canonical form is its own canonical form. It comes to its end; afterwards the
canonical form of every prefix there was is the prefix of a target of the same collection; and when
the script is run once more, it changes nothing. -/
theorem recanonicalize_settles
    (hfinal : ∀ p c d, detectCanonicalPrefix X p (servers p) = some c →
      detectCanonicalPrefix X c (servers c) = some d → d = c) (db : Database) :
    ∃ s, (recanonicalizer X).run (.start db) (answersOf servers db.targetsByPrefix) = some s ∧
      s.rows = [] ∧ s.failed = false ∧
      (∀ t ∈ db.crawlTargets, ∀ c, detectCanonicalPrefix X t.urlPrefix (servers t.urlPrefix) =
        some c → ∃ u ∈ s.db.crawlTargets, u.collectionId = t.collectionId ∧ u.urlPrefix = c) ∧
      ∃ s₂, (recanonicalizer X).run (.start s.db) (answersOf servers s.db.targetsByPrefix) =
        some s₂ ∧ s₂.db = s.db ∧ s₂.tally.changed = 0 := by
  obtain ⟨s, g, hrun, hdone, hok, hdb, hpass⟩ := pass_of_start X servers db
  have hloaded : ∀ t ∈ db.crawlTargets, t.id ∈ db.targetsByPrefix.map Prod.fst := fun t ht ↦
    List.mem_map.2 ⟨_, Database.mem_targetsByPrefix.2 ⟨t, ht, rfl⟩, rfl⟩
  refine ⟨s, hrun, hdone, hok, fun t ht c hc ↦ ?_, unchanged_of_settled fun t' ht' c hc ↦ ?_⟩
  · rw [← Database.spelling_id ht] at hc
    obtain ⟨j, rfl | ⟨-, t', ht', u, hu, hid, rfl, hcollection⟩, hname⟩ :=
      hpass.exists_holder hfinal (hloaded t ht) hc
    · exact ⟨_, hdb.mem_iff.2 ⟨t, ht, rfl⟩, rfl, hname⟩
    · obtain rfl := Database.eq_of_mem_crawlTargets ht' ht (Or.inr (Or.inl hid))
      exact ⟨_, hdb.mem_iff.2 ⟨u, hu, rfl⟩, hcollection.symm, hname⟩
  · obtain ⟨t, ht, rfl⟩ := hdb.mem_iff.1 ht'
    have hname : s.db.spelling (t.withPrefix (g t.id)).id = g t.id :=
      hdb.spelling_eq (t := t) ht
    rw [hname] at hc ⊢
    refine (hpass.settled_of_mem hfinal (hloaded t ht) c hc).imp_right fun ⟨j, hj, hc⟩ ↦ ?_
    obtain ⟨-, -, -, u, hu, -, rfl, -⟩ := id hj
    exact ⟨u.id, hdb.rivals hj, (hdb.spelling_eq hu).trans hc⟩

end Settles

namespace Moved

def home (scheme : String) : Url := ⟨scheme, "", none, some "example.com", none, "/", none, none⟩

/-- A site under `http` and under `https`. -/
def crates : Crates := .ofTables
  ⟨[("http://example.com/", home "http"), ("https://example.com/", home "https")], [], [], [], []⟩

/-- The site has moved to `https`. -/
def servers (_ : String) : Option FinalResponse := some ⟨home "https", 200⟩

/-- One collection has the site under both schemes, another under `http`. -/
def added : List TargetLabel :=
  [.other (.collections (.create "guide" "") "t0"), .other (.collections (.create "atlas" "") "t0"),
    .add 1 "http://example.com/" 3600 none "t1", .add 1 "https://example.com/" 3600 none "t1",
    .add 2 "http://example.com/" 3600 none "t1"]

theorem detect_eq_some {p c : String} (h : detectCanonicalPrefix crates p (servers p) = some c) :
    c = "https://example.com/" := by
  obtain ⟨_, r, -, hr, hc⟩ := normalizeUrl_of_detect h
  obtain rfl := Option.some.inj hr
  have hnormal : normalizeUrl crates (home "https").toString = some "https://example.com/" := by
    decide +kernel
  exact Option.some.inj (hc.symm.trans hnormal)

/-- One target is rewritten, one is in conflict, and one is canonical; the second time none is
rewritten. -/
theorem settles_added : ∃ s₀ s, (targetMachine crates).run .init added = some s₀ ∧
    (recanonicalizer crates).run (.start s₀.engine.db)
      (answersOf servers s₀.engine.db.targetsByPrefix) = some s ∧ s.tally = ⟨1, 1, 1⟩ ∧
    ∃ s₂, (recanonicalizer crates).run (.start s.db) (answersOf servers s.db.targetsByPrefix) =
      some s₂ ∧ s₂.db = s.db ∧ s₂.tally.changed = 0 := by
  obtain ⟨s₀, hrun, hs₀⟩ : ∃ s₀, (targetMachine crates).run .init added = some s₀ ∧
      ((recanonicalizer crates).run (.start s₀.engine.db)
        (answersOf servers s₀.engine.db.targetsByPrefix)).any (fun s ↦ s.tally = ⟨1, 1, 1⟩) =
          true :=
    Machine.exists_run_of_any (by decide +kernel)
  obtain ⟨s, hs, htally⟩ := Machine.exists_run_of_any hs₀
  have hfinal : ∀ p c d, detectCanonicalPrefix crates p (servers p) = some c →
      detectCanonicalPrefix crates c (servers c) = some d → d = c :=
    fun p c d hc hd ↦ (detect_eq_some hd).trans (detect_eq_some hc).symm
  obtain ⟨s', hs', -, -, -, hagain⟩ := recanonicalize_settles hfinal s₀.engine.db
  obtain rfl := Option.some.inj (hs.symm.trans hs')
  exact ⟨s₀, s, hrun, hs, of_decide_eq_true htally, hagain⟩

/-- The script is stopped by SQLite at its second row. -/
theorem conserves_stopped : ∃ s₀ s f verdicts,
    (targetMachine crates).run .init added = some s₀ ∧
    (recanonicalizer crates).run (.start s₀.engine.db)
      [⟨servers "", false⟩, ⟨servers "", true⟩] = some s ∧ s.failed = true ∧
    s.Conserves crates [⟨servers "", false⟩, ⟨servers "", true⟩] s₀.engine.db f verdicts := by
  obtain ⟨s₀, hrun, hs₀⟩ : ∃ s₀, (targetMachine crates).run .init added = some s₀ ∧
      ((recanonicalizer crates).run (.start s₀.engine.db)
        [⟨servers "", false⟩, ⟨servers "", true⟩]).any (fun s ↦ s.failed) = true :=
    Machine.exists_run_of_any (by decide +kernel)
  obtain ⟨s, hs, hfailed⟩ := Machine.exists_run_of_any hs₀
  have hlaws : crates.UrlLaws _ :=
    Crates.urlLaws_ofTables (by decide) fun _ hj ↦ absurd hj List.not_mem_nil
  obtain ⟨f, verdicts, hconserves, -⟩ := recanonicalize_conserves hlaws hs
  exact ⟨s₀, s, f, verdicts, hrun, hs, hfailed, hconserves⟩

end Moved

end CommunitySearch
