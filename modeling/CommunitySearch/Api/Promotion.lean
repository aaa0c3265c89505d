import CommunitySearch.Api.ExportImport
import CommunitySearch.Api.Outlinks

/-!
# Promoting a host, statement by statement

`promoteOutlinkSql` is the handler as the sequence of its statements, which no transaction
encloses; when none of them fails it is `promoteOutlink` (`promoted_none`). A statement that fails
leaves what was written before it, and there are two that write: when the target is inserted and
the host then cannot be marked, the request is an error and its target stays. That is the only way
to fail (`promoteOutlink_allOrNothing`), and there is no way back: the host stays as it was, and
each further request for this prefix is refused by the target that is there already
(`promoted_of_torn`).
-/

namespace CommunitySearch

/-! ### The statements -/

namespace Database

/-- `INSERT INTO crawl_targets`, by `add`. -/
def insertAddedTarget (collection id : Uuid) (urlPrefix : String) (recrawlIntervalSecs : Int)
    (ts : String) : Sql.Statement Database := fun enforced db ↦
  if enforced ∧ ¬ db.HasCollection collection then none
  else (db.crawlTargets.insert
      { db.newTarget collection urlPrefix recrawlIntervalSecs ts with id := id }).map fun targets ↦
    ({ db with crawlTargets := targets }, 1)

/-- `mark_promoted` as a statement. -/
def markPromotedSql (rowid targetId : Int) : Sql.Statement Database := fun _ db ↦
  some ((db.markPromoted rowid targetId).1,
    db.outlinkHostSuggestions.rows.countP fun o ↦ o.rowid = rowid)

/-- The rowid of the last target; rowids that SQLite gives are positive. -/
def lastTargetRowid (db : Database) : Nat :=
  ((db.crawlTargets.rows.getLast?.map CrawlTargetRow.rowid).getD 0).toNat

end Database

/-- `last_insert_rowid`, after a target: it asks the connection, and cannot fail. -/
def lastInsertRowid : Prog (Sql.Sig Database) (Except Sql.Error Nat) :=
  Sql.draw fun db ↦ (db, db.lastTargetRowid)

/-- `crawl_targets::add`. -/
def addTargetSql (collectionRowid : Int) (urlPrefix : String) (recrawlIntervalSecs : Int)
    (ts : String) : Prog (Sql.Sig Database) (Except Sql.Error CrawlTargetRecord) :=
  (Sql.queryRow fun db ↦ db.collectionByRowid collectionRowid).attempt fun c ↦
    (Sql.draw Database.drawUuid).attempt fun n ↦
      (Sql.execute
        (Database.insertAddedTarget c.id ⟨n⟩ urlPrefix recrawlIntervalSecs ts)).attempt fun _ ↦
        lastInsertRowid.attempt fun rowid ↦
          .ret (.ok ⟨rowid, collectionRowid, urlPrefix, recrawlIntervalSecs⟩)

/-- `promote_outlink`. -/
def promoteOutlinkSql (ts : String) (id : Int) (body : PromoteBody) :
    Prog (Sql.Sig Database) (Except Sql.Error (Except ApiError Int)) :=
  (Sql.query fun db ↦ db.outlinkHostByRowid id).attempt fun
    | none => .ret (.ok (.error (.outlinkNotFound id)))
    | some row =>
      (Sql.queryRow fun db : Database ↦ db.collections.rows.find? fun c ↦
          c.id = row.collectionId).attempt fun c ↦
        (addTargetSql c.rowid (body.targetPrefix row.host) body.recrawlIntervalSecs ts).attempt
          fun ct ↦
            (Sql.execute (Database.markPromotedSql id ct.id)).attempt fun _ ↦
              .ret (.ok (.ok ct.id))

/-- An SQL error is answered by its message. -/
def respond : Database × Except Sql.Error (Except ApiError Int) → Database × Except ApiError Int
  | (db, .ok reply) => (db, reply)
  | (db, .error _) => (db, .error .sql)

/-- **A request** in which the statement number `fails` fails, counted from zero: the database it
leaves, and the reply. -/
def promoted (db : Database) (ts : String) (id : Int) (body : PromoteBody) (fails : Option Nat) :
    Database × Except ApiError Int :=
  respond (Sql.autocommit (promoteOutlinkSql ts id body) fails db)

/-! ### All or nothing -/

variable {db : Database} {ts : String} {id : Int} {body : PromoteBody} {fails : Option Nat}

/-- The same rows; a UUID may have been drawn. -/
def Database.SameRows (db db' : Database) : Prop := ∃ n, db' = { db with nextUuid := n }

/-- **The host is promoted to a new target**: the target is one for the host's collection and the
requested prefix, the host's row says so, and that is all that has changed. -/
structure Database.PromotesTo (db db' : Database) (id : Int) (body : PromoteBody) (target : Int) :
    Prop where
  created : ∃ row t, db.outlinkHostByRowid id = some row ∧
    db'.crawlTargets.rows = db.crawlTargets.rows ++ [t] ∧ t.rowid = target ∧
    t.collectionId = row.collectionId ∧ t.urlPrefix = body.targetPrefix row.host ∧
    t.recrawlIntervalSecs = body.recrawlIntervalSecs
  marked : ∀ row, db'.outlinkHostByRowid id = some row →
    row.status = "promoted" ∧ row.promotedTargetId = some target
  only : db'.SameRows { (db.markPromoted id target).1 with crawlTargets := db'.crawlTargets }

/-- **The claim of a promotion**, about the database it leaves and its reply. -/
def Database.AllOrNothing (db : Database) (id : Int) (body : PromoteBody) :
    Database × Except ApiError Int → Prop
  | (db', .error _) => db.SameRows db'
  | (db', .ok target) => db.PromotesTo db' id body target

/-- There is such a host, it has a collection, and the target can be inserted. -/
def Database.Promotable (db : Database) (ts : String) (id : Int) (body : PromoteBody) : Prop :=
  ∃ row, db.outlinkHostByRowid id = some row ∧ db.HasCollection row.collectionId ∧
    ∀ t ∈ db.crawlTargets, ¬ t.Clash
      (db.newTarget row.collectionId (body.targetPrefix row.host) body.recrawlIntervalSecs ts)

/-! ### What a request leaves -/

theorem Database.sameRows_refl (db : Database) : db.SameRows db := ⟨db.nextUuid, rfl⟩

theorem nextRowid_pos (rowids : List Int) : 0 < nextRowid rowids := by
  refine Int.lt_add_one_of_le ?_
  induction rowids with
  | nil => exact Int.le_refl 0
  | cons r rowids ih => exact Int.le_trans ih (Int.le_max_right ..)

theorem Database.lastTargetRowid_of_insert {t : CrawlTargetRow}
    {targets : Table CrawlTargetRow.Clash} (h : db.crawlTargets.insert t = some targets)
    (ht : 0 ≤ t.rowid) (n : Nat) :
    (({ db with crawlTargets := targets, nextUuid := n }.lastTargetRowid : Nat) : Int) =
      t.rowid := by
  rw [lastTargetRowid, Table.rows_of_insert h, List.getLast?_concat]
  exact Int.toNat_of_nonneg ht

/-- **The end of a request**, once the collection has been read: the target is inserted, and the
host marked. -/
theorem promoted_eq {row : OutlinkHostRow} {c : CollectionRow}
    (hrow : db.outlinkHostByRowid id = some row)
    (hc : db.collections.rows.find? (fun c ↦ c.id = row.collectionId) = some c) :
    promoted db ts id body fails =
      if fails = some 0 ∨ fails = some 1 ∨ fails = some 2 then (db, .error .sql)
      else
        let db₁ := { db with nextUuid := db.nextUuid + 1 }
        if fails = some 3 then (db₁, .error .sql)
        else
          let t := db.newTarget row.collectionId (body.targetPrefix row.host)
            body.recrawlIntervalSecs ts
          match db.crawlTargets.insert t with
          | none => (db₁, .error .sql)
          | some targets =>
            let db₂ := { db₁ with crawlTargets := targets }
            if fails = some 4 then (db₂, .error .sql)
            else ((db₂.markPromoted id t.rowid).1, .ok t.rowid) := by
  have hmem : c ∈ db.collections := List.mem_of_find?_eq_some hc
  have hid : c.id = row.collectionId := by simpa using List.find?_some hc
  rw [promoted, promoteOutlinkSql, Sql.autocommit_query]
  by_cases h0 : fails = some 0
  · rw [if_pos h0, if_pos (Or.inl h0)]
    rfl
  have hpred := fun n ↦ Sql.pred_eq_some_iff h0 (n := n)
  rw [if_neg h0, hrow]
  generalize fails.map (· - 1) = fails₁ at hpred ⊢
  dsimp only
  rw [Sql.autocommit_queryRow]
  by_cases h1 : fails₁ = some 0
  · rw [if_pos h1, if_pos (Or.inr (Or.inl ((hpred 0).1 h1)))]
    rfl
  have hpred₁ := fun n ↦ (Sql.pred_eq_some_iff h1 (n := n)).trans (hpred (n + 1))
  rw [if_neg h1, hc]
  generalize fails₁.map (· - 1) = fails₂ at hpred₁ ⊢
  dsimp only
  rw [addTargetSql, Prog.attempt_attempt, Sql.autocommit_queryRow]
  by_cases h2 : fails₂ = some 0
  · rw [if_pos h2, if_pos (Or.inr (Or.inr ((hpred₁ 0).1 h2)))]
    rfl
  have hpred₂ := fun n ↦ (Sql.pred_eq_some_iff h2 (n := n)).trans (hpred₁ (n + 1))
  have hreads : ¬ (fails = some 0 ∨ fails = some 1 ∨ fails = some 2) := by
    rintro (h | h | h)
    · exact h0 h
    · exact h1 ((hpred 0).2 h)
    · exact h2 ((hpred₁ 0).2 h)
  rw [if_neg h2, Database.collectionByRowid_eq_some hmem, if_neg hreads]
  generalize fails₂.map (· - 1) = fails₃ at hpred₂ ⊢
  dsimp only
  rw [Prog.attempt_attempt, Sql.autocommit_draw, Prog.attempt_attempt, Sql.autocommit_execute]
  by_cases h3 : fails₃ = some 0
  · rw [if_pos h3, if_pos ((hpred₂ 0).1 h3)]
    rfl
  have hpred₃ := fun n ↦ (Sql.pred_eq_some_iff h3 (n := n)).trans (hpred₂ (n + 1))
  rw [if_neg h3, if_neg (mt (hpred₂ 0).2 h3)]
  generalize fails₃.map (· - 1) = fails₄ at hpred₃ ⊢
  have hinsert : Database.insertAddedTarget c.id ⟨(db.drawUuid).2⟩ (body.targetPrefix row.host)
      body.recrawlIntervalSecs ts true (db.drawUuid).1 =
      (db.crawlTargets.insert (db.newTarget row.collectionId (body.targetPrefix row.host)
        body.recrawlIntervalSecs ts)).map fun targets ↦
        ({ db with crawlTargets := targets, nextUuid := db.nextUuid + 1 }, 1) := by
    rw [Database.insertAddedTarget, if_neg fun h ↦ h.2 ⟨c, hmem, rfl⟩, hid]
    rfl
  rw [hinsert]
  rcases htargets : db.crawlTargets.insert (db.newTarget row.collectionId
    (body.targetPrefix row.host) body.recrawlIntervalSecs ts) with - | targets
  · rfl
  · have hrowid := Database.lastTargetRowid_of_insert htargets
      (Int.le_of_lt (nextRowid_pos _)) (db.nextUuid + 1)
    dsimp only [Option.map_some]
    rw [lastInsertRowid, Prog.attempt_attempt, Sql.autocommit_draw]
    show respond (Sql.autocommit ((Sql.execute (Database.markPromotedSql id
      (({ db with crawlTargets := targets, nextUuid := db.nextUuid + 1 } :
        Database).lastTargetRowid : Nat))).attempt fun _ ↦ .ret (.ok (.ok
      (({ db with crawlTargets := targets, nextUuid := db.nextUuid + 1 } :
        Database).lastTargetRowid : Nat)))) _ _) = _
    rw [hrowid, Sql.autocommit_execute]
    by_cases h4 : fails₄ = some 0
    · rw [if_pos h4, if_pos ((hpred₃ 0).1 h4)]
      rfl
    · rw [if_neg h4, if_neg (mt (hpred₃ 0).2 h4)]
      rfl

/-- A request about a host that is not there, or has no collection. -/
theorem promoted_of_missing (h : ∀ row, db.outlinkHostByRowid id = some row →
    db.collections.rows.find? (fun c ↦ c.id = row.collectionId) = none) :
    ∃ err, promoted db ts id body fails = (db, .error err) := by
  rw [promoted, promoteOutlinkSql, Sql.autocommit_query]
  split
  · exact ⟨.sql, rfl⟩
  · rcases hrow : db.outlinkHostByRowid id with - | row
    · exact ⟨_, rfl⟩
    · dsimp only
      rw [Sql.autocommit_queryRow, h row hrow]
      split
      · exact ⟨.sql, rfl⟩
      · exact ⟨.sql, rfl⟩

/-- **When no statement fails**, the request is `promoteOutlink`. -/
theorem promoted_none (db : Database) (ts : String) (id : Int) (body : PromoteBody) :
    match promoteOutlink db ts id body with
    | .ok (db', target) => promoted db ts id body none = (db', .ok target)
    | .error err => (promoted db ts id body none).2 = .error err ∧
        db.SameRows (promoted db ts id body none).1 := by
  rcases hrow : db.outlinkHostByRowid id with - | row
  · rw [promoteOutlink, promoted, promoteOutlinkSql, Sql.autocommit_query, if_neg nofun, hrow]
    exact ⟨rfl, db.sameRows_refl⟩
  rcases hc : db.collections.rows.find? (fun c ↦ c.id = row.collectionId) with - | c
  · simp only [promoteOutlink, hrow, hc]
    rw [promoted, promoteOutlinkSql, Sql.autocommit_query, if_neg nofun, hrow,
      Sql.autocommit_queryRow, if_neg nofun, hc]
    exact ⟨rfl, db.sameRows_refl⟩
  have hid : c.id = row.collectionId := by simpa using List.find?_some hc
  have hrowid := Database.collectionByRowid_eq_some (List.mem_of_find?_eq_some hc)
  have heq := @promoted_eq db ts id body none row c hrow hc
  rw [if_neg (by simp)] at heq
  dsimp only at heq
  rw [if_neg nofun] at heq
  rcases htargets : db.crawlTargets.insert (db.newTarget row.collectionId
    (body.targetPrefix row.host) body.recrawlIntervalSecs ts) with - | targets
  · rw [htargets] at heq
    simp only [promoteOutlink, hrow, hc, Database.addTarget, hrowid, Option.bind_some, hid,
      htargets, Option.map_none]
    rw [heq]
    exact ⟨rfl, ⟨_, rfl⟩⟩
  · rw [htargets] at heq
    simp only [promoteOutlink, hrow, hc, Database.addTarget, hrowid, Option.bind_some, hid,
      htargets, Option.map_some]
    exact heq.trans (if_neg nofun)

theorem Database.marked_of_markPromoted {target : Int} {row : OutlinkHostRow}
    (h : (db.markPromoted id target).1.outlinkHostByRowid id = some row) :
    row.status = "promoted" ∧ row.promotedTargetId = some target := by
  have hrowid : row.rowid = id := by simpa using List.find?_some h
  obtain ⟨o, -, rfl⟩ := List.mem_map.1 (List.mem_of_find?_eq_some h)
  by_cases ho : o.rowid = id
  · rw [if_pos ho]
    exact ⟨rfl, rfl⟩
  · rw [if_neg ho] at hrowid
    exact absurd hrowid ho

/-- **The promotion of a host is all or nothing** but for one failure: that of the last statement,
where the target has been inserted and the host is to be marked. -/
theorem promoteOutlink_allOrNothing (db : Database) (ts : String) (id : Int) (body : PromoteBody)
    (fails : Option Nat) :
    db.AllOrNothing id body (promoted db ts id body fails) ↔
      ¬ (fails = some 4 ∧ db.Promotable ts id body) := by
  by_cases hfound : ∃ row c, db.outlinkHostByRowid id = some row ∧
      db.collections.rows.find? (fun c ↦ c.id = row.collectionId) = some c
  · obtain ⟨row, c, hrow, hc⟩ := hfound
    have hid : c.id = row.collectionId := by simpa using List.find?_some hc
    have hpromotable : db.Promotable ts id body ↔ ∀ t ∈ db.crawlTargets, ¬ t.Clash
        (db.newTarget row.collectionId (body.targetPrefix row.host) body.recrawlIntervalSecs
          ts) := by
      refine ⟨fun ⟨row', hrow', _, h⟩ ↦ ?_, fun h ↦
        ⟨row, hrow, ⟨c, List.mem_of_find?_eq_some hc, hid⟩, h⟩⟩
      obtain rfl := Option.some.inj (hrow.symm.trans hrow')
      exact h
    rw [promoted_eq hrow hc, hpromotable]
    by_cases hreads : fails = some 0 ∨ fails = some 1 ∨ fails = some 2
    · rw [if_pos hreads]
      refine iff_of_true db.sameRows_refl fun h ↦ ?_
      rw [h.1] at hreads
      simp at hreads
    rw [if_neg hreads]
    dsimp only
    by_cases h3 : fails = some 3
    · rw [if_pos h3]
      refine iff_of_true ⟨_, rfl⟩ fun h ↦ ?_
      rw [h3] at h
      simp at h
    rw [if_neg h3]
    split
    case h_1 hclash =>
      obtain ⟨t, ht, htc⟩ := Table.exists_clash_of_insert hclash
      exact iff_of_true ⟨_, rfl⟩ fun h ↦ h.2 t ht htc
    case h_2 targets hinsert =>
      by_cases h4 : fails = some 4
      · rw [if_pos h4]
        refine iff_of_false (fun h ↦ ?_) fun h ↦ h ⟨h4, fun t ↦ Table.not_clash_of_insert hinsert⟩
        -- one more target
        obtain ⟨n, hn⟩ := h
        have hrows := Table.rows_of_insert hinsert
        rw [show targets = db.crawlTargets from congrArg Database.crawlTargets hn] at hrows
        exact List.cons_ne_nil _ _ (List.append_right_eq_self.1 hrows.symm)
      · rw [if_neg h4]
        refine iff_of_true ⟨⟨row, _, hrow, Table.rows_of_insert hinsert, rfl, rfl, rfl, rfl⟩,
          fun row' ↦ Database.marked_of_markPromoted, ⟨db.nextUuid, rfl⟩⟩ fun h ↦ h4 h.1
  · obtain ⟨err, herr⟩ : ∃ err, promoted db ts id body fails = (db, .error err) := by
      refine promoted_of_missing fun row hrow ↦ ?_
      rcases hc : db.collections.rows.find? (fun c ↦ c.id = row.collectionId) with - | c
      · exact hc
      · exact absurd ⟨row, c, hrow, hc⟩ hfound
    rw [herr]
    refine iff_of_true db.sameRows_refl fun h ↦ hfound ?_
    obtain ⟨-, row, hrow, ⟨c, hc, hid⟩, -⟩ := h
    have hsome : (db.collections.rows.find? fun c ↦ c.id = row.collectionId).isSome :=
      List.find?_isSome.2 ⟨c, hc, decide_eq_true hid⟩
    obtain ⟨c', hc'⟩ := Option.isSome_iff_exists.1 hsome
    exact ⟨row, c', hrow, hc'⟩

/-- **There is no way back.** After that failure the host is as it was, and each further request
for the same prefix is an error that changes nothing, whether or not a statement fails. -/
theorem promoted_of_torn (h : db.Promotable ts id body) :
    ∃ db', promoted db ts id body (some 4) = (db', .error .sql) ∧
      db'.outlinkHostSuggestions = db.outlinkHostSuggestions ∧
      ∀ ts' body' fails', body'.urlPrefix = body.urlPrefix →
        ∃ err db'', promoted db' ts' id body' fails' = (db'', .error err) ∧ db'.SameRows db'' := by
  obtain ⟨row, hrow, ⟨c₀, hc₀, hid₀⟩, hfree⟩ := h
  have hsome : (db.collections.rows.find? fun c ↦ c.id = row.collectionId).isSome :=
    List.find?_isSome.2 ⟨c₀, hc₀, decide_eq_true hid₀⟩
  obtain ⟨c, hc⟩ := Option.isSome_iff_exists.1 hsome
  obtain ⟨targets, htargets⟩ := Table.exists_insert hfree
  refine ⟨{ db with crawlTargets := targets, nextUuid := db.nextUuid + 1 }, ?_, rfl,
    fun ts' body' fails' hprefix ↦ ?_⟩
  · rw [promoted_eq hrow hc, if_neg (by simp)]
    dsimp only
    rw [if_neg (by simp), htargets]
    exact if_pos rfl
  · have heq := @promoted_eq { db with crawlTargets := targets, nextUuid := db.nextUuid + 1 }
      ts' id body' fails' row c hrow hc
    rw [heq]
    have htaken : ∀ db' : Database, db'.crawlTargets = targets → targets.insert
        (db'.newTarget row.collectionId (body'.targetPrefix row.host) body'.recrawlIntervalSecs
          ts') = none := fun db' hdb' ↦ by
      refine Table.insert_of_clash ((Table.mem_of_insert htargets).2 (Or.inr rfl))
        (Or.inr (Or.inr ⟨rfl, ?_⟩))
      show body.targetPrefix row.host = body'.targetPrefix row.host
      rw [PromoteBody.targetPrefix, PromoteBody.targetPrefix, hprefix]
    split
    · exact ⟨_, _, rfl, Database.sameRows_refl _⟩
    · dsimp only
      split
      · exact ⟨_, _, rfl, ⟨_, rfl⟩⟩
      · rw [htaken _ rfl]
        exact ⟨_, _, rfl, ⟨_, rfl⟩⟩

namespace TornPromotion

/-- A collection, and a host that it is suggested. -/
def start : Database :=
  { Database.empty with
    collections := ⟨[⟨1, ⟨0⟩, "links", "", "", ""⟩], List.pairwise_singleton _ _⟩
    outlinkHostSuggestions := ⟨[⟨1, ⟨1⟩, ⟨0⟩, "example.org", 1, .parses [], 0, 0, "pending", none⟩],
      List.pairwise_singleton _ _⟩
    nextUuid := 2 }

/-- An error, and yet a target. -/
theorem not_promoteOutlink_allOrNothing :
    ¬ ∀ (db : Database) (ts : String) (id : Int) (body : PromoteBody) (fails : Option Nat),
      db.AllOrNothing id body (promoted db ts id body fails) := fun h ↦ by
  obtain ⟨n, hn⟩ : start.SameRows (promoted start "" 1 ⟨3600, none⟩ (some 4)).1 :=
    h start "" 1 ⟨3600, none⟩ (some 4)
  have hrows : (promoted start "" 1 ⟨3600, none⟩ (some 4)).1.crawlTargets.rows.length =
      start.crawlTargets.rows.length := by
    rw [hn]
  exact absurd hrows (by decide)

end TornPromotion

end CommunitySearch
