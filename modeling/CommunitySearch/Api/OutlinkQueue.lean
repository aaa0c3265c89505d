import CommunitySearch.Api.Outlinks
import CommunitySearch.Foundation.Machine
import Mathlib.Data.List.Induction

/-!
# The review queue of outlinks

What the row of a host in the review queue says, over any sequence of hits, dismissals and
promotions of any hosts. While nothing has been decided about the host, its row counts all the hits
of the host, keeps the first few that are different links, and has the time of the first and of the
last (`OutlinkHostRow.Shows`). Once it is dismissed or promoted, hits leave it as it is
(`outlinkQueue_shows`).
-/

namespace CommunitySearch

/-! ### What the admin should see -/

/-- A sighting of a host. -/
structure Hit where
  link : OutlinkExample
  now : Int
deriving DecidableEq

/-- The same source and target, whatever the text. -/
def OutlinkExample.SameLink (a b : OutlinkExample) : Prop :=
  a.sourceUrl = b.sourceUrl ∧ a.targetUrl = b.targetUrl

instance : DecidableRel OutlinkExample.SameLink := fun _ _ ↦ instDecidableAnd

/-- Of the links that are the same, the first one. -/
def distinctLinks (links : List OutlinkExample) : List OutlinkExample :=
  links.foldl (fun seen e ↦ if ∃ e' ∈ seen, e'.SameLink e then seen else seen ++ [e]) []

/-- The examples to be shown for these hits. -/
def firstExamples (hits : List Hit) : List OutlinkExample :=
  (distinctLinks (hits.map Hit.link)).take MAX_EXAMPLES

/-- **The row shows these hits.** -/
structure OutlinkHostRow.Shows (row : OutlinkHostRow) (hits : List Hit) : Prop where
  linkCount : row.linkCount = hits.length
  examples : row.examplesJson = .parses (firstExamples hits)
  firstSeenAt : hits.head?.map Hit.now = some row.firstSeenAt
  lastSeenAt : hits.getLast?.map Hit.now = some row.lastSeenAt

/-! ### Examples -/

theorem distinctLinks_append_singleton (links : List OutlinkExample) (e : OutlinkExample) :
    distinctLinks (links ++ [e]) =
      if ∃ e' ∈ distinctLinks links, e'.SameLink e then distinctLinks links
      else distinctLinks links ++ [e] := by
  rw [distinctLinks, List.foldl_append]
  rfl

theorem mergeExample_parses (links : List OutlinkExample) (e : OutlinkExample) :
    mergeExample (.parses links) e =
      .parses (if MAX_EXAMPLES ≤ links.length ∨ ∃ e' ∈ links, e'.SameLink e then links
        else links ++ [e]) := by
  have hdup : (links.any fun e' ↦ e'.sourceUrl = e.sourceUrl ∧ e'.targetUrl = e.targetUrl) = true ↔
      ∃ e' ∈ links, e'.SameLink e := by
    simp only [List.any_eq_true, decide_eq_true_eq]
    rfl
  show (if MAX_EXAMPLES ≤ links.length then JsonColumn.parses links
    else if (links.any fun e' ↦ e'.sourceUrl = e.sourceUrl ∧ e'.targetUrl = e.targetUrl) = true
      then .parses links else .parses (links ++ [e])) = _
  by_cases hfull : MAX_EXAMPLES ≤ links.length
  · rw [if_pos hfull, if_pos (Or.inl hfull)]
  · by_cases hold : ∃ e' ∈ links, e'.SameLink e
    · rw [if_neg hfull, if_pos (hdup.2 hold), if_pos (Or.inr hold)]
    · rw [if_neg hfull, if_neg (mt hdup.1 hold), if_neg (not_or.2 ⟨hfull, hold⟩)]

theorem firstExamples_append_singleton (hits : List Hit) (h : Hit) :
    firstExamples (hits ++ [h]) =
      if MAX_EXAMPLES ≤ (firstExamples hits).length ∨ ∃ e ∈ firstExamples hits, e.SameLink h.link
        then firstExamples hits
      else firstExamples hits ++ [h.link] := by
  have hlength := List.length_take (i := MAX_EXAMPLES) (l := distinctLinks (hits.map Hit.link))
  rw [← firstExamples] at hlength
  rw [firstExamples, List.map_append, List.map_singleton, distinctLinks_append_singleton]
  by_cases hfull : MAX_EXAMPLES ≤ (firstExamples hits).length
  · -- no room: what is appended is not among the first ones
    rw [if_pos (Or.inl hfull)]
    split
    · rfl
    · exact List.take_append_of_le_length (by omega)
  · have hall : firstExamples hits = distinctLinks (hits.map Hit.link) :=
      List.take_of_length_le (by omega)
    simp only [hfull, false_or, ← hall]
    split
    · exact List.take_of_length_le (by omega)
    · refine List.take_of_length_le ?_
      rw [List.length_append, List.length_singleton]
      omega

/-- **The stored examples** are brought up to date by merging the new one into them. -/
theorem mergeExample_firstExamples (hits : List Hit) (h : Hit) :
    mergeExample (.parses (firstExamples hits)) h.link =
      .parses (firstExamples (hits ++ [h])) := by
  rw [mergeExample_parses, firstExamples_append_singleton]

theorem firstExamples_singleton (h : Hit) : firstExamples [h] = [h.link] :=
  firstExamples_append_singleton [] h

/-! ### The row after one more hit -/

/-- The row of a host that is still to be decided, after a hit. -/
def OutlinkHostRow.bump (row : OutlinkHostRow) (h : Hit) : OutlinkHostRow :=
  { row with
    linkCount := row.linkCount + 1
    lastSeenAt := h.now
    examplesJson := mergeExample row.examplesJson h.link }

theorem OutlinkHostRow.Shows.bump {row : OutlinkHostRow} {hits : List Hit} (h : Hit)
    (hrow : row.Shows hits) : (row.bump h).Shows (hits ++ [h]) where
  linkCount := by
    rw [OutlinkHostRow.bump, hrow.linkCount, List.length_append, List.length_singleton]
    rfl
  examples := by
    rw [OutlinkHostRow.bump, hrow.examples, mergeExample_firstExamples]
  firstSeenAt := by
    have hfirst := hrow.firstSeenAt
    rcases hits with - | ⟨h₀, hits⟩
    · cases hfirst
    · exact hfirst
  lastSeenAt := by
    rw [List.getLast?_concat]
    rfl

theorem Database.shows_newOutlinkHost (db : Database) (collectionId : Uuid) (host : String)
    (h : Hit) : (db.newOutlinkHost collectionId host h.link h.now).Shows [h] where
  linkCount := rfl
  examples := (firstExamples_singleton h).symm ▸ rfl
  firstSeenAt := rfl
  lastSeenAt := rfl

/-! ### The row of a host -/

namespace Database

variable {db db' : Database} {collectionId : Uuid} {host : String} {row : OutlinkHostRow}

/-- The row of a host in the queue of a collection. -/
def suggestion (db : Database) (collectionId : Uuid) (host : String) : Option OutlinkHostRow :=
  db.outlinkHostSuggestions.rows.find? fun o ↦ o.collectionId = collectionId ∧ o.host = host

/-- The identifiers of the suggestions have been drawn. -/
def SuggestionsDrawn (db : Database) : Prop :=
  ∀ o ∈ db.outlinkHostSuggestions, o.id.serial < db.nextUuid

theorem mem_of_suggestion (h : db.suggestion collectionId host = some row) :
    row ∈ db.outlinkHostSuggestions ∧ row.collectionId = collectionId ∧ row.host = host :=
  ⟨List.mem_of_find?_eq_some h, by simpa using List.find?_some h⟩

/-- A host has one row. -/
theorem eq_of_mem_suggestions {o : OutlinkHostRow} (hrow : row ∈ db.outlinkHostSuggestions)
    (ho : o ∈ db.outlinkHostSuggestions) (h : row.Clash o) : o = row :=
  (Table.eq_of_clash (fun _ _ ↦ Or.imp Eq.symm (Or.imp Eq.symm (And.imp Eq.symm Eq.symm))) hrow ho
    h).symm

theorem suggestion_updateOutlinkHost (db : Database) (rowid : Int)
    (f : OutlinkHostRow → OutlinkHostRow)
    (hf : ∀ o, (f o).rowid = o.rowid ∧ (f o).id = o.id ∧ (f o).collectionId = o.collectionId ∧
      (f o).host = o.host) (collectionId : Uuid) (host : String) :
    (db.updateOutlinkHost rowid f hf).suggestion collectionId host =
      (db.suggestion collectionId host).map fun o ↦ if o.rowid = rowid then f o else o := by
  show List.find? _ (db.outlinkHostSuggestions.rows.map _) = _
  rw [List.find?_map]
  refine congrArg (Option.map _) (congrArg (List.find? · _) (funext fun o ↦ ?_))
  obtain ⟨-, -, hcollection, hhost⟩ := hf o
  show decide ((if o.rowid = rowid then f o else o).collectionId = _ ∧
    (if o.rowid = rowid then f o else o).host = _) = _
  split
  · rw [hcollection, hhost]
  · rfl

theorem SuggestionsDrawn.updateOutlinkHost {rowid : Int} {f : OutlinkHostRow → OutlinkHostRow}
    {hf : ∀ o, (f o).rowid = o.rowid ∧ (f o).id = o.id ∧ (f o).collectionId = o.collectionId ∧
      (f o).host = o.host} (h : db.SuggestionsDrawn) :
    (db.updateOutlinkHost rowid f hf).SuggestionsDrawn := by
  intro o' ho'
  obtain ⟨o, ho, rfl⟩ := List.mem_map.1 ho'
  have hid : (if o.rowid = rowid then f o else o).id = o.id := by
    split
    · exact (hf o).2.1
    · rfl
  rw [hid]
  exact h o ho

theorem suggestion_markPromoted (db : Database) (rowid target : Int) (collectionId : Uuid)
    (host : String) :
    (db.markPromoted rowid target).1.suggestion collectionId host =
      (db.suggestion collectionId host).map fun o ↦
        if o.rowid = rowid then { o with status := "promoted", promotedTargetId := some target }
        else o :=
  suggestion_updateOutlinkHost db rowid
    (fun o ↦ { o with status := "promoted", promotedTargetId := some target })
    (fun _ ↦ ⟨rfl, rfl, rfl, rfl⟩) collectionId host

theorem SuggestionsDrawn.markPromoted (h : db.SuggestionsDrawn) (rowid target : Int) :
    (db.markPromoted rowid target).1.SuggestionsDrawn :=
  @updateOutlinkHost db rowid
    (fun o ↦ { o with status := "promoted", promotedTargetId := some target })
    (fun _ ↦ ⟨rfl, rfl, rfl, rfl⟩) h

theorem suggestion_markDismissed (db : Database) (rowid : Int) (collectionId : Uuid)
    (host : String) :
    (db.markDismissed rowid).1.suggestion collectionId host =
      (db.suggestion collectionId host).map fun o ↦
        if o.rowid = rowid then { o with status := "dismissed" } else o :=
  suggestion_updateOutlinkHost db rowid (fun o ↦ { o with status := "dismissed" })
    (fun _ ↦ ⟨rfl, rfl, rfl, rfl⟩) collectionId host

theorem SuggestionsDrawn.markDismissed (h : db.SuggestionsDrawn) (rowid : Int) :
    (db.markDismissed rowid).1.SuggestionsDrawn :=
  @updateOutlinkHost db rowid (fun o ↦ { o with status := "dismissed" })
    (fun _ ↦ ⟨rfl, rfl, rfl, rfl⟩) h

/-! ### Hits -/

/-- **A hit of a host that is still to be decided.** -/
theorem recordHit_of_pending (hrow : db.suggestion collectionId host = some row)
    (hpending : row.status = "pending") (h : Hit) :
    ∃ db', db.recordHit collectionId host h.link h.now = some db' ∧
      db'.suggestion collectionId host = some (row.bump h) := by
  refine ⟨db.updateOutlinkHost row.rowid (fun o ↦ { o with
    linkCount := o.linkCount + 1
    lastSeenAt := h.now
    examplesJson := mergeExample row.examplesJson h.link }) (fun _ ↦ ⟨rfl, rfl, rfl, rfl⟩), ?_, ?_⟩
  · rw [recordHit, ← suggestion, hrow]
    exact if_pos hpending
  · rw [suggestion_updateOutlinkHost, hrow]
    exact congrArg some (if_pos rfl)

/-- **A hit of a host that has been decided** changes nothing. -/
theorem recordHit_of_decided (hrow : db.suggestion collectionId host = some row)
    (hdecided : row.status ≠ "pending") (h : Hit) :
    db.recordHit collectionId host h.link h.now = some db := by
  rw [recordHit, ← suggestion, hrow]
  exact if_neg hdecided

/-- **The first hit of a host.** -/
theorem recordHit_of_none (hdrawn : db.SuggestionsDrawn)
    (hcollection : db.HasCollection collectionId)
    (hnone : db.suggestion collectionId host = none) (h : Hit) :
    ∃ db', db.recordHit collectionId host h.link h.now = some db' ∧
      db'.suggestion collectionId host =
        some (db.newOutlinkHost collectionId host h.link h.now) := by
  have hfree : ∀ o ∈ db.outlinkHostSuggestions,
      ¬ o.Clash (db.newOutlinkHost collectionId host h.link h.now) := by
    rintro o ho (hrowid | hid | hkey)
    · exact Int.ne_of_lt (lt_nextRowid (List.mem_map_of_mem ho)) hrowid
    · exact Nat.ne_of_lt (hdrawn o ho) (congrArg Uuid.serial hid)
    · exact List.find?_eq_none.1 hnone o ho (decide_eq_true hkey)
  obtain ⟨hosts, hhosts⟩ := Table.exists_insert hfree
  refine ⟨{ db with outlinkHostSuggestions := hosts, nextUuid := db.nextUuid + 1 }, ?_, ?_⟩
  · rw [recordHit, ← suggestion, hnone]
    show (if db.HasCollection collectionId then _ else none) = _
    rw [if_pos hcollection, hhosts]
    rfl
  · show List.find? _ hosts.rows = _
    rw [Table.rows_of_insert hhosts, List.find?_append, ← suggestion, hnone, Option.none_or,
      List.find?_singleton]
    exact if_pos (decide_eq_true ⟨rfl, rfl⟩)

/-- A hit of another host leaves the row. -/
theorem suggestion_recordHit_of_ne {collectionId' : Uuid} {host' : String} {h : Hit}
    (hne : ¬ (collectionId' = collectionId ∧ host' = host))
    (hhit : db.recordHit collectionId' host' h.link h.now = some db') :
    db'.suggestion collectionId host = db.suggestion collectionId host := by
  rw [recordHit] at hhit
  split at hhit
  case h_1 row' hrow' =>
    split at hhit
    · obtain rfl := Option.some.inj hhit
      obtain ⟨hmem', hkey'⟩ := mem_of_suggestion hrow'
      rw [suggestion_updateOutlinkHost]
      refine (Option.map_congr fun o ho ↦ ?_).trans Option.map_id'
      obtain ⟨hmem, hkey⟩ := mem_of_suggestion ho
      refine if_neg fun hrowid ↦ hne ?_
      obtain rfl := eq_of_mem_suggestions hmem' hmem (Or.inl hrowid.symm)
      exact ⟨hkey'.1.symm.trans hkey.1, hkey'.2.symm.trans hkey.2⟩
    · obtain rfl := Option.some.inj hhit
      rfl
  case h_2 =>
    split at hhit
    · obtain ⟨hosts, hhosts, rfl⟩ := Option.map_eq_some_iff.1 hhit
      show List.find? _ hosts.rows = _
      rw [Table.rows_of_insert hhosts, List.find?_append, List.find?_singleton]
      exact (congrArg (Option.or _) (if_neg (mt of_decide_eq_true hne))).trans Option.or_none
    · cases hhit

theorem SuggestionsDrawn.recordHit {h : Hit} (hdb : db.SuggestionsDrawn)
    (hhit : db.recordHit collectionId host h.link h.now = some db') : db'.SuggestionsDrawn := by
  rw [Database.recordHit] at hhit
  split at hhit
  case h_1 =>
    split at hhit
    · obtain rfl := Option.some.inj hhit
      exact hdb.updateOutlinkHost
    · obtain rfl := Option.some.inj hhit
      exact hdb
  case h_2 =>
    split at hhit
    · obtain ⟨hosts, hhosts, rfl⟩ := Option.map_eq_some_iff.1 hhit
      intro o ho
      rcases (Table.mem_of_insert hhosts).1 ho with hold | rfl
      · exact Nat.lt_succ_of_lt (hdb o hold)
      · exact Nat.lt_succ_self _
    · cases hhit

end Database

/-! ### Runs -/

/-- What happens to the queue. -/
inductive QueueOp where
  | hit (collectionId : Uuid) (host : String) (h : Hit)
  | dismiss (id : Int)
  | promote (ts : String) (id : Int) (body : PromoteBody)

namespace QueueOp

/-- An operation that fails leaves the database. -/
def apply (db : Database) : QueueOp → Database
  | hit collectionId host h => (db.recordHit collectionId host h.link h.now).getD db
  | dismiss id =>
    match dismissOutlink db id with
    | .ok db' => db'
    | .error _ => db
  | promote ts id body =>
    match promoteOutlink db ts id body with
    | .ok (db', _) => db'
    | .error _ => db

/-- The hit of the host, if the operation is one. -/
def hitOf (collectionId : Uuid) (host : String) : QueueOp → Option Hit
  | hit collectionId' host' h =>
    if collectionId' = collectionId ∧ host' = host then some h else none
  | dismiss _ | promote _ _ _ => none

/-- The operation is a hit, of whatever host. -/
def IsHit : QueueOp → Prop
  | hit _ _ _ => True
  | dismiss _ | promote _ _ _ => False

end QueueOp

variable {db : Database} {collectionId : Uuid} {host : String} {row : OutlinkHostRow}

/-- The row of a host, as its hits leave it: what it shows are the first hits, and all of them as
long as it is pending. -/
def Database.QueueInv (db : Database) (collectionId : Uuid) (host : String) (hits : List Hit) :
    Prop :=
  match db.suggestion collectionId host with
  | none => hits = []
  | some row => ∃ counted, counted <+: hits ∧ row.Shows counted ∧
      (row.status = "pending" → counted = hits)

/-- A decision about a host, or about another one. -/
def OutlinkHostRow.Decided (row row' : OutlinkHostRow) : Prop :=
  row' = row ∨ ∃ status target, status ≠ "pending" ∧
    row' = { row with status := status, promotedTargetId := target }

/-- **What a decision does to the row of a host.** -/
theorem Database.suggestion_decision (op : QueueOp) (hop : ¬ op.IsHit) (db : Database)
    (collectionId : Uuid) (host : String) :
    ∃ f : OutlinkHostRow → OutlinkHostRow, (∀ o : OutlinkHostRow, o.Decided (f o)) ∧
      (op.apply db).suggestion collectionId host = (db.suggestion collectionId host).map f := by
  have hsame : ∃ f : OutlinkHostRow → OutlinkHostRow, (∀ o : OutlinkHostRow, o.Decided (f o)) ∧
      db.suggestion collectionId host = (db.suggestion collectionId host).map f :=
    ⟨id, fun _ ↦ Or.inl rfl, Option.map_id_apply.symm⟩
  cases op with
  | hit => exact absurd trivial hop
  | dismiss id =>
    rw [QueueOp.apply]
    split
    case h_1 db' hdismiss =>
      obtain rfl := dismissOutlink_eq hdismiss
      refine ⟨_, fun o ↦ ?_, db.suggestion_markDismissed id collectionId host⟩
      split
      · exact Or.inr ⟨"dismissed", o.promotedTargetId, by decide, rfl⟩
      · exact Or.inl rfl
    case h_2 => exact hsame
  | promote ts id body =>
    rw [QueueOp.apply]
    split
    case h_1 db' target hpromote =>
      obtain ⟨row, c, db₁, ct, -, -, -, hadd, rfl, -⟩ := promoteOutlink_eq hpromote
      obtain ⟨-, -, targets, -, rfl⟩ := addTarget_eq hadd
      refine ⟨_, fun o ↦ ?_, suggestion_markPromoted _ id ct.id collectionId host⟩
      split
      · exact Or.inr ⟨"promoted", some ct.id, by decide, rfl⟩
      · exact Or.inl rfl
    case h_2 => exact hsame

theorem OutlinkHostRow.Shows.decided {row' : OutlinkHostRow} {hits : List Hit}
    (hrow : row.Shows hits) (h : row.Decided row') : row'.Shows hits := by
  obtain rfl | ⟨status, target, -, rfl⟩ := h
  · exact hrow
  · exact ⟨hrow.linkCount, hrow.examples, hrow.firstSeenAt, hrow.lastSeenAt⟩

theorem OutlinkHostRow.Decided.pending {row' : OutlinkHostRow} (h : row.Decided row')
    (hpending : row'.status = "pending") : row.status = "pending" := by
  obtain rfl | ⟨status, target, hstatus, rfl⟩ := h
  · exact hpending
  · exact absurd hpending hstatus

/-- **One operation keeps the row right.** -/
theorem Database.QueueInv.step {hits : List Hit} (hdrawn : db.SuggestionsDrawn)
    (hcollection : db.HasCollection collectionId) (hdb : db.QueueInv collectionId host hits)
    (op : QueueOp) :
    (op.apply db).QueueInv collectionId host (hits ++ (op.hitOf collectionId host).toList) := by
  by_cases hop : op.IsHit
  · obtain ⟨collectionId', host', h, rfl⟩ : ∃ c o h, op = .hit c o h := by
      cases op with
      | hit c o h => exact ⟨c, o, h, rfl⟩
      | dismiss => exact hop.elim
      | promote => exact hop.elim
    by_cases hkey : collectionId' = collectionId ∧ host' = host
    · obtain ⟨rfl, rfl⟩ := hkey
      rw [QueueOp.hitOf, if_pos ⟨rfl, rfl⟩, Option.toList_some, QueueOp.apply]
      rw [QueueInv] at hdb
      split at hdb
      case h_1 hnone =>
        obtain ⟨db', hhit, hnew⟩ := recordHit_of_none hdrawn hcollection hnone h
        rw [hhit, Option.getD_some, QueueInv, hnew, hdb]
        exact ⟨[h], List.prefix_rfl, shows_newOutlinkHost db _ _ h, fun _ ↦ rfl⟩
      case h_2 row hrow =>
        obtain ⟨counted, hprefix, hshows, hall⟩ := hdb
        by_cases hpending : row.status = "pending"
        · obtain ⟨db', hhit, hnew⟩ := recordHit_of_pending hrow hpending h
          rw [hhit, Option.getD_some, QueueInv, hnew]
          obtain rfl := hall hpending
          exact ⟨counted ++ [h], List.prefix_rfl, hshows.bump h, fun _ ↦ rfl⟩
        · rw [recordHit_of_decided hrow hpending h, Option.getD_some, QueueInv, hrow]
          exact ⟨counted, hprefix.trans (List.prefix_append _ _), hshows,
            fun hpending' ↦ absurd hpending' hpending⟩
    · have hsame : (QueueOp.apply db (.hit collectionId' host' h)).suggestion collectionId host =
          db.suggestion collectionId host := by
        rw [QueueOp.apply]
        rcases hhit : db.recordHit collectionId' host' h.link h.now with - | db'
        · rfl
        · exact suggestion_recordHit_of_ne hkey hhit
      rw [QueueOp.hitOf, if_neg hkey, Option.toList_none, List.append_nil, QueueInv, hsame]
      exact hdb
  · obtain ⟨f, hf, hmap⟩ := suggestion_decision op hop db collectionId host
    have hnothing : op.hitOf collectionId host = none := by
      cases op with
      | hit => exact absurd trivial hop
      | dismiss => rfl
      | promote => rfl
    rw [hnothing, Option.toList_none, List.append_nil, QueueInv, hmap]
    rw [QueueInv] at hdb
    rcases hrow : db.suggestion collectionId host with - | row
    · rw [hrow] at hdb
      exact hdb
    · rw [hrow] at hdb
      obtain ⟨counted, hprefix, hshows, hall⟩ := hdb
      exact ⟨counted, hprefix, hshows.decided (hf row), fun hpending ↦
        hall ((hf row).pending hpending)⟩

theorem QueueOp.ready (op : QueueOp) (hdrawn : db.SuggestionsDrawn)
    (hcollection : db.HasCollection collectionId) :
    (op.apply db).SuggestionsDrawn ∧ (op.apply db).HasCollection collectionId := by
  cases op with
  | hit collectionId' host' h =>
    rw [apply]
    rcases hhit : db.recordHit collectionId' host' h.link h.now with - | db'
    · exact ⟨hdrawn, hcollection⟩
    · obtain ⟨hosts, n, rfl, -⟩ := (Database.suggests_recordHit hhit).eq
      exact ⟨hdrawn.recordHit hhit, hcollection⟩
  | dismiss id =>
    rw [apply]
    split
    case h_1 db' hdismiss =>
      obtain rfl := dismissOutlink_eq hdismiss
      exact ⟨hdrawn.markDismissed id, hcollection⟩
    case h_2 => exact ⟨hdrawn, hcollection⟩
  | promote ts id body =>
    rw [apply]
    split
    case h_1 db' target hpromote =>
      obtain ⟨row, c, db₁, ct, -, -, -, hadd, rfl, -⟩ := promoteOutlink_eq hpromote
      obtain ⟨-, -, targets, -, rfl⟩ := Database.addTarget_eq hadd
      have hdrawn₁ : Database.SuggestionsDrawn
          { db with crawlTargets := targets, nextUuid := db.nextUuid + 1 } :=
        fun o ho ↦ Nat.lt_succ_of_lt (hdrawn o ho)
      exact ⟨hdrawn₁.markPromoted id ct.id, hcollection⟩
    case h_2 => exact ⟨hdrawn, hcollection⟩

/-- Only hits of the host itself count. -/
theorem Database.suggestion_hits {ops : List QueueOp} (hops : ∀ op ∈ ops, op.IsHit)
    (hrow : db.suggestion collectionId host = some row) (hdecided : row.status ≠ "pending") :
    (ops.foldl QueueOp.apply db).suggestion collectionId host = some row := by
  induction ops generalizing db with
  | nil => exact hrow
  | cons op ops ih =>
    obtain ⟨hop, hops⟩ := List.forall_mem_cons.1 hops
    refine ih hops ?_
    cases op with
    | hit collectionId' host' h =>
      rw [QueueOp.apply]
      by_cases hkey : collectionId' = collectionId ∧ host' = host
      · obtain ⟨rfl, rfl⟩ := hkey
        rw [recordHit_of_decided hrow hdecided h, Option.getD_some, hrow]
      · rcases hhit : db.recordHit collectionId' host' h.link h.now with - | db'
        · exact hrow
        · exact (suggestion_recordHit_of_ne hkey hhit).trans hrow
    | dismiss => exact hop.elim
    | promote => exact hop.elim

/-- **The review queue shows the hits.** For a host without a row, over any sequence of hits,
dismissals and promotions of any hosts:

* it has a row once it has been hit, and never two;
* while its row is pending, the row shows all the hits of the host;
* once its row is dismissed or promoted, the row shows the hits up to then, and whatever is hit
  later leaves it as it is: a hit of the host itself changes nothing in the database. -/
theorem outlinkQueue_shows (db : Database) (collectionId : Uuid) (host : String)
    (hcollection : db.HasCollection collectionId) (hdrawn : db.SuggestionsDrawn)
    (hnew : db.suggestion collectionId host = none) (ops : List QueueOp) :
    let db' := ops.foldl QueueOp.apply db
    let hits := ops.filterMap (QueueOp.hitOf collectionId host)
    (db'.suggestion collectionId host = none ↔ hits = []) ∧
    (∀ o ∈ db'.outlinkHostSuggestions, o.collectionId = collectionId → o.host = host →
      db'.suggestion collectionId host = some o) ∧
    ∀ row, db'.suggestion collectionId host = some row →
      (row.status = "pending" → row.Shows hits) ∧
      (row.status ≠ "pending" →
        (∃ counted, counted <+: hits ∧ row.Shows counted) ∧
        (∀ h : Hit, db'.recordHit collectionId host h.link h.now = some db') ∧
        ∀ later : List QueueOp, (∀ op ∈ later, op.IsHit) →
          (later.foldl QueueOp.apply db').suggestion collectionId host = some row) := by
  intro db' hits
  have hinv : db'.SuggestionsDrawn ∧ db'.HasCollection collectionId ∧
      db'.QueueInv collectionId host hits := by
    induction ops using List.reverseRecOn with
    | nil =>
      refine ⟨hdrawn, hcollection, ?_⟩
      rw [Database.QueueInv, show db'.suggestion collectionId host = none from hnew]
      rfl
    | append_singleton ops op ih =>
      obtain ⟨hdrawn₁, hcollection₁, hinv⟩ := ih
      have hstep := hinv.step hdrawn₁ hcollection₁ op
      have hready := op.ready hdrawn₁ hcollection₁
      have hdb' : db' = op.apply (ops.foldl QueueOp.apply db) := by
        show (ops ++ [op]).foldl QueueOp.apply db = _
        rw [List.foldl_append]
        rfl
      have hhits : hits = ops.filterMap (QueueOp.hitOf collectionId host) ++
          (op.hitOf collectionId host).toList := by
        show (ops ++ [op]).filterMap _ = _
        rw [List.filterMap_append]
        refine congrArg _ ?_
        rcases hop : op.hitOf collectionId host with - | h
        · rw [List.filterMap_cons_none hop]
          rfl
        · rw [List.filterMap_cons_some hop]
          rfl
      rw [hdb', hhits]
      exact ⟨hready.1, hready.2, hstep⟩
  obtain ⟨-, -, hinv⟩ := hinv
  rw [Database.QueueInv] at hinv
  refine ⟨?_, fun o ho hc hh ↦ ?_, fun row hrow ↦ ?_⟩
  · split at hinv
    case h_1 hnone => exact ⟨fun _ ↦ hinv, fun _ ↦ hnone⟩
    case h_2 row hrow =>
      obtain ⟨counted, hcounted, hshows, -⟩ := hinv
      refine ⟨fun hnone ↦ (nomatch hrow.symm.trans hnone), fun hnil ↦ ?_⟩
      rw [hnil, List.prefix_nil] at hcounted
      rw [hcounted] at hshows
      cases hshows.firstSeenAt
  · have hfound : (db'.suggestion collectionId host).isSome :=
      List.find?_isSome.2 ⟨o, ho, decide_eq_true ⟨hc, hh⟩⟩
    obtain ⟨row, hrow⟩ := Option.isSome_iff_exists.1 hfound
    obtain ⟨hmem, hkey⟩ := Database.mem_of_suggestion hrow
    rw [hrow, Database.eq_of_mem_suggestions hmem ho
      (Or.inr (Or.inr ⟨hkey.1.trans hc.symm, hkey.2.trans hh.symm⟩))]
  · rw [hrow] at hinv
    obtain ⟨counted, hprefix, hshows, hall⟩ := hinv
    refine ⟨fun hpending ↦ hall hpending ▸ hshows, fun hdecided ↦ ⟨⟨counted, hprefix, hshows⟩,
      fun h ↦ Database.recordHit_of_decided hrow hdecided h,
      fun later hlater ↦ Database.suggestion_hits hlater hrow hdecided⟩⟩

namespace Blogroll

/-- One collection, no suggestion. -/
def start : Database :=
  { Database.empty with
    collections := ⟨[⟨1, ⟨0⟩, "docs", "", "", ""⟩], List.pairwise_singleton _ _⟩
    nextUuid := 1 }

/-- The same link twice, another link, a dismissal, and a third link. -/
def ops : List QueueOp :=
  [.hit ⟨0⟩ "example.org" ⟨⟨"a", "x", ""⟩, 10⟩, .hit ⟨0⟩ "example.org" ⟨⟨"a", "x", "again"⟩, 20⟩,
    .hit ⟨0⟩ "example.org" ⟨⟨"b", "x", ""⟩, 30⟩, .dismiss 1,
    .hit ⟨0⟩ "example.org" ⟨⟨"c", "x", ""⟩, 40⟩]

/-- The row they leave. -/
def shown : OutlinkHostRow :=
  ⟨1, ⟨1⟩, ⟨0⟩, "example.org", 3, .parses [⟨"a", "x", ""⟩, ⟨"b", "x", ""⟩], 10, 30, "dismissed",
    none⟩

theorem outlinkQueue_shows_dismissed :
    (ops.foldl QueueOp.apply start).suggestion ⟨0⟩ "example.org" = some shown ∧
      ∀ h : Hit, (ops.foldl QueueOp.apply start).recordHit ⟨0⟩ "example.org" h.link h.now =
        some (ops.foldl QueueOp.apply start) :=
  have hrow : (ops.foldl QueueOp.apply start).suggestion ⟨0⟩ "example.org" = some shown := by decide
  have hshows := outlinkQueue_shows start ⟨0⟩ "example.org" ⟨_, List.mem_singleton_self _, rfl⟩
    (fun _ ho ↦ absurd ho (Table.not_mem_empty _)) rfl ops
  ⟨hrow, ((hshows.2.2 shown hrow).2 (by decide)).2.1⟩

end Blogroll

end CommunitySearch
