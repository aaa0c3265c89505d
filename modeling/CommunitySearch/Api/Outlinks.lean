import CommunitySearch.Api.Admin
import CommunitySearch.Db.OutlinkHosts

/-!
# The admin handlers of outlink suggestions

A host of the review queue is promoted to a crawl target of its collection, or dismissed. A
promotion stores a prefix as the admin writes it, or made from the host.
-/

namespace CommunitySearch

def ApiError.outlinkNotFound (id : Int) : ApiError :=
  ⟨404, "outlink " ++ toString id ++ " not found"⟩

/-- The request to promote a host. -/
structure PromoteBody where
  recrawlIntervalSecs : Int
  urlPrefix : Option String

/-- The prefix stored for a host that is promoted. -/
def PromoteBody.targetPrefix (body : PromoteBody) (host : String) : String :=
  body.urlPrefix.getD ("https://" ++ host ++ "/")

/-- `promote_outlink`: the reply is the id of the target. -/
def promoteOutlink (db : Database) (ts : String) (id : Int) (body : PromoteBody) :
    Except ApiError (Database × Int) :=
  match db.outlinkHostByRowid id with
  | none => .error (.outlinkNotFound id)
  | some row =>
    match db.collections.rows.find? fun c ↦ c.id = row.collectionId with
    | none => .error .sql
    | some c =>
      match db.addTarget c.rowid (body.targetPrefix row.host) body.recrawlIntervalSecs ts with
      | some (db', ct) => .ok ((db'.markPromoted id ct.id).1, ct.id)
      | none => .error .sql

/-- `dismiss_outlink`. -/
def dismissOutlink (db : Database) (id : Int) : Except ApiError Database :=
  match db.markDismissed id with
  | (db', true) => .ok db'
  | (_, false) => .error (.outlinkNotFound id)

variable {db db' : Database}

/-- What a dismissal does: the suggestion is marked. -/
theorem dismissOutlink_eq {id : Int} (h : dismissOutlink db id = .ok db') :
    db' = (db.markDismissed id).1 := by
  rw [dismissOutlink] at h
  split at h
  case h_1 hmarked =>
    rw [hmarked]
    exact (Except.ok.inj h).symm
  case h_2 => cases h

/-- **What a promotion does**: a target is added, and the suggestion is marked. -/
theorem promoteOutlink_eq {ts : String} {id target : Int} {body : PromoteBody}
    (h : promoteOutlink db ts id body = .ok (db', target)) :
    ∃ row c db₁ ct, db.outlinkHostByRowid id = some row ∧ c ∈ db.collections ∧
      c.id = row.collectionId ∧
      db.addTarget c.rowid (body.targetPrefix row.host) body.recrawlIntervalSecs ts =
        some (db₁, ct) ∧
      db' = (db₁.markPromoted id ct.id).1 ∧ target = ct.id := by
  unfold promoteOutlink at h
  split at h
  case h_1 => cases h
  case h_2 row hrow =>
    split at h
    case h_1 => cases h
    case h_2 c hc =>
      split at h
      case h_1 db₁ ct hadd =>
        obtain ⟨rfl, rfl⟩ := Prod.mk.inj (Except.ok.inj h)
        exact ⟨row, c, db₁, ct, hrow, List.mem_of_find?_eq_some hc,
          by simpa using List.find?_some hc, hadd, rfl, rfl⟩
      case h_2 => cases h

/-- A host that is dismissed changes no table but its own. -/
theorem suggests_dismissOutlink {id : Int} (h : dismissOutlink db id = .ok db') :
    db.Suggests db' := by
  rw [dismissOutlink_eq h]
  exact @Database.suggests_updateOutlinkHost db id (fun o ↦ { o with status := "dismissed" })
    (fun _ ↦ ⟨rfl, rfl, rfl, rfl⟩)

end CommunitySearch
