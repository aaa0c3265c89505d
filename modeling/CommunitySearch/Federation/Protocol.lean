import CommunitySearch.Crawler.Url

/-!
# Protocol versions

Two engines talk when the major versions of their protocols agree. A version string is padded to
three components and parsed as a semantic version, of which only the major and the minor number are
compared; a string that does not parse is incompatible with everything.
-/

namespace CommunitySearch

/-- `PROTOCOL_VERSION`. -/
def PROTOCOL_VERSION : String := "1.0"

/-- `Compatibility`. -/
inductive Compatibility where
  | compatible
  | minorMismatch
  | incompatible
deriving DecidableEq

/-- `normalize`: pad a short version to three components. -/
def normalize (v : String) : String :=
  match v.toList.count '.' with
  | 0 => v ++ ".0.0"
  | 1 => v ++ ".0"
  | _ => v

variable (X : Crates)

/-- `check_compatibility`, between the version of the engine that checks and another one. -/
def checkCompatibility (ours theirs : String) : Compatibility :=
  match X.parseVersion (normalize ours), X.parseVersion (normalize theirs) with
  | some ours, some theirs =>
    if ours.major ≠ theirs.major then .incompatible
    else if ours.minor ≠ theirs.minor then .minorMismatch
    else .compatible
  | _, _ => .incompatible

theorem checkCompatibility_comm (ours theirs : String) :
    checkCompatibility X ours theirs = checkCompatibility X theirs ours := by
  rw [checkCompatibility, checkCompatibility]
  rcases X.parseVersion (normalize ours) with - | v <;>
    rcases X.parseVersion (normalize theirs) with - | w
  · rfl
  · rfl
  · rfl
  · simp only [ne_comm (a := v.major), ne_comm (a := v.minor)]

/-- Engines of one release understand each other. -/
theorem checkCompatibility_self {v : String} (h : (X.parseVersion (normalize v)).isSome = true) :
    checkCompatibility X v v = .compatible := by
  obtain ⟨w, hw⟩ := Option.isSome_iff_exists.1 h
  rw [checkCompatibility, hw]
  simp

end CommunitySearch
