import CommunitySearch.Api.Search
import Mathlib.Data.Set.Finite.Lattice

/-!
# The depth of the fan-out

One search makes engines send requests to their peers, and these to theirs, in a graph that may
have cycles. `hopAt` unfolds it: the address of a request is the list of the choices that lead to
it from the originating one, the last choice first. Nothing is assumed of the engines but that they
run this code: which peers the engine at a URL has may be different for every request it handles,
and it may be anything.

Every engine but the first is asked by the HTTP client of another, which accepts a stream; the
originating request may ask for either form.
-/

namespace CommunitySearch

/-- The tables of the engine at each URL when it handles the request at each address. -/
abbrev Network := String → List Nat → FederationTables

/-- A request on its way to an engine. -/
structure Hop where
  url : String
  headers : HeaderMap
  request : SearchRequest

/-- The headers `HttpPeerClient` sends. -/
def peerClientHeaders : HeaderMap :=
  [("accept", some "*/*"), ("content-type", some "application/json")]

namespace Hop

/-- The requests an engine sends because of one it has received. -/
def forwards (hop : Hop) (t : FederationTables) : List Hop :=
  match searchHandler hop.headers hop.request with
  | .error _ => []
  | .ok call => (call.forwards t).map fun (peer, request) ↦
      ⟨peer.nodePeerUrl, peerClientHeaders, request⟩

end Hop

/-- The request at an address, if there is one. -/
def hopAt (net : Network) (root : Hop) : List Nat → Option Hop
  | [] => some root
  | i :: p => (hopAt net root p).bind fun hop ↦ (hop.forwards (net hop.url p))[i]?

/-- What bounds the requests one search causes. -/
structure FanoutBounded (net : Network) (root : Hop) : Prop where
  /-- Every forwarded request has a smaller depth than the one that caused it. -/
  depth_lt : ∀ i p hop hop', hopAt net root p = some hop → hopAt net root (i :: p) = some hop' →
    hop'.request.depth < hop.request.depth
  /-- Nothing is forwarded at depth zero. -/
  stops : ∀ i p hop, hopAt net root p = some hop → hop.request.depth = 0 →
    hopAt net root (i :: p) = none
  /-- The height of the tree. -/
  height_le : ∀ p, (hopAt net root p).isSome → p.length ≤ min root.request.depth.toNat 256
  /-- The tree is finite. -/
  finite : {p | (hopAt net root p).isSome}.Finite

/-! ### One engine -/

theorem toNat_min_le (m n : UInt32) : (min m n).toNat ≤ m.toNat := by
  show (if m ≤ n then m else n).toNat ≤ m.toNat
  split
  case isTrue => exact Nat.le_refl _
  case isFalse h =>
    exact (Nat.not_le.1 fun hle ↦ h (UInt32.le_iff_toNat_le.2 hle)).le

/-- No endpoint raises the depth of a search. -/
theorem depth_le_of_searchHandler {headers : HeaderMap} {req : SearchRequest} {call : SearchCall}
    (h : searchHandler headers req = .ok call) : call.request.depth.toNat ≤ req.depth.toNat := by
  rw [searchHandler] at h
  split at h
  · cases h
  · split at h
    · obtain rfl := Except.ok.inj h
      exact toNat_min_le req.depth MAX_FANOUT_DEPTH
    · obtain rfl := Except.ok.inj h
      exact Nat.le_refl _

/-- **One engine** forwards only what has depth left, and with less of it. -/
theorem Hop.depth_of_mem_forwards {hop hop' : Hop} {t : FederationTables}
    (h : hop' ∈ hop.forwards t) :
    hop'.request.depth.toNat < hop.request.depth.toNat ∧ hop'.request.depth.toNat ≤ 255 := by
  rw [forwards] at h
  split at h
  case h_1 => cases h
  case h_2 call hcall =>
    obtain ⟨⟨peer, request⟩, hmem, rfl⟩ := List.mem_map.1 h
    obtain ⟨peer', hpeer, he⟩ := List.mem_map.1 hmem
    obtain ⟨rfl, rfl⟩ := Prod.mk.inj he
    have hdepth : (peer'.request call.request (outgoingDepth call.request.depth)).depth.toNat =
        min (call.request.depth.toNat - 1) 255 := toNat_outgoingDepth _
    have hpos : 0 < call.request.depth.toNat := by
      rw [SearchCall.peers] at hpeer
      split at hpeer
      case isTrue hpos =>
        have hlt : (0 : UInt32).toNat < call.request.depth.toNat := UInt32.lt_iff_toNat_lt.1 hpos
        exact hlt
      case isFalse => cases hpeer
    have hle := depth_le_of_searchHandler hcall
    dsimp only
    rw [hdepth]
    omega

/-! ### The tree -/

section Tree

variable {net : Network} {root : Hop}

theorem exists_parent {i : Nat} {p : List Nat} {hop' : Hop}
    (h : hopAt net root (i :: p) = some hop') :
    ∃ hop, hopAt net root p = some hop ∧ (hop.forwards (net hop.url p))[i]? = some hop' :=
  Option.bind_eq_some_iff.1 h

theorem depth_lt_of_child {i : Nat} {p : List Nat} {hop hop' : Hop}
    (h : hopAt net root p = some hop) (h' : hopAt net root (i :: p) = some hop') :
    hop'.request.depth.toNat < hop.request.depth.toNat ∧ hop'.request.depth.toNat ≤ 255 := by
  obtain ⟨hop₀, hp, hi⟩ := exists_parent h'
  obtain rfl := Option.some.inj (hp.symm.trans h)
  exact Hop.depth_of_mem_forwards (List.mem_of_getElem? hi)

/-- Along every path the depth that is left and the steps taken stay below the bound. -/
theorem depth_add_length_le {i : Nat} {p : List Nat} {hop : Hop}
    (h : hopAt net root (i :: p) = some hop) :
    hop.request.depth.toNat + (i :: p).length ≤ min root.request.depth.toNat 256 := by
  induction p generalizing i hop with
  | nil =>
    have hroot : hopAt net root [] = some root := rfl
    have hlt := depth_lt_of_child hroot h
    rw [List.length_singleton]
    omega
  | cons j p ih =>
    obtain ⟨parent, hparent, -⟩ := exists_parent h
    have hlt := depth_lt_of_child hparent h
    have hle := ih hparent
    have hlength : (i :: j :: p).length = (j :: p).length + 1 := rfl
    omega

/-- Each level of the tree is finite. -/
theorem finite_level (n : Nat) : {p | p.length = n ∧ (hopAt net root p).isSome}.Finite := by
  induction n with
  | zero =>
    refine (Set.finite_singleton ([] : List Nat)).subset fun p hp ↦ ?_
    exact List.length_eq_zero_iff.1 hp.1
  | succ n ih =>
    let children (p : List Nat) : Set (List Nat) := (fun i ↦ i :: p) ''
      {i | i < ((hopAt net root p).map fun hop ↦ (hop.forwards (net hop.url p)).length).getD 0}
    have hfinite : (⋃ p ∈ {p | p.length = n ∧ (hopAt net root p).isSome}, children p).Finite :=
      ih.biUnion fun p _ ↦ (Set.finite_lt_nat _).image _
    refine hfinite.subset ?_
    rintro (- | ⟨i, p⟩) ⟨hlength, hsome⟩
    · cases hlength
    · obtain ⟨hop', hhop'⟩ := Option.isSome_iff_exists.1 hsome
      obtain ⟨hop, hhop, hi⟩ := exists_parent hhop'
      have hmem : p ∈ {p | p.length = n ∧ (hopAt net root p).isSome} :=
        ⟨Nat.succ.inj hlength, by rw [hhop]; rfl⟩
      refine Set.mem_biUnion hmem ⟨i, ?_, rfl⟩
      show i < ((hopAt net root p).map _).getD 0
      obtain ⟨hlt, -⟩ := List.getElem?_eq_some_iff.1 hi
      rw [hhop, Option.map_some, Option.getD_some]
      exact hlt

end Tree

/-- **The fan-out is bounded.** In every network of engines, whatever peers they have, and for every
originating `POST /api/search`, of whatever depth and form: every forwarded request has a smaller
depth than the one that caused it, nothing is forwarded at depth zero, and the requests caused by
the search are a finite tree of height at most its depth and 256. -/
theorem fanoutBounded (net : Network) (root : Hop) : FanoutBounded net root := by
  have hheight : ∀ p, (hopAt net root p).isSome → p.length ≤ min root.request.depth.toNat 256 := by
    intro p hp
    obtain ⟨hop, hhop⟩ := Option.isSome_iff_exists.1 hp
    cases p with
    | nil => exact Nat.zero_le _
    | cons i p =>
      have hle := depth_add_length_le hhop
      omega
  refine ⟨fun i p hop hop' h h' ↦ UInt32.lt_iff_toNat_lt.2 (depth_lt_of_child h h').1,
    fun i p hop h hzero ↦ ?_, hheight, ?_⟩
  · cases hchild : hopAt net root (i :: p) with
    | none => rfl
    | some hop' =>
      have hlt := (depth_lt_of_child h hchild).1
      rw [hzero] at hlt
      exact absurd hlt (Nat.not_lt_zero _)
  · have hfinite : (⋃ n ∈ {n | n < min root.request.depth.toNat 256 + 1},
        {p | p.length = n ∧ (hopAt net root p).isSome}).Finite :=
      (Set.finite_lt_nat _).biUnion fun n _ ↦ finite_level n
    refine hfinite.subset fun p hp ↦ Set.mem_biUnion (x := p.length) ?_ ⟨rfl, hp⟩
    exact Nat.lt_succ_of_le (hheight p hp)

end CommunitySearch
