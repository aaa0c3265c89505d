import CommunitySearch.Federation.Storage
import CommunitySearch.Search.Result

/-!
# Fan-out

A search with remaining depth is forwarded to the enabled peers of its collection, all at once, and
their outcomes come back in completion order. `dispatch` patches the request for each peer and
`ActiveCollectionPeer.outcome` what the peer answers; the order is the environment's.
-/

namespace CommunitySearch

/-- A row of `collection_peers` with the URL of its node. -/
structure ActiveCollectionPeer where
  collectionPeerId : Int
  nodePeerId : Int
  nodePeerUrl : String
  remoteCollection : String
  sourceWeight : Float32
  sourceLabel : String

/-- The outcome of a request to one peer. -/
structure PeerOutcome where
  nodePeerId : Int
  sourceLabel : String
  sourceWeight : Float32
  result : Except String (List SearchResult)
  elapsedMs : Int

/-- `active_collection_peers_for`: the enabled rows of a local collection whose node is enabled,
by the id of the row. -/
def activeCollectionPeersFor (t : FederationTables) (localCollection : String) :
    List ActiveCollectionPeer :=
  (t.collectionPeers.rows.insertionSort fun a b ↦ a.id ≤ b.id).filterMap fun cp ↦
    (t.nodePeer cp.nodePeerId).bind fun np ↦
      if cp.localCollection = localCollection ∧ cp.enabled = 1 ∧ np.enabled = 1 then
        some
          { collectionPeerId := cp.id
            nodePeerId := np.id
            nodePeerUrl := np.url
            remoteCollection := cp.remoteCollection
            sourceWeight := cp.sourceWeight.toFloat32
            sourceLabel := "peer:" ++ np.url ++ "/" ++ cp.remoteCollection }
      else none

/-- `depth.saturating_sub(1).min(u8::MAX as u32) as u8`. -/
def outgoingDepth (depth : UInt32) : UInt8 :=
  (min (if depth = 0 then 0 else depth - 1) 255).toUInt8

namespace ActiveCollectionPeer

/-- The request for a peer. -/
def request (peer : ActiveCollectionPeer) (request : SearchRequest) (outgoingDepth : UInt8) :
    SearchRequest :=
  { request with depth := outgoingDepth.toUInt32, collection := some peer.remoteCollection }

/-- The outcome of a peer: its results are labelled and weighted. -/
def outcome (peer : ActiveCollectionPeer) (answer : Except String (List SearchResult))
    (elapsedMs : Int) : PeerOutcome where
  nodePeerId := peer.nodePeerId
  sourceLabel := peer.sourceLabel
  sourceWeight := peer.sourceWeight
  result := answer.map fun results ↦ results.map fun r ↦
    { r with source := peer.sourceLabel, score := r.score * peer.sourceWeight }
  elapsedMs := elapsedMs

end ActiveCollectionPeer

/-- `dispatch`: the requests that are sent. -/
def dispatch (peers : List ActiveCollectionPeer) (request : SearchRequest) (outgoingDepth : UInt8) :
    List (ActiveCollectionPeer × SearchRequest) :=
  peers.map fun peer ↦ (peer, peer.request request outgoingDepth)

/-! ### The depth of a forwarded request -/

theorem toNat_min_255 (n : UInt32) : (min n 255).toUInt8.toUInt32.toNat = min n.toNat 255 := by
  have hmin : (min n 255).toNat = min n.toNat 255 := by
    show (if n ≤ 255 then n else 255).toNat = _
    split
    case isTrue h => exact (Nat.min_eq_left (UInt32.le_iff_toNat_le.1 h)).symm
    case isFalse h =>
      have hlt : 255 < n.toNat := Nat.not_le.1 fun hle ↦ h (UInt32.le_iff_toNat_le.2 hle)
      exact (Nat.min_eq_right hlt.le).symm
  rw [UInt8.toNat_toUInt32, UInt32.toNat_toUInt8, hmin]
  exact Nat.mod_eq_of_lt (by omega)

/-- **A forwarded depth** is one less, and fits a byte. -/
theorem toNat_outgoingDepth (depth : UInt32) :
    (outgoingDepth depth).toUInt32.toNat = min (depth.toNat - 1) 255 := by
  rw [outgoingDepth, toNat_min_255]
  split
  case isTrue h =>
    subst h
    rfl
  case isFalse h =>
    have hpos : (1 : UInt32).toNat ≤ depth.toNat :=
      Nat.one_le_iff_ne_zero.2 fun hz ↦ h (UInt32.toNat_inj.1 hz)
    rw [UInt32.toNat_sub_of_le _ _ (UInt32.le_iff_toNat_le.2 hpos)]
    rfl

end CommunitySearch
