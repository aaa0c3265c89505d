import CommunitySearch.Db.Schema
import CommunitySearch.Foundation.Keyed

/-!
# Peer storage

The tables of the federation: the nodes this engine knows as peers, and which remote collection of
which node each local collection is searched together with.
-/

namespace CommunitySearch

/-- `insert_node_peer`: the table and the new id, or a constraint error. -/
def insertNodePeer (peers : Table NodePeerRow.Clash) (url : String) (name : Option String) :
    Option (Table NodePeerRow.Clash × Int) :=
  let id := nextRowid (peers.rows.map NodePeerRow.id)
  (peers.insert ⟨id, url, name, 1, 0, none, none, none⟩).map (·, id)

/-- `insert_collection_peer`: the table and the new id, or a constraint error. -/
def insertCollectionPeer (subscriptions : Table CollectionPeerRow.Clash)
    (localCollection : String) (nodePeerId : Int) (remoteCollection : String)
    (sourceWeight : Float32) : Option (Table CollectionPeerRow.Clash × Int) :=
  let id := nextRowid (subscriptions.rows.map CollectionPeerRow.id)
  (subscriptions.insert
    ⟨id, localCollection, nodePeerId, remoteCollection, sourceWeight.toFloat, 1⟩).map (·, id)

/-- `delete_collection_peer`. -/
def deleteCollectionPeer (subscriptions : Table CollectionPeerRow.Clash) (id : Int) :
    Table CollectionPeerRow.Clash :=
  subscriptions.deleteWhere fun cp ↦ cp.id = id

/-- The tables of the federation. -/
structure FederationTables where
  nodePeers : Table NodePeerRow.Clash
  collectionPeers : Table CollectionPeerRow.Clash

namespace FederationTables

/-- No peers. -/
def empty : FederationTables := ⟨.empty, .empty⟩

/-- The node with the given id. -/
def nodePeer (t : FederationTables) (id : Int) : Option NodePeerRow :=
  t.nodePeers.rows.find? fun np ↦ np.id = id

end FederationTables

end CommunitySearch
