import CommunitySearch.Index.Writer
import CommunitySearch.Crawler.Url

/-!
# The engine

What the tasks of one process share: the database, the index, the indexer task with its two
channels, the counter of jobs in flight, and the cache of robots rules. The database and the
committed index are on disk and survive a crash; everything else is memory.
-/

namespace CommunitySearch

/-- Number of buffered upserts that triggers a commit. -/
def BATCH_SIZE : Nat := 50

/-- Capacity of the upsert channel. -/
def CHANNEL_CAPACITY : Nat := 256

/-- Capacity of the delete channel. -/
def DELETE_CAPACITY : Nat := 32

/-- The state of the indexer task. -/
structure Indexer where
  writer : IndexWriter
  /-- Jobs buffered since the last flush. -/
  pending : Nat

/-- A batch on the delete channel. The source sends the URLs only; the model remembers the target
that was removed. -/
structure DeleteBatch where
  urls : List String
  crawlTargetId : Uuid
  collectionId : Uuid
deriving DecidableEq

/-- The rules loaded for each origin; `none` stands for "missing or unparseable, allow all". -/
abbrev RobotsCache := List (String × Option Robot)

namespace RobotsCache

/-- The rules loaded for an origin, if they are. -/
def get (cache : RobotsCache) (origin : String) : Option (Option Robot) :=
  (List.find? (fun entry ↦ entry.1 = origin) cache).map Prod.snd

/-- Load the rules of an origin; a later load wins. -/
def insert (cache : RobotsCache) (origin : String) (robot : Option Robot) : RobotsCache :=
  (origin, robot) :: cache

theorem get_insert (cache : RobotsCache) (origin o : String) (robot : Option Robot) :
    (cache.insert origin robot).get o = if origin = o then some robot else cache.get o := by
  rw [get, insert, List.find?_cons]
  by_cases h : origin = o
  · simp [h]
  · simp [h, get]

/-- Loaded rules stay as they are; other origins may be loaded. -/
def Keeps (cache cache' : RobotsCache) : Prop :=
  ∀ entry ∈ cache, cache'.get entry.1 = cache.get entry.1

instance (cache cache' : RobotsCache) : Decidable (cache.Keeps cache') :=
  inferInstanceAs (Decidable (∀ entry ∈ cache, cache'.get entry.1 = cache.get entry.1))

variable {cache cache' : RobotsCache}

theorem exists_get_of_mem (cache : RobotsCache) {entry : String × Option Robot}
    (h : entry ∈ cache) : ∃ robot, cache.get entry.1 = some robot := by
  rw [← Option.isSome_iff_exists, RobotsCache.get, Option.isSome_map, List.find?_isSome]
  exact ⟨entry, h, by simp⟩

theorem Keeps.refl (cache : RobotsCache) : cache.Keeps cache := fun _ _ ↦ rfl

theorem Keeps.get (h : cache.Keeps cache') {origin : String} {entry : Option Robot}
    (he : cache.get origin = some entry) : cache'.get origin = some entry := by
  obtain ⟨⟨o, robot⟩, hfind, rfl⟩ := Option.map_eq_some_iff.1 he
  have ho : o = origin := by simpa using List.find?_some hfind
  have hkeep := h _ (List.mem_of_find?_eq_some hfind)
  rw [ho] at hkeep
  exact hkeep.trans he

theorem Keeps.trans {cache'' : RobotsCache} (h : cache.Keeps cache') (h' : cache'.Keeps cache'') :
    cache.Keeps cache'' := by
  intro entry hmem
  obtain ⟨robot, hget⟩ := cache.exists_get_of_mem hmem
  rw [hget, h'.get (h.get hget)]

end RobotsCache

/-- What the tasks share. -/
structure Engine where
  db : Database
  /-- The committed documents. -/
  index : List Document
  /-- The indexer task; `none` once it has exited. -/
  indexer : Option Indexer
  upsertQueue : List IndexJob
  deleteQueue : List DeleteBatch
  /-- `indexing_inflight`. -/
  inflight : Int
  robotsCache : RobotsCache

namespace Indexer

/-- The indexer right after it has opened its writer. -/
def fresh : Indexer := ⟨.fresh, 0⟩

end Indexer

namespace Engine

/-- The process just started over a database and an index. -/
def start (db : Database) (index : List Document) : Engine where
  db := db
  index := index
  indexer := some .fresh
  upsertQueue := []
  deleteQueue := []
  inflight := 0
  robotsCache := []

/-- A fresh installation. -/
def init : Engine := start .empty []

/-- The indexer task is gone, and with it the receiving ends of its channels. -/
def exitIndexer (e : Engine) : Engine :=
  { e with indexer := none, upsertQueue := [], deleteQueue := [] }

/-- The operations buffered but not committed. -/
def buffered (e : Engine) : List IndexCmd :=
  match e.indexer with
  | some ix => ix.writer.commands
  | none => []

/-- What the index will hold after the next commit. -/
def published (e : Engine) : List Document :=
  TermCmd.publish Document.url e.index e.buffered

/-- The commands buffered and the upserts queued, in the order they take effect. -/
def outgoing (e : Engine) : List IndexCmd :=
  e.buffered ++ e.upsertQueue.map fun job ↦ .upsert job.asDocument

/-- What the index will hold once the upserts queued are taken and committed. -/
def eventual (e : Engine) : List Document :=
  TermCmd.publish Document.url e.index e.outgoing

/-- The documents committed or on their way. -/
def documents (e : Engine) : List Document :=
  e.index ++ e.outgoing.filterMap IndexCmd.document?

theorem mem_documents {e : Engine} {d : Document} :
    d ∈ e.documents ↔ d ∈ e.index ∨ TermCmd.upsert d ∈ e.outgoing := by
  rw [documents, List.mem_append, List.mem_filterMap]
  refine or_congr_right ⟨?_, fun h ↦ ⟨_, h, rfl⟩⟩
  rintro ⟨cmd, hcmd, hd⟩
  cases cmd with
  | upsert d' =>
    obtain rfl := Option.some.inj hd
    exact hcmd
  | delete k => cases hd

end Engine

end CommunitySearch
