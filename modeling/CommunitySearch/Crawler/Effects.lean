import CommunitySearch.Foundation.Program
import CommunitySearch.Db.OutlinkHosts
import CommunitySearch.Engine

/-!
# What a crawl task does to the outside

Every suspension point and every locked section of a crawl task is one operation: an HTTP
exchange of one hop, a look into the robots cache, a statement of SQL, a send on the indexer
channel. A crawl task is a program over these operations (`Foundation.Program`).

`Engine.perform` says how the engine answers. What the engine does not determine — the answer of
a server, the iteration order of a hash set, whether SQLite fails — is supplied as an `Answer`.
-/

namespace CommunitySearch

/-- Why a request is made: `Fetcher::fetch` or `Fetcher::fetch_text_raw`. -/
inductive RequestKind where
  | page
  | sitemap
deriving DecidableEq

/-- The conditional headers of a request. -/
structure Validators where
  etag : Option String
  lastModified : Option String
deriving DecidableEq

/-- A response. Headers are given as the text they decode to, if they do; `body` is `none` when
the connection breaks while it is read. -/
structure HttpResponse where
  status : Nat
  contentType : Option String
  etag : Option String
  lastModified : Option String
  retryAfter : Option String
  body : Option String
deriving DecidableEq

/-- What one hop of a request ends with. -/
inductive HttpAnswer where
  | response (r : HttpResponse)
  /-- A redirect status with a `Location`. -/
  | redirect (status : RedirectStatus) (location : String)
  /-- Transport failure. -/
  | failed
deriving DecidableEq

/-- The operations of a crawl task. -/
inductive CrawlOp where
  /-- One hop of a GET with the fetcher's client: the URL requested, and how it was spelled by
  the caller or, for a redirect, is written out. -/
  | request (kind : RequestKind) (target : Url) (spelled : String) (validators : Validators)
  /-- GET `robots.txt` with the robots checker's client, and parse it. -/
  | robotsTxt (url : String)
  | cacheGet (origin : String)
  | cacheInsert (origin : String) (robot : Option Robot)
  /-- Iterate over a hash set. -/
  | intoIter (found : List String)
  | getByUrl (collectionId : Uuid) (url : String)
  /-- `indexing_inflight.fetch_add`. -/
  | inflightAdd (n : Int)
  | send (job : IndexJob)
  | upsert (row : CrawledPageRow)
  | recordHit (collectionId : Uuid) (host : String) (ex : OutlinkExample) (now : Int)

/-- The type of an operation's result. -/
@[reducible] def CrawlOp.Resp : CrawlOp → Type
  | request .. => HttpAnswer
  | robotsTxt _ => Option Robot
  | cacheGet _ => Option (Option Robot)
  | cacheInsert .. => Unit
  | intoIter _ => List String
  -- `none` is an SQL error
  | getByUrl .. => Option (Option CrawledPageRow)
  | inflightAdd _ => Unit
  -- `false`: the channel is closed
  | send _ => Bool
  -- `false`: an SQL error
  | upsert _ => Bool
  | recordHit .. => Bool

/-- The signature of crawl tasks. -/
@[reducible] def CrawlSig : Signature := ⟨CrawlOp, CrawlOp.Resp⟩

/-- The events of a crawl task. -/
abbrev CrawlEvent := CrawlSig.Event

/-- A duration, in milliseconds. -/
abbrev Duration := Nat

/-- `Duration::from_secs`. -/
def Duration.fromSecs (n : Nat) : Duration := 1000 * n

inductive CrawlError where
  | http
  | urlParse
  | robotsDisallowed (url : String)
  | notHtml (contentType : String)
  | rateLimited (retryAfter : Option Duration)
  | other (message : String)
deriving DecidableEq

abbrev CrawlResult (α : Type) := Except CrawlError α

/-- A piece of a crawl task. -/
abbrev Crawl (α : Type) := Prog CrawlSig α

/-- What the environment decides about an operation. -/
inductive Answer where
  | http (a : HttpAnswer)
  | robots (r : Option Robot)
  | order (l : List String)
  /-- The engine answers. -/
  | ok
  | sqlError

namespace Engine

/-- The engine performs an operation: the result and the engine after it, or `none` when the
operation has to wait or the answer is not one to it. -/
def perform (e : Engine) : (o : CrawlOp) → Answer → Option (o.Resp × Engine)
  | .request .., .http a => some (a, e)
  | .robotsTxt _, .robots r => some (r, e)
  | .cacheGet origin, .ok => some (e.robotsCache.get origin, e)
  | .cacheInsert origin robot, .ok =>
    some ((), { e with robotsCache := e.robotsCache.insert origin robot })
  | .intoIter found, .order l => if l.Perm found then some (l, e) else none
  | .getByUrl c u, .ok => some (some (e.db.getByUrl c u), e)
  | .getByUrl .., .sqlError => some (none, e)
  | .inflightAdd n, .ok => some ((), { e with inflight := e.inflight + n })
  | .send job, .ok =>
    match e.indexer with
    | none => some (false, e)
    | some _ =>
      -- a full channel suspends the sender
      if e.upsertQueue.length < CHANNEL_CAPACITY then
        some (true, { e with upsertQueue := e.upsertQueue ++ [job] })
      else none
  | .upsert row, .ok =>
    match e.db.upsertPage row with
    | some db => some (true, { e with db := db })
    | none => some (false, e)
  | .upsert _, .sqlError => some (false, e)
  | .recordHit collectionId host ex now, .ok =>
    match e.db.recordHit collectionId host ex now with
    | some db => some (true, { e with db := db })
    | none => some (false, e)
  | .recordHit .., .sqlError => some (false, e)
  | _, _ => none

/-- **What an operation can change**: the cache by a load, the counter, the queue by a send to a
live indexer, the database by an upsert or a hit. -/
theorem perform_cases {e e' : Engine} {o : CrawlOp} {a : Answer} {r : o.Resp}
    (h : e.perform o a = some (r, e')) :
    e' = e ∨ (∃ cache, e' = { e with robotsCache := cache }) ∨
      (∃ n, e' = { e with inflight := n }) ∨
      (∃ job ix, o = .send job ∧ e.indexer = some ix ∧
        e' = { e with upsertQueue := e.upsertQueue ++ [job] }) ∨
      (∃ row db, o = .upsert row ∧ e.db.upsertPage row = some db ∧ e' = { e with db := db }) ∨
      ∃ c host ex now db, o = .recordHit c host ex now ∧ e.db.recordHit c host ex now = some db ∧
        e' = { e with db := db } := by
  unfold perform at h
  split at h
  case h_4 => exact Or.inr (Or.inl ⟨_, (Prod.mk.inj (Option.some.inj h)).2.symm⟩)
  case h_5 =>
    split at h
    · exact Or.inl (Prod.mk.inj (Option.some.inj h)).2.symm
    · cases h
  case h_8 => exact Or.inr (Or.inr (Or.inl ⟨_, (Prod.mk.inj (Option.some.inj h)).2.symm⟩))
  case h_9 job =>
    split at h
    case h_1 => exact Or.inl (Prod.mk.inj (Option.some.inj h)).2.symm
    case h_2 ix hix =>
      split at h
      · exact Or.inr (Or.inr (Or.inr (Or.inl
          ⟨job, ix, rfl, hix, (Prod.mk.inj (Option.some.inj h)).2.symm⟩)))
      · cases h
  case h_10 row =>
    split at h
    case h_1 db hdb =>
      exact Or.inr (Or.inr (Or.inr (Or.inr (Or.inl
        ⟨row, db, rfl, hdb, (Prod.mk.inj (Option.some.inj h)).2.symm⟩))))
    case h_2 => exact Or.inl (Prod.mk.inj (Option.some.inj h)).2.symm
  case h_12 c host ex now =>
    split at h
    case h_1 db hdb =>
      exact Or.inr (Or.inr (Or.inr (Or.inr (Or.inr
        ⟨c, host, ex, now, db, rfl, hdb, (Prod.mk.inj (Option.some.inj h)).2.symm⟩))))
    case h_2 => exact Or.inl (Prod.mk.inj (Option.some.inj h)).2.symm
  case h_14 => cases h
  all_goals exact Or.inl (Prod.mk.inj (Option.some.inj h)).2.symm

/-- What the answer `r` to an operation says of the environment's part `a` and of the engine: the
environment answers requests and orders sets, the cache answers for itself, and only a load changes
the cache. -/
def Performed (e : Engine) (a : Answer) (e' : Engine) : (o : CrawlOp) → o.Resp → Prop
  | .request .., x => a = .http x ∧ e' = e
  | .robotsTxt _, x => a = .robots x ∧ e' = e
  | .cacheGet origin, entry => entry = e.robotsCache.get origin ∧ e' = e
  | .cacheInsert origin robot, _ =>
    e' = { e with robotsCache := e.robotsCache.insert origin robot }
  | .intoIter found, l => l.Perm found ∧ e' = e
  | _, _ => e'.robotsCache = e.robotsCache

theorem performed_of_perform {e e' : Engine} {o : CrawlOp} {a : Answer} {r : o.Resp}
    (h : e.perform o a = some (r, e')) : Performed e a e' o r := by
  cases o with
  | request =>
    cases a with
    | http x =>
      obtain ⟨rfl, rfl⟩ := Prod.mk.inj (Option.some.inj h)
      exact ⟨rfl, rfl⟩
    | _ => cases h
  | robotsTxt =>
    cases a with
    | robots x =>
      obtain ⟨rfl, rfl⟩ := Prod.mk.inj (Option.some.inj h)
      exact ⟨rfl, rfl⟩
    | _ => cases h
  | cacheGet =>
    cases a with
    | ok =>
      obtain ⟨rfl, rfl⟩ := Prod.mk.inj (Option.some.inj h)
      exact ⟨rfl, rfl⟩
    | _ => cases h
  | cacheInsert =>
    cases a with
    | ok => exact (Prod.mk.inj (Option.some.inj h)).2.symm
    | _ => cases h
  | intoIter =>
    cases a with
    | order l =>
      simp only [perform] at h
      split at h
      case isTrue hperm =>
        obtain ⟨rfl, rfl⟩ := Prod.mk.inj (Option.some.inj h)
        exact ⟨hperm, rfl⟩
      case isFalse => cases h
    | _ => cases h
  | send =>
    cases a with
    | ok =>
      simp only [perform] at h
      split at h
      · obtain ⟨-, rfl⟩ := Prod.mk.inj (Option.some.inj h)
        rfl
      · split at h
        · obtain ⟨-, rfl⟩ := Prod.mk.inj (Option.some.inj h)
          rfl
        · cases h
    | _ => cases h
  | upsert =>
    cases a with
    | ok =>
      simp only [perform] at h
      split at h
      all_goals
        obtain ⟨-, rfl⟩ := Prod.mk.inj (Option.some.inj h)
        rfl
    | sqlError =>
      obtain ⟨-, rfl⟩ := Prod.mk.inj (Option.some.inj h)
      rfl
    | _ => cases h
  | inflightAdd =>
    cases a with
    | ok =>
      obtain ⟨-, rfl⟩ := Prod.mk.inj (Option.some.inj h)
      rfl
    | _ => cases h
  | recordHit =>
    cases a with
    | ok =>
      simp only [perform] at h
      split at h
      all_goals
        obtain ⟨-, rfl⟩ := Prod.mk.inj (Option.some.inj h)
        rfl
    | sqlError =>
      obtain ⟨-, rfl⟩ := Prod.mk.inj (Option.some.inj h)
      rfl
    | _ => cases h
  | _ =>
    cases a with
    | ok | sqlError =>
      obtain ⟨-, rfl⟩ := Prod.mk.inj (Option.some.inj h)
      rfl
    | _ => cases h

end Engine

end CommunitySearch
