import CommunitySearch.Crawler.PrefixContainment
import CommunitySearch.System.Targets

/-!
# Where the pages are

A row of the page table names a collection and a target, and the schema checks that each exists. It
does not check that the target is one of that collection, nor that the URL lies in the prefix of the
target; and the crawl that writes the row holds the collection, the target and the prefix as they
were when it was started, while admins remove targets and add others.

That both hold all the same is `pagesPlaced_iff_guarded`. Three things carry it: identifiers are
never given out twice, nothing rewrites the collection or the prefix of a target, and a crawl works
on the URLs of its prefix only. An import is the exception, since it stores the pages of an envelope
under the targets the envelope lists them with.
-/

namespace CommunitySearch

open Prog

variable {X : Crates} {valid : Url → Prop}

/-! ### The rows a crawl writes -/

/-- A row the operation writes is for the page `url` of the crawl. -/
def CrawlOp.WritesPage (ctx : PageContext) (url : String) : CrawlOp → Prop
  | .upsert row => row.url = url ∧ row.collectionId = ctx.collectionId ∧
      row.crawlTargetId = ctx.crawlTargetId
  | _ => True

theorem CrawlOp.IsRobots.writesPage {o : CrawlOp} (ctx : PageContext) (url : String)
    (h : o.IsRobots) : o.WritesPage ctx url := by
  cases o <;> trivial

theorem CrawlOp.IsRequest.writesPage {o : CrawlOp} {kind : RequestKind} (ctx : PageContext)
    (url : String) (h : o.IsRequest kind) : o.WritesPage ctx url := by
  cases o <;> trivial

theorem performs_handleOutcome_writesPage (ctx : PageContext) (url : String) (now : Int)
    (prior : Option CrawledPageRow) (outcome : FetchOutcome) :
    Performs (CrawlOp.WritesPage ctx url) (handleOutcome X ctx url now prior outcome) := by
  have hrow : ∀ row : CrawledPageRow, row.url = url → row.collectionId = ctx.collectionId →
      row.crawlTargetId = ctx.crawlTargetId →
      Performs (CrawlOp.WritesPage ctx url) (upsertRow row) := fun row hu hc ht ↦
    ⟨⟨hu, hc, ht⟩, fun _ ↦ trivial⟩
  cases outcome with
  | rateLimited _ => trivial
  | notModified => exact (hrow _ rfl rfl rfl).attempt fun _ ↦ trivial
  | otherStatus _ => exact (hrow _ rfl rfl rfl).attempt fun _ ↦ trivial
  | fresh status body etag lm finalUrl =>
    refine Performs.attempt ?_ fun _ ↦ (hrow _ rfl rfl rfl).attempt fun _ ↦
      (performs_recordLinks (fun _ _ _ _ ↦ trivial) _ _ _ _).attempt fun _ ↦ trivial
    split
    · trivial
    · refine ⟨trivial, fun _ ↦ ⟨trivial, fun sent ↦ ?_⟩⟩
      cases sent
      · exact ⟨trivial, fun _ ↦ trivial⟩
      · trivial

/-- **A page crawl writes the row of its page**, under the target of the crawl. -/
theorem performs_crawlPage_writesPage (fetcher : Fetcher) (ctx : PageContext) (now : Int)
    (url : String) : Performs (CrawlOp.WritesPage ctx url) (crawlPage X fetcher ctx now url) := by
  refine ((performs_isAllowed url).mono fun _ h ↦ h.writesPage ctx url).attempt fun allowed ↦ ?_
  split
  · trivial
  · refine ⟨trivial, fun row ↦ ?_⟩
    cases row with
    | none => trivial
    | some prior =>
      exact ((performs_fetch _ _ _).mono fun _ h ↦ h.writesPage ctx url).attempt fun outcome ↦
        performs_handleOutcome_writesPage ctx url now prior outcome

/-- The run writes rows of its own target, for URLs of its own prefix. -/
structure CrawlRun.WritesWithin (X : Crates) (run : CrawlRun) : Prop where
  contained : Contained (fun u ↦ isInPrefix X u run.ctx.urlPrefix = true) run
  preluding : run.Preluding
  page : run.PageMeets (fun _ _ ↦ True) (fun url _ o ↦ o.WritesPage run.ctx url) fun _ _ _ ↦ True

theorem CrawlRun.writesWithin_start (hX : X.UrlLaws valid) (fetcher : Fetcher) (ctx : PageContext)
    (config : DriverConfig) (now : Int) :
    (CrawlRun.start X fetcher ctx config now).WritesWithin X :=
  ⟨contained_start hX (fun _ _ _ h ↦ h) _ _ _, preluding_start _ _ _ _, pageMeets_start _ _ _ _⟩

theorem CrawlRun.WritesWithin.step {e e' : Engine} {run run' : CrawlRun} {l : CrawlLabel}
    (hI : run.WritesWithin X) (h : run.step X e l = some (e', run')) : run'.WritesWithin X := by
  have hctx : run'.ctx = run.ctx := (CrawlRun.const_of_step h).1
  refine ⟨?_, hI.preluding.step h, ?_⟩
  · rw [hctx]
    exact hI.contained.step (fun _ _ _ hin ↦ hin) h
  · rw [hctx]
    refine hI.page.step (fun url ↦ ?_) (fun _ _ _ _ _ _ _ _ _ _ ↦ trivial) h
    exact (performs_crawlPage_writesPage _ _ _ url).wp (I := fun _ ↦ True) (fun _ _ _ ho ↦ ho)
      (fun _ _ _ _ _ _ _ ↦ trivial) trivial

/-- **A row a run is about to write** is for a URL of its prefix. -/
theorem CrawlRun.WritesWithin.of_nextOp {run : CrawlRun} (hI : run.WritesWithin X)
    {row : CrawledPageRow} (h : run.nextOp = some (.upsert row)) :
    isInPrefix X row.url run.ctx.urlPrefix = true ∧ row.collectionId = run.ctx.collectionId ∧
      row.crawlTargetId = run.ctx.crawlTargetId := by
  obtain ho | ⟨d, url, k, events, hp⟩ := hI.preluding.of_nextOp h
  · exact ho.elim
  · obtain ⟨rfl, hcollection, htarget⟩ := hI.page.nextOp hp
    exact ⟨(hI.contained.crawling _ _ _ _ hp).1, hcollection, htarget⟩

/-- The operation writes no row. -/
def CrawlOp.WritesNone : CrawlOp → Prop
  | .upsert _ => False
  | _ => True

/-- An import has written its pages before it sends. -/
theorem performs_sendImport_writesNone (report : ImportReport) (jobs : List IndexJob) :
    Performs CrawlOp.WritesNone (sendImport report jobs) := by
  induction jobs with
  | nil => trivial
  | cons job jobs ih =>
    refine ⟨trivial, fun _ ↦ ⟨trivial, fun sent ↦ ?_⟩⟩
    cases sent with
    | true => exact ih
    | false => exact ⟨trivial, fun _ ↦ trivial⟩

/-! ### Sites and places -/

/-- What of a target no operation rewrites. -/
structure TargetSite where
  id : Uuid
  collectionId : Uuid
  urlPrefix : String
deriving DecidableEq

def CrawlTargetRow.site (t : CrawlTargetRow) : TargetSite := ⟨t.id, t.collectionId, t.urlPrefix⟩

/-- What the row of a page says of where it belongs. -/
structure PagePlace where
  collectionId : Uuid
  crawlTargetId : Uuid
  url : String
deriving DecidableEq

def CrawledPageRow.place (p : CrawledPageRow) : PagePlace :=
  ⟨p.collectionId, p.crawlTargetId, p.url⟩

/-- The URL lies inside the prefix. -/
def InPrefix (X : Crates) (url pre : String) : Prop := isInPrefix X url pre = true

instance (X : Crates) : DecidableRel (InPrefix X) := fun url pre ↦
  inferInstanceAs (Decidable (isInPrefix X url pre = true))

/- `K` is what is asked of a URL and the prefix it is stored under: `InPrefix X`, or nothing. -/
variable {K : String → String → Prop}

/-- The place is in the site. -/
def TargetSite.Holds (K : String → String → Prop) (site : TargetSite) (place : PagePlace) : Prop :=
  site.id = place.crawlTargetId ∧ site.collectionId = place.collectionId ∧
    K place.url site.urlPrefix

namespace Database

/-- **Every page belongs to a target of its collection**, and its URL to the prefix of it. -/
def PagesPlaced (K : String → String → Prop) (db : Database) : Prop :=
  ∀ p ∈ db.crawledPages, ∃ t ∈ db.crawlTargets, t.site.Holds K p.place

/-- The identifiers of the targets have been given out. -/
def Drawn (db : Database) : Prop := ∀ t ∈ db.crawlTargets, t.id.serial < db.nextUuid

/-- The site is that of the target of its identifier, as long as the target is there. -/
structure Knows (db : Database) (site : TargetSite) : Prop where
  drawn : site.id.serial < db.nextUuid
  site_eq : ∀ t ∈ db.crawlTargets, t.id = site.id → t.site = site

/-- No target of `db'` has a site of its own, unless its identifier is new. -/
structure KeepsSites (db db' : Database) : Prop where
  supply : db.nextUuid ≤ db'.nextUuid
  site : ∀ t' ∈ db'.crawlTargets, (∃ t ∈ db.crawlTargets, t.site = t'.site) ∨
    db.nextUuid ≤ t'.id.serial ∧ t'.id.serial < db'.nextUuid

/-- The sites are kept, and a page that is left has a target that is left. -/
structure KeepsPlaces (db db' : Database) : Prop extends db.KeepsSites db' where
  place : ∀ p' ∈ db'.crawledPages, ∃ p ∈ db.crawledPages, p.place = p'.place ∧
    ∀ t ∈ db.crawlTargets, t.id = p.crawlTargetId → ∃ t' ∈ db'.crawlTargets, t'.site = t.site

variable {db db' db'' : Database} {ts : String}

theorem KeepsSites.drawn (h : db.KeepsSites db') (hdb : db.Drawn) : db'.Drawn := by
  intro t' ht'
  rcases h.site t' ht' with ⟨t, ht, hsite⟩ | ⟨-, hlt⟩
  · have hid : t.id = t'.id := congrArg TargetSite.id hsite
    exact hid ▸ Nat.lt_of_lt_of_le (hdb t ht) h.supply
  · exact hlt

/-- **What a crawl knows of its target stays true**: an identifier is not given out again. -/
theorem KeepsSites.knows (h : db.KeepsSites db') {site : TargetSite} (hdb : db.Knows site) :
    db'.Knows site where
  drawn := Nat.lt_of_lt_of_le hdb.drawn h.supply
  site_eq t' ht' hid := by
    rcases h.site t' ht' with ⟨t, ht, hsite⟩ | ⟨hge, -⟩
    · rw [← hsite]
      exact hdb.site_eq t ht ((congrArg TargetSite.id hsite).trans hid)
    · rw [hid] at hge
      exact absurd hdb.drawn (Nat.not_lt.2 hge)

theorem KeepsSites.trans (h : db.KeepsSites db') (h' : db'.KeepsSites db'') :
    db.KeepsSites db'' where
  supply := Nat.le_trans h.supply h'.supply
  site t'' ht'' := by
    rcases h'.site t'' ht'' with ⟨t', ht', hsite⟩ | ⟨hge, hlt⟩
    · rcases h.site t' ht' with ⟨t, ht, hsite₀⟩ | ⟨hge, hlt⟩
      · exact Or.inl ⟨t, ht, hsite₀.trans hsite⟩
      · have hid : t'.id = t''.id := congrArg TargetSite.id hsite
        exact Or.inr (hid ▸ ⟨hge, Nat.lt_of_lt_of_le hlt h'.supply⟩)
    · exact Or.inr ⟨Nat.le_trans h.supply hge, hlt⟩

theorem KeepsPlaces.trans (h : db.KeepsPlaces db') (h' : db'.KeepsPlaces db'') :
    db.KeepsPlaces db'' where
  toKeepsSites := h.toKeepsSites.trans h'.toKeepsSites
  place p'' hp'' := by
    obtain ⟨p', hp', hplace', hkept'⟩ := h'.place p'' hp''
    obtain ⟨p, hp, hplace, hkept⟩ := h.place p' hp'
    refine ⟨p, hp, hplace.trans hplace', fun t ht hid ↦ ?_⟩
    obtain ⟨t', ht', hsite⟩ := hkept t ht hid
    have hid' : t'.id = p'.crawlTargetId :=
      (congrArg TargetSite.id hsite).trans (hid.trans (congrArg PagePlace.crawlTargetId hplace))
    obtain ⟨t'', ht'', hsite'⟩ := hkept' t' ht' hid'
    exact ⟨t'', ht'', hsite'.trans hsite⟩

theorem KeepsPlaces.pagesPlaced (h : db.KeepsPlaces db') (hdb : db.PagesPlaced K) :
    db'.PagesPlaced K := by
  intro p' hp'
  obtain ⟨p, hp, hplace, hkept⟩ := h.place p' hp'
  obtain ⟨t, ht, hholds⟩ := hdb p hp
  obtain ⟨t', ht', hsite⟩ := hkept t ht hholds.1
  refine ⟨t', ht', ?_⟩
  rw [hsite, ← hplace]
  exact hholds

/-! ### What the operations leave -/

theorem keepsPlaces_of_eq (htargets : db'.crawlTargets = db.crawlTargets)
    (hpages : db'.crawledPages = db.crawledPages) (hsupply : db.nextUuid ≤ db'.nextUuid) :
    db.KeepsPlaces db' where
  supply := hsupply
  site t' ht' := Or.inl ⟨t', htargets ▸ ht', rfl⟩
  place p hp := ⟨p, hpages ▸ hp, rfl, fun t ht _ ↦ ⟨t, htargets ▸ ht, rfl⟩⟩

/-- Settings of targets are set. -/
theorem keepsPlaces_modify {f : CrawlTargetRow → CrawlTargetRow}
    {hf : ∀ a b, (f a).Clash (f b) → a.Clash b} (hsite : ∀ t, (f t).site = t.site) :
    db.KeepsPlaces { db with crawlTargets := db.crawlTargets.modify f hf } where
  supply := Nat.le_refl _
  site t' ht' := by
    obtain ⟨t, ht, rfl⟩ := List.mem_map.1 ht'
    exact Or.inl ⟨t, ht, (hsite t).symm⟩
  place p hp := ⟨p, hp, rfl, fun t ht _ ↦ ⟨f t, List.mem_map_of_mem ht, hsite t⟩⟩

theorem keepsPlaces_setLastCrawledAt (id : Uuid) (now : Int) :
    db.KeepsPlaces (db.setLastCrawledAt id now) :=
  keepsPlaces_modify fun t ↦ by split <;> rfl

theorem keepsPlaces_setInterval (rowid secs : Int) :
    db.KeepsPlaces (db.setInterval rowid secs).1 :=
  keepsPlaces_modify fun t ↦ by split <;> rfl

theorem keepsPlaces_setCrawlDelay (rowid : Int) (secs : Option Int) :
    db.KeepsPlaces (db.setCrawlDelay rowid secs).1 :=
  keepsPlaces_modify fun t ↦ by split <;> rfl

theorem keepsPlaces_suggests (h : db.Suggests db') : db.KeepsPlaces db' := by
  obtain ⟨_, _, rfl, hsupply⟩ := h.eq
  exact keepsPlaces_of_eq rfl rfl hsupply

theorem keepsPlaces_markIndexedBatch (entries : List IndexedEntry) :
    db.KeepsPlaces (db.markIndexedBatch entries) := by
  obtain ⟨pages, he⟩ := markIndexedBatch_eq db entries
  have htargets : (db.markIndexedBatch entries).crawlTargets = db.crawlTargets := by rw [he]
  refine ⟨⟨by rw [he], fun t' ht' ↦ Or.inl ⟨t', htargets ▸ ht', rfl⟩⟩, fun p' hp' ↦ ?_⟩
  obtain ⟨p, hp, hcollection, hurl, htarget⟩ := key_of_mem_markIndexedBatch hp'
  refine ⟨p, hp, ?_, fun t ht _ ↦ ⟨t, htargets ▸ ht, rfl⟩⟩
  rw [CrawledPageRow.place, CrawledPageRow.place, hcollection, hurl, htarget]

/-- The pages of the target go with it. -/
theorem keepsPlaces_cascadeTarget (id : Uuid) : db.KeepsPlaces (db.cascadeTarget id) where
  supply := Nat.le_refl _
  site t ht := Or.inl ⟨t, (mem_crawlTargets_cascadeTarget.1 ht).1, rfl⟩
  place p hp := by
    obtain ⟨hp, hne⟩ := mem_crawledPages_cascadeTarget.1 hp
    refine ⟨p, hp, rfl, fun t ht hid ↦ ⟨t, ?_, rfl⟩⟩
    exact mem_crawlTargets_cascadeTarget.2 ⟨ht, hid ▸ hne⟩

/-- The pages of a collection go with it, and the pages of its targets do. -/
theorem keepsPlaces_cascadeCollection (id : Uuid) : db.KeepsPlaces (db.cascadeCollection id) where
  supply := Nat.le_refl _
  site t ht := Or.inl ⟨t, (mem_crawlTargets_cascadeCollection.1 ht).1, rfl⟩
  place p hp := by
    obtain ⟨hp, -, htargets⟩ := mem_crawledPages_cascadeCollection.1 hp
    refine ⟨p, hp, rfl, fun t ht hid ↦ ⟨t, ?_, rfl⟩⟩
    exact mem_crawlTargets_cascadeCollection.2 ⟨ht, fun hc ↦ htargets t ht hc hid⟩

theorem keepsPlaces_addTarget {rowid : Int} {pre : String} {secs : Int} {r : CrawlTargetRecord}
    (h : db.addTarget rowid pre secs ts = some (db', r)) : db.KeepsPlaces db' := by
  obtain ⟨c, -, targets, hins, rfl⟩ := addTarget_eq h
  refine ⟨⟨Nat.le_succ _, fun t' ht' ↦ ?_⟩, fun p hp ↦ ⟨p, hp, rfl, fun t ht _ ↦ ?_⟩⟩
  · rcases (Table.mem_of_insert hins).1 ht' with hold | rfl
    · exact Or.inl ⟨t', hold, rfl⟩
    · exact Or.inr ⟨Nat.le_refl _, Nat.lt_succ_self _⟩
  · exact ⟨t, (Table.mem_of_insert hins).2 (Or.inl ht), rfl⟩

theorem keepsPlaces_collections {action : CollectionAction} {r : Option CollectionRecord}
    (h : handleCollections db ts action = .ok (db', r)) : db.KeepsPlaces db' := by
  obtain ⟨_, _, _, -, hc⟩ | ⟨_, _, _, _, -, hu⟩ | ⟨_, _, -, -, rfl⟩ := handleCollections_cases h
  · obtain ⟨_, rfl⟩ := createItem_eq hc
    exact keepsPlaces_of_eq rfl rfl (Nat.le_succ _)
  · obtain ⟨_, rfl⟩ := updateItem_eq hu
    exact keepsPlaces_of_eq rfl rfl (Nat.le_refl _)
  · exact keepsPlaces_cascadeCollection _

theorem keepsPlaces_crawlTargets {detected : Option String} {action : CrawlTargetAction}
    {r : CrawlTargetReply} (h : handleCrawlTargets db ts detected action = .ok (db', r)) :
    db.KeepsPlaces db' := by
  cases crawlTargetChange_of_ok h with
  | added hadd => exact keepsPlaces_addTarget hadd
  | @removed _ t => exact keepsPlaces_cascadeTarget t.id
  | @interval id secs => exact keepsPlaces_setInterval id secs
  | @delay id secs => exact keepsPlaces_setCrawlDelay id secs

theorem keepsPlaces_promoteOutlink {id target : Int} {body : PromoteBody}
    (h : promoteOutlink db ts id body = .ok (db', target)) : db.KeepsPlaces db' := by
  obtain ⟨row, c, db₁, ct, -, -, -, hadd, rfl, -⟩ := promoteOutlink_eq h
  exact (keepsPlaces_addTarget hadd).trans (keepsPlaces_of_eq rfl rfl (Nat.le_refl _))

/-- A row is written for a place that the site of its target holds. -/
theorem pagesPlaced_upsertPage {row : CrawledPageRow} {site : TargetSite}
    (hdb : db.PagesPlaced K) (hknows : db.Knows site) (hholds : site.Holds K row.place)
    (h : db.upsertPage row = some db') : db'.PagesPlaced K := by
  obtain ⟨-, ⟨t₀, ht₀, hid⟩, pages, n, rfl, hpages⟩ := upsertPage_cases h
  have hsite : t₀.site = site := hknows.site_eq t₀ ht₀ (hid.trans hholds.1.symm)
  have hrow : t₀.site.Holds K row.place := hsite ▸ hholds
  intro p' hp'
  rcases hpages with ⟨-, hmem⟩ | hmem
  · obtain ⟨p, hp, rfl⟩ := (hmem p').1 hp'
    split
    case isTrue hkey =>
      refine ⟨t₀, ht₀, ?_⟩
      have hplace : (overwrite row p).place = row.place := by
        rw [CrawledPageRow.place, CrawledPageRow.place, overwrite, hkey.1, hkey.2]
      rw [hplace]
      exact hrow
    case isFalse => exact hdb p hp
  · rcases (hmem p').1 hp' with hold | rfl
    · exact hdb p' hold
    · exact ⟨t₀, ht₀, hrow⟩

/-! ### What an import leaves -/

/-- The targets `ts` are added, and their pages are stored under them. -/
structure LaysOut (db db' : Database) (ts : List ExportedCrawlTarget) : Prop
    extends db.KeepsSites db' where
  kept : ∀ t ∈ db.crawlTargets, t ∈ db'.crawlTargets
  place_kept : ∀ p ∈ db.crawledPages, ∃ p' ∈ db'.crawledPages, p'.place = p.place
  place : ∀ p' ∈ db'.crawledPages, (∃ p ∈ db.crawledPages, p.place = p'.place) ∨
    ∃ e ∈ ts, ∃ q ∈ e.crawledPages, ∃ t ∈ db'.crawlTargets, t.urlPrefix = e.urlPrefix ∧
      p'.place = ⟨t.collectionId, t.id, q.url⟩
  exists_place : ∀ e ∈ ts, ∀ q ∈ e.crawledPages, ∃ t ∈ db'.crawlTargets,
    t.urlPrefix = e.urlPrefix ∧ ∃ p ∈ db'.crawledPages, p.place = ⟨t.collectionId, t.id, q.url⟩

namespace LaysOut

variable {es fs : List ExportedCrawlTarget}

theorem of_eq (htargets : db'.crawlTargets = db.crawlTargets)
    (hpages : db'.crawledPages = db.crawledPages) (hsupply : db.nextUuid ≤ db'.nextUuid) :
    db.LaysOut db' [] where
  supply := hsupply
  site t' ht' := Or.inl ⟨t', htargets ▸ ht', rfl⟩
  kept _ ht := htargets ▸ ht
  place_kept p hp := ⟨p, hpages ▸ hp, rfl⟩
  place p hp := Or.inl ⟨p, hpages ▸ hp, rfl⟩
  exists_place _ he := absurd he List.not_mem_nil

theorem trans (h : db.LaysOut db' es) (h' : db'.LaysOut db'' fs) : db.LaysOut db'' (es ++ fs) where
  toKeepsSites := h.toKeepsSites.trans h'.toKeepsSites
  kept t ht := h'.kept t (h.kept t ht)
  place_kept p hp := by
    obtain ⟨p', hp', hplace⟩ := h.place_kept p hp
    obtain ⟨p'', hp'', hplace'⟩ := h'.place_kept p' hp'
    exact ⟨p'', hp'', hplace'.trans hplace⟩
  place p'' hp'' := by
    rcases h'.place p'' hp'' with ⟨p', hp', hplace'⟩ | ⟨e, he, hlaid⟩
    · rcases h.place p' hp' with ⟨p, hp, hplace⟩ | ⟨e, he, q, hq, t, ht, hpre, hplace⟩
      · exact Or.inl ⟨p, hp, hplace.trans hplace'⟩
      · exact Or.inr ⟨e, List.mem_append_left _ he, q, hq, t, h'.kept t ht, hpre,
          hplace'.symm.trans hplace⟩
    · exact Or.inr ⟨e, List.mem_append_right _ he, hlaid⟩
  exists_place e he q hq := by
    rcases List.mem_append.1 he with he | he
    · obtain ⟨t, ht, hpre, p', hp', hplace⟩ := h.exists_place e he q hq
      obtain ⟨p'', hp'', hplace'⟩ := h'.place_kept p' hp'
      exact ⟨t, h'.kept t ht, hpre, p'', hp'', hplace'.trans hplace⟩
    · exact h'.exists_place e he q hq

theorem trans_nil (h : db.LaysOut db' es) (h' : db'.LaysOut db'' []) : db.LaysOut db'' es := by
  have htrans := h.trans h'
  rwa [List.append_nil] at htrans

/-- **An import keeps the pages placed** exactly when each page it brings lies in the prefix of the
target it is listed under. -/
theorem pagesPlaced_iff (h : db.LaysOut db' es) (hdb : db.PagesPlaced K) :
    db'.PagesPlaced K ↔ ∀ e ∈ es, ∀ q ∈ e.crawledPages, K q.url e.urlPrefix := by
  constructor
  · intro hdb' e he q hq
    obtain ⟨t, ht, hpre, p, hp, hplace⟩ := h.exists_place e he q hq
    obtain ⟨t', ht', hid, -, hin⟩ := hdb' p hp
    rw [hplace] at hid hin
    obtain rfl := eq_of_mem_crawlTargets ht' ht (Or.inr (Or.inl hid))
    exact hpre ▸ hin
  · intro hes p' hp'
    rcases h.place p' hp' with ⟨p, hp, hplace⟩ | ⟨e, he, q, hq, t, ht, hpre, hplace⟩
    · obtain ⟨t, ht, hholds⟩ := hdb p hp
      exact ⟨t, h.kept t ht, hplace ▸ hholds⟩
    · have hin : K q.url t.urlPrefix := hpre ▸ hes e he q hq
      refine ⟨t, ht, ?_⟩
      rw [hplace]
      exact ⟨rfl, rfl, hin⟩

end LaysOut

variable {report report' : ImportReport} {collection : Uuid}

/-- **A target is added** with its pages. -/
theorem laysOut_importTarget {e : ExportedCrawlTarget}
    (h : Sql.exec false (importTarget collection ts report e) db = some (db', report')) :
    db.LaysOut db' [e] := by
  rw [exec_importTarget] at h
  set t := db.importedTarget collection ⟨db.nextUuid⟩ ts e
  obtain ⟨targets, htargets, hpages⟩ := Option.bind_eq_some_iff.1 h
  obtain ⟨hcrawlTargets, hsupply, hplaces⟩ := Sql.loop_done_invariant (I := fun done db₁ _ ↦
    db₁.crawlTargets = targets ∧ db₁.nextUuid = db.nextUuid + 1 ∧
      db₁.crawledPages.rows.map CrawledPageRow.place =
        db.crawledPages.rows.map CrawledPageRow.place ++
          done.map fun q : ExportedCrawledPage ↦ ⟨t.collectionId, t.id, q.url⟩)
    (fun done q db₁ _ db₂ _ hI hq ↦ by
      rw [exec_importPage] at hq
      obtain ⟨pages, hpages, he⟩ := Option.map_eq_some_iff.1 hq
      obtain ⟨rfl, -⟩ := Prod.mk.inj he
      refine ⟨hI.1, hI.2.1, ?_⟩
      rw [Table.rows_of_insert hpages, List.map_append, hI.2.2, List.map_append, List.append_assoc]
      rfl)
    ⟨rfl, rfl, (List.append_nil _).symm⟩ hpages
  have hmem : ∀ {t' : CrawlTargetRow}, t' ∈ db'.crawlTargets ↔ t' ∈ db.crawlTargets ∨ t' = t := by
    rw [hcrawlTargets]
    exact Table.mem_of_insert htargets
  have hplace : ∀ {place : PagePlace}, (∃ p ∈ db'.crawledPages, p.place = place) ↔
      (∃ p ∈ db.crawledPages, p.place = place) ∨
        ∃ q ∈ e.crawledPages, ⟨t.collectionId, t.id, q.url⟩ = place := by
    intro place
    have hmap : ∀ {pages : Table CrawledPageRow.Clash}, (∃ p ∈ pages, p.place = place) ↔
        place ∈ pages.rows.map CrawledPageRow.place := List.mem_map.symm
    rw [hmap, hmap, hplaces, List.mem_append]
    exact or_congr_right List.mem_map
  refine ⟨⟨hsupply ▸ Nat.le_succ _, fun t' ht' ↦ ?_⟩, fun t' ht' ↦ hmem.2 (Or.inl ht'),
    fun p hp ↦ hplace.2 (Or.inl ⟨p, hp, rfl⟩), fun p' hp' ↦ ?_, fun e' he' q hq ↦ ?_⟩
  · rcases hmem.1 ht' with hold | rfl
    · exact Or.inl ⟨t', hold, rfl⟩
    · exact Or.inr ⟨Nat.le_refl _, hsupply ▸ Nat.lt_succ_self _⟩
  · rcases hplace.1 ⟨p', hp', rfl⟩ with hold | ⟨q, hq, hlaid⟩
    · exact Or.inl hold
    · exact Or.inr ⟨e, List.mem_singleton_self e, q, hq, t, hmem.2 (Or.inr rfl), rfl, hlaid.symm⟩
  · obtain rfl := List.mem_singleton.1 he'
    obtain ⟨p, hp, hlaid⟩ := hplace.2 (Or.inr ⟨q, hq, rfl⟩)
    exact ⟨t, hmem.2 (Or.inr rfl), rfl, p, hp, hlaid⟩

/-- **A collection is added** with its targets. -/
theorem laysOut_importCollection {acc acc' : ImportProgress} {c : ExportedCollection}
    (h : Sql.exec false (importCollection X ts acc c) db = some (db', acc')) :
    db.LaysOut db' c.crawlTargets := by
  obtain ⟨cs, db₁, report₁, db₂, report₂, -, htargets, hranking, hhosts, -⟩ :=
    exec_importCollection_eq_some.1 h
  have h₁ : db.LaysOut db₁ c.crawlTargets := by
    refine Sql.loop_done_invariant (I := fun done db₁ _ ↦ db.LaysOut db₁ done)
      (fun _ _ _ _ _ _ hI ht ↦ hI.trans (laysOut_importTarget ht)) ?_ htargets
    exact .of_eq rfl rfl (Nat.le_succ _)
  have h₂ : db₁.LaysOut db₂ [] := by
    obtain ⟨_, rfl, -⟩ := rankings_of_importRankingConfig hranking
    exact .of_eq rfl rfl (Nat.le_refl _)
  have h₃ : db₂.LaysOut db' [] := by
    refine Sql.loop_invariant (I := fun db' _ ↦ db₂.LaysOut db' []) (fun o db₃ _ db₄ _ hI ho ↦ ?_)
      (.of_eq rfl rfl (Nat.le_refl _)) hhosts
    rw [exec_importOutlinkHost] at ho
    obtain ⟨_, -, he⟩ := Option.map_eq_some_iff.1 ho
    obtain ⟨rfl, -⟩ := Prod.mk.inj he
    exact hI.trans_nil (.of_eq rfl rfl (Nat.le_succ _))
  exact (h₁.trans_nil h₂).trans_nil h₃

theorem laysOut_of_collections {acc acc' : ImportProgress} {cs : List ExportedCollection}
    (h : Sql.exec false (Sql.loop (applyCollection X ts) acc cs) db = some (db', acc')) :
    db.LaysOut db' ((newCollections acc.knownCollectionNames cs).flatMap
      ExportedCollection.crawlTargets) := by
  set news := newCollections acc.knownCollectionNames cs with hnews
  obtain ⟨added, hadded, hrest⟩ := newCollections_invariant (I := fun rest db₁ _ ↦
    ∃ added, db.LaysOut db₁ added ∧ added ++ rest.flatMap ExportedCollection.crawlTargets =
      news.flatMap ExportedCollection.crawlTargets)
    (by
      rintro c rest db₁ acc₁ db₂ acc₂ ⟨added, hadded, hrest⟩ hc
      refine ⟨_, hadded.trans (laysOut_importCollection hc), ?_⟩
      rw [← hrest, List.append_assoc, List.flatMap_cons])
    ⟨[], .of_eq rfl rfl (Nat.le_refl _), List.nil_append _⟩ h
  rw [List.flatMap_nil, List.append_nil] at hrest
  exact hrest ▸ hadded

theorem laysOut_applyNodePeer {peers peers' : ImportReport × List String} {p : ExportedNodePeer}
    (h : Sql.exec false (applyNodePeer peers p) db = some (db', peers')) : db.LaysOut db' [] := by
  rw [applyNodePeer] at h
  split at h
  · obtain ⟨rfl, -⟩ := Prod.mk.inj (Option.some.inj h)
    exact .of_eq rfl rfl (Nat.le_refl _)
  · obtain ⟨_, _, hinsert, h⟩ := Sql.exec_attempt_eq_some.1 h
    rw [Sql.exec_execute] at hinsert
    obtain ⟨_, -, he⟩ := Option.map_eq_some_iff.1 hinsert
    obtain ⟨rfl, -⟩ := Prod.mk.inj he
    obtain ⟨rfl, -⟩ := Prod.mk.inj (Option.some.inj h)
    exact .of_eq rfl rfl (Nat.le_refl _)

theorem laysOut_applyCollectionPeer {names urls : List String} {cp : ExportedCollectionPeer}
    (h : Sql.exec false (applyCollectionPeer names urls report cp) db = some (db', report')) :
    db.LaysOut db' [] := by
  rw [applyCollectionPeer] at h
  split at h
  · obtain ⟨rfl, -⟩ := Prod.mk.inj (Option.some.inj h)
    exact .of_eq rfl rfl (Nat.le_refl _)
  · obtain ⟨_, _, hquery, h⟩ := Sql.exec_attempt_eq_some.1 h
    rw [Sql.exec_queryRow] at hquery
    obtain ⟨_, -, he⟩ := Option.map_eq_some_iff.1 hquery
    obtain ⟨rfl, rfl⟩ := Prod.mk.inj he
    obtain ⟨_, _, hinsert, h⟩ := Sql.exec_attempt_eq_some.1 h
    rw [Sql.exec_execute] at hinsert
    obtain ⟨rfl, -⟩ := Prod.mk.inj (Option.some.inj h)
    rcases Database.insertOrIgnoreCollectionPeer_cases hinsert with ⟨_, -, rfl, -⟩ | ⟨rfl, -⟩
    · exact .of_eq rfl rfl (Nat.le_refl _)
    · exact .of_eq rfl rfl (Nat.le_refl _)

/-- **What an import does to the targets and the places of their pages.** -/
theorem laysOut_of_committedImport {env : ExportEnvelope} {jobs : List IndexJob}
    (h : committedImport X ts env db = some (db', report, jobs)) :
    db.LaysOut db' ((newCollections db.collectionNames env.collections).flatMap
      ExportedCollection.crawlTargets) := by
  obtain ⟨db₁, acc, db₂, peers, hcollections, hnodes, hpeers, -⟩ := committedImport_eq_some.1 h
  have h₂ : db₁.LaysOut db₂ [] :=
    Sql.loop_invariant (I := fun db₂ _ ↦ db₁.LaysOut db₂ [])
      (fun _ _ _ _ _ hI hp ↦ hI.trans_nil (laysOut_applyNodePeer hp))
      (.of_eq rfl rfl (Nat.le_refl _)) hnodes
  have h₃ : db₂.LaysOut db' [] :=
    Sql.loop_invariant (I := fun db' _ ↦ db₂.LaysOut db' [])
      (fun _ _ _ _ _ hI hcp ↦ hI.trans_nil (laysOut_applyCollectionPeer hcp))
      (.of_eq rfl rfl (Nat.le_refl _)) hpeers
  exact ((laysOut_of_collections hcollections).trans_nil h₂).trans_nil h₃

end Database

/-! ### The system -/

/-- The site a crawl works on. -/
def PageContext.site (ctx : PageContext) : TargetSite :=
  ⟨ctx.crawlTargetId, ctx.collectionId, ctx.urlPrefix⟩

namespace Sys

/-- The pages of an envelope that is accepted belong to the prefixes of the targets they are listed
under. -/
def ImportsPlaced (X : Crates) (K : String → String → Prop) (s : Sys) : TargetLabel → Prop
  | .other (.importEnvelope env ts) =>
    ∀ r ∈ (acceptImport X s.engine.db ts (.ok env)).toOption,
      ∀ c ∈ newCollections s.engine.db.collectionNames env.collections,
        ∀ e ∈ c.crawlTargets, ∀ q ∈ e.crawledPages, K q.url e.urlPrefix
  | _ => True

instance [DecidableRel K] (s : Sys) (l : TargetLabel) : Decidable (ImportsPlaced X K s l) :=
  match l with
  | .other (.importEnvelope _ _) => inferInstanceAs (Decidable (∀ r ∈ Except.toOption _, _))
  | .add .. | .promote .. | .dismiss _ | .putRanking _ | .other (.collections ..)
  | .other (.crawlTargets ..) | .other (.sendDeletes _) | .other (.import_ ..)
  | .other (.endImport _) | .other (.hangUp _) | .other (.startRun ..) | .other (.crawl ..)
  | .other (.endRun ..) | .other (.indexer ..) | .other .upsertFails | .other .crash =>
    isTrue trivial

theorem importsPlaced_true (s : Sys) (l : TargetLabel) :
    ImportsPlaced X (fun _ _ ↦ True) s l := by
  unfold ImportsPlaced
  split
  · exact fun _ _ _ _ _ _ _ _ ↦ trivial
  · trivial

/-- The invariant: beside the pages, what every crawl holds of its target and will write. -/
structure Placing (X : Crates) (K : String → String → Prop) (s : Sys) : Prop where
  drawn : s.engine.db.Drawn
  pages : s.engine.db.PagesPlaced K
  runs : ∀ run ∈ s.runs, run.WritesWithin X ∧ s.engine.db.Knows run.ctx.site
  imports : ∀ p ∈ s.imports, Performs CrawlOp.WritesNone p

variable {s s' : Sys}

/-- The operation a task waits for keeps the sites, and the pages placed. -/
theorem Placing.perform (hK : ∀ url pre, InPrefix X url pre → K url pre) (h : s.Placing X K)
    {o : CrawlOp} {a : Answer} {r : o.Resp} {e : Engine} {l : SysLabel} (hdue : s.Awaits o a l)
    (hr : s.engine.perform o a = some (r, e)) :
    s.engine.db.KeepsSites e.db ∧ e.db.PagesPlaced K := by
  rcases Engine.db_of_perform hr with hdb | ⟨row, rfl, hdb⟩ | hdb
  · rw [hdb]
    exact ⟨(Database.keepsPlaces_of_eq rfl rfl (Nat.le_refl _)).toKeepsSites, h.pages⟩
  · cases hdue with
    | @crawl _ run hk ho =>
      obtain ⟨hwithin, hknows⟩ := h.runs run (List.mem_of_getElem? hk)
      obtain ⟨hin, hcollection, htarget⟩ := hwithin.of_nextOp ho
      refine ⟨?_, Database.pagesPlaced_upsertPage h.pages hknows
        ⟨htarget.symm, hcollection.symm, hK _ _ hin⟩ hdb⟩
      obtain ⟨-, -, _, _, he, -⟩ := Database.upsertPage_cases hdb
      rw [he]
      exact ⟨Nat.le_refl _, fun t ht ↦ Or.inl ⟨t, ht, rfl⟩⟩
    | import_ hk => exact (h.imports _ (List.mem_of_getElem? hk)).1.elim
  · have hkeeps := Database.keepsPlaces_suggests hdb
    exact ⟨hkeeps.toKeepsSites, hkeeps.pagesPlaced h.pages⟩

/-- **A step of the system** keeps the sites, and the pages placed if an import does. -/
theorem Placing.db_of_dbStep (hK : ∀ url pre, InPrefix X url pre → K url pre)
    (h : s.Placing X K) {l : SysLabel} {db : Database} (hok : ImportsPlaced X K s (.other l))
    (hstep : s.DbStep X l db) : s.engine.db.KeepsSites db ∧ db.PagesPlaced K := by
  have hkept : ∀ {db : Database}, s.engine.db.KeepsPlaces db →
      s.engine.db.KeepsSites db ∧ db.PagesPlaced K := fun hkeeps ↦
    ⟨hkeeps.toKeepsSites, hkeeps.pagesPlaced h.pages⟩
  cases hstep with
  | same => exact hkept (Database.keepsPlaces_of_eq rfl rfl (Nat.le_refl _))
  | collections hr => exact hkept (Database.keepsPlaces_collections hr)
  | crawlTargets hr => exact hkept (Database.keepsPlaces_crawlTargets hr)
  | imported hr =>
    have hlays := Database.laysOut_of_committedImport (committedImport_of_acceptImport hr)
    refine ⟨hlays.toKeepsSites, (hlays.pagesPlaced_iff h.pages).2 fun e he ↦ ?_⟩
    obtain ⟨c, hc, he⟩ := List.mem_flatMap.1 he
    exact hok _ (by rw [hr]; rfl) c hc e he
  | performed hdue hr => exact h.perform hK hdue hr
  | timed =>
    unfold runTime
    split
    · exact hkept (Database.keepsPlaces_setLastCrawledAt _ _)
    · exact hkept (Database.keepsPlaces_of_eq rfl rfl (Nat.le_refl _))
  | turned he =>
    rcases (Engine.turn_of_indexerStep he).db with hdb | ⟨entries, hdb⟩
    · rw [hdb]
      exact hkept (Database.keepsPlaces_of_eq rfl rfl (Nat.le_refl _))
    · rw [hdb]
      exact hkept (Database.keepsPlaces_markIndexedBatch entries)

/-- The target of a crawl that is started is known. -/
theorem knows_of_mem_listDueTargets {now : Int} {d : DueTarget} (h : s.Placing X K)
    (hdue : d ∈ s.engine.db.listDueTargets now) : s.engine.db.Knows d.pageContext.site := by
  obtain ⟨t, ht, -, c, -, rfl⟩ := Database.mem_listDueTargets.1 hdue
  refine ⟨h.drawn t ht, fun t' ht' hid ↦ ?_⟩
  rw [Database.eq_of_mem_crawlTargets ht' ht (Or.inr (Or.inl hid))]
  rfl

/-- The crawls after a step stay within their prefixes. -/
theorem Placing.runs_of_step (hX : X.UrlLaws valid) (h : s.Placing X K) {l : SysLabel}
    (hstep : (sysMachine X).step s l = some s') :
    ∀ run ∈ s'.runs, run.WritesWithin X ∧ s.engine.db.Knows run.ctx.site := by
  cases change_of_step hstep with
  | runStarted hdue =>
    intro run hrun
    rcases List.mem_append.1 hrun with hrun | hrun
    · exact h.runs run hrun
    · obtain rfl := List.mem_singleton.1 hrun
      exact ⟨CrawlRun.writesWithin_start hX _ _ _ _, knows_of_mem_listDueTargets h hdue⟩
  | crawled hk hr =>
    intro run hrun
    rcases List.mem_or_eq_of_mem_set hrun with hrun | rfl
    · exact h.runs run hrun
    · obtain ⟨hwithin, hknows⟩ := h.runs _ (List.mem_of_getElem? hk)
      rw [(CrawlRun.const_of_step hr).1]
      exact ⟨hwithin.step hr, hknows⟩
  | runEnded => exact fun run hrun ↦ h.runs run (List.mem_of_mem_eraseIdx hrun)
  | crashed => exact fun _ hrun ↦ absurd hrun List.not_mem_nil
  | _ => exact h.runs

theorem Placing.imports_of_step (h : s.Placing X K) {l : SysLabel}
    (hstep : (sysMachine X).step s l = some s') :
    ∀ p ∈ s'.imports, Performs CrawlOp.WritesNone p := by
  cases change_of_step hstep with
  | imported =>
    intro p hp
    rcases List.mem_append.1 hp with hp | hp
    · exact h.imports p hp
    · obtain rfl := List.mem_singleton.1 hp
      exact performs_sendImport_writesNone _ _
  | @importStepped _ _ o next r _ hk =>
    intro p hp
    rcases List.mem_or_eq_of_mem_set hp with hp | rfl
    · exact h.imports p hp
    · exact (h.imports _ (List.mem_of_getElem? hk)).2 r
  | importEnded | importDropped => exact fun p hp ↦ h.imports p (List.mem_of_mem_eraseIdx hp)
  | crashed => exact fun _ hp ↦ absurd hp List.not_mem_nil
  | _ => exact h.imports

theorem Placing.step_sys (hX : X.UrlLaws valid) (hK : ∀ url pre, InPrefix X url pre → K url pre)
    (h : s.Placing X K) {l : SysLabel}
    (hok : ImportsPlaced X K s (.other l)) (hstep : (sysMachine X).step s l = some s') :
    s'.Placing X K := by
  obtain ⟨hsites, hpages⟩ := h.db_of_dbStep hK hok (dbStep_of_step hstep)
  refine ⟨hsites.drawn h.drawn, hpages, fun run hrun ↦ ?_, h.imports_of_step hstep⟩
  obtain ⟨hwithin, hknows⟩ := h.runs_of_step hX hstep run hrun
  exact ⟨hwithin, hsites.knows hknows⟩

/-- A request of the review. -/
theorem Placing.withDb (h : s.Placing X K) {db : Database} (hdb : s.engine.db.KeepsPlaces db) :
    (s.withDb db).Placing X K where
  drawn := hdb.drawn h.drawn
  pages := hdb.pagesPlaced h.pages
  runs run hrun := ⟨(h.runs run hrun).1, hdb.knows (h.runs run hrun).2⟩
  imports := h.imports

/-- **One step.** -/
theorem Placing.step (hX : X.UrlLaws valid) (hK : ∀ url pre, InPrefix X url pre → K url pre)
    (h : s.Placing X K) {l : TargetLabel}
    (hok : ImportsPlaced X K s l) (hstep : (targetMachine X).step s l = some s') :
    s'.Placing X K := by
  have hs : s.targetStep X l = some s' := hstep
  unfold targetStep at hs
  cases l with
  | add id pre secs response ts =>
    exact h.step_sys hX hK (l := .crawlTargets (.add id pre secs) _ ts) trivial hs
  | promote id body ts =>
    dsimp only at hs
    split at hs
    case h_1 hr =>
      obtain rfl := Option.some.inj hs
      exact h.withDb (Database.keepsPlaces_promoteOutlink hr)
    case h_2 =>
      obtain rfl := Option.some.inj hs
      exact h
  | dismiss id =>
    dsimp only at hs
    split at hs
    case h_1 hr =>
      obtain rfl := Option.some.inj hs
      exact h.withDb (Database.keepsPlaces_suggests (suggests_dismissOutlink hr))
    case h_2 =>
      obtain rfl := Option.some.inj hs
      exact h
  | putRanking raw =>
    dsimp only at hs
    split at hs
    case h_1 hr =>
      obtain rfl := Option.some.inj hs
      obtain ⟨_, _, -, rfl, -⟩ := Database.putRanking_eq hr
      exact h.withDb (Database.keepsPlaces_of_eq rfl rfl (Nat.le_refl _))
    case h_2 =>
      obtain rfl := Option.some.inj hs
      exact h
  | other l =>
    dsimp only at hs
    split at hs
    · cases hs
    · exact h.step_sys hX hK hok hs

/-- **An import that is accepted with a page out of place** leaves it out of place. -/
theorem Placing.not_pagesPlaced (h : s.Placing X K) {l : TargetLabel}
    (hbad : ¬ ImportsPlaced X K s l) (hstep : (targetMachine X).step s l = some s') :
    ¬ s'.engine.db.PagesPlaced K := by
  intro hplaced
  unfold ImportsPlaced at hbad
  split at hbad
  case h_1 env ts =>
    push Not at hbad
    obtain ⟨⟨db, report, jobs⟩, hr, c, hc, e, he, q, hq, hout⟩ := hbad
    have hs : (sysMachine X).step s (.importEnvelope env ts) = some s' := hstep
    cases move_of_step hs with
    | imported haccept =>
      have hlays := Database.laysOut_of_committedImport (committedImport_of_acceptImport haccept)
      exact hout ((hlays.pagesPlaced_iff h.pages).1 hplaced e
        (List.mem_flatMap.2 ⟨c, hc, he⟩) q hq)
    | importRefused herr =>
      rw [herr] at hr
      cases hr
  case h_2 => exact hbad trivial

theorem placing_init : Sys.init.Placing X K :=
  ⟨fun _ ht ↦ absurd ht (Table.not_mem_empty _), fun _ hp ↦ absurd hp (Table.not_mem_empty _),
    fun _ hrun ↦ absurd hrun List.not_mem_nil, fun _ hp ↦ absurd hp List.not_mem_nil⟩

/-- **Page placement**: over the runs of an installation, whatever the crawls, the admin requests,
the removals and the crashes between them, every page belongs to a target of its collection and lies
inside the prefix of it, all along a run exactly when no import brings in a page outside the prefix
of its target. -/
theorem pagesPlaced_iff_guarded (hX : X.UrlLaws valid) (labels : List TargetLabel) (s : Sys)
    (hrun : (targetMachine X).run .init labels = some s) :
    (∀ l₁ l₂ u, labels = l₁ ++ l₂ → (targetMachine X).run .init l₁ = some u →
      u.engine.db.PagesPlaced (InPrefix X)) ↔
        (targetMachine X).Guarded (ImportsPlaced X (InPrefix X)) .init labels :=
  Machine.forall_prefix_iff_guarded (fun _ hI ↦ hI.pages)
    (fun _ _ _ hI _ hok hs ↦ hI.step hX (fun _ _ h ↦ h) hok hs)
    (fun _ _ _ hI _ hbad hs ↦ hI.not_pagesPlaced hbad hs) placing_init
    (Machine.guarded_true _ _) hrun

theorem placing_of_run (hX : X.UrlLaws valid) {labels : List TargetLabel}
    (hrun : (targetMachine X).run .init labels = some s) : s.Placing X fun _ _ ↦ True :=
  Machine.invariant (M := targetMachine X) (I := Placing X fun _ _ ↦ True)
    (fun _ l _ hI hs ↦ hI.step hX (fun _ _ _ ↦ trivial) (importsPlaced_true _ l) hs)
    placing_init ⟨labels, hrun⟩

/-- The collection of a page is that of its target, whatever is imported. -/
theorem pagesPlaced_of_run (hX : X.UrlLaws valid) {labels : List TargetLabel}
    (hrun : (targetMachine X).run .init labels = some s) :
    s.engine.db.PagesPlaced fun _ _ ↦ True :=
  (placing_of_run hX hrun).pages

end Sys

namespace OnePage

/-- While the site is crawled its target is removed and added again; a crawl of the new target
writes the page, and then the old crawl tries to. -/
def replaced : List TargetLabel :=
  [.other (.collections (.create "guide" "") "t0"),
    .add 1 "https://guide.example/" 3600 none "t1"] ++
  ([startRun due 0] ++ fetch 0 false page ++ send 0).map .other ++
  [.other (.crawlTargets (.remove 1) none "t2"), .add 1 "https://guide.example/" 3600 none "t3"] ++
  ([startRun { due with id := ⟨2⟩ } 0] ++ fetch 1 true page ++ send 1 ++ write 1).map .other ++
  [.other (.crawl 0 (.answer .sqlError))]

end OnePage

/-- The page is that of the new target. -/
theorem Sys.pagesPlaced_replaced : ∃ s,
    (targetMachine OnePage.crates).run .init OnePage.replaced = some s ∧
      (s.engine.db.crawledPages.rows.map fun p ↦ (p.url, p.crawlTargetId)) =
        [("https://guide.example/", ⟨2⟩)] ∧
      s.engine.db.PagesPlaced (InPrefix OnePage.crates) := by
  obtain ⟨s, hrun, hs⟩ : ∃ s, (targetMachine OnePage.crates).run .init OnePage.replaced = some s ∧
      decide ((s.engine.db.crawledPages.rows.map fun p ↦ (p.url, p.crawlTargetId)) =
        [("https://guide.example/", ⟨2⟩)]) = true :=
    Machine.exists_run_of_any (by decide +kernel)
  have hlaws : OnePage.crates.UrlLaws _ :=
    Crates.urlLaws_ofTables (by decide) fun _ hj ↦ absurd hj List.not_mem_nil
  exact ⟨s, hrun, of_decide_eq_true hs, (Sys.pagesPlaced_iff_guarded hlaws _ s hrun).2
    (by decide +kernel) _ [] s (List.append_nil _).symm hrun⟩

end CommunitySearch
