import CommunitySearch.Crawler.SitemapXml
import CommunitySearch.Foundation.Worklist

/-!
# Which sitemaps are fetched, and what comes of them

`discoverUrls` calls the robots checker and the fetcher, and otherwise only computes. `discover` is
the same program over these calls (`discoverUrls_eq_interp`), so that a fetched sitemap is one
operation, however many redirects it takes.

Against servers that do not change the calls are determined: `fetchOrder` lists the sitemaps the
traversal leads to, and `fetched` what of it is fetched until the cap on URLs is reached. The cap on
sitemaps is kept exactly when the order is short enough or the cap on URLs comes first
(`wp_discover_bounded_iff`): children are admitted against the sitemaps visited so far, and the
candidates after the index are still to come.

What is returned is what the parser reads in the fetched sitemaps (`wp_discover`). What a sitemap
document lists may be more than that, so the result is complete when every URL that is listed is
also read somewhere, or the cap on URLs is reached (`wp_discover_sound_iff`).
-/

namespace CommunitySearch

open Prog (ret wp wp_bind wp_mono wp_and)
open Worklist (fresh mem_fresh nodup_fresh)

/-! ### The calls of the traversal -/

/-- The calls of `discover_urls`. -/
inductive SitemapOp where
  /-- `sitemaps_for`, no sitemaps on an error. -/
  | sitemapsFor (url : String)
  /-- `is_allowed`, allowed on an error. -/
  | isAllowed (url : String)
  /-- `fetch_text_raw`, if it gives a body. -/
  | fetchText (url : String)
  /-- Iterate over a hash set. -/
  | intoIter (found : List String)

@[reducible] def SitemapOp.Resp : SitemapOp → Type
  | sitemapsFor _ => List String
  | isAllowed _ => Bool
  | fetchText _ => Option String
  | intoIter _ => List String

@[reducible] def SitemapSig : Signature := ⟨SitemapOp, SitemapOp.Resp⟩

/-- A piece of the traversal. -/
abbrev Discovery (α : Type) := Prog SitemapSig α

variable (X : Crates)

/-- What a call does. -/
def SitemapOp.call (fetcher : Fetcher) : (o : SitemapOp) → Crawl o.Resp
  | sitemapsFor url => (CommunitySearch.sitemapsFor X url).bind fun declared ↦
      ret (declared.toOption.getD [])
  | isAllowed url => (CommunitySearch.isAllowed X url).bind fun allowed ↦
      ret (allowed.toOption.getD true)
  | fetchText url => (fetchTextRaw X fetcher url MAX_SITEMAP_BYTES).bind fun body ↦
      ret (body.toOption.getD none)
  | intoIter found => .op (.intoIter found) ret

namespace Discovery

/-- `collectSitemapCandidates`, over the calls. -/
def collectCandidates (seedUrl : String) : Discovery (List String) :=
  .op (.sitemapsFor seedUrl) fun out ↦
    match defaultSitemapUrl X seedUrl with
    | some default => ret (if default ∈ out then out else out ++ [default])
    | none => ret out

/-- `addUrls`, over the calls. -/
def addUrls (pre : String) (maxUrls : Nat) :
    List String → List String → Discovery (List String × Bool)
  | [], found => ret (found, false)
  | u :: us, found =>
    match normalizeUrl X u with
    | none => addUrls pre maxUrls us found
    | some norm =>
      if !isInPrefix X norm pre then addUrls pre maxUrls us found
      else .op (.isAllowed norm) fun allowed ↦
        if !allowed then addUrls pre maxUrls us found
        else
          let found := insertUrl found norm
          if found.length ≥ maxUrls then ret (found, true) else addUrls pre maxUrls us found

/-- `visitSitemaps`, over the calls. -/
def visitSitemaps (pre : String) (maxUrls : Nat) :
    List String → SitemapRound → Discovery SitemapRound
  | [], s => ret s
  | url :: urls, s =>
    if url ∈ s.visited then visitSitemaps pre maxUrls urls s
    else
      let s := { s with visited := s.visited ++ [url] }
      .op (.isAllowed url) fun allowed ↦
        if !allowed then visitSitemaps pre maxUrls urls s
        else .op (.fetchText url) fun body ↦
          match body.bind (parseSitemap X) with
          | none => visitSitemaps pre maxUrls urls s
          | some (.urls us) =>
            (addUrls X pre maxUrls us s.found).bind fun (found, full) ↦
              let s := { s with found := found, full := full }
              if full then ret s else visitSitemaps pre maxUrls urls s
          | some (.index children) =>
            visitSitemaps pre maxUrls urls
              { s with nextRound := queueChildren s.visited children s.nextRound }

/-- `sitemapRounds`, over the calls. -/
def sitemapRounds (pre : String) (maxUrls : Nat) :
    (depth : Nat) → List String → SitemapRound → Discovery (List String)
  | depth, toVisit, s =>
    (visitSitemaps X pre maxUrls toVisit { s with nextRound := [] }).bind fun s ↦
      if s.full || s.nextRound.isEmpty then ret s.found
      else match depth with
        | 0 => ret s.found
        | depth + 1 => sitemapRounds pre maxUrls depth s.nextRound s

end Discovery

/-- `discoverUrls`, over the calls. -/
def discover (seedUrl pre : String) (maxUrls : Nat) : Discovery (List String) :=
  if maxUrls = 0 then ret []
  else (Discovery.collectCandidates X seedUrl).bind fun candidates ↦
    if candidates.isEmpty then ret []
    else
      (Discovery.sitemapRounds X pre maxUrls 1 (candidates.take MAX_SITEMAPS_PER_TARGET)
        ⟨[], [], [], false⟩).bind fun found ↦
          .op (.intoIter found) ret

namespace Discovery

variable {X} {fetcher : Fetcher}

theorem interp_collectCandidates (seedUrl : String) :
    (collectCandidates X seedUrl).interp (SitemapOp.call X fetcher) =
      collectSitemapCandidates X seedUrl := by
  rw [collectCandidates, collectSitemapCandidates, Prog.interp, SitemapOp.call, Prog.bind_assoc]
  refine congrArg (Prog.bind _) (funext fun declared ↦ ?_)
  show Prog.interp _ _ = _
  cases defaultSitemapUrl X seedUrl <;> rfl

theorem interp_addUrls (pre : String) (maxUrls : Nat) (us found : List String) :
    (addUrls X pre maxUrls us found).interp (SitemapOp.call X fetcher) =
      CommunitySearch.addUrls X pre maxUrls us found := by
  induction us generalizing found with
  | nil => rfl
  | cons u us ih =>
    rw [addUrls, CommunitySearch.addUrls]
    cases normalizeUrl X u with
    | none => exact ih found
    | some norm =>
      dsimp only
      split
      · exact ih found
      · rw [Prog.interp, SitemapOp.call, Prog.bind_assoc]
        refine congrArg (Prog.bind _) (funext fun allowed ↦ ?_)
        show Prog.interp _ _ = _
        split
        · exact ih found
        · split
          · rfl
          · exact ih _

theorem interp_visitSitemaps (pre : String) (maxUrls : Nat) (urls : List String)
    (s : SitemapRound) :
    (visitSitemaps X pre maxUrls urls s).interp (SitemapOp.call X fetcher) =
      CommunitySearch.visitSitemaps X fetcher pre maxUrls urls s := by
  induction urls generalizing s with
  | nil => rfl
  | cons url urls ih =>
    rw [visitSitemaps, CommunitySearch.visitSitemaps]
    split
    · exact ih s
    · rw [Prog.interp, SitemapOp.call, Prog.bind_assoc]
      refine congrArg (Prog.bind _) (funext fun allowed ↦ ?_)
      show Prog.interp _ _ = _
      split
      · exact ih _
      · rw [Prog.interp, SitemapOp.call, Prog.bind_assoc]
        refine congrArg (Prog.bind _) (funext fun body ↦ ?_)
        show Prog.interp _ _ = _
        rcases body with err | _ | text
        · exact ih _
        · exact ih _
        · dsimp only [Except.toOption, Option.getD_some, Option.bind_some]
          rcases parseSitemap X text with _ | us | children
          · exact ih _
          · dsimp only
            rw [Prog.interp_bind, interp_addUrls]
            refine congrArg (Prog.bind _) (funext fun r ↦ ?_)
            obtain ⟨found, full⟩ := r
            dsimp only
            split
            · rfl
            · exact ih _
          · exact ih _

theorem interp_sitemapRounds (pre : String) (maxUrls depth : Nat) (toVisit : List String)
    (s : SitemapRound) :
    (sitemapRounds X pre maxUrls depth toVisit s).interp (SitemapOp.call X fetcher) =
      CommunitySearch.sitemapRounds X fetcher pre maxUrls depth toVisit s := by
  induction depth generalizing toVisit s with
  | zero =>
    rw [sitemapRounds, CommunitySearch.sitemapRounds, Prog.interp_bind, interp_visitSitemaps]
    refine congrArg (Prog.bind _) (funext fun s ↦ ?_)
    split <;> rfl
  | succ depth ih =>
    rw [sitemapRounds, CommunitySearch.sitemapRounds, Prog.interp_bind, interp_visitSitemaps]
    refine congrArg (Prog.bind _) (funext fun s ↦ ?_)
    split
    · rfl
    · exact ih _ _

end Discovery

/-- **The traversal is the program of its calls.** -/
theorem discoverUrls_eq_interp (fetcher : Fetcher) (seedUrl pre : String) (maxUrls : Nat) :
    discoverUrls X fetcher seedUrl pre maxUrls =
      (discover X seedUrl pre maxUrls).interp (SitemapOp.call X fetcher) := by
  rw [discoverUrls, discover]
  split
  · rfl
  · rw [Prog.interp_bind, Discovery.interp_collectCandidates]
    refine congrArg (Prog.bind _) (funext fun candidates ↦ ?_)
    split
    · rfl
    · rw [Prog.interp_bind, Discovery.interp_sitemapRounds]
      rfl

/-! ### Servers that do not change -/

/-- What the servers answer to the calls. -/
structure SitemapServers where
  /-- The sitemaps that the robots file of the seed declares. -/
  declared : List String
  allows : String → Bool
  /-- The body of a sitemap, if it is served. -/
  text : String → Option String

namespace SitemapServers

variable (W : SitemapServers)

/-- The answers, over the sitemaps fetched so far. A set is iterated in any order. -/
def handles (fetched : List String) : (o : SitemapOp) → o.Resp → List String → Prop
  | .sitemapsFor _, r, f => r = W.declared ∧ f = fetched
  | .isAllowed url, r, f => r = W.allows url ∧ f = fetched
  | .fetchText url, r, f => r = W.text url ∧ f = fetched ++ [url]
  | .intoIter found, r, f => r.Perm found ∧ f = fetched

theorem exists_handles (f : List String) (o : SitemapOp) : ∃ r f', W.handles f o r f' := by
  cases o with
  | sitemapsFor url => exact ⟨_, _, rfl, rfl⟩
  | isAllowed url => exact ⟨_, _, rfl, rfl⟩
  | fetchText url => exact ⟨_, _, rfl, rfl⟩
  | intoIter found => exact ⟨_, _, List.Perm.refl found, rfl⟩

/-- What a sitemap says, if it is served and parses. -/
def document (url : String) : Option ParsedSitemap :=
  (W.text url).bind (parseSitemap X)

/-- What an entry of a sitemap adds. -/
def accept (pre u : String) : Option String :=
  (normalizeUrl X u).filter fun norm ↦ isInPrefix X norm pre && W.allows norm

/-- What a sitemap adds. -/
def pages (pre url : String) : List String :=
  match W.document X url with
  | some (.urls us) => us.filterMap (W.accept X pre)
  | _ => []

/-- The children of a sitemap. -/
def children (url : String) : List String :=
  match W.document X url with
  | some (.index children) => children
  | _ => []

/-- What some sitemaps add together. -/
def listed (pre : String) (sitemaps : List String) : List String :=
  fresh [] (sitemaps.flatMap (W.pages X pre))

/-- The sitemaps the traversal starts with. -/
def candidates (seedUrl : String) : List String :=
  match defaultSitemapUrl X seedUrl with
  | some default =>
    if default ∈ W.declared then W.declared else W.declared ++ [default]
  | none => W.declared

/-- The queue after some sitemaps are visited: children of allowed indexes, admitted against the
sitemaps visited so far. -/
def queued : (visited sitemaps queue : List String) → List String
  | _, [], queue => queue
  | visited, url :: urls, queue =>
    if url ∈ visited then queued visited urls queue
    else
      let visited := visited ++ [url]
      queued visited urls
        (if W.allows url then queueChildren visited (W.children X url) queue else queue)

/-- The sitemaps of the first round. -/
def firstRound (seedUrl : String) : List String :=
  fresh [] ((W.candidates X seedUrl).take MAX_SITEMAPS_PER_TARGET)

/-- The sitemaps of the second round. -/
def secondRound (seedUrl : String) : List String :=
  fresh (W.firstRound X seedUrl)
    (W.queued X [] ((W.candidates X seedUrl).take MAX_SITEMAPS_PER_TARGET) [])

/-- The sitemaps the traversal fetches unless the cap on URLs stops it. -/
def fetchOrder (seedUrl : String) : List String :=
  (W.firstRound X seedUrl ++ W.secondRound X seedUrl).filter W.allows

/-- What is fetched in the end, when `f` is fetched and `order` is to come: the first sitemap with
which the cap on URLs is reached is the last one. -/
def untilFull (pre : String) (maxUrls : Nat) (f : List String) : (order : List String) → List String
  | [] => f
  | url :: order =>
    if maxUrls ≤ (W.listed X pre (f ++ [url])).length then f ++ [url]
    else untilFull pre maxUrls (f ++ [url]) order

/-- The sitemaps that are fetched. -/
def fetched (seedUrl pre : String) (maxUrls : Nat) : List String :=
  if maxUrls = 0 then [] else W.untilFull X pre maxUrls [] (W.fetchOrder X seedUrl)

/-! ### What is fetched -/

variable {X W} {seedUrl pre : String} {maxUrls : Nat}

theorem listed_append (f g : List String) : W.listed X pre (f ++ g) =
    W.listed X pre f ++ fresh (W.listed X pre f) (g.flatMap (W.pages X pre)) := by
  rw [listed, List.flatMap_append, Worklist.fresh_append]
  rfl

theorem length_listed_le (f g : List String) :
    (W.listed X pre f).length ≤ (W.listed X pre (f ++ g)).length := by
  rw [listed_append, List.length_append]
  exact Nat.le_add_right _ _

theorem untilFull_of_not_full {f order : List String}
    (h : (W.listed X pre (W.untilFull X pre maxUrls f order)).length < maxUrls) :
    W.untilFull X pre maxUrls f order = f ++ order := by
  induction order generalizing f with
  | nil => exact (List.append_nil f).symm
  | cons url order ih =>
    rw [untilFull] at h ⊢
    split at h
    case isTrue hfull => omega
    case isFalse hfull =>
      rw [if_neg hfull, ih h, List.append_assoc]
      rfl

/-- A part of the order that is not enough leads on to the rest. -/
theorem untilFull_append_of_not_full {f a : List String} (b : List String)
    (h : (W.listed X pre (W.untilFull X pre maxUrls f a)).length < maxUrls) :
    W.untilFull X pre maxUrls f (a ++ b) = W.untilFull X pre maxUrls (f ++ a) b := by
  induction a generalizing f with
  | nil => rw [List.nil_append, List.append_nil]
  | cons url a ih =>
    rw [untilFull] at h
    split at h
    case isTrue hfull => omega
    case isFalse hfull =>
      rw [List.cons_append, untilFull, if_neg hfull, ih h, List.append_assoc]
      rfl

/-- A part that is enough ends it. -/
theorem untilFull_append_of_full {f a : List String} (b : List String)
    (hf : (W.listed X pre f).length < maxUrls)
    (h : maxUrls ≤ (W.listed X pre (W.untilFull X pre maxUrls f a)).length) :
    W.untilFull X pre maxUrls f (a ++ b) = W.untilFull X pre maxUrls f a := by
  induction a generalizing f with
  | nil =>
    rw [untilFull] at h
    omega
  | cons url a ih =>
    rw [List.cons_append, untilFull, untilFull]
    rw [untilFull] at h
    split
    case isTrue hfull => rfl
    case isFalse hfull =>
      rw [if_neg hfull] at h
      exact ih (by omega) h

theorem untilFull_isPrefix (f order : List String) :
    f <+: W.untilFull X pre maxUrls f order ∧
      W.untilFull X pre maxUrls f order <+: f ++ order := by
  induction order generalizing f with
  | nil =>
    rw [untilFull, List.append_nil]
    exact ⟨List.prefix_rfl, List.prefix_rfl⟩
  | cons url order ih =>
    have happend : f ++ url :: order = f ++ [url] ++ order := by
      rw [List.append_assoc]
      rfl
    rw [untilFull, happend]
    split
    · exact ⟨List.prefix_append _ _, List.prefix_append _ _⟩
    · exact ⟨(List.prefix_append _ _).trans (ih _).1, (ih _).2⟩

/-- **When the fetched sitemaps are few.** -/
theorem length_untilFull_le {f : List String} (order : List String) (n : Nat)
    (hf : (W.listed X pre f).length < maxUrls) :
    (W.untilFull X pre maxUrls f order).length ≤ f.length + n ↔
      order.length ≤ n ∨ maxUrls ≤ (W.listed X pre (f ++ order.take n)).length := by
  induction order generalizing f n with
  | nil => exact ⟨fun _ ↦ .inl (Nat.zero_le n), fun _ ↦ Nat.le_add_right _ _⟩
  | cons url order ih =>
    rw [untilFull, List.length_cons]
    cases n with
    | zero =>
      have hlt : f.length < (W.untilFull X pre maxUrls f (url :: order)).length := by
        rw [untilFull]
        split
        · rw [List.length_append]
          exact Nat.lt_succ_self _
        · refine Nat.lt_of_lt_of_le ?_ (untilFull_isPrefix _ _).1.length_le
          rw [List.length_append]
          exact Nat.lt_succ_self _
      rw [untilFull] at hlt
      rw [List.take_zero, List.append_nil]
      omega
    | succ n =>
      have happend : f ++ (url :: order).take (n + 1) = f ++ [url] ++ order.take n := by
        rw [List.take_succ_cons, List.append_assoc]
        rfl
      rw [happend]
      split
      case isTrue hfull =>
        have hmore : (W.listed X pre (f ++ [url])).length ≤
            (W.listed X pre (f ++ [url] ++ order.take n)).length :=
          length_listed_le _ _
        rw [List.length_append, List.length_singleton]
        exact ⟨fun _ ↦ .inr (by omega), fun _ ↦ by omega⟩
      case isFalse hfull =>
        have hnext := ih (f := f ++ [url]) n (by omega)
        rw [List.length_append, List.length_singleton] at hnext
        rw [← Nat.add_assoc, Nat.add_right_comm, hnext, Nat.add_le_add_iff_right]

/-! ### The traversal against the servers -/

section Calls

variable {α : Type} {Q : α → List String → Prop} {f : List String}

theorem wp_sitemapsFor {url : String} {k : List String → Discovery α} :
    wp (E := SitemapSig) W.handles (fun _ _ ↦ True) Q (.op (.sitemapsFor url) k) f ↔
      wp (E := SitemapSig) W.handles (fun _ _ ↦ True) Q (k W.declared) f :=
  ⟨fun h ↦ h.2 _ _ ⟨rfl, rfl⟩, fun h ↦ ⟨trivial, fun _ _ hr ↦ hr.1 ▸ hr.2 ▸ h⟩⟩

theorem wp_isAllowed {url : String} {k : Bool → Discovery α} :
    wp (E := SitemapSig) W.handles (fun _ _ ↦ True) Q (.op (.isAllowed url) k) f ↔
      wp (E := SitemapSig) W.handles (fun _ _ ↦ True) Q (k (W.allows url)) f :=
  ⟨fun h ↦ h.2 _ _ ⟨rfl, rfl⟩, fun h ↦ ⟨trivial, fun _ _ hr ↦ hr.1 ▸ hr.2 ▸ h⟩⟩

theorem wp_fetchText {url : String} {k : Option String → Discovery α} :
    wp (E := SitemapSig) W.handles (fun _ _ ↦ True) Q (.op (.fetchText url) k) f ↔
      wp (E := SitemapSig) W.handles (fun _ _ ↦ True) Q (k (W.text url)) (f ++ [url]) :=
  ⟨fun h ↦ h.2 _ _ ⟨rfl, rfl⟩, fun h ↦ ⟨trivial, fun _ _ hr ↦ hr.1 ▸ hr.2 ▸ h⟩⟩

theorem wp_intoIter {found : List String} {k : List String → Discovery α} :
    wp (E := SitemapSig) W.handles (fun _ _ ↦ True) Q (.op (.intoIter found) k) f ↔
      ∀ l, l.Perm found → wp (E := SitemapSig) W.handles (fun _ _ ↦ True) Q (k l) f :=
  ⟨fun h _ hl ↦ h.2 _ _ ⟨hl, rfl⟩, fun h ↦ ⟨trivial, fun l _ hr ↦ hr.2 ▸ h l hr.1⟩⟩

end Calls

theorem insertUrl_append_fresh (found : List String) (u : String) (us : List String) :
    insertUrl found u ++ fresh (insertUrl found u) us = found ++ fresh found (u :: us) := by
  rw [insertUrl, fresh]
  split
  · rfl
  · rw [List.append_assoc]
    rfl

theorem length_insertUrl_le (found : List String) (u : String) :
    (insertUrl found u).length ≤ found.length + 1 := by
  rw [insertUrl]
  split
  · exact Nat.le_succ _
  · rw [List.length_append]
    exact Nat.le_refl _

/-- **The entries of a leaf are added** until the cap is reached. -/
theorem wp_addUrls (us : List String) {found f : List String} (hlen : found.length < maxUrls) :
    wp W.handles (fun _ _ ↦ True) (fun (r : List String × Bool) f' ↦ f' = f ∧
        r.1 <+: found ++ fresh found (us.filterMap (W.accept X pre)) ∧
        (r.2 = true → r.1.length = maxUrls) ∧
        (r.2 = false → r.1 = found ++ fresh found (us.filterMap (W.accept X pre)) ∧
          r.1.length < maxUrls))
      (Discovery.addUrls X pre maxUrls us found) f := by
  induction us generalizing found with
  | nil =>
    rw [List.filterMap_nil, fresh, List.append_nil]
    exact ⟨rfl, List.prefix_rfl, fun h ↦ absurd h Bool.false_ne_true,
      fun _ ↦ ⟨rfl, hlen⟩⟩
  | cons u us ih =>
    rw [Discovery.addUrls, List.filterMap_cons, accept]
    cases normalizeUrl X u with
    | none => exact ih hlen
    | some norm =>
      rw [Option.filter_some]
      dsimp only
      cases hin : isInPrefix X norm pre with
      | false => exact ih hlen
      | true =>
        refine wp_isAllowed.2 ?_
        cases hallows : W.allows norm with
        | false => exact ih hlen
        | true =>
          have hle := length_insertUrl_le found norm
          simp only [Bool.not_true, Bool.false_eq_true, if_false, Bool.and_self, if_true]
          rw [← insertUrl_append_fresh]
          split
          case isTrue hfull =>
            exact ⟨rfl, List.prefix_append _ _, fun _ ↦ by dsimp only; omega,
              fun h ↦ absurd h.symm Bool.false_ne_true⟩
          case isFalse hfull => exact ih (by omega)

/-- What a round leaves when `f` was fetched before it. -/
structure Round (W : SitemapServers) (X : Crates) (pre : String) (maxUrls : Nat)
    (urls : List String) (s : SitemapRound) (f : List String) (s' : SitemapRound)
    (f' : List String) : Prop where
  fetched : f' = W.untilFull X pre maxUrls f ((fresh s.visited urls).filter W.allows)
  found : s'.found <+: W.listed X pre f'
  of_full : s'.full = true → s'.found.length = maxUrls
  of_not_full : s'.full = false →
    s'.found = W.listed X pre f' ∧ s'.found.length < maxUrls ∧
      s'.visited = s.visited ++ fresh s.visited urls ∧
      s'.nextRound = W.queued X s.visited urls s.nextRound

/-- A round with the first sitemap behind it. -/
theorem Round.cons {url : String} {urls : List String} {s s₁ s' : SitemapRound}
    {f f₁ f' : List String} (h : Round W X pre maxUrls urls s₁ f₁ s' f')
    (hfetched : W.untilFull X pre maxUrls f₁ ((fresh s₁.visited urls).filter W.allows) =
      W.untilFull X pre maxUrls f ((fresh s.visited (url :: urls)).filter W.allows))
    (hvisited : s₁.visited ++ fresh s₁.visited urls = s.visited ++ fresh s.visited (url :: urls))
    (hqueued : W.queued X s₁.visited urls s₁.nextRound =
      W.queued X s.visited (url :: urls) s.nextRound) :
    Round W X pre maxUrls (url :: urls) s f s' f' where
  fetched := h.fetched.trans hfetched
  found := h.found
  of_full := h.of_full
  of_not_full hfull := by
    obtain ⟨hfound, hlen, hv, hq⟩ := h.of_not_full hfull
    exact ⟨hfound, hlen, hv.trans hvisited, hq.trans hqueued⟩

section FirstSitemap

variable {url : String} {urls : List String} {s s₁ s' : SitemapRound} {f f' : List String}

theorem fetchable_cons (hmem : url ∉ s.visited) (hallows : W.allows url = true) :
    (fresh s.visited (url :: urls)).filter W.allows =
      url :: (fresh (s.visited ++ [url]) urls).filter W.allows := by
  rw [fresh, if_neg hmem, List.filter_cons, if_pos hallows]

theorem visited_cons (hmem : url ∉ s.visited) :
    s.visited ++ [url] ++ fresh (s.visited ++ [url]) urls =
      s.visited ++ fresh s.visited (url :: urls) := by
  rw [fresh, if_neg hmem, List.append_assoc]
  rfl

/-- The first sitemap has been visited before. -/
theorem Round.cons_visited (h : Round W X pre maxUrls urls s f s' f') (hmem : url ∈ s.visited) :
    Round W X pre maxUrls (url :: urls) s f s' f' := by
  refine h.cons ?_ ?_ ?_
  · rw [fresh, if_pos hmem]
  · rw [fresh, if_pos hmem]
  · rw [queued, if_pos hmem]

/-- The first sitemap is not allowed. -/
theorem Round.cons_refused
    (h : Round W X pre maxUrls urls { s with visited := s.visited ++ [url] } f s' f')
    (hmem : url ∉ s.visited) (hallows : W.allows url = false) :
    Round W X pre maxUrls (url :: urls) s f s' f' := by
  refine h.cons ?_ (visited_cons hmem) ?_
  · rw [fresh, if_neg hmem, List.filter_cons, hallows]
    rfl
  · rw [queued, if_neg hmem, hallows]
    rfl

/-- The first sitemap is fetched, and there is room for more URLs. -/
theorem Round.cons_fetched (h : Round W X pre maxUrls urls s₁ (f ++ [url]) s' f')
    (hmem : url ∉ s.visited) (hallows : W.allows url = true)
    (hroom : (W.listed X pre (f ++ [url])).length < maxUrls)
    (hvisited : s₁.visited = s.visited ++ [url])
    (hqueue : s₁.nextRound = queueChildren (s.visited ++ [url]) (W.children X url) s.nextRound) :
    Round W X pre maxUrls (url :: urls) s f s' f' := by
  refine h.cons ?_ ?_ ?_
  · rw [hvisited, fetchable_cons hmem hallows, untilFull, if_neg (Nat.not_le.2 hroom)]
  · rw [hvisited, visited_cons hmem]
  · rw [hvisited, hqueue, queued, if_neg hmem, hallows]
    rfl

/-- The first sitemap is fetched, and fills the result. -/
theorem round_full (hmem : url ∉ s.visited) (hallows : W.allows url = true)
    (hfound : s'.found <+: W.listed X pre (f ++ [url])) (hlen : s'.found.length = maxUrls)
    (hfull : s'.full = true) : Round W X pre maxUrls (url :: urls) s f s' (f ++ [url]) where
  fetched := by
    have hle := hfound.length_le
    rw [fetchable_cons hmem hallows, untilFull, if_pos (by omega)]
  found := hfound
  of_full _ := hlen
  of_not_full h := absurd (h.symm.trans hfull) Bool.false_ne_true

end FirstSitemap

/-- **One round of the traversal.** -/
theorem wp_visitSitemaps (urls : List String) {s : SitemapRound} {f : List String}
    (hfull : s.full = false) (hfound : s.found = W.listed X pre f)
    (hlen : s.found.length < maxUrls) :
    wp W.handles (fun _ _ ↦ True) (fun s' f' ↦ Round W X pre maxUrls urls s f s' f')
      (Discovery.visitSitemaps X pre maxUrls urls s) f := by
  induction urls generalizing s f with
  | nil =>
    refine ⟨rfl, hfound ▸ List.prefix_rfl, fun h ↦ ?_, fun _ ↦ ⟨hfound, hlen, ?_, rfl⟩⟩
    · rw [hfull] at h
      cases h
    · rw [fresh, List.append_nil]
  | cons url urls ih =>
    rw [Discovery.visitSitemaps]
    split
    case isTrue hmem =>
      exact wp_mono (fun s' f' h ↦ h.cons_visited hmem) (ih hfull hfound hlen)
    case isFalse hmem =>
      refine wp_isAllowed.2 ?_
      cases hallows : W.allows url with
      | false => exact wp_mono (fun s' f' h ↦ h.cons_refused hmem hallows) (ih hfull hfound hlen)
      | true =>
        refine wp_fetchText.2 ?_
        have hlisted : W.listed X pre (f ++ [url]) =
            s.found ++ fresh s.found (W.pages X pre url) := by
          rw [listed_append, List.flatMap_singleton, hfound]
        -- while there is room, the round goes on after the sitemap
        have hon : ∀ s₁ : SitemapRound, s₁.full = false → s₁.visited = s.visited ++ [url] →
            s₁.found = W.listed X pre (f ++ [url]) → s₁.found.length < maxUrls →
            s₁.nextRound = queueChildren (s.visited ++ [url]) (W.children X url) s.nextRound →
            wp W.handles (fun _ _ ↦ True)
              (fun s' f' ↦ Round W X pre maxUrls (url :: urls) s f s' f')
              (Discovery.visitSitemaps X pre maxUrls urls s₁) (f ++ [url]) :=
          fun s₁ hfull₁ hvisited₁ hfound₁ hlen₁ hqueue₁ ↦
            wp_mono (fun s' f' h ↦ h.cons_fetched hmem hallows (hfound₁ ▸ hlen₁) hvisited₁ hqueue₁)
              (ih hfull₁ hfound₁ hlen₁)
        have hdoc : (W.text url).bind (parseSitemap X) = W.document X url := rfl
        dsimp only
        rw [hdoc]
        rw [pages] at hlisted
        rw [children] at hon
        rcases hdocument : W.document X url with _ | us | children
        · rw [hdocument, fresh, List.append_nil] at hlisted
          rw [hdocument] at hon
          exact hon _ hfull rfl hlisted.symm hlen rfl
        · rw [hdocument] at hlisted hon
          refine wp_bind.2 (wp_mono ?_ (wp_addUrls us hlen))
          rintro ⟨found, full⟩ _ ⟨rfl, hfound', hof_full, hof_not⟩
          rw [← hlisted] at hfound' hof_not
          cases full with
          | false =>
            obtain ⟨heq, hlen'⟩ := hof_not rfl
            exact hon _ rfl rfl heq hlen' rfl
          | true => exact round_full hmem hallows hfound' (hof_full rfl) rfl
        · rw [hdocument, fresh, List.append_nil] at hlisted
          rw [hdocument] at hon
          exact hon _ hfull rfl hlisted.symm hlen rfl

/-- What is returned is listed by the fetched sitemaps, and nothing is left out but for the cap. -/
def Gathered (W : SitemapServers) (X : Crates) (pre : String) (maxUrls : Nat)
    (result f : List String) : Prop :=
  ∃ found : List String, result.Perm found ∧ found <+: W.listed X pre f ∧
    found.length ≤ maxUrls ∧ (found.length < maxUrls → found = W.listed X pre f)

theorem gathered_of_full {found f : List String} (hfound : found <+: W.listed X pre f)
    (hlen : found.length = maxUrls) {result : List String} (hresult : result.Perm found) :
    Gathered W X pre maxUrls result f :=
  ⟨found, hresult, hfound, hlen.le, fun hlt ↦ by omega⟩

theorem gathered_of_not_full {found f : List String} (hfound : found = W.listed X pre f)
    (hlen : found.length < maxUrls) {result : List String} (hresult : result.Perm found) :
    Gathered W X pre maxUrls result f :=
  ⟨found, hresult, hfound ▸ List.prefix_rfl, hlen.le, fun _ ↦ hfound⟩

theorem wp_collectCandidates {Q : List String → List String → Prop} {f : List String} :
    wp W.handles (fun _ _ ↦ True) Q (Discovery.collectCandidates X seedUrl) f ↔
      Q (W.candidates X seedUrl) f := by
  refine wp_sitemapsFor.trans ?_
  rw [candidates]
  cases defaultSitemapUrl X seedUrl <;> exact Iff.rfl

/-- The result comes out of a hash set. -/
theorem wp_intoIter_gathered {found f g : List String} (hf : f = g)
    (h : ∀ result : List String, result.Perm found → W.Gathered X pre maxUrls result f) :
    wp (E := SitemapSig) W.handles (fun _ _ ↦ True)
      (fun result f ↦ f = g ∧ W.Gathered X pre maxUrls result f) (.op (.intoIter found) ret) f :=
  wp_intoIter.2 fun l hl ↦ ⟨hf, h l hl⟩

/-- **The traversal against the servers**: which sitemaps are fetched, and what is returned. -/
theorem wp_discover (W : SitemapServers) (seedUrl pre : String) (maxUrls : Nat) :
    wp W.handles (fun _ _ ↦ True)
      (fun result f ↦ f = W.fetched X seedUrl pre maxUrls ∧ W.Gathered X pre maxUrls result f)
      (discover X seedUrl pre maxUrls) [] := by
  rw [discover, fetched]
  split
  case isTrue hzero =>
    exact ⟨rfl, [], List.Perm.refl _, List.nil_prefix, Nat.zero_le _, fun _ ↦ rfl⟩
  case isFalse hpos =>
    have hlen : ([] : List String).length < maxUrls := Nat.pos_of_ne_zero hpos
    refine wp_bind.2 (wp_collectCandidates.2 ?_)
    rw [fetchOrder, List.filter_append]
    split
    case isTrue hnone =>
      have hfirst : W.firstRound X seedUrl = [] := by
        rw [firstRound, List.isEmpty_iff.1 hnone]
        rfl
      have hsecond : W.secondRound X seedUrl = [] := by
        rw [secondRound, List.isEmpty_iff.1 hnone]
        rfl
      rw [hfirst, hsecond]
      exact ⟨rfl, gathered_of_not_full rfl hlen (List.Perm.refl _)⟩
    case isFalse =>
      refine wp_bind.2 ?_
      rw [Discovery.sitemapRounds]
      refine wp_bind.2 (wp_mono (fun s f hround ↦ ?_) (wp_visitSitemaps _ rfl rfl hlen))
      have hf : f = W.untilFull X pre maxUrls [] ((W.firstRound X seedUrl).filter W.allows) :=
        hround.fetched
      cases hfull : s.full with
      | true =>
        -- the cap was reached in the first round
        have hfound := hround.of_full hfull
        have hle := hround.found.length_le
        refine wp_intoIter_gathered ?_ fun _ ↦ gathered_of_full hround.found hfound
        rw [untilFull_append_of_full _ hlen (by rw [← hf]; omega)]
        exact hf
      | false =>
        obtain ⟨hfound, hlt, hvisited, hqueue⟩ := hround.of_not_full hfull
        have hvisited : s.visited = W.firstRound X seedUrl := hvisited
        have hsecond : W.secondRound X seedUrl = fresh s.visited s.nextRound := by
          rw [hvisited, hqueue]
          rfl
        rw [untilFull_append_of_not_full _ (by rw [← hf, ← hfound]; exact hlt), hsecond]
        have hf' := hf
        rw [untilFull_of_not_full (by rw [← hf, ← hfound]; exact hlt)] at hf'
        rw [← hf', Bool.false_or]
        split
        case isTrue hempty =>
          -- no index led to another sitemap
          refine wp_intoIter_gathered ?_ fun _ ↦ gathered_of_not_full hfound hlt
          rw [List.isEmpty_iff.1 hempty]
          rfl
        case isFalse =>
          dsimp only
          rw [Discovery.sitemapRounds]
          refine wp_bind.2 (wp_mono (fun s' f' hround' ↦ ?_)
            (wp_visitSitemaps s.nextRound (s := { s with nextRound := [] }) hfull hfound hlt))
          have hf'' := hround'.fetched
          dsimp only at hf'' ⊢
          rw [ite_self]
          cases hfull' : s'.full with
          | true =>
            exact wp_intoIter_gathered hf'' fun _ ↦
              gathered_of_full hround'.found (hround'.of_full hfull')
          | false =>
            obtain ⟨hfound', hlt', -⟩ := hround'.of_not_full hfull'
            exact wp_intoIter_gathered hf'' fun _ ↦ gathered_of_not_full hfound' hlt'

/-! ### The cap on sitemaps -/

/-- A sitemap is a candidate, or listed by one. -/
def OneLevelDeep (W : SitemapServers) (X : Crates) (seedUrl url : String) : Prop :=
  url ∈ W.candidates X seedUrl ∨ ∃ index ∈ W.candidates X seedUrl, url ∈ W.children X index

/-- No sitemap is fetched twice, they are at most as many as the cap says, and indexes are followed
one level deep. -/
def Bounded (W : SitemapServers) (X : Crates) (seedUrl : String) (f : List String) : Prop :=
  f.Nodup ∧ f.length ≤ MAX_SITEMAPS_PER_TARGET ∧ ∀ url ∈ f, W.OneLevelDeep X seedUrl url

theorem mem_queueChildren {visited children queue : List String} {u : String}
    (h : u ∈ queueChildren visited children queue) : u ∈ queue ∨ u ∈ children := by
  rw [queueChildren] at h
  induction children generalizing queue with
  | nil => exact .inl h
  | cons child children ih =>
    rw [List.foldl_cons] at h
    rcases ih h with hq | hc
    · split at hq
      · rcases List.mem_append.1 hq with hq | hq
        · exact .inl hq
        · exact .inr (List.mem_cons.2 (.inl (List.mem_singleton.1 hq)))
      · exact .inl hq
    · exact .inr (List.mem_cons_of_mem _ hc)

/-- Queued sitemaps are children of visited ones. -/
theorem mem_queued {visited urls queue : List String} {u : String}
    (h : u ∈ W.queued X visited urls queue) :
    u ∈ queue ∨ ∃ index ∈ urls, u ∈ W.children X index := by
  induction urls generalizing visited queue with
  | nil => exact .inl h
  | cons url urls ih =>
    rw [queued] at h
    split at h
    · exact (ih h).imp_right fun ⟨index, hi, hu⟩ ↦ ⟨index, List.mem_cons_of_mem _ hi, hu⟩
    · rcases ih h with hq | ⟨index, hi, hu⟩
      · split at hq
        · exact (mem_queueChildren hq).imp_right fun hu ↦ ⟨url, List.mem_cons_self, hu⟩
        · exact .inl hq
      · exact .inr ⟨index, List.mem_cons_of_mem _ hi, hu⟩

theorem nodup_fetchOrder : (W.fetchOrder X seedUrl).Nodup := by
  refine List.Nodup.filter _ (List.nodup_append.2 ⟨nodup_fresh _ _, nodup_fresh _ _, ?_⟩)
  rintro u hu _ hv rfl
  exact (mem_fresh.1 hv).2 hu

theorem oneLevelDeep_of_mem_fetchOrder {url : String} (h : url ∈ W.fetchOrder X seedUrl) :
    W.OneLevelDeep X seedUrl url := by
  have h := List.mem_of_mem_filter h
  rcases List.mem_append.1 h with hfirst | hsecond
  · exact .inl (List.mem_of_mem_take (mem_fresh.1 hfirst).1)
  · rcases mem_queued (mem_fresh.1 hsecond).1 with hnil | ⟨index, hi, hu⟩
    · exact absurd hnil List.not_mem_nil
    · exact .inr ⟨index, List.mem_of_mem_take hi, hu⟩

theorem fetched_isPrefix : W.fetched X seedUrl pre maxUrls <+: W.fetchOrder X seedUrl := by
  rw [fetched]
  split
  · exact List.nil_prefix
  · exact (untilFull_isPrefix [] _).2

theorem length_fetched_le :
    (W.fetched X seedUrl pre maxUrls).length ≤ MAX_SITEMAPS_PER_TARGET ↔
      (W.fetchOrder X seedUrl).length ≤ MAX_SITEMAPS_PER_TARGET ∨
        maxUrls ≤ (W.listed X pre
          ((W.fetchOrder X seedUrl).take MAX_SITEMAPS_PER_TARGET)).length := by
  rw [fetched]
  split
  case isTrue hzero => exact ⟨fun _ ↦ .inr (hzero ▸ Nat.zero_le _), fun _ ↦ Nat.zero_le _⟩
  case isFalse hpos =>
    have hroom : (W.listed X pre []).length < maxUrls := Nat.pos_of_ne_zero hpos
    have h := length_untilFull_le (W.fetchOrder X seedUrl) MAX_SITEMAPS_PER_TARGET hroom
    rwa [List.length_nil, Nat.zero_add] at h

/-- Nothing but the number of fetched sitemaps can go wrong. -/
theorem wp_discover_bounded : wp W.handles (fun _ _ ↦ True) (fun _ f ↦ W.Bounded X seedUrl f)
      (discover X seedUrl pre maxUrls) [] ↔
    (W.fetched X seedUrl pre maxUrls).length ≤ MAX_SITEMAPS_PER_TARGET := by
  constructor
  · intro h
    obtain ⟨_, f, ⟨-, hlen, -⟩, rfl, -⟩ :=
      Prog.exists_of_wp W.exists_handles (wp_and h (wp_discover W seedUrl pre maxUrls))
    exact hlen
  · refine fun hlen ↦ wp_mono (fun _ f h ↦ ?_) (wp_discover W seedUrl pre maxUrls)
    obtain ⟨rfl, -⟩ := h
    refine ⟨nodup_fetchOrder.sublist fetched_isPrefix.sublist, hlen, fun url hurl ↦ ?_⟩
    exact oneLevelDeep_of_mem_fetchOrder (fetched_isPrefix.subset hurl)

/-- **When the cap on sitemaps is kept**: the sitemaps the traversal leads to are few enough, or
the cap on URLs is reached within the first of them. The traversal is the program of its calls. -/
theorem wp_discover_bounded_iff (X : Crates) (W : SitemapServers) (fetcher : Fetcher)
    (seedUrl pre : String) (maxUrls : Nat) :
    discoverUrls X fetcher seedUrl pre maxUrls =
        (discover X seedUrl pre maxUrls).interp (SitemapOp.call X fetcher) ∧
      (wp W.handles (fun _ _ ↦ True) (fun _ f ↦ W.Bounded X seedUrl f)
          (discover X seedUrl pre maxUrls) [] ↔
        (W.fetchOrder X seedUrl).length ≤ MAX_SITEMAPS_PER_TARGET ∨
          maxUrls ≤ (W.listed X pre
            ((W.fetchOrder X seedUrl).take MAX_SITEMAPS_PER_TARGET)).length) := by
  rw [wp_discover_bounded, length_fetched_le]
  exact ⟨discoverUrls_eq_interp X fetcher seedUrl pre maxUrls, Iff.rfl⟩

namespace LateCandidate

def seed : String := "https://example.com/"

/-- The index that the robots file declares. -/
def index : String := "https://example.com/index.xml"

def childUrls : List String :=
  (List.range 19).map fun i ↦ "https://example.com/" ++ toString i ++ ".xml"

def indexBody : String :=
  "<sitemapindex>" ++ String.join (childUrls.map fun url ↦
    "<sitemap><loc>" ++ url ++ "</loc></sitemap>") ++ "</sitemapindex>"

def leafBody : String := "<urlset></urlset>"

def crates : Crates :=
  { Crates.ofTables ⟨[(seed, ⟨"https", "", none, some "example.com", none, "/", none, none⟩)],
      [], [], [], []⟩ with
    readXml := fun body ↦
      if body = indexBody then
        some (.startTag "sitemapindex" :: childUrls.flatMap (fun url ↦
          [.startTag "sitemap", .startTag "loc", .text (some url), .endTag "loc",
            .endTag "sitemap"]) ++ [.endTag "sitemapindex"])
      else if body = leafBody then some [.startTag "urlset", .endTag "urlset"]
      else none }

/-- Everything is allowed, and every sitemap but the index is a leaf without entries. -/
def servers : SitemapServers where
  declared := [index]
  allows _ := true
  text url := some (if url = index then indexBody else leafBody)

/-- **An index with 19 children before the conventional sitemap**: 21 sitemaps are fetched. -/
theorem not_bounded :
    (servers.fetched crates seed seed 10000).length = 21 ∧
      ¬ wp servers.handles (fun _ _ ↦ True) (fun _ f ↦ servers.Bounded crates seed f)
        (discover crates seed seed 10000) [] := by
  have hlength : (servers.fetched crates seed seed 10000).length = 21 := by decide +kernel
  rw [wp_discover_bounded, hlength]
  exact ⟨rfl, by decide⟩

end LateCandidate

/-! ### What is returned -/

/-- `n` is a URL of the prefix that may be crawled, and the parser reads it in a sitemap. -/
def Reads (W : SitemapServers) (X : Crates) (pre : String) (f : List String) (n : String) : Prop :=
  ∃ sitemap ∈ f, ∃ us, W.document X sitemap = some (.urls us) ∧
    ∃ u ∈ us, normalizeUrl X u = some n ∧ isInPrefix X n pre = true ∧ W.allows n = true

theorem mem_listed {f : List String} {n : String} : n ∈ W.listed X pre f ↔ W.Reads X pre f n := by
  have haccept : ∀ u, W.accept X pre u = some n ↔
      normalizeUrl X u = some n ∧ isInPrefix X n pre = true ∧ W.allows n = true := fun u ↦ by
    rw [accept, Option.filter_eq_some_iff, Bool.and_eq_true]
  have hpages : ∀ sitemap, n ∈ W.pages X pre sitemap ↔
      ∃ us, W.document X sitemap = some (.urls us) ∧ ∃ u ∈ us, W.accept X pre u = some n :=
    fun sitemap ↦ by
      rw [pages]
      rcases W.document X sitemap with _ | us | children
      · simp
      · simp
      · simp
  rw [listed, mem_fresh, List.mem_flatMap]
  simp only [hpages, haccept, Reads, List.not_mem_nil, not_false_eq_true, and_true]

/-- What is served under these URLs are the texts of these sitemap documents, which the reader
tokenises. -/
def Serves (W : SitemapServers) (X : Crates) (doc : String → Option XmlDocument) : Prop :=
  ∀ url d, doc url = some d → d.IsSitemap ∧
    ∃ body, W.text url = some body ∧ X.readXml body = some d.events

/-- `n` is a URL of the prefix that may be crawled, and a leaf among the sitemap documents lists
it. -/
def Lists (W : SitemapServers) (X : Crates) (doc : String → Option XmlDocument) (pre : String)
    (f : List String) (n : String) : Prop :=
  ∃ sitemap ∈ f, ∃ d, doc sitemap = some d ∧ localName d.root = "urlset" ∧
    ∃ u ∈ d.locs, normalizeUrl X u = some n ∧ isInPrefix X n pre = true ∧ W.allows n = true

/-- What `discover_urls` is to return, when it has fetched `f`: normalised URLs of the prefix that
may be crawled, each once and at most `maxUrls`; and when they are fewer, all that the fetched leaf
sitemaps list. -/
def Sound (W : SitemapServers) (X : Crates) (doc : String → Option XmlDocument) (pre : String)
    (maxUrls : Nat) (result f : List String) : Prop :=
  (∀ n ∈ result, (∃ u, normalizeUrl X u = some n) ∧ isInPrefix X n pre = true ∧
    W.allows n = true) ∧
  result.Nodup ∧ result.length ≤ maxUrls ∧
  (result.length < maxUrls → ∀ n, W.Lists X doc pre f n → n ∈ result)

variable {doc : String → Option XmlDocument}

/-- What is returned is sound if what is listed is read, or the cap on URLs is reached. -/
theorem sound_of_gathered {result f : List String} (h : W.Gathered X pre maxUrls result f)
    (hread : maxUrls ≤ (W.listed X pre f).length ∨
      ∀ n, W.Lists X doc pre f n → W.Reads X pre f n) :
    W.Sound X doc pre maxUrls result f := by
  obtain ⟨found, hperm, hpre, hlen, hall⟩ := h
  refine ⟨fun n hn ↦ ?_, ?_, hperm.length_eq.trans_le hlen, fun hlt n hn ↦ ?_⟩
  · obtain ⟨-, -, -, -, u, -, hnorm, hin, hallows⟩ :=
      mem_listed.1 (hpre.subset (hperm.mem_iff.1 hn))
    exact ⟨⟨u, hnorm⟩, hin, hallows⟩
  · exact hperm.nodup_iff.2 ((nodup_fresh _ _).sublist hpre.sublist)
  · rw [hperm.length_eq] at hlt
    rw [hperm.mem_iff, hall hlt]
    rcases hread with hfull | hread
    · rw [← hall hlt] at hfull
      omega
    · exact mem_listed.2 (hread n hn)

/-- And only then. -/
theorem reads_of_sound {result f : List String} (h : W.Gathered X pre maxUrls result f)
    (hsound : W.Sound X doc pre maxUrls result f) :
    maxUrls ≤ (W.listed X pre f).length ∨ ∀ n, W.Lists X doc pre f n → W.Reads X pre f n := by
  obtain ⟨found, hperm, hpre, -, hall⟩ := h
  by_cases hfull : maxUrls ≤ (W.listed X pre f).length
  · exact Or.inl hfull
  · refine Or.inr fun n hn ↦ ?_
    have hlt : found.length < maxUrls := by
      have := hpre.length_le
      omega
    have hmem := hsound.2.2.2 (hperm.length_eq.trans_lt hlt) n hn
    rw [hperm.mem_iff, hall hlt] at hmem
    exact mem_listed.1 hmem

/-- The parser reads what a plain leaf lists. -/
theorem reads_of_plain {f : List String} (hdoc : W.Serves X doc)
    (hplain : ∀ sitemap ∈ f, ∀ d, doc sitemap = some d → localName d.root = "urlset" → d.IsPlain)
    {n : String} (hn : W.Lists X doc pre f n) : W.Reads X pre f n := by
  obtain ⟨sitemap, hsitemap, d, hd, hroot, hlisted⟩ := hn
  obtain ⟨hissitemap, body, htext, hread⟩ := hdoc sitemap d hd
  refine ⟨sitemap, hsitemap, d.locs, ?_, hlisted⟩
  have hleaf : d.sitemap = .urls d.locs := if_neg fun hindex ↦ by
    rw [hroot] at hindex
    exact absurd hindex (by decide)
  rw [document, htext, Option.bind_some, ← hleaf]
  exact (parseSitemap_eq_iff X hread hissitemap).2 (hplain sitemap hsitemap d hd hroot)

/-- **Soundness and completeness of the result**, over whatever sitemap documents are served: it is
sound and complete just when the parser reads in the fetched sitemaps every URL that their leaves
list, or as many URLs as are asked for. It does when every `loc` of the leaves holds its data in one
text. The traversal is the program of its calls. -/
theorem wp_discover_sound_iff (X : Crates) (W : SitemapServers) (fetcher : Fetcher)
    (doc : String → Option XmlDocument) (hdoc : W.Serves X doc) (seedUrl pre : String)
    (maxUrls : Nat) :
    discoverUrls X fetcher seedUrl pre maxUrls =
        (discover X seedUrl pre maxUrls).interp (SitemapOp.call X fetcher) ∧
      (wp W.handles (fun _ _ ↦ True) (fun result f ↦ W.Sound X doc pre maxUrls result f)
          (discover X seedUrl pre maxUrls) [] ↔
        maxUrls ≤ (W.listed X pre (W.fetched X seedUrl pre maxUrls)).length ∨
          ∀ n, W.Lists X doc pre (W.fetched X seedUrl pre maxUrls) n →
            W.Reads X pre (W.fetched X seedUrl pre maxUrls) n) ∧
      ((∀ sitemap ∈ W.fetched X seedUrl pre maxUrls, ∀ d, doc sitemap = some d →
          localName d.root = "urlset" → d.IsPlain) →
        wp W.handles (fun _ _ ↦ True) (fun result f ↦ W.Sound X doc pre maxUrls result f)
          (discover X seedUrl pre maxUrls) []) := by
  have hdiscover := wp_discover (X := X) W seedUrl pre maxUrls
  have hsound : (maxUrls ≤ (W.listed X pre (W.fetched X seedUrl pre maxUrls)).length ∨
      ∀ n, W.Lists X doc pre (W.fetched X seedUrl pre maxUrls) n →
        W.Reads X pre (W.fetched X seedUrl pre maxUrls) n) →
      wp W.handles (fun _ _ ↦ True) (fun result f ↦ W.Sound X doc pre maxUrls result f)
        (discover X seedUrl pre maxUrls) [] := fun hread ↦
    wp_mono (fun _ f h ↦ sound_of_gathered h.2 (h.1 ▸ hread)) hdiscover
  refine ⟨discoverUrls_eq_interp X fetcher seedUrl pre maxUrls, ⟨fun h ↦ ?_, hsound⟩,
    fun hplain ↦ hsound (Or.inr fun n ↦ reads_of_plain hdoc hplain)⟩
  obtain ⟨result, f, hresult, rfl, hgathered⟩ :=
    Prog.exists_of_wp W.exists_handles (wp_and h hdiscover)
  exact reads_of_sound hgathered hresult

namespace OneSitemap

def seed : String := "https://example.com/"

def page : String := "https://example.com/a"

def url (path : String) : Url := ⟨"https", "", none, some "example.com", none, path, none, none⟩

/-- A sitemap of one page. -/
def sitemap : XmlDocument :=
  ⟨0, "urlset", some (.element "url" (.element "loc"
    (.text (page.toList.map .literal) .nil) .nil) .nil), 0⟩

def body : String := "<urlset><url><loc>https://example.com/a</loc></url></urlset>"

def crates : Crates :=
  { Crates.ofTables ⟨[(seed, url "/"), (page, url "/a")], [], [], [], []⟩ with
    readXml := fun text ↦
      if text = cdataBody then some cdataSitemap.events
      else if text = body then some sitemap.events
      else none }

/-- The sitemap is served under the conventional URL, as `text`. -/
def servers (text : String) : SitemapServers where
  declared := []
  allows _ := true
  text url := if url = "https://example.com/sitemap.xml" then some text else none

/-- The document under the conventional URL. -/
def documents (d : XmlDocument) (url : String) : Option XmlDocument :=
  if url = "https://example.com/sitemap.xml" then some d else none

theorem serves {text : String} {d : XmlDocument} (hread : crates.readXml text = some d.events)
    (hroot : d.IsSitemap) : (servers text).Serves crates (documents d) := by
  intro url d' hd'
  obtain ⟨hurl, hd⟩ := Option.ite_none_right_eq_some.1 hd'
  obtain rfl := Option.some.inj hd
  exact ⟨hroot, text, if_pos hurl, hread⟩

theorem wp_discover_sound_page :
    (servers body).fetched crates seed seed 10000 = ["https://example.com/sitemap.xml"] ∧
      wp (servers body).handles (fun _ _ ↦ True)
        (fun result f ↦ (servers body).Sound crates (documents sitemap) seed 10000 result f)
        (discover crates seed seed 10000) [] := by
  have hread : crates.readXml body = some sitemap.events := by rfl
  have hplain : sitemap.IsPlain := by
    have hloc : localName "loc" = "loc" := by decide
    have hurl : localName "url" ≠ "loc" := by decide
    show XmlContent.LocsInOneText _
    simp only [XmlContent.LocsInOneText, hloc, hurl, if_true, if_false, and_true]
    exact .inr (.inl ⟨by decide, by decide, by decide⟩)
  refine ⟨by decide +kernel, (wp_discover_sound_iff crates (servers body) ⟨"search-bot"⟩
    (documents sitemap) (serves hread (.inl (by decide))) seed seed 10000).2.2 ?_⟩
  intro url _ d hd _
  obtain ⟨-, hd⟩ := Option.ite_none_right_eq_some.1 hd
  obtain rfl := Option.some.inj hd
  exact hplain

/-- **The page of a CDATA section** is listed, and not returned. -/
theorem not_sound :
    ¬ ∀ X W doc seedUrl pre maxUrls, SitemapServers.Serves W X doc →
      wp W.handles (fun _ _ ↦ True) (fun result f ↦ W.Sound X doc pre maxUrls result f)
        (discover X seedUrl pre maxUrls) [] := by
  intro h
  have hserves : (servers cdataBody).Serves crates (documents cdataSitemap) :=
    serves (by rfl) (.inl (by decide))
  have hsound := h crates (servers cdataBody) (documents cdataSitemap) seed seed 10000 hserves
  have hfetched : (servers cdataBody).fetched crates seed seed 10000 =
      ["https://example.com/sitemap.xml"] := by decide +kernel
  rcases (wp_discover_sound_iff crates (servers cdataBody) ⟨"search-bot"⟩ (documents cdataSitemap)
    hserves seed seed 10000).2.1.1 hsound with hfull | hreads
  · revert hfull
    decide +kernel
  · have hlisted : (servers cdataBody).Lists crates (documents cdataSitemap) seed
        ((servers cdataBody).fetched crates seed seed 10000) page := by
      rw [hfetched]
      exact ⟨_, List.mem_singleton_self _, cdataSitemap, rfl, by decide, page, by decide,
        by decide +kernel, by decide +kernel, rfl⟩
    have hmem := mem_listed.2 (hreads page hlisted)
    revert hmem
    decide +kernel

end OneSitemap

end SitemapServers

end CommunitySearch
