import CommunitySearch.Crawler.Robots
import CommunitySearch.Foundation.Machine
import Mathlib.Data.List.Perm.Basic

/-!
# Concurrent loads of robots rules

All crawl tasks share one cache of robots rules, and any number of them may be inside
`ensureCached`. Between the lookup that misses and the insert lies the request, and nothing tells
another task that the rules of this origin are on their way: it misses as well, sends a second
request, and its answer replaces the rules the first has loaded, if only by "allow all".

A call of `ensureCached` is a `RobotsCall`, which is what is left of the program
(`program_start`, `program_next`). `stable_iff_guarded` says that an origin is fetched once, and
its rules are never replaced, in exactly the runs in which no call looks an origin up in vain while
another one is loading it.
-/

namespace CommunitySearch

open Prog (ret)

/-- A call of `ensure_cached` between two operations. -/
inductive RobotsCall where
  /-- Before the lookup. -/
  | check (origin : String)
  /-- The request for `robots.txt` is under way. -/
  | fetch (origin : String)
  /-- The rules have been read, and wait for the lock. -/
  | insert (origin : String) (robot : Option Robot)
  | done (r : CrawlResult String)

namespace RobotsCall

variable (X : Crates)

/-- What is left to do. -/
def program : RobotsCall → Crawl (CrawlResult String)
  | check origin => .op (.cacheGet origin) fun
      | some _ => ret (.ok origin)
      | none => .op (.robotsTxt (origin ++ "/robots.txt")) fun robot ↦
          .op (.cacheInsert origin robot) fun _ ↦ ret (.ok origin)
  | fetch origin => .op (.robotsTxt (origin ++ "/robots.txt")) fun robot ↦
      .op (.cacheInsert origin robot) fun _ ↦ ret (.ok origin)
  | insert origin robot => .op (.cacheInsert origin robot) fun _ ↦ ret (.ok origin)
  | done r => ret r

/-- A call for the origin of `url`. -/
def start (url : String) : RobotsCall :=
  match X.parse url with
  | none => done (.error .urlParse)
  | some parsed =>
    match parsed.origin with
    | none => done (.error (.other "URL has no host"))
    | some origin => check origin

/-- The call and the cache after its next operation; `robot` is what a request ends with: the rules,
or nothing when it fails in any way. -/
def next (cache : RobotsCache) (robot : Option Robot) :
    RobotsCall → Option (RobotsCall × RobotsCache)
  | check origin =>
    match cache.get origin with
    | some _ => some (done (.ok origin), cache)
    | none => some (fetch origin, cache)
  | fetch origin => some (insert origin robot, cache)
  | insert origin robot => some (done (.ok origin), cache.insert origin robot)
  | done _ => none

/-- The origin a call is loading: the request has been sent and its answer is not stored. -/
def loading : RobotsCall → Option String
  | fetch origin => some origin
  | insert origin _ => some origin
  | _ => none

theorem program_start (url : String) : (start X url).program = ensureCached X url := by
  rw [start, ensureCached]
  cases X.parse url with
  | none => rfl
  | some parsed =>
    dsimp only
    cases parsed.origin <;> rfl

/-- **A step of a call** is one operation of its program, answered by the engine. -/
theorem program_next {c c' : RobotsCall} {e : Engine} {cache : RobotsCache} {robot : Option Robot}
    (h : c.next e.robotsCache robot = some (c', cache)) :
    ∃ o k a r, c.program = .op o k ∧ c'.program = k r ∧ (a = .ok ∨ a = .robots robot) ∧
      e.perform o a = some (r, { e with robotsCache := cache }) := by
  cases c with
  | check origin =>
    rw [next] at h
    split at h
    case h_1 entry hget =>
      obtain ⟨rfl, rfl⟩ := Prod.mk.inj (Option.some.inj h)
      refine ⟨_, _, .ok, some entry, rfl, rfl, Or.inl rfl, ?_⟩
      rw [← hget]
      rfl
    case h_2 hget =>
      obtain ⟨rfl, rfl⟩ := Prod.mk.inj (Option.some.inj h)
      refine ⟨_, _, .ok, none, rfl, rfl, Or.inl rfl, ?_⟩
      rw [← hget]
      rfl
  | fetch origin =>
    obtain ⟨rfl, rfl⟩ := Prod.mk.inj (Option.some.inj h)
    exact ⟨_, _, .robots robot, robot, rfl, rfl, Or.inr rfl, rfl⟩
  | insert origin loaded =>
    obtain ⟨rfl, rfl⟩ := Prod.mk.inj (Option.some.inj h)
    exact ⟨_, _, .ok, (), rfl, rfl, Or.inl rfl, rfl⟩
  | done => cases h

end RobotsCall

/-- The calls, and what they share. -/
structure RobotsCalls where
  cache : RobotsCache
  calls : List RobotsCall
  /-- The origins whose `robots.txt` has been requested, the last first. -/
  requested : List String

/-- What can happen. -/
inductive RobotsStep where
  /-- A task calls `ensure_cached`. -/
  | call (url : String)
  /-- A call goes on; `robot` is the answer to a request. -/
  | step (k : ℕ) (robot : Option Robot)

namespace RobotsCalls

variable (X : Crates)

/-- Nothing is cached. -/
def initial : RobotsCalls := ⟨[], [], []⟩

/-- A call that has missed sends its request at once. -/
def sends (c : RobotsCall) (requested : List String) : List String :=
  match c with
  | .fetch origin => origin :: requested
  | _ => requested

/-- The call `k` goes on. -/
def advance (s : RobotsCalls) (k : ℕ) (robot : Option Robot) : Option RobotsCalls :=
  (s.calls[k]?).bind fun c ↦ (c.next s.cache robot).map fun r ↦
    ⟨r.2, s.calls.set k r.1, sends r.1 s.requested⟩

def machine : Machine RobotsCalls RobotsStep where
  step s
    | .call url => some { s with calls := s.calls ++ [.start X url] }
    | .step k robot => s.advance k robot

/-- The origins that are being loaded. -/
def loading (s : RobotsCalls) : List String := s.calls.filterMap RobotsCall.loading

/-- The origins that have been loaded, the last first; loading one again replaces its rules. -/
def loaded (s : RobotsCalls) : List String := s.cache.map Prod.fst

/-- **Stability** of the cache: no origin is fetched twice, and no rules are replaced. -/
structure Stable (s : RobotsCalls) : Prop where
  requested : s.requested.Nodup
  loaded : s.loaded.Nodup

/-- A call that misses is alone with its origin. -/
def Alone (s : RobotsCalls) : RobotsStep → Prop
  | .call _ => True
  | .step k _ => ∀ origin ∈ s.loading, s.calls[k]? = some (.check origin) →
      s.cache.get origin ≠ none

/-- Each request has been answered, and its answer stored, or it is under way. -/
structure Accounted (s : RobotsCalls) : Prop where
  perm : (s.loading ++ s.loaded).Perm s.requested
  nodup : s.requested.Nodup

variable {X} {s s' : RobotsCalls} {l : RobotsStep}

theorem Accounted.stable (h : s.Accounted) : s.Stable :=
  ⟨h.nodup, (List.nodup_append.1 (h.perm.nodup_iff.2 h.nodup)).2.1⟩

theorem get_eq_none_iff {cache : RobotsCache} {origin : String} :
    cache.get origin = none ↔ origin ∉ cache.map Prod.fst := by
  rw [RobotsCache.get, Option.map_eq_none_iff, List.find?_eq_none, List.mem_map]
  constructor
  · rintro h ⟨entry, hentry, rfl⟩
    exact h entry hentry (decide_eq_true rfl)
  · intro h entry hentry heq
    exact h ⟨entry, hentry, of_decide_eq_true heq⟩

/-- The origins being loaded, but for the call `k`. -/
def others (s : RobotsCalls) (k : ℕ) : List String :=
  (s.calls.eraseIdx k).filterMap RobotsCall.loading

theorem perm_loading {k : ℕ} {c : RobotsCall} (hc : s.calls[k]? = some c) :
    s.loading.Perm (c.loading.toList ++ s.others k) := by
  obtain ⟨hk, rfl⟩ := List.getElem?_eq_some_iff.1 hc
  have hperm := (List.getElem_cons_eraseIdx_perm hk).symm.filterMap RobotsCall.loading
  rw [List.filterMap_cons] at hperm
  cases hl : s.calls[k].loading with
  | none =>
    rw [hl] at hperm
    exact hperm
  | some origin =>
    rw [hl] at hperm
    exact hperm

theorem perm_loading_set {k : ℕ} {c c' : RobotsCall} {cache : RobotsCache}
    {requested : List String} (hc : s.calls[k]? = some c) :
    (RobotsCalls.mk cache (s.calls.set k c') requested).loading.Perm
      (c'.loading.toList ++ s.others k) := by
  obtain ⟨hk, rfl⟩ := List.getElem?_eq_some_iff.1 hc
  have hperm := (List.set_perm_cons_eraseIdx hk c').filterMap RobotsCall.loading
  rw [List.filterMap_cons] at hperm
  cases hl : c'.loading with
  | none =>
    rw [hl] at hperm
    exact hperm
  | some origin =>
    rw [hl] at hperm
    exact hperm

theorem loading_start (url : String) : (RobotsCall.start X url).loading = none := by
  rw [RobotsCall.start]
  cases X.parse url with
  | none => rfl
  | some parsed =>
    dsimp only
    cases parsed.origin <;> rfl

/-- A call that misses sends a request. -/
theorem advance_miss {k : ℕ} {robot : Option Robot} {origin : String}
    (hc : s.calls[k]? = some (.check origin)) (hmiss : s.cache.get origin = none) :
    s.advance k robot = some ⟨s.cache, s.calls.set k (.fetch origin), origin :: s.requested⟩ := by
  rw [advance, hc, Option.bind_some, RobotsCall.next, hmiss]
  rfl

/-- **A step** in which no call misses on an origin that is being loaded. -/
theorem Accounted.step (hs : s.Accounted) (halone : s.Alone l)
    (h : (machine X).step s l = some s') : s'.Accounted := by
  cases l with
  | call url =>
    obtain rfl := Option.some.inj h
    have hloading :
        (s.calls ++ [RobotsCall.start X url]).filterMap RobotsCall.loading = s.loading := by
      rw [List.filterMap_append, List.filterMap_cons, loading_start]
      exact List.append_nil _
    refine ⟨?_, hs.nodup⟩
    show ((s.calls ++ [RobotsCall.start X url]).filterMap RobotsCall.loading ++ s.loaded).Perm
      s.requested
    rw [hloading]
    exact hs.perm
  | step k robot =>
    obtain ⟨c, hc, h⟩ := Option.bind_eq_some_iff.1 h
    obtain ⟨⟨c', cache⟩, hnext, rfl⟩ := Option.map_eq_some_iff.1 h
    have hbefore := ((perm_loading hc).append_right s.loaded).symm.trans hs.perm
    have hafter : (RobotsCalls.mk cache (s.calls.set k c') (sends c' s.requested)).loading.Perm
      (c'.loading.toList ++ s.others k) := perm_loading_set hc
    cases c with
    | check origin =>
      rw [RobotsCall.next] at hnext
      split at hnext
      case h_1 =>
        obtain ⟨rfl, rfl⟩ := Prod.mk.inj (Option.some.inj hnext)
        exact ⟨(hafter.append_right _).trans hbefore, hs.nodup⟩
      case h_2 hmiss =>
        obtain ⟨rfl, rfl⟩ := Prod.mk.inj (Option.some.inj hnext)
        refine ⟨(hafter.append_right _).trans (hbefore.cons origin), ?_⟩
        refine List.nodup_cons.2 ⟨fun hmem ↦ ?_, hs.nodup⟩
        rcases List.mem_append.1 (hs.perm.mem_iff.2 hmem) with hloading | hloaded
        · exact halone origin hloading hc hmiss
        · exact get_eq_none_iff.1 hmiss hloaded
    | fetch origin =>
      obtain ⟨rfl, rfl⟩ := Prod.mk.inj (Option.some.inj hnext)
      exact ⟨(hafter.append_right _).trans hbefore, hs.nodup⟩
    | insert origin loaded =>
      obtain ⟨rfl, rfl⟩ := Prod.mk.inj (Option.some.inj hnext)
      refine ⟨(hafter.append_right _).trans (List.perm_middle.trans ?_), hs.nodup⟩
      exact hbefore
    | done => cases hnext

/-- **Any other step** fetches an origin again. -/
theorem Accounted.not_stable (hs : s.Accounted) (halone : ¬ s.Alone l)
    (h : (machine X).step s l = some s') : ¬ s'.Stable := by
  intro hs'
  cases l with
  | call url => exact halone trivial
  | step k robot =>
    refine halone fun origin horigin hc hmiss ↦ ?_
    obtain rfl := Option.some.inj ((advance_miss hc hmiss).symm.trans h)
    have hmem := hs.perm.mem_iff.1 (List.mem_append_left _ horigin)
    exact (List.nodup_cons.1 hs'.requested).1 hmem

/-- **The stability of the cache**, in every state of a run: no call misses on an origin that
another one is loading. -/
theorem stable_iff_guarded {ls : List RobotsStep} {s : RobotsCalls}
    (hrun : (machine X).run initial ls = some s) :
    (∀ l₁ l₂ t, ls = l₁ ++ l₂ → (machine X).run initial l₁ = some t → t.Stable) ↔
      (machine X).Guarded Alone initial ls :=
  Machine.forall_prefix_iff_guarded (I := Accounted) (fun _ hs ↦ hs.stable)
    (fun _ _ _ hs _ halone h ↦ hs.step halone h)
    (fun _ _ _ hs _ halone h ↦ hs.not_stable halone h)
    ⟨List.Perm.nil, List.nodup_nil⟩ (Machine.guarded_true _ _) hrun

/-! ### Two targets of one host -/

namespace TwoTargets

def url (path : String) : Url := ⟨"https", "", none, some "guide.example", none, path, none, none⟩

/-- The prefixes of the two targets. -/
def crates : Crates := .ofTables
  { urls := ["/a/", "/b/"].map fun path ↦ ("https://guide.example" ++ path, url path)
    joins := []
    documents := []
    disallowed := []
    digests := [] }

/-- The rules of the host. -/
def rules : Robot := ⟨"User-agent: *\nDisallow: /", none, []⟩

/-- Both crawls look the host up, the first loads its rules, and the request of the second fails. -/
def replaced : List RobotsStep :=
  [.call "https://guide.example/a/", .call "https://guide.example/b/", .step 0 none, .step 1 none,
    .step 0 (some rules), .step 0 none, .step 1 none, .step 1 none]

/-- The host is fetched twice, and the rules that were loaded are replaced by "allow all". -/
theorem not_stable : ∃ s, (machine crates).run initial replaced = some s ∧ ¬ s.Stable ∧
    ("https://guide.example", some rules) ∈ s.cache ∧
    s.cache.get "https://guide.example" = some none := by
  have hany : ((machine crates).run initial replaced).any (fun s ↦
      ¬ s.requested.Nodup ∧ ("https://guide.example", some rules) ∈ s.cache ∧
        s.cache.get "https://guide.example" = some none) = true := by decide +kernel
  obtain ⟨s, hs, hloaded⟩ := Machine.exists_run_of_any hany
  obtain ⟨hrequested, hreplaced⟩ := of_decide_eq_true hloaded
  exact ⟨s, hs, fun h ↦ hrequested h.requested, hreplaced⟩

/-- The second crawl begins when the rules are there. -/
def cached : List RobotsStep :=
  [.call "https://guide.example/a/", .step 0 none, .step 0 (some rules), .step 0 none,
    .call "https://guide.example/b/", .step 1 none]

theorem stable_iff_guarded_cached : ∃ s, (machine crates).run initial cached = some s ∧
    ((∀ l₁ l₂ t, cached = l₁ ++ l₂ → (machine crates).run initial l₁ = some t → t.Stable) ↔
      (machine crates).Guarded Alone initial cached) := by
  have hany : ((machine crates).run initial cached).any (fun _ ↦ true) = true := by decide +kernel
  obtain ⟨s, hs, -⟩ := Machine.exists_run_of_any hany
  exact ⟨s, hs, stable_iff_guarded hs⟩

end TwoTargets

end RobotsCalls

end CommunitySearch
