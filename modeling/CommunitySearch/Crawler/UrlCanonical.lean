import CommunitySearch.Crawler.UrlClass
import CommunitySearch.Foundation.FormUrlencoded

/-!
# Normalisation as a canonical form

`Url.Equivalent` are the URLs that normalisation is meant to identify: they differ in what it drops,
and in the order of pairs with different names. `normalizeUrl` gives them one spelling, from which
every other pair is read back, in order under each name (`normalizeUrl_canonical`).

That is so of the pairs as text. As bytes they survive only if they are text: a query is decoded
with replacement before it is written again (`normalizeUrl_faithful_iff`).
-/

namespace CommunitySearch

/-! ### Sorting by key -/

section SortByKey

variable {α κ : Type*} [LinearOrder κ] (key : α → κ)

/-- Entries are moved past entries with other keys only. -/
theorem filter_insertionSort (l : List α) (k : κ) :
    (l.insertionSort fun a b ↦ key a ≤ key b).filter (key · = k) = l.filter (key · = k) := by
  have hkey : ∀ a ∈ l.filter (key · = k), key a = k := fun a ha ↦
    of_decide_eq_true (List.mem_filter.1 ha).2
  have hsorted : (l.filter (key · = k)).Pairwise fun a b ↦ key a ≤ key b :=
    List.pairwise_of_forall_mem_list fun a ha b hb ↦ ((hkey a ha).trans (hkey b hb).symm).le
  have hsub := (List.sublist_insertionSort (r := fun a b ↦ key a ≤ key b) hsorted
    List.filter_sublist).filter (key · = k)
  rw [List.filter_filter] at hsub
  simp only [Bool.and_self] at hsub
  exact (hsub.eq_of_length ((List.perm_insertionSort _ l).filter _).length_eq.symm).symm

/-- Sorted lists are equal when they have the same entries, in order, under each key. -/
theorem eq_of_pairwise_of_filter_eq {l l' : List α} (hl : l.Pairwise fun a b ↦ key a ≤ key b)
    (hl' : l'.Pairwise fun a b ↦ key a ≤ key b)
    (h : ∀ k, l.filter (key · = k) = l'.filter (key · = k)) : l = l' := by
  have hmem : ∀ {m m' : List α} {a}, (∀ k, m.filter (key · = k) = m'.filter (key · = k)) →
      a ∈ m → a ∈ m' := fun {m m' a} h ha ↦ by
    have hfilter : a ∈ m.filter (key · = key a) := List.mem_filter.2 ⟨ha, decide_eq_true rfl⟩
    rw [h] at hfilter
    exact List.mem_of_mem_filter hfilter
  induction l generalizing l' with
  | nil =>
    cases l' with
    | nil => rfl
    | cons b l' => exact absurd (hmem (fun k ↦ (h k).symm) List.mem_cons_self) List.not_mem_nil
  | cons a l ih =>
    cases l' with
    | nil => exact absurd (hmem h List.mem_cons_self) List.not_mem_nil
    | cons b l' =>
      obtain ⟨ha, hsorted⟩ := List.pairwise_cons.1 hl
      obtain ⟨hb, hsorted'⟩ := List.pairwise_cons.1 hl'
      have hle : key a ≤ key b := by
        rcases List.mem_cons.1 (hmem (fun k ↦ (h k).symm) List.mem_cons_self) with rfl | hmem
        exacts [le_rfl, ha b hmem]
      have hge : key b ≤ key a := by
        rcases List.mem_cons.1 (hmem h List.mem_cons_self) with rfl | hmem
        exacts [le_rfl, hb a hmem]
      have hkey : key a = key b := le_antisymm hle hge
      -- the least keys agree, so both heads are the first entry under that key
      have hhead := h (key a)
      rw [List.filter_cons_of_pos (by simp), List.filter_cons_of_pos (by simp [hkey])] at hhead
      obtain ⟨rfl, htail⟩ := List.cons.inj hhead
      refine congrArg (a :: ·) (ih hsorted hsorted' fun k ↦ ?_)
      have hk := h k
      by_cases hak : key a = k
      · rw [List.filter_cons_of_pos (by simpa using hak),
          List.filter_cons_of_pos (by simpa using hak)] at hk
        exact (List.cons.inj hk).2
      · rwa [List.filter_cons_of_neg (by simpa using hak),
          List.filter_cons_of_neg (by simpa using hak)] at hk

end SortByKey

variable (X : Crates)

/-! ### Equivalent URLs -/

namespace Url

/-- The pairs of the query, as text. -/
def pairs (u : Url) : List (String × String) :=
  match u.query with
  | some q => X.queryPairs q
  | none => []

/-- The pairs of one name, in order. -/
def pairsOf (u : Url) (name : String) : List (String × String) :=
  (u.pairs X).filter (·.1 = name)

/-- The port that is connected to. -/
def effectivePort (u : Url) : Option Nat :=
  match u.port with
  | some p => some p
  | none => if u.scheme = "http" then some 80 else if u.scheme = "https" then some 443 else none

/-- URLs that differ in fragment, userinfo, an explicit default port, tracking parameters, and the
order of pairs with different names. -/
structure Equivalent (u v : Url) : Prop where
  scheme : u.scheme = v.scheme
  host : u.host = v.host
  port : u.effectivePort = v.effectivePort
  path : u.path = v.path
  pairs : ∀ name, isTrackingParam name = false → u.pairsOf X name = v.pairsOf X name

/-- The pairs that normalisation keeps, in their new order. -/
def kept (u : Url) : List (String × String) :=
  ((u.pairs X).filter fun p ↦ !isTrackingParam p.1).insertionSort fun a b ↦ a.1 ≤ b.1

/-- The query of some pairs; none if there are none. -/
def queryOf (pairs : List (String × String)) : Option String :=
  if pairs = [] then none else some (X.serializePairs pairs)

theorem cleanQuery_eq_queryOf {u : Url} (hu : u.stripOpaquePath = u) :
    u.cleanQuery X = { u with query := queryOf X (u.kept X) }.stripOpaquePath := by
  obtain ⟨scheme, username, password, host, port, path, query, fragment⟩ := u
  cases query with
  | none => exact hu.symm
  | some q =>
    have hkept : kept X ⟨scheme, username, password, host, port, path, some q, fragment⟩ =
        keptPairs X q := rfl
    rw [hkept, cleanQuery]
    dsimp only
    rcases keptPairs X q with _ | ⟨p, ps⟩
    · rfl
    · exact (if_neg fun h ↦ Option.some_ne_none _ h.2.1).symm

/-- The port is dropped just when it is the default one. -/
theorem port_dropDefaultPort {u v : Url} (hscheme : u.scheme = v.scheme)
    (hport : u.effectivePort = v.effectivePort) :
    u.dropDefaultPort.port = v.dropDefaultPort.port := by
  have hdrop : ∀ w : Url, w.dropDefaultPort.port =
      w.effectivePort.filter fun p ↦
        !((w.scheme = "http" ∧ p = 80) ∨ (w.scheme = "https" ∧ p = 443)) := fun w ↦ by
    obtain ⟨scheme, username, password, host, port, path, query, fragment⟩ := w
    cases port with
    | some p =>
      rw [dropDefaultPort, effectivePort]
      dsimp only
      by_cases h : (scheme = "http" ∧ p = 80) ∨ (scheme = "https" ∧ p = 443)
      · simp [Option.filter, h]
      · simp [Option.filter, h]
    | none =>
      rw [dropDefaultPort, effectivePort]
      dsimp only
      by_cases h : scheme = "http"
      · simp [Option.filter, h]
      · by_cases h' : scheme = "https"
        · simp [Option.filter, h']
        · simp [Option.filter, h, h']
  rw [hdrop, hdrop, hscheme, hport]

/-- What normalisation makes of a URL. -/
theorem normalize_eq (u : Url) : u.normalize X =
    stripOpaquePath ⟨u.scheme, "", none, u.host, u.dropDefaultPort.port, u.path,
      queryOf X (u.kept X), none⟩ := by
  set v : Url := { u.dropFragment with username := "", password := none } with hv
  obtain ⟨p, hp⟩ := dropDefaultPort_eq v
  obtain ⟨path, hpath⟩ := stripOpaquePath_eq { u with fragment := none }
  have hdrop : u.dropFragment = { u with fragment := none, path := path } := hpath
  have hport : v.dropDefaultPort.port = u.dropDefaultPort.port := by
    rw [hv, hdrop]
    exact port_dropDefaultPort rfl rfl
  have hkept : v.dropDefaultPort.kept X = u.kept X := by
    rw [hp, hv, hdrop]
    rfl
  have hclear : v.dropDefaultPort =
      stripOpaquePath
        ⟨u.scheme, "", none, u.host, u.dropDefaultPort.port, u.path, u.query, none⟩ := by
    rw [← hport, hp]
    exact (stripOpaquePath_setUserinfo { u with fragment := none } "" none p).symm
  have hstripped : v.dropDefaultPort.stripOpaquePath = v.dropDefaultPort := by
    rw [hclear, stripOpaquePath_stripOpaquePath]
  calc u.normalize X
      = { v.dropDefaultPort with query := queryOf X (u.kept X) }.stripOpaquePath := by
        rw [← hkept]
        exact cleanQuery_eq_queryOf X hstripped
    _ = _ := by
        -- a path that has been cut already was the end of the URL, and still is
        rcases hquery : u.query with - | q
        · have hnone : queryOf X (u.kept X) = none := by
            rw [kept, pairs, hquery]
            rfl
          have hsame : { v.dropDefaultPort with query := none } = v.dropDefaultPort := by
            obtain ⟨path', h⟩ := stripOpaquePath_eq ⟨u.scheme, "", none, u.host,
              u.dropDefaultPort.port, u.path, u.query, none⟩
            rw [hclear, h, hquery]
          rw [hnone, hsame, hstripped, hclear, hquery]
        · have huncut : v.dropDefaultPort =
              ⟨u.scheme, "", none, u.host, u.dropDefaultPort.port, u.path, u.query, none⟩ := by
            rw [hclear]
            exact if_neg fun h ↦ nomatch hquery.symm.trans (show u.query = none from h.2.1)
          rw [huncut]

theorem normalize_eq_of_not_isOpaque {u : Url} (hu : ¬ u.IsOpaque) : u.normalize X =
    ⟨u.scheme, "", none, u.host, u.dropDefaultPort.port, u.path, queryOf X (u.kept X), none⟩ := by
  rw [normalize_eq]
  exact stripOpaquePath_of_not_isOpaque hu

/-- Of the path it may cut the end. -/
theorem exists_normalize_eq (u : Url) : ∃ path, u.normalize X =
    ⟨u.scheme, "", none, u.host, u.dropDefaultPort.port, path, queryOf X (u.kept X), none⟩ := by
  rw [normalize_eq]
  exact stripOpaquePath_eq _

theorem scheme_normalize (u : Url) : (u.normalize X).scheme = u.scheme := by
  obtain ⟨path, h⟩ := exists_normalize_eq X u
  rw [h]

theorem query_normalize (u : Url) : (u.normalize X).query = queryOf X (u.kept X) := by
  obtain ⟨path, h⟩ := exists_normalize_eq X u
  rw [h]

variable {X}

theorem mem_kept {u : Url} {p : String × String} :
    p ∈ u.kept X ↔ p ∈ u.pairs X ∧ isTrackingParam p.1 = false := by
  rw [kept, List.mem_insertionSort, List.mem_filter, Bool.not_eq_true']

/-- Under each name the kept pairs are in order; tracking parameters are dropped. -/
theorem filter_kept (u : Url) (name : String) : (u.kept X).filter (·.1 = name) =
    if isTrackingParam name then [] else u.pairsOf X name := by
  rw [kept, filter_insertionSort Prod.fst, pairsOf, List.filter_filter]
  cases htracking : isTrackingParam name with
  | true =>
    refine List.filter_eq_nil_iff.2 fun p _ ↦ ?_
    by_cases hp : p.1 = name
    · simp [hp, htracking]
    · simp [hp]
  | false =>
    refine List.filter_congr fun p _ ↦ ?_
    by_cases hp : p.1 = name
    · simp [hp, htracking]
    · simp [hp]

theorem kept_eq_of_equivalent {u v : Url} (h : u.Equivalent X v) : u.kept X = v.kept X := by
  refine eq_of_pairwise_of_filter_eq Prod.fst (List.pairwise_insertionSort _ _)
    (List.pairwise_insertionSort _ _) fun name ↦ ?_
  rw [filter_kept, filter_kept]
  cases htracking : isTrackingParam name with
  | true => rfl
  | false => exact h.pairs name htracking

/-- **Equivalent URLs have one normal form.** -/
theorem normalize_eq_of_equivalent {u v : Url} (h : u.Equivalent X v) :
    u.normalize X = v.normalize X := by
  rw [normalize_eq, normalize_eq, h.scheme, h.host, port_dropDefaultPort h.scheme h.port, h.path,
    kept_eq_of_equivalent h]

/-- The pairs of a normal form are the kept ones. -/
theorem pairs_normalize {valid : Url → Prop} (hX : X.UrlLaws valid) (u : Url) :
    (u.normalize X).pairs X = u.kept X := by
  rw [pairs, query_normalize, queryOf]
  split
  case h_1 q hq =>
    split at hq
    case isTrue => cases hq
    case isFalse hne =>
      obtain rfl := Option.some.inj hq
      rcases hquery : u.query with _ | q
      · have hnone : u.kept X = [] := by
          rw [kept, pairs, hquery]
          rfl
        exact absurd hnone hne
      · refine hX.queryPairs_serializePairs (q := q) fun p hp ↦ ?_
        have hmem := (mem_kept.1 hp).1
        rwa [pairs, hquery] at hmem
  case h_2 hq =>
    split at hq
    case isTrue hnil => exact hnil.symm
    case isFalse => cases hq

end Url

/-- **Normalisation is a canonical form**: a URL that parses has a normal form, which is its own
normal form and that of every equivalent URL, and from which the pairs of each name are read back,
in order, except those of tracking parameters. -/
theorem normalizeUrl_canonical {valid : Url → Prop} (hX : X.UrlLaws valid) {s : String} {u : Url}
    (hs : X.parse s = some u) :
    ∃ n w, normalizeUrl X s = some n ∧ normalizeUrl X n = some n ∧ X.parse n = some w ∧
      (∀ s' v, X.parse s' = some v → u.Equivalent X v → normalizeUrl X s' = some n) ∧
      ∀ name, w.pairsOf X name = if isTrackingParam name then [] else u.pairsOf X name := by
  have hn : normalizeUrl X s = some (u.normalize X).toString := normalizeUrl_eq_some.2 ⟨u, hs, rfl⟩
  refine ⟨_, u.normalize X, hn, normalizeUrl_idem hX hn,
    hX.parse_toString (Url.normalize_valid hX (hX.parse_valid hs)), fun s' v hs' h ↦ ?_,
    fun name ↦ ?_⟩
  · rw [Url.normalize_eq_of_equivalent h]
    exact normalizeUrl_eq_some.2 ⟨v, hs', rfl⟩
  · rw [Url.pairsOf, Url.pairs_normalize hX, Url.filter_kept]

/-! ### Queries as bytes -/

/-- The form encoding of the `url` crate: percent-decoded bytes are read as UTF-8 with
replacement. -/
structure Crates.FormLaws (X : Crates) : Prop where
  queryPairs_eq : ∀ q, X.queryPairs q = Form.queryPairs q
  serializePairs_eq : ∀ pairs, X.serializePairs pairs = Form.serialize pairs

namespace Url

/-- The pairs of the query, percent-decoded. -/
def bytePairs (u : Url) : List (List UInt8 × List UInt8) :=
  match u.query with
  | some q => Form.parse q
  | none => []

/-- Those that are no tracking parameters. -/
def linkedPairs (u : Url) : List (List UInt8 × List UInt8) :=
  u.bytePairs.filter fun p ↦ !isTrackingParam (Utf8.lossy p.1)

/-- All of them are text. -/
def LinksText (u : Url) : Prop :=
  ∀ p ∈ u.linkedPairs, Utf8.IsText p.1 ∧ Utf8.IsText p.2

/-- `u` and `v` are the same URL but for pairs of the query. -/
def SameBeforeQuery (u v : Url) : Prop :=
  u.scheme = v.scheme ∧ u.host = v.host ∧ u.port = v.port ∧ u.path = v.path

variable {X}

theorem pairs_eq_map (hF : X.FormLaws) (u : Url) :
    u.pairs X = u.bytePairs.map (Prod.map Utf8.lossy Utf8.lossy) := by
  rw [pairs, bytePairs]
  rcases u.query with _ | q
  · rfl
  · exact hF.queryPairs_eq q

/-- The bytes of a normal form are those of the text its pairs were read as. -/
theorem bytePairs_normalize_perm (hF : X.FormLaws) (u : Url) :
    (u.normalize X).bytePairs.Perm
      ((u.linkedPairs.map (Prod.map Utf8.lossy Utf8.lossy)).map
        (Prod.map Utf8.encode Utf8.encode)) := by
  have hkept : (u.kept X).Perm (u.linkedPairs.map (Prod.map Utf8.lossy Utf8.lossy)) := by
    have hfilter : (u.pairs X).filter (fun p ↦ !isTrackingParam p.1) =
        u.linkedPairs.map (Prod.map Utf8.lossy Utf8.lossy) := by
      rw [pairs_eq_map hF, linkedPairs, List.filter_map]
      rfl
    rw [← hfilter]
    exact List.perm_insertionSort _ _
  have hbytes : (u.normalize X).bytePairs =
      (u.kept X).map (Prod.map Utf8.encode Utf8.encode) := by
    rw [bytePairs, query_normalize, queryOf]
    by_cases hnil : u.kept X = []
    · rw [if_pos hnil, hnil]
      rfl
    · rw [if_neg hnil]
      dsimp only
      rw [hF.serializePairs_eq, Form.parse_serialize]
  rw [hbytes]
  exact hkept.map _

/-- The normal form has the bytes of the linked pairs exactly when they are text. -/
theorem bytePairs_normalize_perm_iff (hF : X.FormLaws) (u : Url) :
    (u.normalize X).bytePairs.Perm u.linkedPairs ↔ u.LinksText := by
  have hperm := bytePairs_normalize_perm hF u
  constructor
  · intro h p hp
    obtain ⟨q, -, rfl⟩ := List.mem_map.1 ((h.symm.trans hperm).mem_iff.1 hp)
    exact ⟨⟨q.1, rfl⟩, ⟨q.2, rfl⟩⟩
  · intro h
    have hid : (u.linkedPairs.map (Prod.map Utf8.lossy Utf8.lossy)).map
        (Prod.map Utf8.encode Utf8.encode) = u.linkedPairs := by
      rw [List.map_map]
      refine (List.map_congr_left fun p hp ↦ ?_).trans (List.map_id _)
      obtain ⟨hname, hvalue⟩ := h p hp
      exact Prod.ext (Utf8.isText_iff.1 hname) (Utf8.isText_iff.1 hvalue)
    rwa [hid] at hperm

end Url

/-- The normal form of `s`, which parses as `u`, denotes what `s` does: its query decodes to the
bytes of the linked pairs. -/
def DenotesSame (s : String) (u : Url) : Prop :=
  ∃ n w, normalizeUrl X s = some n ∧ X.parse n = some w ∧ w.bytePairs.Perm u.linkedPairs

variable {X}

theorem denotesSame_iff {valid : Url → Prop} (hX : X.UrlLaws valid) (hF : X.FormLaws) {s : String}
    {u : Url} (hs : X.parse s = some u) : DenotesSame X s u ↔ u.LinksText := by
  have hn : normalizeUrl X s = some (u.normalize X).toString := normalizeUrl_eq_some.2 ⟨u, hs, rfl⟩
  have hw := hX.parse_toString (Url.normalize_valid hX (hX.parse_valid hs))
  rw [← Url.bytePairs_normalize_perm_iff hF]
  constructor
  · rintro ⟨n, w, hn', hw', hperm⟩
    rw [hn] at hn'
    obtain rfl := Option.some.inj hn'
    rw [hw] at hw'
    obtain rfl := Option.some.inj hw'
    exact hperm
  · exact fun hperm ↦ ⟨_, _, hn, hw, hperm⟩

/-- **Normalisation is faithful exactly to text**: two URLs that differ in linked pairs keep apart
and each denotes the resource that was linked, if and only if all their linked pairs are text. -/
theorem normalizeUrl_faithful_iff {valid : Url → Prop} (hX : X.UrlLaws valid) (hF : X.FormLaws)
    {s s' : String} {u v : Url} (hs : X.parse s = some u) (hs' : X.parse s' = some v) :
    ((u.SameBeforeQuery v → ¬ u.linkedPairs.Perm v.linkedPairs →
        normalizeUrl X s ≠ normalizeUrl X s') ∧
      DenotesSame X s u ∧ DenotesSame X s' v) ↔ u.LinksText ∧ v.LinksText := by
  rw [← denotesSame_iff hX hF hs, ← denotesSame_iff hX hF hs']
  refine ⟨fun h ↦ h.2, fun h ↦ ⟨fun _ hne heq ↦ ?_, h⟩⟩
  -- one normal form would have the linked pairs of both
  obtain ⟨⟨n, w, hn, hw, hu⟩, ⟨n', w', hn', hw', hv⟩⟩ := h
  rw [hn, hn'] at heq
  obtain rfl := Option.some.inj heq
  rw [hw] at hw'
  obtain rfl := Option.some.inj hw'
  exact hne (hu.symm.trans hv)

/-! ### A search page -/

namespace SearchPage

/-- The URL of the page with a query. -/
def url (query : Option String) : Url :=
  ⟨"https", "", none, some "example.com", none, "/s", query, none⟩

def base : String := "https://example.com/s"

def queryBase : String := "https://example.com/s?"

/-- The URLs of the page, without fragment. -/
def parse (s : String) : Option Url :=
  if s = base then some (url none)
  else if Text.startsWith s queryBase && !s.toList.contains '#' then
    some (url (some (.ofList (s.toList.drop queryBase.length))))
  else none

def crates : Crates :=
  { Crates.ofTables ⟨[], [], [], [], []⟩ with
    parse := parse
    queryPairs := Form.queryPairs
    serializePairs := Form.serialize }

/-- The URLs of the page. -/
def Valid (u : Url) : Prop :=
  ∃ query, u = url query ∧ ∀ q, query = some q → '#' ∉ q.toList

theorem toString_url (q : String) : (url (some q)).toString = queryBase ++ q := by
  show "https" ++ ":" ++ ("//" ++ "" ++ "example.com" ++ "") ++ "/s" ++ ("?" ++ q) ++ "" = _
  rw [String.append_empty, ← String.append_assoc]
  rfl

theorem parse_toString {u : Url} (hu : Valid u) : parse u.toString = some u := by
  obtain ⟨query, rfl, hquery⟩ := hu
  cases query with
  | none => rfl
  | some q =>
    have happend : (queryBase ++ q).toList = queryBase.toList ++ q.toList := String.toList_append
    have hhash : (queryBase ++ q).toList.contains '#' = false := by
      refine Bool.eq_false_iff.2 fun hc ↦ ?_
      rw [happend, List.contains_iff_mem, List.mem_append] at hc
      rcases hc with h | h
      · revert h
        decide
      · exact hquery q rfl h
    have hne : queryBase ++ q ≠ base := by
      intro h
      have hlen := congrArg (fun s : String ↦ s.toList.length) h
      simp only [happend, List.length_append] at hlen
      have hlonger : base.toList.length < queryBase.toList.length := by decide
      omega
    have hstarts : Text.startsWith (queryBase ++ q) queryBase = true := by
      rw [Text.startsWith_iff, happend]
      exact List.prefix_append _ _
    rw [toString_url, parse, if_neg hne, hstarts, hhash, happend, ← String.length_toList,
      List.drop_left, String.ofList_toList]
    rfl

theorem formLaws : crates.FormLaws := ⟨fun _ ↦ rfl, fun _ ↦ rfl⟩

theorem urlLaws : crates.UrlLaws Valid where
  parse_valid := by
    intro s u h
    simp only [crates, parse] at h
    split at h
    · obtain rfl := Option.some.inj h
      exact ⟨none, rfl, fun _ hq ↦ by cases hq⟩
    · split at h
      case isTrue hs =>
        obtain rfl := Option.some.inj h
        refine ⟨_, rfl, fun q hq ↦ ?_⟩
        obtain rfl := Option.some.inj hq
        rw [String.toList_ofList]
        intro hmem
        have hhash := (Bool.and_eq_true_iff.1 hs).2
        have := List.mem_of_mem_drop hmem
        simp [this] at hhash
      case isFalse => cases h
  join_valid _ h := by cases h
  parse_toString hu := parse_toString hu
  dropFragment_valid := by
    rintro _ ⟨query, rfl, hquery⟩
    exact ⟨query, rfl, hquery⟩
  clearUserinfo_valid := by
    rintro _ ⟨query, rfl, hquery⟩
    exact ⟨query, rfl, hquery⟩
  dropPort_valid := by
    rintro _ ⟨query, rfl, hquery⟩
    exact ⟨query, rfl, hquery⟩
  dropQuery_valid := by
    rintro _ ⟨query, rfl, -⟩
    exact ⟨none, rfl, fun _ hq ↦ by cases hq⟩
  setQuery_valid := by
    rintro _ _ pairs ⟨query, rfl, -⟩ -
    refine ⟨_, rfl, fun q hq ↦ ?_⟩
    obtain rfl := Option.some.inj hq
    exact Form.hash_not_mem_serialize pairs
  queryPairs_serializePairs _ := Form.queryPairs_serialize _

/-- Tracking parameters and order make no difference here. -/
theorem normalizeUrl_canonical_search :
    ∃ n w, normalizeUrl crates "https://example.com/s?b=2&utm_source=x&a=1" = some n ∧
      normalizeUrl crates n = some n ∧ crates.parse n = some w ∧
      (∀ s' v, crates.parse s' = some v →
        (url (some "b=2&utm_source=x&a=1")).Equivalent crates v →
        normalizeUrl crates s' = some n) ∧
      ∀ name, w.pairsOf crates name = if isTrackingParam name then []
        else (url (some "b=2&utm_source=x&a=1")).pairsOf crates name :=
  normalizeUrl_canonical crates urlLaws (by decide)

theorem linksText_of_forall {u : Url}
    (h : ∀ p ∈ u.linkedPairs, Utf8.encode (Utf8.lossy p.1) = p.1 ∧
      Utf8.encode (Utf8.lossy p.2) = p.2) : u.LinksText :=
  fun p hp ↦ ⟨Utf8.isText_iff.2 (h p hp).1, Utf8.isText_iff.2 (h p hp).2⟩

/-- Queries of text are kept apart. -/
theorem normalizeUrl_faithful_search :
    ((url (some "q=%41")).SameBeforeQuery (url (some "q=b&ref=x")) →
        ¬ (url (some "q=%41")).linkedPairs.Perm (url (some "q=b&ref=x")).linkedPairs →
        normalizeUrl crates "https://example.com/s?q=%41" ≠
          normalizeUrl crates "https://example.com/s?q=b&ref=x") ∧
      DenotesSame crates "https://example.com/s?q=%41" (url (some "q=%41")) ∧
      DenotesSame crates "https://example.com/s?q=b&ref=x" (url (some "q=b&ref=x")) :=
  (normalizeUrl_faithful_iff urlLaws formLaws (by decide) (by decide)).2
    ⟨linksText_of_forall (by decide +kernel), linksText_of_forall (by decide +kernel)⟩

/-- **Bytes that are no text are lost**: two links to different resources are given one URL. -/
theorem normalizeUrl_not_faithful :
    crates.parse "https://example.com/s?q=%FF" = some (url (some "q=%FF")) ∧
      crates.parse "https://example.com/s?q=%FE" = some (url (some "q=%FE")) ∧
      (url (some "q=%FF")).SameBeforeQuery (url (some "q=%FE")) ∧
      ¬ (url (some "q=%FF")).linkedPairs.Perm (url (some "q=%FE")).linkedPairs ∧
      normalizeUrl crates "https://example.com/s?q=%FF" =
        normalizeUrl crates "https://example.com/s?q=%FE" :=
  ⟨by decide, by decide, ⟨rfl, rfl, rfl, rfl⟩, by decide +kernel, by decide +kernel⟩

end SearchPage

end CommunitySearch
