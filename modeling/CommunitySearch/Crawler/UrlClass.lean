import CommunitySearch.Crawler.Url
import Mathlib.Data.List.Sort
import Mathlib.Data.String.Basic

/-!
# Normalising and classifying URLs

`normalizeUrl` gives each resource one spelling, `isInPrefix` decides whether a URL belongs to a
crawl target, and `isBlacklistedOutlinkHost` filters what leaves it. Under the laws of the `url`
crate normalisation is idempotent (`normalizeUrl_idem`), and so a target's own normalised prefix
lies in the target (`isInPrefix_of_normalizeUrl`): that is what makes the seed of a crawl an
in-prefix URL.
-/

namespace CommunitySearch

/-- Query parameters that carry tracking data only. -/
def trackingParams : List String :=
  [ -- Google / Urchin
    "utm_source", "utm_medium", "utm_campaign", "utm_term", "utm_content", "utm_id", "utm_name",
    "utm_reader", "utm_referrer", "gclid", "dclid", "_ga",
    -- Facebook / Meta
    "fbclid",
    -- Microsoft / Bing / LinkedIn
    "msclkid", "li_fat_id",
    -- Yandex / TikTok / Mailchimp / HubSpot
    "yclid", "ttclid", "mc_cid", "mc_eid", "_hsenc", "_hsmi", "__hssc", "__hstc",
    "hsCtaTracking",
    -- Generic referral / social
    "ref", "ref_src", "ref_url", "igshid", "oly_anon_id", "oly_enc_id", "wickedid",
    "guce_referrer"]

def isTrackingParam (name : String) : Bool :=
  trackingParams.any fun p ↦ Text.eqIgnoreAsciiCase p name

variable (X : Crates)

/-- The pairs of a query that survive normalisation, in their new order. -/
def keptPairs (query : String) : List (String × String) :=
  ((X.queryPairs query).filter fun p ↦ !isTrackingParam p.1).insertionSort fun a b ↦ a.1 ≤ b.1

namespace Url

def dropDefaultPort (u : Url) : Url :=
  match u.port with
  | some p =>
    if (u.scheme = "http" ∧ p = 80) ∨ (u.scheme = "https" ∧ p = 443) then { u with port := none }
    else u
  | none => u

/-- Rewrite the query so that spellings which differ in tracking parameters or in the order of
the others become equal. -/
def cleanQuery (u : Url) : Url :=
  match u.query with
  | some q =>
    match keptPairs X q with
    | [] => u.dropQuery
    | kept => { u with query := some (X.serializePairs kept) }
  | none => u

/-- The setters `normalize_url` applies. -/
def normalize (u : Url) : Url :=
  let u := u.dropFragment
  let u := { u with username := "", password := none }
  u.dropDefaultPort.cleanQuery X

end Url

/-- `normalize_url`. -/
def normalizeUrl (input : String) : Option String :=
  (X.parse input).map fun url ↦ (url.normalize X).toString

def stripLeadingWww (normalizedUrl : String) : String :=
  Text.replaceFirst normalizedUrl "://www." "://"

/-- `is_in_prefix`. -/
def isInPrefix (url pre : String) : Bool :=
  match normalizeUrl X url, normalizeUrl X pre with
  | some u, some p => Text.startsWith (stripLeadingWww u) (stripLeadingWww p)
  | _, _ => false

/-- Hosts whose links are not substantive destinations. -/
def blacklistedOutlinkHosts : List String :=
  [ -- Social-share / social-embed targets.
    "bufferapp.com", "buffer.com", "facebook.com", "fb.com", "instagram.com", "linkedin.com",
    "mix.com", "odnoklassniki.ru", "ok.ru", "pinterest.com", "reddit.com", "t.co", "threads.net",
    "tiktok.com", "tumblr.com", "twitter.com", "vk.com", "whatsapp.com", "x.com", "xing.com",
    -- Avatar / image / asset CDNs.
    "fbcdn.net", "giphy.com", "googleusercontent.com", "gravatar.com", "imgur.com",
    "substackcdn.com", "twimg.com", "wp.com",
    -- Video hosts.
    "youtube.com", "youtu.be"]

/-- `host_of`: the host without a leading `www.`. -/
def hostOf (url : String) : Option String :=
  ((X.parse url).bind Url.host).map fun host ↦
    let host := Text.toAsciiLowercase host
    if Text.startsWith host "www." then .ofList (host.toList.drop 4) else host

def isBlacklistedOutlinkHost (url : String) : Bool :=
  match (X.parse url).bind Url.host with
  | some host =>
    let host := Text.toAsciiLowercase host
    blacklistedOutlinkHosts.any fun target ↦ host == target || Text.endsWith host ("." ++ target)
  | none => false

/-! ### Normalisation is idempotent -/

variable {X} {valid : Url → Prop}

theorem normalizeUrl_eq_some {s t : String} :
    normalizeUrl X s = some t ↔ ∃ u, X.parse s = some u ∧ (u.normalize X).toString = t := by
  rw [normalizeUrl, Option.map_eq_some_iff]

theorem Url.dropDefaultPort_valid (hX : X.UrlLaws valid) {u : Url} (hu : valid u) :
    valid u.dropDefaultPort := by
  rw [dropDefaultPort]
  split
  · split
    · exact hX.dropPort_valid hu
    · exact hu
  · exact hu

theorem Url.cleanQuery_valid (hX : X.UrlLaws valid) {u : Url} (hu : valid u) :
    valid (u.cleanQuery X) := by
  rw [cleanQuery]
  split
  case h_1 q hq =>
    split
    · exact hX.dropQuery_valid hu
    · exact hX.setQuery_valid _ hu hq
  case h_2 => exact hu

theorem Url.normalize_valid (hX : X.UrlLaws valid) {u : Url} (hu : valid u) :
    valid (u.normalize X) :=
  cleanQuery_valid hX (dropDefaultPort_valid hX (hX.clearUserinfo_valid (hX.dropFragment_valid hu)))

/-- Rewriting a query that has been rewritten changes nothing. -/
theorem keptPairs_serializePairs (hX : X.UrlLaws valid) (query : String) :
    keptPairs X (X.serializePairs (keptPairs X query)) = keptPairs X query := by
  have hkept : ∀ p ∈ keptPairs X query, (!isTrackingParam p.1) = true := fun p hp ↦
    (List.mem_filter.1 ((List.mem_insertionSort _).1 hp)).2
  have hsorted : (keptPairs X query).Pairwise fun a b ↦ a.1 ≤ b.1 :=
    List.pairwise_insertionSort (fun a b : String × String ↦ a.1 ≤ b.1) _
  have hread : ∀ p ∈ keptPairs X query, p ∈ X.queryPairs query := fun p hp ↦
    (List.mem_filter.1 ((List.mem_insertionSort _).1 hp)).1
  rw [keptPairs, hX.queryPairs_serializePairs hread, List.filter_eq_self.2 hkept]
  exact List.Pairwise.insertionSort_eq hsorted

theorem Url.cleanQuery_cleanQuery (hX : X.UrlLaws valid) (u : Url) :
    (u.cleanQuery X).cleanQuery X = u.cleanQuery X := by
  rcases hq : u.query with - | q
  · simp [cleanQuery, hq]
  · rcases hk : keptPairs X q with - | ⟨p, ps⟩
    · have hclean : u.cleanQuery X = u.dropQuery := by simp [cleanQuery, hq, hk]
      obtain ⟨path, hdrop⟩ := stripOpaquePath_eq { u with query := none }
      have hnone : u.dropQuery.query = none := congrArg Url.query hdrop
      rw [hclean]
      simp [cleanQuery, hnone]
    · have hfix := keptPairs_serializePairs hX q
      rw [hk] at hfix
      simp [cleanQuery, hq, hk, hfix]

/-- The setters touch neither the scheme nor what an earlier one has cleared. -/
theorem Url.cleanQuery_eq (u : Url) :
    ∃ path q, u.cleanQuery X = { u with path := path, query := q } := by
  rw [cleanQuery]
  split
  · split
    · obtain ⟨path, hdrop⟩ := stripOpaquePath_eq { u with query := none }
      exact ⟨path, none, hdrop⟩
    · exact ⟨u.path, _, rfl⟩
  · exact ⟨u.path, u.query, rfl⟩

/-- A path without trailing spaces stays one. -/
theorem Url.stripOpaquePath_cleanQuery {u : Url} (hu : u.stripOpaquePath = u) :
    (u.cleanQuery X).stripOpaquePath = u.cleanQuery X := by
  rw [cleanQuery]
  split
  · split
    · exact stripOpaquePath_stripOpaquePath _
    · exact if_neg fun h ↦ nomatch h.2.1
  · exact hu

theorem Url.dropDefaultPort_eq (u : Url) : ∃ p, u.dropDefaultPort = { u with port := p } := by
  rw [dropDefaultPort]
  split
  · split
    · exact ⟨_, rfl⟩
    · exact ⟨u.port, rfl⟩
  · exact ⟨u.port, rfl⟩

theorem Url.dropDefaultPort_dropDefaultPort (u : Url) (path : String) (q : Option String) :
    dropDefaultPort { u.dropDefaultPort with path := path, query := q } =
      { u.dropDefaultPort with path := path, query := q } := by
  rcases hp : u.port with - | p
  · simp [dropDefaultPort, hp]
  · by_cases hd : (u.scheme = "http" ∧ p = 80) ∨ (u.scheme = "https" ∧ p = 443)
    · simp [dropDefaultPort, hp, hd]
    · simp [dropDefaultPort, hp, hd]

theorem Url.normalize_normalize (hX : X.UrlLaws valid) (u : Url) :
    (u.normalize X).normalize X = u.normalize X := by
  set v := Url.dropDefaultPort { u.dropFragment with username := "", password := none } with hv
  have hnorm : u.normalize X = v.cleanQuery X := rfl
  obtain ⟨p, hp⟩ :=
    Url.dropDefaultPort_eq { u.dropFragment with username := "", password := none }
  obtain ⟨path, hdrop⟩ := stripOpaquePath_eq { u with fragment := none }
  have hfragment : u.dropFragment.fragment = none := congrArg Url.fragment hdrop
  have hstripped : v.stripOpaquePath = v := by
    rw [hv, hp]
    refine (stripOpaquePath_setUserinfo u.dropFragment "" none p).trans ?_
    rw [dropFragment, stripOpaquePath_stripOpaquePath]
  obtain ⟨path', q, hq⟩ := Url.cleanQuery_eq (X := X) v
  have hclear : ({ (v.cleanQuery X).dropFragment with
      username := "", password := none } : Url) = v.cleanQuery X := by
    have hcut : ({ v.cleanQuery X with fragment := none } : Url) = v.cleanQuery X := by
      rw [hq, hv, hp, ← hfragment]
    rw [dropFragment, hcut, stripOpaquePath_cleanQuery hstripped, hq, hv, hp]
  have hport : (v.cleanQuery X).dropDefaultPort = v.cleanQuery X := by
    rw [hq, hv]
    exact Url.dropDefaultPort_dropDefaultPort _ path' q
  calc (u.normalize X).normalize X
      = ((v.cleanQuery X).dropDefaultPort).cleanQuery X := by
        rw [hnorm]
        exact congrArg (fun w : Url ↦ w.dropDefaultPort.cleanQuery X) hclear
    _ = (v.cleanQuery X).cleanQuery X := by rw [hport]
    _ = u.normalize X := Url.cleanQuery_cleanQuery hX v

/-- **Normalisation is idempotent**: a normalised URL is its own normal form. -/
theorem normalizeUrl_idem (hX : X.UrlLaws valid) {s t : String} (h : normalizeUrl X s = some t) :
    normalizeUrl X t = some t := by
  obtain ⟨u, hu, rfl⟩ := normalizeUrl_eq_some.1 h
  have hvalid : valid (u.normalize X) := Url.normalize_valid hX (hX.parse_valid hu)
  refine normalizeUrl_eq_some.2 ⟨_, hX.parse_toString hvalid, ?_⟩
  rw [Url.normalize_normalize hX]

/-- The normalised spelling of a prefix lies in the prefix. -/
theorem isInPrefix_of_normalizeUrl (hX : X.UrlLaws valid) {pre seed : String}
    (h : normalizeUrl X pre = some seed) : isInPrefix X seed pre = true := by
  rw [isInPrefix, normalizeUrl_idem hX h, h]
  exact Text.startsWith_self _

end CommunitySearch
