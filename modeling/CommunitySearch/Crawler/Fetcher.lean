import CommunitySearch.Crawler.Effects
import Mathlib.Algebra.Group.Nat.Defs

/-!
# The fetcher

A GET follows up to five redirects, each an exchange of its own, and every hop carries the same
headers: that is what the HTTP client documents of the policy it is built with
(`redirect::Policy::limited(5)`, `follow`). Which redirects it follows, and to which URL, is up to
the client (`Crates.redirectTarget`). `classify` is what `Fetcher::fetch` makes of the final
response.
-/

namespace CommunitySearch

open Prog (ret)

/-- The HTTP client wrapper. -/
structure Fetcher where
  userAgent : String

/-- The outcome of `Fetcher::fetch`. -/
inductive FetchOutcome where
  /-- 2xx with an HTML body; `finalUrl` is the URL after redirects. -/
  | fresh (status : Nat) (body : String) (etag lastModified : Option String) (finalUrl : String)
  | notModified
  | rateLimited (retryAfter : Option Duration)
  | otherStatus (status : Nat)
deriving DecidableEq

/-- The number of redirects followed. -/
def MAX_REDIRECTS : Nat := 5

variable (X : Crates)

/-- A redirect that is not followed, as the response it is. -/
def RedirectStatus.response (status : RedirectStatus) : HttpResponse :=
  ⟨status.code, none, none, none, none, some ""⟩

/-- One hop: request the URL `current`, spelled `spelled` in the request, and hand the URL of a
redirect `onward`. -/
def hop (kind : RequestKind) (v : Validators) (current : Url) (spelled : String)
    (onward : Url → Crawl (Option (HttpResponse × Url))) : Crawl (Option (HttpResponse × Url)) :=
  .op (.request kind current spelled v) fun
    | .failed => ret none
    | .response r => ret (some (r, current))
    | .redirect status location =>
      match X.redirectTarget current status location with
      -- a redirect that is not followed is the response itself
      | none => ret (some (status.response, current))
      | some next => onward next

/-- Follow redirects, at most `hops` of them. The result is the final response and the URL it came
from, or `none` on a transport error or too many redirects. -/
def follow (kind : RequestKind) (v : Validators) :
    (hops : Nat) → (current : Url) → (spelled : String) → Crawl (Option (HttpResponse × Url))
  | 0, current, spelled => hop X kind v current spelled fun _ ↦ ret none
  | hops + 1, current, spelled =>
    hop X kind v current spelled fun next ↦ follow kind v hops next next.toString

/-- `client.get(url).send()`. -/
def clientGet (kind : RequestKind) (url : String) (v : Validators) :
    Crawl (Option (HttpResponse × Url)) :=
  match X.parse url with
  | none => ret none
  | some u => follow X kind v MAX_REDIRECTS u url

/-- `parse_retry_after`: the integer form only. -/
def parseRetryAfter (value : String) : Option Duration :=
  let digits := match (Text.trim value).toList with
    | '+' :: rest => String.ofList rest
    | rest => String.ofList rest
  match Text.parseDigits digits with
  | some n => if n < 2 ^ 64 then some (.fromSecs n) else none
  | none => none

def HttpResponse.isSuccess (r : HttpResponse) : Bool :=
  200 ≤ r.status && r.status < 300

/-- The response is a 2xx HTML page. -/
def HttpResponse.isPage (r : HttpResponse) : Bool :=
  r.isSuccess && Text.contains (Text.toAsciiLowercase (r.contentType.getD "")) "html" &&
    r.body.isSome

/-- What `fetch` makes of the final response. -/
def classify (r : HttpResponse) (finalUrl : Url) : CrawlResult FetchOutcome :=
  if r.status = 304 then .ok .notModified
  else if r.status = 429 then .ok (.rateLimited (r.retryAfter.bind parseRetryAfter))
  else if !r.isSuccess then .ok (.otherStatus r.status)
  else
    let ctype := r.contentType.getD ""
    if !Text.contains (Text.toAsciiLowercase ctype) "html" then .error (.notHtml ctype)
    else match r.body with
      | none => .error .http
      | some body => .ok (.fresh r.status body r.etag r.lastModified finalUrl.toString)

/-- `fetch`. -/
def fetch (fetcher : Fetcher) (url : String) (v : Validators) : Crawl (CrawlResult FetchOutcome) :=
  if X.isHeaderValue fetcher.userAgent && v.etag.all X.isHeaderValue &&
      v.lastModified.all X.isHeaderValue then
    (clientGet X .page url v).bind fun
      | none => ret (.error .http)
      | some (r, finalUrl) => ret (classify r finalUrl)
  else ret (.error (.other "failed to parse header value"))

/-- `fetch_text_raw`: `none` on a status other than 2xx. -/
def fetchTextRaw (fetcher : Fetcher) (url : String) (maxBytes : Nat) :
    Crawl (CrawlResult (Option String)) :=
  if X.isHeaderValue fetcher.userAgent then
    (clientGet X .sitemap url ⟨none, none⟩).bind fun
      | none => ret (.error .http)
      | some (r, _) =>
        if !r.isSuccess then ret (.ok none)
        else match r.body with
          | none => ret (.error .http)
          | some body => ret (.ok (some (Text.takeBytes maxBytes body)))
  else ret (.error .http)

/-! ### The final response decides -/

/-- A 2xx HTML page is fresh. -/
theorem classify_of_isPage {r : HttpResponse} (h : r.isPage = true) (finalUrl : Url) :
    ∃ body, r.body = some body ∧
      classify r finalUrl = .ok (.fresh r.status body r.etag r.lastModified finalUrl.toString) := by
  obtain ⟨⟨hsucc, hhtml⟩, hbody⟩ : (r.isSuccess = true ∧ _ = true) ∧ r.body.isSome = true := by
    simpa only [HttpResponse.isPage, Bool.and_eq_true] using h
  obtain ⟨body, hbody⟩ := Option.isSome_iff_exists.1 hbody
  refine ⟨body, hbody, ?_⟩
  have hrange : 200 ≤ r.status ∧ r.status < 300 := by
    simpa [HttpResponse.isSuccess] using hsucc
  have h304 : r.status ≠ 304 := by omega
  have h429 : r.status ≠ 429 := by omega
  rw [classify, if_neg h304, if_neg h429, hsucc]
  simp only [Bool.not_true, hhtml, hbody]
  rfl

/-- Only a 2xx HTML page is fresh. -/
theorem isPage_of_classify {r : HttpResponse} {finalUrl : Url} {status : Nat} {body u : String}
    {etag lm : Option String}
    (h : classify r finalUrl = .ok (.fresh status body etag lm u)) :
    r.isPage = true ∧ r.body = some body ∧ u = finalUrl.toString ∧ status = r.status := by
  rw [classify] at h
  split at h
  · cases h
  split at h
  · cases h
  split at h
  · cases h
  rename_i hsucc
  simp only at h
  split at h
  · cases h
  rename_i hhtml
  split at h
  · cases h
  rename_i body' hbody
  cases h
  refine ⟨?_, hbody, rfl, rfl⟩
  simp only [Bool.not_eq_true, Bool.not_eq_false'] at hsucc hhtml
  rw [HttpResponse.isPage, hsucc, hhtml, hbody]
  rfl

end CommunitySearch
