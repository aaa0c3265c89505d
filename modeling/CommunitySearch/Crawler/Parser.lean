import CommunitySearch.Crawler.Url

/-!
# Reading a page

What the crawler takes from an HTML document: its links, its declared canonical URL, and the
title and visible text that are indexed. The document itself is tokenised by the HTML crate
(`Crates.parseDocument`).
-/

namespace CommunitySearch

/-- A link, resolved against the base URL of its page. -/
structure ExtractedLink where
  url : String
  text : String
deriving DecidableEq

/-- Title and visible text of a page. -/
structure ParsedPage where
  title : String
  text : String
deriving DecidableEq

variable (X : Crates)

def Url.isHttp (u : Url) : Bool :=
  u.scheme == "http" || u.scheme == "https"

/-- Hrefs that do not navigate. The source lower-cases by Unicode rules; no other character
lower-cases to a letter of these schemes followed by the rest, so ASCII lower-casing decides the
same prefixes. -/
def isSkippedHref (href : String) : Bool :=
  href.isEmpty || Text.startsWith href "#" ||
    let lower := Text.toAsciiLowercase href
    Text.startsWith lower "mailto:" || Text.startsWith lower "javascript:" ||
      Text.startsWith lower "tel:"

/-- `extract_links`. -/
def extractLinks (html baseUrl : String) : List ExtractedLink :=
  match X.parse baseUrl with
  | none => []
  | some base =>
    (X.parseDocument html).anchors.filterMap fun el ↦
      let href := Text.trim el.href
      if isSkippedHref href then none
      else match X.join base href with
        | none => none
        | some resolved =>
          if resolved.isHttp then some ⟨resolved.toString, Text.trim el.text⟩ else none

/-- `rel` is a list of tokens. -/
def LinkElement.isCanonical (el : LinkElement) : Bool :=
  (Text.splitAsciiWhitespace el.rel).any fun tok ↦ Text.eqIgnoreAsciiCase tok "canonical"

/-- The search of `extract_canonical`: elements that are not canonical, empty or not http are
passed over, but the first that cannot be resolved ends it. -/
def canonicalOf (base : Url) : List LinkElement → Option String
  | [] => none
  | el :: els =>
    if !el.isCanonical then canonicalOf base els
    else
      let href := Text.trim el.href
      if href.isEmpty then canonicalOf base els
      else match X.join base href with
        | none => none
        | some resolved =>
          if resolved.isHttp then some resolved.toString else canonicalOf base els

/-- `extract_canonical`. -/
def extractCanonical (html baseUrl : String) : Option String :=
  (X.parse baseUrl).bind fun base ↦ canonicalOf X base (X.parseDocument html).links

/-- `parse_text`. -/
def parseText (html : String) : ParsedPage :=
  let document := X.parseDocument html
  let parts := (document.body.getD []).filterMap fun node ↦
    if node.dropped then none
    else
      let trimmed := Text.trim node.text
      if trimmed.isEmpty then none else some trimmed
  { title := (document.titles.head?.map Text.trim).getD ""
    text := Text.join " " parts }

end CommunitySearch
