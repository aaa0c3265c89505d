import CommunitySearch.Crawler.Sitemap

/-!
# What a sitemap document says

`XmlDocument` is a well-formed XML document as a sitemap parser sees it: elements, character data in
texts and CDATA sections, references, and markup that carries no data. `XmlDocument.sitemap` is what
it says — one string for each `loc` element with non-blank content, the whole of its trimmed
character data, under the kind its root names — and `XmlDocument.events` how the reader tokenises
it.

The parser sees character data in pieces. `parseSitemap_eq_some_iff` says when that makes no
difference: when every `loc` holds its data in one text.
-/

namespace CommunitySearch

open Text

/-! ### Documents -/

/-- A character of a text: itself, or a reference. The reader resolves numeric references and those
to the predefined entities, and no others. -/
inductive XmlChar where
  | literal (c : Char)
  | reference (replacement : String) (predefined : Bool)
deriving DecidableEq

namespace XmlChar

def value : XmlChar → List Char
  | literal c => [c]
  | reference s _ => s.toList

/-- White space of the document itself. -/
def isSpace : XmlChar → Bool
  | literal c => c == ' ' || c == '\t' || c == '\n' || c == '\r'
  | reference .. => false

def resolves : XmlChar → Bool
  | literal _ => true
  | reference _ predefined => predefined

end XmlChar

/-- A text: character data between two pieces of markup. -/
abbrev XmlText := List XmlChar

namespace XmlText

/-- The character data of a text, its references replaced. -/
def value (t : XmlText) : List Char := t.flatMap XmlChar.value

/-- A text without the white space at its ends. -/
def trimmed (t : XmlText) : XmlText :=
  ((t.dropWhile XmlChar.isSpace).reverse.dropWhile XmlChar.isSpace).reverse

/-- What the reader makes of a text: it is trimmed, left out when nothing remains, and fails on a
reference that is not resolved. -/
def events (t : XmlText) : List XmlEvent :=
  if t.trimmed = [] then []
  else [.text (if t.trimmed.all XmlChar.resolves then some (.ofList t.trimmed.value) else none)]

end XmlText

/-- The content of an element, piece by piece. -/
inductive XmlContent where
  | nil
  | text (t : XmlText) (rest : XmlContent)
  | cdata (s : String) (rest : XmlContent)
  /-- A comment or a processing instruction. -/
  | markup (rest : XmlContent)
  /-- An empty-element tag. -/
  | empty (name : String) (rest : XmlContent)
  | element (name : String) (content rest : XmlContent)

namespace XmlContent

/-- The character data, that of the elements inside included. -/
def data : XmlContent → List Char
  | nil => []
  | text t rest => t.value ++ rest.data
  | cdata s rest => s.toList ++ rest.data
  | markup rest => rest.data
  | empty _ rest => rest.data
  | element _ content rest => content.data ++ rest.data

/-- The trimmed data of the `loc` elements with non-blank content, in document order. -/
def locs : XmlContent → List String
  | nil => []
  | text _ rest => rest.locs
  | cdata _ rest => rest.locs
  | markup rest => rest.locs
  | empty _ rest => rest.locs
  | element name content rest =>
    (if localName name = "loc" ∧ ¬ Blank content.data then [trim (.ofList content.data)]
      else []) ++ content.locs ++ rest.locs

/-- How the reader tokenises it. -/
def events : XmlContent → List XmlEvent
  | nil => []
  | text t rest => t.events ++ rest.events
  | cdata _ rest => .other :: rest.events
  | markup rest => .other :: rest.events
  | empty _ rest => .other :: rest.events
  | element name content rest =>
    .startTag name :: (content.events ++ .endTag name :: rest.events)

end XmlContent

/-- A document: its root, and how many declarations, comments and processing instructions stand
before and after it. -/
structure XmlDocument where
  prolog : Nat
  root : String
  /-- `none`: the root is an empty-element tag. -/
  content : Option XmlContent
  epilog : Nat

namespace XmlDocument

/-- The trimmed data of its `loc` elements. -/
def locs (doc : XmlDocument) : List String :=
  (doc.content.map XmlContent.locs).getD []

/-- **What a document says.** -/
def sitemap (doc : XmlDocument) : ParsedSitemap :=
  if localName doc.root = "sitemapindex" then .index doc.locs else .urls doc.locs

/-- The root is one of a sitemap. -/
def IsSitemap (doc : XmlDocument) : Prop :=
  localName doc.root = "urlset" ∨ localName doc.root = "sitemapindex"

/-- How the reader tokenises it. -/
def events (doc : XmlDocument) : List XmlEvent :=
  List.replicate doc.prolog .other ++
    (match doc.content with
      | some content => .startTag doc.root :: (content.events ++ [.endTag doc.root])
      | none => [.other]) ++
    List.replicate doc.epilog .other

end XmlDocument

/-! ### What the parser collects -/

namespace XmlText

/-- What the parser collects of a text inside a `loc` element. -/
def collected (t : XmlText) : List String :=
  if t.all XmlChar.resolves = true ∧ ¬ Blank t.value then [trim (.ofList t.value)] else []

theorem value_append (t t' : XmlText) : value (t ++ t') = value t ++ value t' :=
  List.flatMap_append

theorem blank_of_isSpace {t : XmlText} (h : ∀ c ∈ t, c.isSpace = true) : Blank t.value := by
  refine blank_iff.2 fun x hx ↦ ?_
  obtain ⟨c, hc, hx⟩ := List.mem_flatMap.1 hx
  have hspace := h c hc
  cases c with
  | literal c =>
    obtain rfl := List.mem_singleton.1 hx
    simp only [XmlChar.isSpace, Bool.or_eq_true, beq_iff_eq] at hspace
    obtain ((rfl | rfl) | rfl) | rfl := hspace
    all_goals rfl
  | reference => cases hspace

theorem resolves_of_isSpace {t : XmlText} (h : ∀ c ∈ t, c.isSpace = true) :
    t.all XmlChar.resolves = true := by
  refine List.all_eq_true.2 fun c hc ↦ ?_
  have hspace := h c hc
  cases c with
  | literal => rfl
  | reference => cases hspace

/-- The reader trims white space only. -/
theorem exists_trimmed (t : XmlText) : ∃ a b : XmlText, t = a ++ t.trimmed ++ b ∧
    (∀ c ∈ a, c.isSpace = true) ∧ ∀ c ∈ b, c.isSpace = true := by
  set u := (t.dropWhile XmlChar.isSpace).reverse with hu
  refine ⟨t.takeWhile XmlChar.isSpace, (u.takeWhile XmlChar.isSpace).reverse, ?_,
    fun c hc ↦ List.mem_takeWhile_imp hc,
    fun c hc ↦ List.mem_takeWhile_imp (List.mem_reverse.1 hc)⟩
  rw [trimmed, List.append_assoc, ← List.reverse_append, List.takeWhile_append_dropWhile,
    List.reverse_reverse, List.takeWhile_append_dropWhile]

/-- Which makes no difference to the parser. -/
theorem collected_trimmed (t : XmlText) : t.trimmed.collected = t.collected := by
  obtain ⟨a, b, ht, ha, hb⟩ := exists_trimmed t
  have hvalue : t.value = value a ++ t.trimmed.value ++ value b := by
    rw [← value_append, ← value_append]
    exact congrArg value ht
  have hblank : Blank t.value ↔ Blank t.trimmed.value := by
    rw [hvalue, Blank, ink_append, ink_append, blank_of_isSpace ha, blank_of_isSpace hb,
      Nat.zero_add, Nat.add_zero]
    exact Iff.rfl
  have htrim : trim (.ofList t.value) = trim (.ofList t.trimmed.value) := by
    rw [hvalue, trim_append_append (blank_of_isSpace ha) (blank_of_isSpace hb)]
  have hresolves : t.all XmlChar.resolves = t.trimmed.all XmlChar.resolves := by
    conv_lhs => rw [ht]
    rw [List.all_append, List.all_append, resolves_of_isSpace ha, resolves_of_isSpace hb,
      Bool.true_and, Bool.and_true]
  simp only [collected, hblank, htrim, hresolves]

/-- **The parser reads a text.** -/
theorem foldl_events (t : XmlText) (s : SitemapReader) :
    t.events.foldl SitemapReader.read s =
      { s with locs := s.locs ++ if s.inLoc then t.collected else [] } := by
  rw [← collected_trimmed, events, collected]
  by_cases hnil : t.trimmed = []
  · have hblank : Blank (value []) := rfl
    rw [if_pos hnil, hnil]
    simp only [hblank, not_true_eq_false, and_false, if_false, ite_self, List.append_nil]
    rfl
  · rw [if_neg hnil, List.foldl_cons, List.foldl_nil]
    cases t.trimmed.all XmlChar.resolves with
    | false =>
      simp only [Bool.false_eq_true, false_and, if_false, ite_self, List.append_nil]
      rfl
    | true =>
      have hempty := isEmpty_trim_iff (l := t.trimmed.value)
      by_cases hb : Blank t.trimmed.value
      · simp [SitemapReader.read, hb, hempty.2 hb]
      · have hne : (trim (.ofList t.trimmed.value)).isEmpty = false :=
          Bool.eq_false_iff.2 fun h ↦ hb (hempty.1 h)
        obtain ⟨isIndex, rootSeen, inLoc, locs⟩ := s
        cases inLoc with
        | false => simp [SitemapReader.read]
        | true => simp [SitemapReader.read, hb, hne]

end XmlText

namespace XmlContent

/-- Whether the parser takes itself to be inside a `loc` element after this content: the end of any
`loc` takes it out. -/
def inLocAfter (inLoc : Bool) : XmlContent → Bool
  | nil => inLoc
  | text _ rest => rest.inLocAfter inLoc
  | cdata _ rest => rest.inLocAfter inLoc
  | markup rest => rest.inLocAfter inLoc
  | empty _ rest => rest.inLocAfter inLoc
  | element name content rest =>
    rest.inLocAfter (if localName name = "loc" then false else content.inLocAfter inLoc)

/-- What the parser collects of this content. -/
def collected (inLoc : Bool) : XmlContent → List String
  | nil => []
  | text t rest => (if inLoc then t.collected else []) ++ rest.collected inLoc
  | cdata _ rest => rest.collected inLoc
  | markup rest => rest.collected inLoc
  | empty _ rest => rest.collected inLoc
  | element name content rest =>
    content.collected (inLoc || localName name == "loc") ++
      rest.collected (if localName name = "loc" then false else content.inLocAfter inLoc)

/-- **The parser reads the content of an element**, below a root it has seen. -/
theorem foldl_events (isIndex : Bool) (c : XmlContent) (inLoc : Bool) (acc : List String) :
    c.events.foldl SitemapReader.read ⟨isIndex, true, inLoc, acc⟩ =
      ⟨isIndex, true, c.inLocAfter inLoc, acc ++ c.collected inLoc⟩ := by
  induction c generalizing inLoc acc with
  | nil => simp only [events, collected, inLocAfter, List.foldl_nil, List.append_nil]
  | text t rest ih =>
    rw [events, List.foldl_append, t.foldl_events, ih, List.append_assoc]
    rfl
  | cdata _ rest ih => exact ih inLoc acc
  | markup rest ih => exact ih inLoc acc
  | empty _ rest ih => exact ih inLoc acc
  | element name content rest ihc ihr =>
    have hstart : SitemapReader.read ⟨isIndex, true, inLoc, acc⟩ (.startTag name) =
        ⟨isIndex, true, inLoc || localName name == "loc", acc⟩ := rfl
    rw [events, List.foldl_cons, hstart, List.foldl_append, ihc, List.foldl_cons]
    by_cases hloc : localName name = "loc"
    · simp only [SitemapReader.read, collected, inLocAfter, hloc, beq_self_eq_true, if_true, ihr,
        List.append_assoc]
    · simp only [SitemapReader.read, collected, inLocAfter, hloc, beq_eq_false_iff_ne.2 hloc,
        Bool.or_false, Bool.false_eq_true, if_false, ihr, List.append_assoc]

end XmlContent

/-! ### Data in one text -/

namespace XmlContent

/-- Some element inside is a `loc`. -/
def HasLoc : XmlContent → Prop
  | nil => False
  | text _ rest => rest.HasLoc
  | cdata _ rest => rest.HasLoc
  | markup rest => rest.HasLoc
  | empty _ rest => rest.HasLoc
  | element name content rest => localName name = "loc" ∨ content.HasLoc ∨ rest.HasLoc

/-- All the data is in one text, which the reader resolves and no `loc` element inside
precedes or holds. -/
def InOneText : XmlContent → Prop
  | nil => False
  | text t rest =>
    (t.all XmlChar.resolves = true ∧ ¬ Blank t.value ∧ Blank rest.data) ∨
      (Blank t.value ∧ rest.InOneText)
  | cdata s rest => Blank s.toList ∧ rest.InOneText
  | markup rest => rest.InOneText
  | empty _ rest => rest.InOneText
  | element name content rest =>
    localName name ≠ "loc" ∧
      ((content.InOneText ∧ Blank rest.data) ∨
        (Blank content.data ∧ ¬ content.HasLoc ∧ rest.InOneText))

/-- Every outermost `loc` element is blank or holds its data in one text. -/
def LocsInOneText : XmlContent → Prop
  | nil => True
  | text _ rest => rest.LocsInOneText
  | cdata _ rest => rest.LocsInOneText
  | markup rest => rest.LocsInOneText
  | empty _ rest => rest.LocsInOneText
  | element name content rest =>
    (if localName name = "loc" then Blank content.data ∨ content.InOneText
      else content.LocsInOneText) ∧ rest.LocsInOneText

end XmlContent

/-- The documents the parser reads: `loc` elements hold their data in one text, and an empty-element
root is not an index. -/
def XmlDocument.IsPlain (doc : XmlDocument) : Prop :=
  match doc.content with
  | some content => content.LocsInOneText
  | none => localName doc.root ≠ "sitemapindex"

/-! ### Counting ink -/

/-- The ink of a list of strings. -/
def totalInk (l : List String) : Nat :=
  ink (l.flatMap String.toList)

@[simp] theorem totalInk_nil : totalInk [] = 0 := rfl

@[simp] theorem totalInk_append (l l' : List String) :
    totalInk (l ++ l') = totalInk l + totalInk l' := by
  rw [totalInk, List.flatMap_append, ink_append]
  rfl

theorem totalInk_trim (l : List Char) : totalInk [trim (.ofList l)] = ink l := by
  rw [totalInk, List.flatMap_singleton, ink_trim]

/-- Entries that are not blank leave ink. -/
theorem eq_nil_of_totalInk {l : List String} (h : ∀ s ∈ l, ¬ Blank s.toList)
    (hink : totalInk l = 0) : l = [] := by
  cases l with
  | nil => rfl
  | cons s l =>
    have hs : totalInk (s :: l) = ink s.toList + totalInk l := by
      rw [totalInk, List.flatMap_cons, ink_append]
      rfl
    have hzero : ink s.toList = 0 := by omega
    exact absurd hzero (h s List.mem_cons_self)

theorem not_blank_trim {l : List Char} (h : ¬ Blank l) : ¬ Blank (trim (.ofList l)).toList := by
  rwa [Blank, ink_trim]

theorem XmlText.not_blank_of_collected {t : XmlText} :
    ∀ s ∈ t.collected, ¬ Blank s.toList := by
  intro s hs
  rw [collected] at hs
  split at hs
  case isTrue h =>
    obtain rfl := List.mem_singleton.1 hs
    exact not_blank_trim h.2
  case isFalse => exact absurd hs List.not_mem_nil

theorem XmlText.totalInk_collected_le (t : XmlText) : totalInk t.collected ≤ ink t.value := by
  rw [collected]
  split
  case isTrue => exact (totalInk_trim _).le
  case isFalse => exact Nat.zero_le _

namespace XmlContent

theorem not_blank_of_collected (c : XmlContent) (inLoc : Bool) :
    ∀ s ∈ c.collected inLoc, ¬ Blank s.toList := by
  induction c generalizing inLoc with
  | nil => exact fun s hs ↦ absurd hs List.not_mem_nil
  | text t rest ih =>
    intro s hs
    rw [collected, List.mem_append] at hs
    rcases hs with hs | hs
    · cases inLoc with
      | true => exact t.not_blank_of_collected s hs
      | false => exact absurd hs List.not_mem_nil
    · exact ih inLoc s hs
  | cdata _ rest ih => exact ih inLoc
  | markup rest ih => exact ih inLoc
  | empty _ rest ih => exact ih inLoc
  | element name content rest ihc ihr =>
    intro s hs
    rw [collected, List.mem_append] at hs
    rcases hs with hs | hs
    exacts [ihc _ s hs, ihr _ s hs]

theorem not_blank_of_locs (c : XmlContent) : ∀ s ∈ c.locs, ¬ Blank s.toList := by
  induction c with
  | nil => exact fun s hs ↦ absurd hs List.not_mem_nil
  | text _ rest ih => exact ih
  | cdata _ rest ih => exact ih
  | markup rest ih => exact ih
  | empty _ rest ih => exact ih
  | element name content rest ihc ihr =>
    intro s hs
    rw [locs, List.mem_append, List.mem_append] at hs
    rcases hs with (hs | hs) | hs
    · split at hs
      case isTrue h =>
        obtain rfl := List.mem_singleton.1 hs
        exact not_blank_trim h.2
      case isFalse => exact absurd hs List.not_mem_nil
    · exact ihc s hs
    · exact ihr s hs

/-- The parser collects no more than the data. -/
theorem totalInk_collected_le (c : XmlContent) (inLoc : Bool) :
    totalInk (c.collected inLoc) ≤ ink c.data := by
  induction c generalizing inLoc with
  | nil => exact Nat.le_refl _
  | text t rest ih =>
    have ht := t.totalInk_collected_le
    have hrest := ih inLoc
    cases inLoc with
    | true =>
      simp only [collected, data, if_true, totalInk_append, ink_append]
      omega
    | false =>
      simp only [collected, data, Bool.false_eq_true, if_false, totalInk_append, totalInk_nil,
        ink_append]
      omega
  | cdata s rest ih =>
    have hrest := ih inLoc
    simp only [collected, data, ink_append]
    omega
  | markup rest ih => exact ih inLoc
  | empty _ rest ih => exact ih inLoc
  | element name content rest ihc ihr =>
    simp only [collected, data, totalInk_append, ink_append]
    exact Nat.add_le_add (ihc _) (ihr _)

theorem collected_eq_nil {c : XmlContent} (h : Blank c.data) (inLoc : Bool) :
    c.collected inLoc = [] :=
  eq_nil_of_totalInk (c.not_blank_of_collected inLoc)
    (Nat.le_zero.1 (h ▸ c.totalInk_collected_le inLoc))

/-- Blank content has no `loc` element that says anything. -/
theorem locs_eq_nil {c : XmlContent} (h : Blank c.data) : c.locs = [] := by
  induction c with
  | nil => rfl
  | text t rest ih =>
    rw [Blank, data, ink_append] at h
    exact ih (by rw [Blank]; omega)
  | cdata s rest ih =>
    rw [Blank, data, ink_append] at h
    exact ih (by rw [Blank]; omega)
  | markup rest ih => exact ih h
  | empty _ rest ih => exact ih h
  | element name content rest ihc ihr =>
    rw [Blank, data, ink_append] at h
    have hcontent : Blank content.data := by rw [Blank]; omega
    have hrest : Blank rest.data := by rw [Blank]; omega
    rw [locs, ihc hcontent, ihr hrest, if_neg (fun hloc ↦ hloc.2 hcontent)]
    rfl

/-- Outside a `loc` element it stays outside. -/
@[simp] theorem inLocAfter_false (c : XmlContent) : c.inLocAfter false = false := by
  induction c with
  | nil => rfl
  | text _ rest ih => exact ih
  | cdata _ rest ih => exact ih
  | markup rest ih => exact ih
  | empty _ rest ih => exact ih
  | element name content rest ihc ihr =>
    rw [inLocAfter, ihc, ite_self]
    exact ihr

/-- Inside one, the end of another takes it out. -/
theorem inLocAfter_true (c : XmlContent) : c.inLocAfter true = true ↔ ¬ c.HasLoc := by
  induction c with
  | nil => exact ⟨fun _ ↦ id, fun _ ↦ rfl⟩
  | text _ rest ih => exact ih
  | cdata _ rest ih => exact ih
  | markup rest ih => exact ih
  | empty _ rest ih => exact ih
  | element name content rest ihc ihr =>
    rw [inLocAfter, HasLoc]
    by_cases hloc : localName name = "loc"
    · simp [hloc]
    · cases hcontent : content.inLocAfter true with
      | true => simp [hloc, ihr, ihc.1 hcontent]
      | false =>
        have : content.HasLoc := by
          by_contra h
          rw [ihc.2 h] at hcontent
          cases hcontent
        simp [hloc, this]

/-- Outside, the parser collects no more than the `loc` elements say. -/
theorem totalInk_collected_false_le (c : XmlContent) :
    totalInk (c.collected false) ≤ totalInk c.locs := by
  induction c with
  | nil => exact Nat.le_refl _
  | text t rest ih => exact ih
  | cdata s rest ih => exact ih
  | markup rest ih => exact ih
  | empty _ rest ih => exact ih
  | element name content rest ihc ihr =>
    by_cases hloc : localName name = "loc"
    · have hinside := content.totalInk_collected_le true
      simp only [collected, locs, hloc, beq_self_eq_true, Bool.or_true, if_true, true_and,
        totalInk_append]
      by_cases hb : Blank content.data
      · rw [collected_eq_nil hb, totalInk_nil]
        omega
      · rw [if_pos hb, totalInk_trim]
        omega
    · simp only [collected, locs, hloc, beq_eq_false_iff_ne.2 hloc, Bool.or_false, if_false,
        false_and, inLocAfter_false, totalInk_append, totalInk_nil]
      omega

theorem collected_element (name : String) (content rest : XmlContent) :
    (element name content rest).collected false =
      (element name content nil).collected false ++ rest.collected false := by
  simp only [collected, inLocAfter_false, ite_self, List.append_nil]

theorem locs_element (name : String) (content rest : XmlContent) :
    (element name content rest).locs = (element name content nil).locs ++ rest.locs := by
  simp only [locs, List.append_nil]

/-- What leaves as much ink as the `loc` elements has as many entries. -/
theorem length_locs_le (c : XmlContent) (h : totalInk (c.collected false) = totalInk c.locs) :
    c.locs.length ≤ (c.collected false).length := by
  induction c with
  | nil => exact Nat.le_refl _
  | text t rest ih => exact ih h
  | cdata s rest ih => exact ih h
  | markup rest ih => exact ih h
  | empty _ rest ih => exact ih h
  | element name content rest ihc ihr =>
    have hcontent := content.totalInk_collected_false_le
    have hrest := rest.totalInk_collected_false_le
    by_cases hloc : localName name = "loc"
    · have hinside := content.totalInk_collected_le true
      simp only [collected, locs, hloc, beq_self_eq_true, Bool.or_true, if_true, true_and,
        totalInk_append, List.length_append] at h ⊢
      by_cases hb : Blank content.data
      · simp only [collected_eq_nil hb, locs_eq_nil hb, hb, not_true_eq_false, if_false,
          totalInk_nil, Nat.zero_add, List.length_nil] at h ⊢
        exact ihr h
      · rw [if_pos hb, totalInk_trim] at h
        rw [if_pos hb, eq_nil_of_totalInk content.not_blank_of_locs (by omega)]
        have hlen := ihr (by omega)
        have hpos : 0 < ink content.data := Nat.pos_of_ne_zero hb
        have hne : content.collected true ≠ [] := fun hnil ↦ by
          rw [hnil, totalInk_nil] at h
          omega
        have := List.length_pos_iff.2 hne
        simp only [List.length_singleton, List.length_nil]
        omega
    · simp only [collected, locs, hloc, beq_eq_false_iff_ne.2 hloc, Bool.or_false, if_false,
        false_and, inLocAfter_false, totalInk_append, totalInk_nil, List.length_append,
        List.length_nil] at h ⊢
      have := ihc (by omega)
      have := ihr (by omega)
      omega

/-- An element and what follows it are read apart. -/
theorem collected_eq_locs_element {name : String} {content rest : XmlContent} :
    (element name content rest).collected false = (element name content rest).locs ↔
      (element name content nil).collected false = (element name content nil).locs ∧
        rest.collected false = rest.locs := by
  rw [collected_element, locs_element]
  refine ⟨fun h ↦ ?_, fun h ↦ congrArg₂ _ h.1 h.2⟩
  have hink := congrArg totalInk h
  have hlength := congrArg List.length h
  rw [totalInk_append, totalInk_append] at hink
  rw [List.length_append, List.length_append] at hlength
  have hink₁ := (element name content nil).totalInk_collected_false_le
  have hink₂ := rest.totalInk_collected_false_le
  have hlength₁ := (element name content nil).length_locs_le (by omega)
  have hlength₂ := rest.length_locs_le (by omega)
  exact List.append_inj h (by omega)

/-- Data in one text is read whole. -/
theorem collected_of_inOneText {c : XmlContent} (h : c.InOneText) :
    c.collected true = [trim (.ofList c.data)] ∧ ¬ Blank c.data ∧ c.locs = [] := by
  induction c with
  | nil => exact h.elim
  | text t rest ih =>
    rw [collected, if_pos rfl, data, blank_append]
    rcases h with ⟨hresolves, ht, hrest⟩ | ⟨ht, hrest⟩
    · have htext : t.collected = [trim (.ofList t.value)] := if_pos ⟨hresolves, ht⟩
      rw [collected_eq_nil hrest, List.append_nil, htext, trim_append_of_blank_right hrest]
      exact ⟨rfl, fun hb ↦ ht hb.1, locs_eq_nil (c := rest) hrest⟩
    · have htext : t.collected = [] := if_neg fun hcollected ↦ hcollected.2 ht
      obtain ⟨hcollected, hblank, hlocs⟩ := ih hrest
      rw [hcollected, htext, trim_append_of_blank_left ht]
      exact ⟨rfl, fun hb ↦ hblank hb.2, hlocs⟩
  | cdata s rest ih =>
    obtain ⟨hs, hrest⟩ := h
    obtain ⟨hcollected, hblank, hlocs⟩ := ih hrest
    rw [collected, data, blank_append, hcollected, trim_append_of_blank_left hs]
    exact ⟨rfl, fun hb ↦ hblank hb.2, hlocs⟩
  | markup rest ih => exact ih h
  | empty _ rest ih => exact ih h
  | element name content rest ihc ihr =>
    obtain ⟨hloc, h⟩ := h
    rw [collected, locs, data, blank_append, if_neg hloc, if_neg fun hname ↦ hloc hname.1,
      List.nil_append, Bool.true_or]
    rcases h with ⟨hcontent, hrest⟩ | ⟨hcontent, hnone, hrest⟩
    · obtain ⟨hcollected, hblank, hlocs⟩ := ihc hcontent
      rw [hcollected, hlocs, locs_eq_nil hrest, collected_eq_nil hrest,
        trim_append_of_blank_right hrest]
      exact ⟨rfl, fun hb ↦ hblank hb.1, rfl⟩
    · obtain ⟨hcollected, hblank, hlocs⟩ := ihr hrest
      rw [(inLocAfter_true content).2 hnone, hcollected, hlocs, locs_eq_nil hcontent,
        collected_eq_nil hcontent, trim_append_of_blank_left hcontent]
      exact ⟨rfl, fun hb ↦ hblank hb.2, rfl⟩

/-- The ink of data read whole. -/
theorem totalInk_of_collected {c : XmlContent} {inLoc : Bool} {l : List Char}
    (h : c.collected inLoc = [trim (.ofList l)]) : ink l ≤ ink c.data := by
  rw [← totalInk_trim, ← h]
  exact c.totalInk_collected_le inLoc

/-- And nothing else is. -/
theorem inOneText_of_collected {c : XmlContent}
    (h : c.collected true = [trim (.ofList c.data)]) (hblank : ¬ Blank c.data)
    (hlocs : c.locs = []) : c.InOneText := by
  induction c with
  | nil => exact hblank rfl
  | text t rest ih =>
    rw [data] at h hblank
    rw [collected, if_pos rfl, XmlText.collected] at h
    by_cases ht : Blank t.value
    · rw [if_neg fun hcollected ↦ hcollected.2 ht, List.nil_append,
        trim_append_of_blank_left ht] at h
      exact .inr ⟨ht, ih h (fun hrest ↦ hblank (blank_append.2 ⟨ht, hrest⟩)) hlocs⟩
    · have hpos : 0 < ink t.value := Nat.pos_of_ne_zero ht
      split at h
      case isTrue hresolves =>
        obtain ⟨htrim, -⟩ := List.cons.inj h
        have hink : ink t.value = ink (t.value ++ rest.data) := by
          rw [← ink_trim, htrim, ink_trim]
        rw [ink_append] at hink
        exact .inl ⟨hresolves.1, ht, by rw [Blank]; omega⟩
      case isFalse =>
        have hink := totalInk_of_collected h
        rw [ink_append] at hink
        omega
  | cdata s rest ih =>
    rw [data] at h hblank
    have hink := totalInk_of_collected (c := rest) h
    rw [ink_append] at hink
    have hs : Blank s.toList := by rw [Blank]; omega
    rw [collected, trim_append_of_blank_left hs] at h
    exact ⟨hs, ih h (fun hrest ↦ hblank (blank_append.2 ⟨hs, hrest⟩)) hlocs⟩
  | markup rest ih => exact ih h hblank hlocs
  | empty _ rest ih => exact ih h hblank hlocs
  | element name content rest ihc ihr =>
    rw [locs, List.append_eq_nil_iff, List.append_eq_nil_iff] at hlocs
    obtain ⟨⟨hname, hcontent⟩, hrest⟩ := hlocs
    rw [data] at h hblank
    -- a `loc` element inside says nothing, and ends the one around it
    have hout : rest.collected false = [] :=
      eq_nil_of_totalInk (rest.not_blank_of_collected false)
        (Nat.le_zero.1 (rest.totalInk_collected_false_le.trans_eq (congrArg totalInk hrest)))
    -- the data is in the content of the element, or after it
    have hfirst (hloc : localName name ≠ "loc")
        (h : content.collected true = [trim (.ofList (content.data ++ rest.data))]) :
        (element name content rest).InOneText := by
      have hink := totalInk_of_collected h
      rw [ink_append] at hink
      have hb : Blank rest.data := by rw [Blank]; omega
      rw [trim_append_of_blank_right hb] at h
      exact ⟨hloc, .inl ⟨ihc h (fun hc ↦ hblank (blank_append.2 ⟨hc, hb⟩)) hcontent, hb⟩⟩
    rw [collected, Bool.true_or] at h
    by_cases hloc : localName name = "loc"
    · rw [if_pos hloc, hout, List.append_nil] at h
      have hb : Blank content.data := by
        by_contra hb
        rw [if_pos ⟨hloc, hb⟩] at hname
        exact List.cons_ne_nil _ _ hname
      rw [collected_eq_nil hb] at h
      exact absurd h (List.cons_ne_nil _ _).symm
    · rw [if_neg hloc] at h
      cases hafter : content.inLocAfter true with
      | false =>
        rw [hafter, hout, List.append_nil] at h
        exact hfirst hloc h
      | true =>
        rw [hafter] at h
        rcases List.append_eq_singleton_iff.1 h with ⟨-, h⟩ | ⟨h, -⟩
        · have hink := totalInk_of_collected h
          rw [ink_append] at hink
          have hb : Blank content.data := by rw [Blank]; omega
          rw [trim_append_of_blank_left hb] at h
          exact ⟨hloc, .inr ⟨hb, (inLocAfter_true content).1 hafter,
            ihr h (fun hr ↦ hblank (blank_append.2 ⟨hb, hr⟩)) hrest⟩⟩
        · exact hfirst hloc h

/-- A `loc` element on its own. -/
theorem collected_eq_locs_loc {name : String} {content : XmlContent}
    (hloc : localName name = "loc") :
    (element name content nil).collected false = (element name content nil).locs ↔
      Blank content.data ∨ content.InOneText := by
  simp only [collected, locs, hloc, beq_self_eq_true, Bool.or_true, true_and, List.append_nil]
  by_cases hb : Blank content.data
  · simp only [collected_eq_nil hb, locs_eq_nil hb, hb, not_true_eq_false, if_false,
      List.append_nil, true_or]
  · rw [if_pos hb]
    constructor
    · intro h
      have hink := congrArg totalInk h
      rw [totalInk_append, totalInk_trim] at hink
      have hinside := content.totalInk_collected_le true
      have hnone := eq_nil_of_totalInk content.not_blank_of_locs (by omega)
      rw [hnone, List.append_nil] at h
      exact .inr (inOneText_of_collected h hb hnone)
    · rintro (hblank | h)
      · exact absurd hblank hb
      · obtain ⟨hcollected, -, hlocs⟩ := collected_of_inOneText h
        rw [hcollected, hlocs, List.append_nil]

/-- **The parser collects what the `loc` elements say** when each holds its data in one text. -/
theorem collected_eq_locs_iff (c : XmlContent) :
    c.collected false = c.locs ↔ c.LocsInOneText := by
  induction c with
  | nil => exact ⟨fun _ ↦ trivial, fun _ ↦ rfl⟩
  | text _ rest ih => exact ih
  | cdata _ rest ih => exact ih
  | markup rest ih => exact ih
  | empty _ rest ih => exact ih
  | element name content rest ihc ihr =>
    rw [collected_eq_locs_element, LocsInOneText, ihr]
    refine and_congr_left fun _ ↦ ?_
    by_cases hloc : localName name = "loc"
    · rw [if_pos hloc]
      exact collected_eq_locs_loc hloc
    · rw [if_neg hloc, ← ihc]
      simp only [collected, locs, beq_eq_false_iff_ne.2 hloc, hloc, false_and, if_false,
        Bool.or_false, List.append_nil, List.nil_append]

end XmlContent

/-! ### Parsing a sitemap -/

theorem foldl_other (n : Nat) (s : SitemapReader) :
    (List.replicate n XmlEvent.other).foldl SitemapReader.read s = s := by
  induction n with
  | zero => rfl
  | succ n ih => exact ih

variable (X : Crates)

theorem parseSitemap_some {body : String} {doc : XmlDocument} {content : XmlContent}
    (hread : X.readXml body = some doc.events) (hcontent : doc.content = some content)
    (hroot : doc.IsSitemap) :
    parseSitemap X body = some (if localName doc.root = "sitemapindex"
      then .index (content.collected false) else .urls (content.collected false)) := by
  have hloc : localName doc.root ≠ "loc" := by
    rcases hroot with h | h
    all_goals rw [h]; decide
  rw [parseSitemap, hread, Option.map_some, XmlDocument.events, hcontent]
  simp only [List.foldl_append, foldl_other, List.foldl_cons, List.foldl_nil,
    SitemapReader.read, Bool.false_eq_true, if_false, Bool.false_or, beq_eq_false_iff_ne.2 hloc,
    XmlContent.foldl_events, XmlContent.inLocAfter_false, List.nil_append, beq_iff_eq]

theorem parseSitemap_none {body : String} {doc : XmlDocument}
    (hread : X.readXml body = some doc.events) (hcontent : doc.content = none) :
    parseSitemap X body = some (.urls []) := by
  rw [parseSitemap, hread, Option.map_some, XmlDocument.events, hcontent]
  simp only [List.foldl_append, foldl_other, List.foldl_cons, List.foldl_nil,
    SitemapReader.read, Bool.false_eq_true, if_false]

/-- **The parser reads exactly the plain sitemaps.** On the others it leaves entries out, or makes
several of one: CDATA sections are not read, a text is cut where a comment or an element splits it,
a reference to an entity of the document's own loses the text around it, and an empty-element
index is taken for a list of pages. -/
theorem parseSitemap_eq_iff {body : String} {doc : XmlDocument}
    (hread : X.readXml body = some doc.events) (hroot : doc.IsSitemap) :
    parseSitemap X body = some doc.sitemap ↔ doc.IsPlain := by
  rw [XmlDocument.sitemap, XmlDocument.locs, XmlDocument.IsPlain]
  cases hcontent : doc.content with
  | some content =>
    rw [parseSitemap_some X hread hcontent hroot, Option.some_inj]
    show _ ↔ content.LocsInOneText
    rw [← content.collected_eq_locs_iff]
    split
    · exact ⟨ParsedSitemap.index.inj, congrArg ParsedSitemap.index⟩
    · exact ⟨ParsedSitemap.urls.inj, congrArg ParsedSitemap.urls⟩
  | none =>
    rw [parseSitemap_none X hread hcontent, Option.some_inj]
    show _ ↔ localName doc.root ≠ "sitemapindex"
    split
    case isTrue h => exact ⟨fun hkind ↦ (by cases hkind), fun hne ↦ absurd h hne⟩
    case isFalse h => exact ⟨fun _ ↦ h, fun _ ↦ rfl⟩

/-- A sitemap of one page, whose URL is in a CDATA section. -/
def cdataSitemap : XmlDocument :=
  ⟨0, "urlset", some (.element "url"
    (.element "loc" (.cdata "https://example.com/a" .nil) .nil) .nil), 0⟩

def cdataBody : String :=
  "<urlset><url><loc><![CDATA[https://example.com/a]]></loc></url></urlset>"

/-- A sitemap of one page, its root and its `loc` element under prefixes. -/
def prefixedSitemap : XmlDocument :=
  ⟨1, "s:urlset", some (.text [.literal '\n'] (.element "s:url" (.element "s:loc"
    (.text [.literal ' ', .literal 'a', .reference "&" true, .literal 'b'] .nil) .nil) .nil)), 0⟩

def prefixedBody : String :=
  "<?xml version='1.0'?><s:urlset>\n<s:url><s:loc> a&amp;b</s:loc></s:url></s:urlset>"

/-- A reader of these two documents. -/
def sitemapCrates : Crates :=
  { Crates.ofTables ⟨[], [], [], [], []⟩ with
    readXml := fun body ↦
      if body = cdataBody then some cdataSitemap.events
      else if body = prefixedBody then some prefixedSitemap.events
      else none }

theorem parseSitemap_prefixed :
    parseSitemap sitemapCrates prefixedBody = some (.urls ["a&b"]) := by
  have hread : sitemapCrates.readXml prefixedBody = some prefixedSitemap.events := by rfl
  have hplain : prefixedSitemap.IsPlain := by
    have hloc : localName "s:loc" = "loc" := by decide
    have hurl : localName "s:url" ≠ "loc" := by decide
    show XmlContent.LocsInOneText _
    simp only [XmlContent.LocsInOneText, hloc, hurl, if_true, if_false, and_true]
    exact .inr (.inl ⟨by decide, by decide, by decide⟩)
  exact (parseSitemap_eq_iff sitemapCrates hread (.inl (by rfl))).2 hplain

/-- **A URL in a CDATA section is not read.** -/
theorem parseSitemap_cdata :
    sitemapCrates.readXml cdataBody = some cdataSitemap.events ∧ cdataSitemap.IsSitemap ∧
      parseSitemap sitemapCrates cdataBody = some (.urls []) ∧
      cdataSitemap.sitemap = .urls ["https://example.com/a"] :=
  ⟨by rfl, .inl (by decide), by decide, by decide⟩

end CommunitySearch
