import CommunitySearch.Foundation.Machine
import CommunitySearch.Search.Highlight

/-!
# What the terms of a query mark in an escaped text

`highlight_fallback` escapes the text and marks the terms one after another, each in what the terms
before it have left. What it should leave is a list of pieces (`Marking`): the characters of the
text, each escaped by itself, and tags that nest. A term that is found at whole pieces leaves such a
list again (`Marking.step`). A term that is found from or to a place inside a tag or an entity puts
a tag there, and no later term can mend that (`Torn`). So the output is right exactly when no term
is found so (`fallback_exact`).
-/

namespace CommunitySearch

open Text

variable (T : CaseTable)

/-! ### The function -/

/-- What `html_escape` writes for a character. -/
def escapeChar (c : Char) : List Char :=
  if c = '&' then "&amp;".toList
  else if c = '<' then "&lt;".toList
  else if c = '>' then "&gt;".toList
  else if c = '"' then "&quot;".toList
  else [c]

/-- `html_escape`. -/
def htmlEscape (s : String) : String := .ofList (s.toList.flatMap escapeChar)

/-- One round of `highlight_fallback`. -/
def highlightTerm (out term : String) : Option String :=
  if term.isEmpty then some out else caseInsensitiveWrap T out term "<mark>" "</mark>"

/-- `highlight_fallback`; `none` is a panic. -/
def highlightFallback (text : String) (queryTerms : List String) : Option String :=
  queryTerms.foldlM (highlightTerm T) (htmlEscape text)

/-! ### Marked text -/

/-- A piece of marked text. -/
inductive Piece where
  /-- A character of the text. -/
  | char (c : Char)
  /-- `<mark>`. -/
  | mark
  /-- `</mark>`. -/
  | unmark
deriving DecidableEq

namespace Piece

def render : Piece → List Char
  | .char c => escapeChar c
  | .mark => ['<', 'm', 'a', 'r', 'k', '>']
  | .unmark => ['<', '/', 'm', 'a', 'r', 'k', '>']

def isChar : Piece → Bool
  | .char _ => true
  | .mark | .unmark => false

end Piece

/-- The text of some pieces. -/
def renderPieces (ts : List Piece) : List Char := ts.flatMap Piece.render

/-- The tags nest, inside this many that are open. -/
def Nested : List Piece → (depth : Nat) → Prop
  | [], d => d = 0
  | .char _ :: ts, d => Nested ts d
  | .mark :: ts, d => Nested ts (d + 1)
  | .unmark :: ts, d => ∃ e, d = e + 1 ∧ Nested ts e

/-- The output is these pieces, the tags nest, and without them the pieces are the characters of the
text. -/
structure Marking (text out : String) (ts : List Piece) : Prop where
  render : renderPieces ts = out.toList
  erase : ts.filter Piece.isChar = text.toList.map Piece.char
  nested : Nested ts 0

/-- A match of `n` bytes at this offset is one of whole pieces. -/
def OnPieces (ts : List Piece) (m n : Nat) : Prop :=
  ∃ a b c, ts = a ++ (b ++ c) ∧ byteLen (renderPieces a) = m ∧ byteLen (renderPieces b) = n

/-- **The claim of the fallback**: the output is a marking of the text, and every term is found at
whole pieces of what the terms before it have left. -/
structure FallbackLaw (text : String) (queryTerms : List String) : Prop where
  output : ∃ out ts, highlightFallback T text queryTerms = some out ∧ Marking text out ts
  outside : ∀ before term behind, queryTerms = before ++ term :: behind → term ≠ "" →
    ∃ out ts, highlightFallback T text before = some out ∧ Marking text out ts ∧
      ∀ m ∈ matchIndices (T.toLowercase term.toList) (T.toLowercase out.toList),
        OnPieces ts m (byteLen (T.toLowercase term.toList))

/-! ### Inside a tag or an entity -/

/-- Whether the text is inside a tag or an entity behind this character. -/
def inMarkup (inside : Bool) (c : Char) : Bool :=
  if c = '&' ∨ c = '<' then true else if c = ';' ∨ c = '>' then false else inside

/-- Whether the text ends inside a tag or an entity: behind an `&` or `<` with no `;` or `>`
since. -/
def insideMarkup (l : List Char) : Bool := l.foldl inMarkup false

/-- In this text the term is not found from or to a place inside a tag or an entity. -/
def Avoids (out term : String) : Prop :=
  ∀ m ∈ matchIndices (T.toLowercase term.toList) (T.toLowercase out.toList),
    insideMarkup (out.toList.take m) = false ∧
      insideMarkup (out.toList.take (m + byteLen (T.toLowercase term.toList))) = false

instance (out term : String) : Decidable (Avoids T out term) :=
  inferInstanceAs (Decidable (∀ m ∈ matchIndices _ _, _))

/-- The rounds. -/
def fallbackMachine : Machine String String where
  step := highlightTerm T

/-- The tags and the entities. -/
def markup : List (List Char) :=
  ["&amp;", "&lt;", "&gt;", "&quot;", "<mark>", "</mark>"].map String.toList

section Pieces

variable {t : Piece} {ts u v : List Piece} {l q : List Char} {k d : Nat}

theorem render_cases (t : Piece) :
    (∃ c, t = .char c ∧ t.render = [c] ∧ ∀ inside, inMarkup inside c = true → inside = true) ∨
      t.render ∈ markup := by
  cases t with
  | mark => exact Or.inr (by decide)
  | unmark => exact Or.inr (by decide)
  | char c =>
    rw [Piece.render, escapeChar]
    by_cases hamp : c = '&'
    · rw [if_pos hamp]
      exact Or.inr (by decide)
    by_cases hlt : c = '<'
    · rw [if_neg hamp, if_pos hlt]
      exact Or.inr (by decide)
    by_cases hgt : c = '>'
    · rw [if_neg hamp, if_neg hlt, if_pos hgt]
      exact Or.inr (by decide)
    by_cases hquot : c = '"'
    · rw [if_neg hamp, if_neg hlt, if_neg hgt, if_pos hquot]
      exact Or.inr (by decide)
    rw [if_neg hamp, if_neg hlt, if_neg hgt, if_neg hquot]
    refine Or.inl ⟨c, rfl, rfl, fun inside h ↦ ?_⟩
    rw [inMarkup, if_neg (not_or.2 ⟨hamp, hlt⟩)] at h
    split at h
    · cases h
    · exact h

theorem render_ne_nil (t : Piece) : t.render ≠ [] := by
  rcases render_cases t with ⟨c, -, hc, -⟩ | hmarkup
  · rw [hc]
    exact List.cons_ne_nil _ _
  · have hne : ∀ l ∈ markup, l ≠ [] := by decide
    exact hne _ hmarkup

/-- Behind a piece is not inside one. -/
theorem foldl_render (t : Piece) : t.render.foldl inMarkup false = false := by
  rcases render_cases t with ⟨c, -, hc, hplain⟩ | hmarkup
  · rw [hc]
    exact Bool.eq_false_iff.2 fun h ↦ Bool.false_ne_true (hplain false h)
  · have hall : ∀ l ∈ markup, l.foldl inMarkup false = false := by decide
    exact hall _ hmarkup

/-- Within a piece is inside it. -/
theorem foldl_of_prefix (hq : q <+: t.render) (hne : q ≠ [])
    (hlt : q.length < t.render.length) : q.foldl inMarkup false = true := by
  rcases render_cases t with ⟨c, -, hc, -⟩ | hmarkup
  · rw [hc] at hlt
    have hpos := List.length_pos_iff.2 hne
    rw [List.length_singleton] at hlt
    omega
  · have hall : ∀ l ∈ markup, ∀ q ∈ l.inits, q ≠ [] → q.length < l.length →
        q.foldl inMarkup false = true := by decide
    exact hall _ hmarkup q (List.mem_inits q t.render |>.2 hq) hne hlt

/-- **A place in marked text** is between two pieces, or inside one. -/
theorem between_or_inside (ts : List Piece) (hk : k ≤ (renderPieces ts).length) :
    (∃ a b, ts = a ++ b ∧ (renderPieces a).length = k) ∨
      insideMarkup ((renderPieces ts).take k) = true := by
  induction ts generalizing k with
  | nil => exact Or.inl ⟨[], [], rfl, (Nat.le_zero.1 hk).symm⟩
  | cons t ts ih =>
    rw [renderPieces, List.flatMap_cons, ← renderPieces] at hk ⊢
    rcases Nat.eq_zero_or_pos k with rfl | hpos
    · exact Or.inl ⟨[], t :: ts, rfl, rfl⟩
    by_cases hlt : k < t.render.length
    · right
      rw [insideMarkup, List.take_append_of_le_length (Nat.le_of_lt hlt)]
      refine foldl_of_prefix (List.take_prefix k _) (fun h ↦ ?_) ?_
      · have hlength := congrArg List.length h
        rw [List.length_take, List.length_nil] at hlength
        omega
      · rw [List.length_take]
        omega
    · obtain ⟨j, rfl⟩ := Nat.exists_eq_add_of_le (Nat.not_lt.1 hlt)
      rw [List.length_append] at hk
      rcases ih (Nat.le_of_add_le_add_left hk) with ⟨a, b, rfl, ha⟩ | hinside
      · refine Or.inl ⟨t :: a, b, rfl, ?_⟩
        rw [renderPieces, List.flatMap_cons, List.length_append, ← renderPieces, ha]
      · right
        rw [List.take_length_add_append, insideMarkup, List.foldl_append, foldl_render]
        exact hinside

/-! ### Marking pieces -/

theorem renderPieces_append (u v : List Piece) :
    renderPieces (u ++ v) = renderPieces u ++ renderPieces v := List.flatMap_append

theorem renderPieces_cons (t : Piece) (ts : List Piece) :
    renderPieces (t :: ts) = t.render ++ renderPieces ts := List.flatMap_cons

/-- Of two beginnings of a list of pieces the one with fewer bytes begins the other. -/
theorem pieces_of_byteLen_le {a b a' b' : List Piece} (h : a ++ b = a' ++ b')
    (hle : byteLen (renderPieces a) ≤ byteLen (renderPieces a')) :
    ∃ x, a' = a ++ x ∧ b = x ++ b' := by
  have hweight : ∀ u v, byteLen (renderPieces (u ++ v)) =
      byteLen (renderPieces u) + byteLen (renderPieces v) := fun u v ↦ by
    rw [renderPieces_append, byteLen_append]
  have hpos : ∀ u, byteLen (renderPieces u) = 0 → u = [] := fun u hu ↦ by
    rcases u with - | ⟨t, u⟩
    · rfl
    · rw [byteLen_eq_zero, renderPieces_cons] at hu
      exact absurd (List.append_eq_nil_iff.1 hu).1 (render_ne_nil t)
  exact append_of_weight_le hweight hpos h hle

/-- What nests at the end of a text may be replaced, and so may the depth it leaves. -/
theorem Nested.append {c c' : List Piece} (hc : ∀ d, Nested c d → Nested c' (d + k))
    {x : List Piece} (h : Nested (x ++ c) d) : Nested (x ++ c') (d + k) := by
  induction x generalizing d with
  | nil => exact hc d h
  | cons t x ih =>
    cases t with
    | char => exact ih h
    | mark =>
      have hmark := ih (d := d + 1) h
      rwa [Nat.add_right_comm] at hmark
    | unmark =>
      obtain ⟨e, rfl, he⟩ := h
      exact ⟨e + k, Nat.add_right_comm e 1 k, ih he⟩

/-- A pair of tags around some pieces nests. -/
theorem Nested.insert {x y c c' : List Piece} (hc : ∀ d, Nested c d → Nested c' d)
    (h : Nested (x ++ (y ++ c)) d) : Nested (x ++ .mark :: (y ++ .unmark :: c')) d := by
  refine Nested.append (k := 0) (fun d' hd' ↦ ?_) h
  show Nested (y ++ .unmark :: c') (d' + 1)
  have hclose : ∀ e, Nested c e → Nested (.unmark :: c') (e + 1) := fun e he ↦ ⟨e, rfl, hc e he⟩
  exact Nested.append hclose hd'

variable {n len start : Nat} {ms : List Nat}

/-- **Matches of whole pieces** are marked by pieces. -/
theorem exists_marked (horder : InOrder n len start ms)
    (hms : ∀ m ∈ ms, OnPieces ts m n) (hlen : len = byteLen (renderPieces ts)) (huv : ts = u ++ v)
    (hu : byteLen (renderPieces u) = start) :
    ∃ v', v'.filter Piece.isChar = v.filter Piece.isChar ∧ (∀ d, Nested v d → Nested v' d) ∧
      ∀ out, wrapMatches (renderPieces ts) n len Piece.mark.render Piece.unmark.render ms start
        out = some (out ++ renderPieces v') := by
  induction ms generalizing start u v with
  | nil =>
    have hv : renderPieces ts = renderPieces u ++ renderPieces v := by
      rw [huv, renderPieces_append]
    exact ⟨v, rfl, fun _ h ↦ h, fun out ↦ wrapMatches_nil hv hu horder fun _ ↦ hlen⟩
  | cons m ms ih =>
    obtain ⟨hm, hmn⟩ := horder
    obtain ⟨a, y, c, hts, ha, hy⟩ := hms m List.mem_cons_self
    obtain ⟨x, rfl, rfl⟩ := pieces_of_byteLen_le (huv.symm.trans hts) (by omega)
    have hstop : byteLen (renderPieces (u ++ x ++ y)) = m + n := by
      rw [renderPieces_append, byteLen_append, ha, hy]
    obtain ⟨v', herase, hnested, hout⟩ := ih hmn (fun m' hm' ↦ hms m' (List.mem_cons_of_mem m hm'))
      (u := u ++ x ++ y) (v := c) (by rw [hts]; simp) hstop
    refine ⟨x ++ .mark :: (y ++ .unmark :: v'), ?_, fun d h ↦ Nested.insert hnested h,
      fun out ↦ ?_⟩
    · simp [herase, Piece.isChar]
    · have hrender : renderPieces ts =
          renderPieces u ++ (renderPieces x ++ (renderPieces y ++ renderPieces c)) := by
        rw [huv, renderPieces_append, renderPieces_append, renderPieces_append]
      rw [renderPieces_append] at ha
      rw [renderPieces_append, renderPieces_append] at hstop
      rw [wrapMatches_cons hrender hu ha hstop, hout, renderPieces_append, renderPieces_cons,
        renderPieces_append, renderPieces_cons]
      simp

end Pieces

/-! ### A round on marked text -/

section Round

variable {T} {text out out' term : String} {ts : List Piece}

theorem ascii_of_mem_markup {l : List Char} (h : l ∈ markup) : ∀ c ∈ l, c.toNat < 128 := by
  have hall : ∀ l ∈ markup, (l.all fun c ↦ decide (c.toNat < 128)) = true := by decide
  exact ascii_of_all (hall l h)

theorem ascii_render {t : Piece} (h : ∀ c, t = .char c → c.toNat < 128) :
    ∀ c ∈ t.render, c.toNat < 128 := by
  rcases render_cases t with ⟨c, ht, hc, -⟩ | hmarkup
  · rw [hc]
    exact List.forall_mem_singleton.2 (h c ht)
  · exact ascii_of_mem_markup hmarkup

theorem Marking.ascii (h : Marking text out ts) (htext : ∀ c ∈ text.toList, c.toNat < 128) :
    ∀ c ∈ out.toList, c.toNat < 128 := by
  rw [← h.render]
  intro c hc
  obtain ⟨t, ht, hct⟩ := List.mem_flatMap.1 hc
  refine ascii_render (fun d hd ↦ htext d ?_) c hct
  have hmem : t ∈ text.toList.map Piece.char := by
    rw [← h.erase, List.mem_filter, hd]
    exact ⟨hd ▸ ht, rfl⟩
  obtain ⟨d', hd', rfl⟩ := List.mem_map.1 hmem
  exact Piece.char.inj hd ▸ hd'

/-- What a term does to a text of ASCII. -/
theorem highlightTerm_of_ascii (hascii : ∀ c ∈ out.toList, c.toNat < 128) (hterm : term ≠ "") :
    highlightTerm T out term =
      (wrapMatches out.toList (byteLen (T.toLowercase term.toList)) (byteLen out.toList)
        Piece.mark.render Piece.unmark.render
        (matchIndices (T.toLowercase term.toList) (T.toLowercase out.toList)) 0 []).map
          .ofList := by
  have hterm' : term.toList ≠ [] := fun h ↦ hterm (String.toList_eq_nil_iff.1 h)
  rw [highlightTerm, if_neg (mt String.isEmpty_iff.1 hterm), caseInsensitiveWrap,
    wrapList_of_needle T hterm', T.byteLen_toLowercase_of_ascii hascii]
  rfl

/-- The matches of a term in a text of ASCII. -/
theorem inOrder_of_ascii (hascii : ∀ c ∈ out.toList, c.toNat < 128) (hterm : term ≠ "") :
    InOrder (byteLen (T.toLowercase term.toList)) (byteLen out.toList) 0
      (matchIndices (T.toLowercase term.toList) (T.toLowercase out.toList)) := by
  have hterm' : term.toList ≠ [] := fun h ↦ hterm (String.toList_eq_nil_iff.1 h)
  rw [← T.byteLen_toLowercase_of_ascii hascii]
  exact inOrder_matchIndices (mt T.toLowercase_eq_nil_iff.1 hterm') _

/-- A term that avoids the tags and entities is found at whole pieces. -/
theorem Marking.onPieces (h : Marking text out ts) (hascii : ∀ c ∈ out.toList, c.toNat < 128)
    (hterm : term ≠ "") (havoids : Avoids T out term) :
    ∀ m ∈ matchIndices (T.toLowercase term.toList) (T.toLowercase out.toList),
      OnPieces ts m (byteLen (T.toLowercase term.toList)) := by
  intro m hm
  have hle := (inOrder_of_ascii hascii hterm).add_le hm
  rw [byteLen_of_ascii hascii, ← h.render] at hle
  have hplace : ∀ k, k ≤ (renderPieces ts).length →
      insideMarkup (out.toList.take k) = false →
      ∃ a b, ts = a ++ b ∧ byteLen (renderPieces a) = k := by
    intro k hk hinside
    rcases between_or_inside ts hk with ⟨a, b, hab, ha⟩ | hinside'
    · refine ⟨a, b, hab, ?_⟩
      rw [byteLen_of_ascii, ha]
      intro c hc
      refine hascii c ?_
      rw [← h.render, hab, renderPieces_append]
      exact List.mem_append_left _ hc
    · rw [h.render, hinside] at hinside'
      cases hinside'
  obtain ⟨hstart, hstop⟩ := havoids m hm
  obtain ⟨a, b, hab, ha⟩ := hplace m (by omega) hstart
  obtain ⟨a', c, hac, ha'⟩ := hplace _ hle hstop
  obtain ⟨y, rfl, rfl⟩ := pieces_of_byteLen_le (hab.symm.trans hac) (by omega)
  rw [renderPieces_append, byteLen_append, ha] at ha'
  exact ⟨a, y, c, hab, ha, Nat.add_left_cancel ha'⟩

/-- **A term that is found at whole pieces** leaves a marking. -/
theorem Marking.step (h : Marking text out ts) (hascii : ∀ c ∈ out.toList, c.toNat < 128)
    (havoids : term ≠ "" → Avoids T out term) :
    ∃ out' ts', highlightTerm T out term = some out' ∧ Marking text out' ts' := by
  by_cases hterm : term = ""
  · rw [highlightTerm, if_pos (String.isEmpty_iff.2 hterm)]
    exact ⟨out, ts, rfl, h⟩
  · obtain ⟨ts', herase, hnested, hout⟩ := exists_marked (inOrder_of_ascii hascii hterm)
      (h.onPieces hascii hterm (havoids hterm)) (by rw [h.render]) (List.nil_append ts).symm rfl
    rw [h.render] at hout
    refine ⟨.ofList (renderPieces ts'), ts', ?_, String.toList_ofList.symm, ?_, hnested 0 h.nested⟩
    · rw [highlightTerm_of_ascii hascii hterm, hout]
      rfl
    · rw [herase, h.erase]

end Round

/-! ### Torn tags and entities -/

/-- A tag or an entity begins inside another. -/
def torn : (inside : Bool) → List Char → Bool
  | _, [] => false
  | inside, c :: l => inside && (c == '&' || c == '<') || torn (inMarkup inside c) l

section Torn

variable {T} {haystack u v out out' : List Char} {n len start : Nat} {ms : List Nat}

theorem torn_append (inside : Bool) (a b : List Char) :
    torn inside (a ++ b) = (torn inside a || torn (a.foldl inMarkup inside) b) := by
  induction a generalizing inside with
  | nil => rfl
  | cons c a ih => rw [List.cons_append, torn, torn, ih, List.foldl_cons, Bool.or_assoc]

theorem torn_renderPieces (ts : List Piece) : torn false (renderPieces ts) = false := by
  induction ts with
  | nil => rfl
  | cons t ts ih =>
    have ht : torn false t.render = false := by
      rcases render_cases t with ⟨c, -, hc, -⟩ | hmarkup
      · rw [hc]
        rfl
      · have hall : ∀ l ∈ markup, torn false l = false := by decide
        exact hall _ hmarkup
    rw [renderPieces_cons, torn_append, ht, foldl_render, ih]
    rfl

/-- Where a tag is put inside a tag or an entity, it is torn there, and otherwise only where it was
before. -/
theorem torn_marked (inside : Bool) (x y d : List Char) :
    torn inside (x ++ Piece.mark.render ++ y ++ Piece.unmark.render ++ d) =
      (torn inside x || x.foldl inMarkup inside || torn false y || y.foldl inMarkup false ||
        torn false d) := by
  have hmark : ∀ b, torn b Piece.mark.render = b ∧ Piece.mark.render.foldl inMarkup b = false := by
    decide
  have hunmark : ∀ b, torn b Piece.unmark.render = b ∧
      Piece.unmark.render.foldl inMarkup b = false := by
    decide
  simp only [torn_append, List.foldl_append, hmark, hunmark]

/-- A place inside a tag or an entity, at which a match begins or ends. -/
def Cuts (haystack : List Char) (n m : Nat) : Prop :=
  ∃ a b, haystack = a ++ b ∧ (byteLen a = m ∨ byteLen a = m + n) ∧ insideMarkup a = true

/-- **What is torn stays torn**, and what is cut is torn: a tag that is put inside a tag or an
entity begins there, and one that is put anywhere else is outside again where it ends. -/
theorem torn_of_wrapMatches (horder : InOrder n len start ms) (hlen : len = byteLen haystack)
    (huv : haystack = u ++ v) (hu : byteLen u = start)
    (hrun : wrapMatches haystack n len Piece.mark.render Piece.unmark.render ms start out =
      some out') :
    ∃ v', out' = out ++ v' ∧ ((torn (insideMarkup u) v = true ∨ ∃ m ∈ ms, Cuts haystack n m) →
      torn (insideMarkup u) v' = true) := by
  induction ms generalizing start u v out with
  | nil =>
    refine ⟨v, ?_, fun h ↦ h.elim id fun ⟨_, hm, _⟩ ↦ absurd hm List.not_mem_nil⟩
    rw [wrapMatches_nil huv hu horder fun _ ↦ hlen] at hrun
    exact (Option.some.inj hrun).symm
  | cons m ms ih =>
    obtain ⟨hm, hmn⟩ := horder
    obtain ⟨x, y, d, hv, hx, hy, hnext⟩ := split_of_wrapMatches huv hu hrun
    obtain ⟨d', rfl, hd'⟩ := ih hmn (u := u ++ x ++ y) (v := d) (by rw [huv, hv]; simp) hy hnext
    refine ⟨x ++ Piece.mark.render ++ y ++ Piece.unmark.render ++ d', by simp, fun h ↦ ?_⟩
    have hux : insideMarkup (u ++ x) = x.foldl inMarkup (insideMarkup u) := List.foldl_append
    have huxy : insideMarkup (u ++ x ++ y) = y.foldl inMarkup (insideMarkup (u ++ x)) :=
      List.foldl_append
    rw [torn_marked, ← hux]
    -- The first place at which a tag is torn, or the place that was torn before.
    rcases hstart : insideMarkup (u ++ x) with - | -
    · rw [hstart] at huxy
      rw [← huxy]
      rcases hstop : insideMarkup (u ++ x ++ y) with - | -
      · rw [hstop] at hd'
        rw [hv, torn_append, torn_append, ← hux, hstart, ← huxy, hstop] at h
        rcases h with h | ⟨m', hm', hcuts⟩
        · rcases Bool.or_eq_true_iff.1 h with hx' | hrest
          · rw [hx']
            rfl
          · rcases Bool.or_eq_true_iff.1 hrest with hy' | hd
            · rw [hy']
              simp
            · rw [hd' (Or.inl hd)]
              simp
        · rcases List.mem_cons.1 hm' with rfl | hm'
          · obtain ⟨a, b, hab, hplace | hplace, hinside⟩ := hcuts
            · have heq : a ++ b = (u ++ x) ++ (y ++ d) := by rw [← hab, huv, hv]; simp
              rw [(append_inj_of_byteLen heq (hplace.trans hx.symm)).1, hstart] at hinside
              cases hinside
            · have heq : a ++ b = (u ++ x ++ y) ++ d := by rw [← hab, huv, hv]; simp
              rw [(append_inj_of_byteLen heq (hplace.trans hy.symm)).1, hstop] at hinside
              cases hinside
          · rw [hd' (Or.inr ⟨m', hm', hcuts⟩)]
            simp
      · simp
    · simp

/-- Nothing but the tags is written that was not there. -/
theorem mem_of_wrapMatches {pre post : List Char} (huv : haystack = u ++ v)
    (hu : byteLen u = start)
    (hrun : wrapMatches haystack n len pre post ms start out = some out') {c : Char}
    (hc : c ∈ out') : c ∈ out ∨ c ∈ haystack ∨ c ∈ pre ∨ c ∈ post := by
  induction ms generalizing start u v out with
  | nil =>
    rw [wrapMatches] at hrun
    split at hrun
    case isTrue =>
      rw [sliceFrom_eq_some_iff.2 ⟨u, huv, hu⟩] at hrun
      obtain rfl := Option.some.inj hrun
      refine (List.mem_append.1 hc).imp_right fun hv ↦ Or.inl ?_
      rw [huv]
      exact List.mem_append_right u hv
    case isFalse => exact Or.inl (Option.some.inj hrun ▸ hc)
  | cons m ms ih =>
    obtain ⟨x, y, d, rfl, hx, hy, hnext⟩ := split_of_wrapMatches huv hu hrun
    have hsplit : haystack = (u ++ x ++ y) ++ d := by rw [huv]; simp
    rcases ih hsplit hy hnext with hout | hrest
    · have hmem : ∀ c, c ∈ x ∨ c ∈ y → c ∈ haystack := fun c hc ↦ by
        rw [hsplit]
        rcases hc with hc | hc
        · simp [hc]
        · simp [hc]
      simp only [List.mem_append] at hout
      rcases hout with (((hout | hx') | hpre) | hy') | hpost
      · exact Or.inl hout
      · exact Or.inr (Or.inl (hmem c (Or.inl hx')))
      · exact Or.inr (Or.inr (Or.inl hpre))
      · exact Or.inr (Or.inl (hmem c (Or.inr hy')))
      · exact Or.inr (Or.inr (Or.inr hpost))
    · exact Or.inr hrest

/-- A round on a text of ASCII leaves one. -/
theorem ascii_highlightTerm {s s' term : String} (hascii : ∀ c ∈ s.toList, c.toNat < 128)
    (h : highlightTerm T s term = some s') : ∀ c ∈ s'.toList, c.toNat < 128 := by
  by_cases hterm : term = ""
  · rw [highlightTerm, if_pos (String.isEmpty_iff.2 hterm)] at h
    exact Option.some.inj h ▸ hascii
  · rw [highlightTerm_of_ascii hascii hterm] at h
    obtain ⟨out, hout, rfl⟩ := Option.map_eq_some_iff.1 h
    intro c hc
    rw [String.toList_ofList] at hc
    rcases mem_of_wrapMatches (List.nil_append _).symm rfl hout hc with hnil | hs | hmark | hunmark
    · exact absurd hnil List.not_mem_nil
    · exact hascii c hs
    · exact ascii_of_mem_markup (by decide) c hmark
    · exact ascii_of_mem_markup (by decide) c hunmark

/-- **A round** leaves what was torn, and tears what a match cuts. -/
theorem torn_highlightTerm {s s' term : String} (hascii : ∀ c ∈ s.toList, c.toNat < 128)
    (h : highlightTerm T s term = some s')
    (hs : torn false s.toList = true ∨ term ≠ "" ∧ ¬ Avoids T s term) :
    torn false s'.toList = true := by
  by_cases hterm : term = ""
  · rw [highlightTerm, if_pos (String.isEmpty_iff.2 hterm)] at h
    obtain rfl := Option.some.inj h
    exact hs.resolve_right fun hne ↦ hne.1 hterm
  · rw [highlightTerm_of_ascii hascii hterm] at h
    obtain ⟨out, hout, rfl⟩ := Option.map_eq_some_iff.1 h
    have horder := inOrder_of_ascii (T := T) hascii hterm
    obtain ⟨v', hv', htorn⟩ := torn_of_wrapMatches horder rfl (List.nil_append _).symm rfl hout
    rw [List.nil_append] at hv'
    subst hv'
    rw [String.toList_ofList]
    refine htorn (hs.imp id fun ⟨_, havoids⟩ ↦ ?_)
    simp only [Avoids, not_forall] at havoids
    obtain ⟨m, hm, hinside⟩ := havoids
    have hle := horder.add_le hm
    have htake : ∀ k, k ≤ byteLen s.toList → byteLen (s.toList.take k) = k := fun k hk ↦ by
      rw [byteLen_of_ascii fun c hc ↦ hascii c (List.mem_of_mem_take hc), List.length_take]
      rw [byteLen_of_ascii hascii] at hk
      omega
    refine ⟨m, hm, ?_⟩
    by_cases hstart : insideMarkup (s.toList.take m) = false
    · exact ⟨_, _, (List.take_append_drop _ _).symm, Or.inr (htake _ hle),
        Bool.of_not_eq_false fun hstop ↦ hinside ⟨hstart, hstop⟩⟩
    · exact ⟨_, _, (List.take_append_drop _ _).symm, Or.inl (htake _ (by omega)),
        Bool.of_not_eq_false hstart⟩

end Torn

/-! ### The terms it is right about -/

section Run

variable {T} {text s out : String} {terms : List String} {ts : List Piece}

theorem run_fallbackMachine (s : String) (terms : List String) :
    (fallbackMachine T).run s terms = terms.foldlM (highlightTerm T) s := by
  induction terms generalizing s with
  | nil => rfl
  | cons term terms ih =>
    rw [Machine.run_cons, List.foldlM_cons]
    exact Option.bind_congr fun s' _ ↦ ih s'

/-- Where every term avoids the tags and entities, every term leaves a marking. -/
theorem exists_marking (htext : ∀ c ∈ text.toList, c.toNat < 128)
    (hguarded : (fallbackMachine T).Guarded (fun s term ↦ term ≠ "" → Avoids T s term) s terms)
    (hs : Marking text s ts) :
    ∃ out ts', (fallbackMachine T).run s terms = some out ∧ Marking text out ts' := by
  induction terms generalizing s ts with
  | nil => exact ⟨s, ts, rfl, hs⟩
  | cons term terms ih =>
    obtain ⟨havoids, hrest⟩ := hguarded
    obtain ⟨s', ts', hstep, hs'⟩ := hs.step (hs.ascii htext) havoids
    obtain ⟨out, ts'', hrun, hout⟩ := ih (hrest s' hstep) hs'
    exact ⟨out, ts'', ((fallbackMachine T).run_cons_eq_some).2 ⟨s', hstep, hrun⟩, hout⟩

/-- No later term mends what is torn. -/
theorem torn_of_run (hascii : ∀ c ∈ s.toList, c.toNat < 128) (hs : torn false s.toList = true)
    (hrun : (fallbackMachine T).run s terms = some out) : torn false out.toList = true := by
  have hstep : ∀ s term s', (∀ c ∈ s.toList, c.toNat < 128) ∧ torn false s.toList = true →
      (fallbackMachine T).step s term = some s' →
      (∀ c ∈ s'.toList, c.toNat < 128) ∧ torn false s'.toList = true := fun s term s' h hs' ↦
    ⟨ascii_highlightTerm h.1 hs', torn_highlightTerm h.1 hs' (Or.inl h.2)⟩
  exact (Machine.invariant hstep ⟨hascii, hs⟩ ⟨terms, hrun⟩).2

/-- Where one does not, the output is torn. -/
theorem guarded_of_not_torn (hascii : ∀ c ∈ s.toList, c.toNat < 128)
    (hrun : (fallbackMachine T).run s terms = some out) (hout : torn false out.toList = false) :
    (fallbackMachine T).Guarded (fun s term ↦ term ≠ "" → Avoids T s term) s terms := by
  induction terms generalizing s with
  | nil => trivial
  | cons term terms ih =>
    obtain ⟨s', hstep, hrest⟩ := (fallbackMachine T).run_cons_eq_some.1 hrun
    have hascii' := ascii_highlightTerm hascii hstep
    refine ⟨fun hterm ↦ ?_, fun s'' hs'' ↦ ?_⟩
    · by_contra havoids
      have htorn := torn_highlightTerm hascii hstep (Or.inr ⟨hterm, havoids⟩)
      have hfinal := torn_of_run hascii' htorn hrest
      rw [hout] at hfinal
      cases hfinal
    · obtain rfl := Option.some.inj (hstep.symm.trans hs'')
      exact ih hascii' hrest

theorem marking_htmlEscape (text : String) :
    Marking text (htmlEscape text) (text.toList.map Piece.char) where
  render := by
    rw [htmlEscape, String.toList_ofList, renderPieces, List.flatMap_map]
    rfl
  erase := by
    rw [List.filter_map]
    exact congrArg _ (List.filter_eq_self.2 fun _ _ ↦ rfl)
  nested := by
    induction text.toList with
    | nil => rfl
    | cons c l ih => exact ih

end Run

/-- **`highlight_fallback`** is right about a text of ASCII just when no term is found, in what the
terms before it have left, from or to a place inside a tag or an entity. -/
theorem fallback_exact {text : String} (htext : ∀ c ∈ text.toList, c.toNat < 128)
    (queryTerms : List String) :
    FallbackLaw T text queryTerms ↔ (fallbackMachine T).Guarded
      (fun out term ↦ term ≠ "" → Avoids T out term) (htmlEscape text) queryTerms := by
  have hescape := marking_htmlEscape text
  constructor
  · intro h
    obtain ⟨out, ts, hout, hmarking⟩ := h.output
    refine guarded_of_not_torn (hescape.ascii htext) ((run_fallbackMachine _ _).trans hout) ?_
    rw [← hmarking.render]
    exact torn_renderPieces ts
  · intro h
    have hrun : ∀ before behind, queryTerms = before ++ behind →
        ∃ out ts, highlightFallback T text before = some out ∧ Marking text out ts := by
      rintro before behind rfl
      obtain ⟨out, ts, hout, hmarking⟩ := exists_marking htext h.left hescape
      exact ⟨out, ts, (run_fallbackMachine _ _).symm.trans hout, hmarking⟩
    refine ⟨hrun queryTerms [] (List.append_nil _).symm, ?_⟩
    rintro before term behind rfl hterm
    obtain ⟨out, ts, hout, hmarking⟩ := hrun before (term :: behind) rfl
    have havoids := (h.right ((run_fallbackMachine _ _).trans hout)).1 hterm
    exact ⟨out, ts, hout, hmarking, hmarking.onPieces (hmarking.ascii htext) hterm havoids⟩

namespace Ampersand

/-- Words that are in no tag and in no entity are marked as they should be. -/
theorem fallback_exact_words : FallbackLaw KelvinSign.table "b & c" ["c", "B"] :=
  (fallback_exact KelvinSign.table (ascii_of_all (by decide)) ["c", "B"]).2 (by decide)

/-- A word that is the name of an entity is not. -/
theorem not_fallbackLaw : ¬ ∀ (T : CaseTable) (text : String) (queryTerms : List String),
    (∀ c ∈ text.toList, c.toNat < 128) → FallbackLaw T text queryTerms := fun h ↦ by
  obtain ⟨out, ts, hout, hmarking⟩ :=
    (h KelvinSign.table "b & c" ["amp"] (ascii_of_all (by decide))).output
  have hout' : highlightFallback KelvinSign.table "b & c" ["amp"] =
      some "b &<mark>amp</mark>; c" := by decide
  obtain rfl := Option.some.inj (hout'.symm.trans hout)
  have htorn := torn_renderPieces ts
  rw [hmarking.render] at htorn
  exact absurd htorn (by decide)

end Ampersand

end CommunitySearch
