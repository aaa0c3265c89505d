import CommunitySearch.Index.Reader
import Mathlib.Algebra.Group.Nat.Even
import Mathlib.Algebra.Order.BigOperators.Group.List
import Mathlib.Algebra.Order.Ring.Nat

/-!
# Which `site:` is rewritten

A clause of a query is told by its place in it (`IsClause`): an even number of quotes before it, a
word boundary, and the five characters `site:`. `rewriteClauses` replaces every clause by what is
given for its place, and keeps every other character. The scanner of the reader, which looks behind
on what it has written, puts `+host:` in the place of every clause
(`rewriteSiteFilterList_eq_rewriteClauses`), and there is no clause in what it writes. So it is
right about a query exactly when no clause in it has a sign already (`rewriteSiteFilter_exact`).
-/

namespace CommunitySearch

/-! ### Clauses -/

/-- A `site:` at a word boundary outside double quotes, by its place among the characters. -/
def IsClause (l : List Char) (i : Nat) : Prop :=
  Even ((l.take i).count '"') ∧ atBoundary (l.take i).getLast? = true ∧
    ['s', 'i', 't', 'e', ':'] <+: l.drop i

/-- A character of a clause other than the first. -/
def InClause (l : List Char) (i : Nat) : Prop := ∃ j, j < i ∧ i < j + 5 ∧ IsClause l j

/-- The occurrence sign written before this place, if any. -/
def Signed (l : List Char) (i : Nat) : Prop :=
  (l.take i).getLast? = some '+' ∨ (l.take i).getLast? = some '-'

instance (l : List Char) (i : Nat) : Decidable (IsClause l i) := instDecidableAnd

instance (l : List Char) (i : Nat) : Decidable (InClause l i) :=
  inferInstanceAs (Decidable (∃ j, j < i ∧ _))

instance (l : List Char) (i : Nat) : Decidable (Signed l i) := instDecidableOr

/-- What becomes of the character at a place. -/
def rewriteAt (replace : Nat → List Char) (l : List Char) (e : Char × Nat) : List Char :=
  if IsClause l e.2 then replace e.2 else if InClause l e.2 then [] else [e.1]

/-- Every clause is replaced, and every other character kept. -/
def rewriteClauses (replace : Nat → List Char) (l : List Char) : List Char :=
  l.zipIdx.flatMap (rewriteAt replace l)

/-- The clause of the host field that a `site:` at this place stands for: the sign is the one that
is written before it, and `+` if there is none. -/
def hostClause (l : List Char) (i : Nat) : List Char :=
  if Signed l i then ['h', 'o', 's', 't', ':'] else ['+', 'h', 'o', 's', 't', ':']

/-- **The claim of the rewriting** of a query. -/
structure SiteRewriting (q : String) (r : String) : Prop where
  eq : r.toList = rewriteClauses (hostClause q.toList) q.toList
  idempotent : rewriteSiteFilter r = r

/-! ### The scanner, place by place -/

variable {l pre suf : List Char} {i : Nat} {c : Char}

theorem inClause_succ (h : ¬ IsClause l i) : InClause l (i + 1) → InClause l i := by
  rintro ⟨j, hj, hi, hclause⟩
  rcases Nat.lt_succ_iff_lt_or_eq.1 hj with hlt | rfl
  · exact ⟨j, hlt, by omega, hclause⟩
  · exact absurd hclause h

theorem isClause_append (pre suf : List Char) : IsClause (pre ++ suf) pre.length ↔
    Even (pre.count '"') ∧ atBoundary pre.getLast? = true ∧ ['s', 'i', 't', 'e', ':'] <+: suf := by
  rw [IsClause, List.take_left, List.drop_left]

/-- A clause begins with its `s`. -/
theorem not_isClause_append_cons (h : c ≠ 's') : ¬ IsClause (pre ++ c :: suf) pre.length := fun hc ↦
  h (List.cons_prefix_cons.1 ((isClause_append ..).1 hc).2.2).1.symm

/-- The places of a clause. -/
theorem places_of_isClause (h : IsClause l i) (k : Nat) (hk : k < 4) :
    ¬ IsClause l (i + 1 + k) ∧ InClause l (i + 1 + k) := by
  refine ⟨fun h' ↦ ?_, i, by omega, by omega, h⟩
  obtain ⟨rest, hrest⟩ := h.2.2
  have hdrop : l.drop (i + 1 + k) = (['s', 'i', 't', 'e', ':'] ++ rest).drop (1 + k) := by
    rw [hrest, List.drop_drop, Nat.add_assoc]
  have hprefix := h'.2.2
  rw [hdrop] at hprefix
  match k, hk with
  | 0, _ | 1, _ | 2, _ | 3, _ => exact absurd (List.cons_prefix_cons.1 hprefix).1 (by decide)

/-- What follows a clause is not in one. -/
theorem not_inClause_of_isClause (h : IsClause l i) : ¬ InClause l (i + 5) := by
  rintro ⟨j, hj, hi, hclause⟩
  have hplaces := (places_of_isClause h (j - i - 1) (by omega)).1
  rw [show i + 1 + (j - i - 1) = j by omega] at hplaces
  exact hplaces hclause

/-- What the scanner knows of the characters that it has read. -/
structure ScannedTo (inQuote : Bool) (last : Option Char) (pre : List Char) : Prop where
  inQuote : inQuote = false ↔ Even (pre.count '"')
  last : last = pre.getLast?

section ScannedTo

variable {inQuote : Bool} {last : Option Char}

theorem ScannedTo.quote (h : ScannedTo inQuote last pre) :
    ScannedTo (!inQuote) (some '"') (pre ++ ['"']) where
  inQuote := by
    rw [List.count_append, List.count_singleton_self, Nat.even_add_one, ← h.inQuote]
    cases inQuote <;> decide
  last := List.getLast?_concat.symm

theorem ScannedTo.char (h : ScannedTo inQuote last pre) (hc : c ≠ '"') :
    ScannedTo inQuote (some c) (pre ++ [c]) where
  inQuote := by
    rw [List.count_append, List.count_singleton, if_neg (by simpa using hc), h.inQuote]
    rfl
  last := List.getLast?_concat.symm

theorem ScannedTo.clause (h : ScannedTo inQuote last pre) :
    ScannedTo inQuote (some ':') (pre ++ ['s', 'i', 't', 'e', ':']) where
  inQuote := by
    rw [List.count_append, h.inQuote]
    rfl
  last := by
    rw [List.getLast?_append]
    rfl

/-- The scanner sees a clause where there is one. -/
theorem ScannedTo.isClause_iff (h : ScannedTo inQuote last pre) :
    IsClause (pre ++ 's' :: 'i' :: 't' :: 'e' :: ':' :: suf) pre.length ↔
      (!inQuote && atBoundary last) = true := by
  have hprefix : ['s', 'i', 't', 'e', ':'] <+: 's' :: 'i' :: 't' :: 'e' :: ':' :: suf := ⟨suf, rfl⟩
  rw [isClause_append, ← h.inQuote, ← h.last, Bool.and_eq_true, Bool.not_eq_true',
    and_iff_left hprefix]

/-- A character that is in no clause is kept. -/
theorem flatMap_rewriteAt_cons {replace : Nat → List Char} {out : List Char}
    (hclause : ¬ IsClause (pre ++ c :: suf) pre.length)
    (hin : ¬ InClause (pre ++ c :: suf) pre.length)
    (hout : ¬ InClause ((pre ++ [c]) ++ suf) (pre ++ [c]).length →
      out = (suf.zipIdx (pre ++ [c]).length).flatMap (rewriteAt replace ((pre ++ [c]) ++ suf))) :
    c :: out = ((c :: suf).zipIdx pre.length).flatMap (rewriteAt replace (pre ++ c :: suf)) := by
  have hlength : (pre ++ [c]).length = pre.length + 1 := List.length_append
  rw [hlength, List.append_assoc, List.singleton_append] at hout
  rw [List.zipIdx_cons, List.flatMap_cons, rewriteAt, if_neg hclause, if_neg hin,
    ← hout (mt (inClause_succ hclause) hin)]
  rfl

/-- **The scanner** puts `+host:` in the place of every clause. -/
theorem rewriteSiteFilterList_eq (h : ScannedTo inQuote last pre)
    (hin : ¬ InClause (pre ++ suf) pre.length) :
    rewriteSiteFilterList inQuote last suf = (suf.zipIdx pre.length).flatMap
      (rewriteAt (fun _ ↦ ['+', 'h', 'o', 's', 't', ':']) (pre ++ suf)) := by
  fun_induction rewriteSiteFilterList inQuote last suf generalizing pre with
  | case1 => rfl
  | case2 inQuote last l ih =>
    exact flatMap_rewriteAt_cons (not_isClause_append_cons (by decide)) hin (ih h.quote)
  | case3 inQuote last l hcond ih =>
    have hclause : IsClause (pre ++ 's' :: 'i' :: 't' :: 'e' :: ':' :: l) pre.length :=
      h.isClause_iff.2 hcond
    have hlength : (pre ++ ['s', 'i', 't', 'e', ':']).length = pre.length + 5 := List.length_append
    have hassoc : pre ++ 's' :: 'i' :: 't' :: 'e' :: ':' :: l =
        pre ++ ['s', 'i', 't', 'e', ':'] ++ l :=
      (List.append_assoc pre ['s', 'i', 't', 'e', ':'] l).symm
    have hplace := fun k hk ↦ places_of_isClause hclause k hk
    have hkept : ∀ k (hk : k < 4) (c : Char), rewriteAt (fun _ ↦ ['+', 'h', 'o', 's', 't', ':'])
        (pre ++ 's' :: 'i' :: 't' :: 'e' :: ':' :: l) (c, pre.length + 1 + k) = [] :=
      fun k hk c ↦ by
        rw [rewriteAt, if_neg (hplace k hk).1, if_pos (hplace k hk).2]
    have hnext := ih h.clause (by
      rw [hlength, ← hassoc]
      exact not_inClause_of_isClause hclause)
    rw [hlength, ← hassoc] at hnext
    simp only [List.zipIdx_cons, List.flatMap_cons]
    rw [rewriteAt, if_pos hclause, hnext, hkept 0 (by decide), hkept 1 (by decide),
      hkept 2 (by decide), hkept 3 (by decide)]
    rfl
  | case4 inQuote last l hcond ih =>
    exact flatMap_rewriteAt_cons (mt h.isClause_iff.1 hcond) hin (ih (h.char (by decide)))
  | case5 inQuote last c l hquote hsite ih =>
    refine flatMap_rewriteAt_cons (fun hclause ↦ ?_) hin (ih (h.char hquote))
    obtain ⟨rest, hrest⟩ := ((isClause_append ..).1 hclause).2.2
    obtain ⟨rfl, -⟩ := List.cons.inj hrest
    exact hsite rest rfl (List.cons.inj hrest).2.symm

/-! ### Rewriting again -/

theorem rewriteSiteFilterList_cons (hquote : c ≠ '"')
    (hsite : ∀ rest, c = 's' → suf = 'i' :: 't' :: 'e' :: ':' :: rest → False) :
    rewriteSiteFilterList inQuote last (c :: suf) =
      c :: rewriteSiteFilterList inQuote (some c) suf := by
  rw [rewriteSiteFilterList]
  · exact hquote
  · exact hsite

/-- What is written without a `+` was there. -/
theorem prefix_of_prefix_rewriteSiteFilterList {p : List Char} (hp : '+' ∉ p)
    (h : p <+: rewriteSiteFilterList inQuote last l) : p <+: l := by
  induction p generalizing inQuote last l with
  | nil => exact List.nil_prefix
  | cons a p ih =>
    obtain ⟨ha, hp⟩ := not_or.1 (List.mem_cons.not.1 hp)
    have hstep : ∀ {inQuote' last' b out l'}, l = b :: l' →
        out = rewriteSiteFilterList inQuote' last' l' → a :: p <+: b :: out → a :: p <+: l := by
      rintro inQuote' last' b out l' rfl rfl hout
      obtain ⟨rfl, hrest⟩ := List.cons_prefix_cons.1 hout
      exact List.cons_prefix_cons.2 ⟨rfl, ih hp hrest⟩
    fun_cases rewriteSiteFilterList inQuote last l with
    | case1 => exact h
    | case2 l' => exact hstep rfl rfl h
    | case3 l' hcond =>
      rw [rewriteSiteFilterList, if_pos hcond] at h
      exact absurd (List.cons_prefix_cons.1 h).1.symm ha
    | case4 l' hcond =>
      rw [rewriteSiteFilterList, if_neg hcond] at h
      exact hstep rfl rfl h
    | case5 b l' hquote hsite =>
      rw [rewriteSiteFilterList_cons hquote hsite] at h
      exact hstep rfl rfl h

/-- **There is no clause in what the scanner writes.** -/
theorem rewriteSiteFilterList_idempotent (inQuote : Bool) (last : Option Char) (l : List Char) :
    rewriteSiteFilterList inQuote last (rewriteSiteFilterList inQuote last l) =
      rewriteSiteFilterList inQuote last l := by
  fun_induction rewriteSiteFilterList inQuote last l with
  | case1 => rfl
  | case2 inQuote last l ih =>
    rw [rewriteSiteFilterList, ih]
  | case3 inQuote last l hcond ih =>
    show '+' :: 'h' :: 'o' :: 's' :: 't' :: ':' :: rewriteSiteFilterList inQuote (some ':')
      (rewriteSiteFilterList inQuote (some ':') l) = _
    rw [ih]
    rfl
  | case4 inQuote last l hcond ih =>
    have hrest : rewriteSiteFilterList inQuote (some 's') ('i' :: 't' :: 'e' :: ':' :: l) =
      'i' :: 't' :: 'e' :: ':' :: rewriteSiteFilterList inQuote (some ':') l := rfl
    rw [hrest] at ih ⊢
    rw [rewriteSiteFilterList, if_neg hcond, ih]
  | case5 inQuote last c l hquote hsite ih =>
    rw [rewriteSiteFilterList_cons hquote, ih]
    rintro rest rfl hrest
    have hite : ['i', 't', 'e', ':'] <+: l :=
      prefix_of_prefix_rewriteSiteFilterList (by decide) ⟨rest, hrest.symm⟩
    obtain ⟨rest', hrest'⟩ := hite
    exact hsite rest' rfl hrest'.symm

end ScannedTo

/-! ### The queries it is right about -/

theorem mem_zipIdx_of_isClause (h : IsClause l i) : ∃ c, (c, i) ∈ l.zipIdx := by
  have hi : i < l.length := by
    obtain ⟨rest, hrest⟩ := h.2.2
    by_contra hi
    rw [List.drop_eq_nil_of_le (by omega)] at hrest
    cases hrest
  exact ⟨l.get ⟨i, hi⟩, List.mk_mem_zipIdx_iff_getElem?.2 (List.getElem?_eq_getElem hi)⟩

theorem length_hostClause_le (l : List Char) (i : Nat) : (hostClause l i).length ≤ 6 := by
  rw [hostClause]
  split <;> decide

/-- Each sign that is written twice makes the query longer. -/
theorem length_rewriteClauses_lt (hclause : IsClause l i) (hsigned : Signed l i) :
    (rewriteClauses (hostClause l) l).length <
      (rewriteClauses (fun _ ↦ ['+', 'h', 'o', 's', 't', ':']) l).length := by
  rw [rewriteClauses, rewriteClauses, List.length_flatMap, List.length_flatMap]
  obtain ⟨c, hc⟩ := mem_zipIdx_of_isClause hclause
  refine List.sum_lt_sum _ _ (fun e _ ↦ ?_) ⟨(c, i), hc, ?_⟩
  · rw [rewriteAt, rewriteAt]
    split
    · exact length_hostClause_le l e.2
    · exact Nat.le_refl _
  · rw [rewriteAt, rewriteAt, if_pos hclause, if_pos hclause, hostClause, if_pos hsigned]
    decide

theorem toList_rewriteSiteFilter (q : String) : (rewriteSiteFilter q).toList =
    rewriteClauses (fun _ ↦ ['+', 'h', 'o', 's', 't', ':']) q.toList := by
  rw [rewriteSiteFilter, String.toList_ofList]
  exact @rewriteSiteFilterList_eq [] q.toList false none ⟨iff_of_true rfl ⟨0, rfl⟩, rfl⟩
    fun ⟨j, hj, _⟩ ↦ Nat.not_lt_zero j hj

/-- **The rewriting of `site:`** is right about a query exactly when none of its clauses has a sign
already; rewriting again never changes anything. -/
theorem rewriteSiteFilter_exact (q : String) :
    SiteRewriting q (rewriteSiteFilter q) ↔ ∀ i, IsClause q.toList i → ¬ Signed q.toList i := by
  constructor
  · intro h i hclause hsigned
    have hlt := length_rewriteClauses_lt hclause hsigned
    rw [← h.eq, toList_rewriteSiteFilter] at hlt
    exact Nat.lt_irrefl _ hlt
  · intro h
    refine ⟨?_, ?_⟩
    · rw [toList_rewriteSiteFilter, rewriteClauses, rewriteClauses]
      refine List.flatMap_congr fun e _ ↦ ?_
      rw [rewriteAt, rewriteAt]
      split
      case isTrue hclause => rw [hostClause, if_neg (h e.2 hclause)]
      case isFalse => rfl
    · rw [rewriteSiteFilter, rewriteSiteFilter, String.toList_ofList,
        rewriteSiteFilterList_idempotent]

/-- An exclusion is given a second sign. -/
theorem not_siteRewriting : ¬ ∀ q : String, SiteRewriting q (rewriteSiteFilter q) := fun h ↦
  absurd (h "-site:a").eq (by decide)

end CommunitySearch
