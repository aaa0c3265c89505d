import CommunitySearch.Crawler.UrlCanonical

/-!
# The prefix law

What a prefix is meant to admit is said by the parts of a URL (`Url.Admits`): the origin up to one
leading `www.`, and a path and query that goes on from the prefix's at the end of a path segment.
`isInPrefix` compares whole strings, in which the first `://www.` is replaced.
`isInPrefix_iff` says by parts what that comes to, and `isInPrefix_admits_iff` when it is the law:
the comparison knows no segments, and without `www.` in the host the replacement reaches into the
path and the query (`Url.Loses`). `Url.KeepsSegments` says in the texts of the two paths and queries
when neither makes a difference.
-/

namespace List

/-- What begins with a piece of a text ends in the piece or goes on behind it. -/
theorem prefix_or_append_of_prefix {α : Type} {b l m : List α} (h : b <+: l ++ m) :
    b <+: l ∨ ∃ e, b = l ++ e ∧ e <+: m := by
  rcases prefix_or_prefix_of_prefix h (prefix_append l m) with hbl | ⟨e, rfl⟩
  · exact Or.inl hbl
  · exact Or.inr ⟨e, rfl, (prefix_append_right_inj l).1 h⟩

end List

namespace Text

theorem containsList_append (p : List Char) {y z : List Char} :
    containsList p (y ++ (p ++ z)) = true := by
  induction y with
  | nil =>
    cases p with
    | nil =>
      cases z with
      | nil => rfl
      | cons c z => rfl
    | cons c p =>
      rw [List.nil_append, List.cons_append, containsList, Bool.or_eq_true]
      exact Or.inl (List.isPrefixOf_iff_prefix.2 (List.prefix_append (c :: p) z))
  | cons x y ih => rw [List.cons_append, containsList, ih, Bool.or_true]

/-- The replacement changes nothing, or the first occurrence. -/
theorem replaceFirstList_cases (c : Char) (p r l : List Char) :
    replaceFirstList (c :: p) r l = l ∨ ∃ y z, l = y ++ (c :: p ++ z) ∧
      replaceFirstList (c :: p) r l = y ++ (r ++ z) ∧ containsList (c :: p) y = false := by
  induction l with
  | nil => exact Or.inl rfl
  | cons x l ih =>
    rw [replaceFirstList]
    split
    case isTrue h =>
      obtain ⟨z, hz⟩ := List.isPrefixOf_iff_prefix.1 h
      refine Or.inr ⟨[], z, hz.symm, ?_, rfl⟩
      rw [← hz, List.drop_left, List.nil_append]
    case isFalse h =>
      rcases ih with ih | ⟨y, z, rfl, hr, hy⟩
      · exact Or.inl (by rw [ih])
      · refine Or.inr ⟨x :: y, z, rfl, by rw [hr, List.cons_append], ?_⟩
        rw [containsList, hy, Bool.or_false]
        refine Bool.eq_false_iff.2 fun hx ↦ h (List.isPrefixOf_iff_prefix.2 ?_)
        exact (List.isPrefixOf_iff_prefix.1 hx).trans (List.prefix_append (x :: y) _)

/-- Nothing is replaced where the pattern cannot begin. -/
theorem replaceFirstList_append {p r a : List Char} {c : Char} (l : List Char) (h : c ∉ a) :
    replaceFirstList (c :: p) r (a ++ l) = a ++ replaceFirstList (c :: p) r l := by
  induction a with
  | nil => rfl
  | cons x a ih =>
    have hx : c ≠ x := fun he ↦ h (he ▸ List.mem_cons_self)
    have hno : (c :: p).isPrefixOf (x :: (a ++ l)) = false := by
      rw [List.isPrefixOf, beq_eq_false_iff_ne.2 hx, Bool.false_and]
    rw [List.cons_append, replaceFirstList, hno, if_neg Bool.false_ne_true,
      ih fun hmem ↦ h (List.mem_cons_of_mem _ hmem)]
    rfl

/-- Nor in text without the second character of the pattern, if it does not end with the first. -/
theorem replaceFirstList_append_of_not_mem {p r a : List Char} {c d : Char} (l : List Char)
    (hd : d ∉ a) (hlast : a.getLast? ≠ some c) :
    replaceFirstList (c :: d :: p) r (a ++ l) = a ++ replaceFirstList (c :: d :: p) r l := by
  induction a with
  | nil => rfl
  | cons x a ih =>
    have hno : (c :: d :: p).isPrefixOf (x :: (a ++ l)) = false := by
      refine Bool.eq_false_iff.2 fun h ↦ ?_
      obtain ⟨rfl, htail⟩ := List.cons_prefix_cons.1 (List.isPrefixOf_iff_prefix.1 h)
      cases a with
      | nil => exact hlast rfl
      | cons y a =>
        obtain ⟨rfl, -⟩ := List.cons_prefix_cons.1 htail
        exact hd (List.mem_cons_of_mem _ List.mem_cons_self)
    have hlast' : a.getLast? ≠ some c := by
      cases a with
      | nil => simp
      | cons y a => rwa [List.getLast?_cons_cons] at hlast
    rw [List.cons_append, replaceFirstList, hno, if_neg Bool.false_ne_true,
      ih (fun hmem ↦ hd (List.mem_cons_of_mem _ hmem)) hlast']
    rfl

/-- Text without the pattern stays. -/
theorem replaceFirstList_of_not_contains {p r l : List Char} (h : containsList p l = false) :
    replaceFirstList p r l = l := by
  induction l with
  | nil =>
    rw [replaceFirstList, if_neg (by rw [containsList] at h; rw [h]; exact Bool.false_ne_true)]
  | cons x l ih =>
    rw [containsList, Bool.or_eq_false_iff] at h
    rw [replaceFirstList, h.1, if_neg Bool.false_ne_true, ih h.2]

end Text

namespace CommunitySearch

/-! ### The parts of a URL -/

namespace Url

/-- The host may be followed by a port or a path: a `:` in it is inside brackets. -/
def IsHost (host : List Char) : Prop :=
  '/' ∉ host ∧ (':' ∈ host → host.getLast? = some ']')

/-- What parses under the schemes `http` and `https`. -/
structure IsHttp (u : Url) : Prop where
  scheme : u.scheme = "http" ∨ u.scheme = "https"
  host : ∃ host, u.host = some host ∧ IsHost host.toList
  path : u.path.toList.head? = some '/'

theorem IsHttp.not_isOpaque {u : Url} (hu : u.IsHttp) : ¬ u.IsOpaque := by
  obtain ⟨host, hhost, -⟩ := hu.host
  exact not_isOpaque_of_host hhost

/-- The host without a leading `www.`. -/
def bareHost (u : Url) : Option (List Char) :=
  u.host.map fun host ↦
    if Text.startsWith host "www." then host.toList.drop 4 else host.toList

/-- The path and the query. -/
def target (u : Url) : List Char :=
  u.path.toList ++ match u.query with
    | some q => '?' :: q.toList
    | none => []

/-- The same scheme, port and host, up to one leading `www.`. -/
def SameOrigin (p u : Url) : Prop :=
  p.scheme = u.scheme ∧ p.port = u.port ∧ p.bareHost = u.bareHost

/-- `p` ends at the end of a path segment of `t`, which begins with it. -/
def EndsSegment (p t : List Char) : Prop :=
  t = p ∨ p.getLast? = some '/' ∨ (t.drop p.length).head? = some '/' ∨
    (t.drop p.length).head? = some '?'

/-- **What a prefix admits.** -/
def Admits (p u : Url) : Prop :=
  SameOrigin p u ∧ p.target <+: u.target ∧ EndsSegment p.target u.target

/-- The path and query as the comparison sees them: if no `www.` is taken off the host, the first
`://www.` in them loses it. -/
def shown (u : Url) : List Char :=
  match u.host with
  | some host =>
    if Text.startsWith host "www." then u.target
    else Text.replaceFirstList "://www.".toList "://".toList u.target
  | none => u.target

/-- The host begins with `www.`. -/
def hasWww (u : Url) : Bool :=
  u.host.any fun host ↦ Text.startsWith host "www."

/-- The path and query have their first `://www.` between `y` and `z`, and lose its `www.`: the host
has none to lose. -/
def Loses (u : Url) (y z : List Char) : Prop :=
  u.hasWww = false ∧ u.target = y ++ ("://".toList ++ ("www.".toList ++ z)) ∧
    Text.containsList "://www.".toList y = false

/-- The path and query lose nothing. -/
def LosesNone (u : Url) : Prop := ∀ y z, ¬ u.Loses y z

/-- **When the comparison keeps to the segments**, in the texts of the paths and queries. -/
structure KeepsSegments (p u : Url) : Prop where
  /-- Where nothing is lost, the prefix does not end inside a segment. -/
  none_lost : p.LosesNone → u.LosesNone → p.target <+: u.target → EndsSegment p.target u.target
  /-- Where the URL loses its first `www.` behind a `://`: up to there the prefix does not end
  inside a segment, and what of it is behind begins what follows the `www.` just when it begins the
  `www.` with what follows, and ends no segment. -/
  url_loses : p.LosesNone → ∀ y z, u.Loses y z →
    (p.target <+: y ++ "://".toList → EndsSegment p.target u.target) ∧
      ∀ e ≠ [], p.target = y ++ ("://".toList ++ e) →
        (e <+: z ↔ e <+: "www.".toList ++ z ∧ EndsSegment p.target u.target)
  /-- Where the prefix loses it: what follows there begins what is behind that `://` in the URL just
  when it does with the `www.`, and ends no segment. -/
  pre_loses : ∀ y z, p.Loses y z → u.LosesNone → ∀ d, u.target = y ++ ("://".toList ++ d) →
    (z <+: d ↔ "www.".toList ++ z <+: d ∧ EndsSegment p.target u.target)
  /-- Where both lose one: at the same place, the prefix does not end inside a segment; at different
  ones, what is left of it does not begin what is left of the URL. -/
  both_lose : ∀ y z y' z', p.Loses y z → u.Loses y' z' →
    (y = y' → z <+: z' → EndsSegment p.target u.target) ∧
      (y ≠ y' → ¬ y ++ ("://".toList ++ z) <+: y' ++ ("://".toList ++ z'))

end Url

/-- The `url` crate under the schemes `http` and `https`: there is a host, of characters that end it
nowhere, and an absolute path. -/
def Crates.HttpLaws (X : Crates) : Prop :=
  ∀ s u, X.parse s = some u → u.scheme = "http" ∨ u.scheme = "https" → u.IsHttp

namespace Url

/-- The port, written. -/
def portChars (u : Url) : List Char :=
  match u.port with
  | some p => ':' :: Nat.toDigits 10 p
  | none => []

/-- What the `url` crate can build under any scheme, as far as its text goes: the scheme is a word,
and a path behind a host is empty or absolute. -/
structure IsWellFormed (u : Url) : Prop where
  scheme : ':' ∉ u.scheme.toList
  host : ∀ host, u.host = some host → IsHost host.toList
  path : u.host.isSome = true → ∀ c ∈ u.path.toList.head?, c = '/'

theorem IsHttp.isWellFormed {u : Url} (hu : u.IsHttp) : u.IsWellFormed where
  scheme := by
    rcases hu.scheme with h | h
    all_goals
      rw [h]
      decide
  host host hhost := by
    obtain ⟨host', hhost', h⟩ := hu.host
    obtain rfl := Option.some.inj (hhost.symm.trans hhost')
    exact h
  path _ c hc := Option.some.inj (hc.symm.trans hu.path)

/-- Nothing is written that normalisation clears. -/
structure IsCleared (u : Url) : Prop where
  username : u.username = ""
  password : u.password = none
  fragment : u.fragment = none

/-- A URL that normalisation has cleared. -/
structure IsNormal (u : Url) : Prop extends u.IsHttp, u.IsCleared

variable {u p : Url}

/-- A cleared URL is written by its parts. -/
theorem toList_toString (hu : u.IsCleared) {host : String} (hhost : u.host = some host) :
    u.toString.toList =
      u.scheme.toList ++ ':' :: ("//".toList ++ (host.toList ++ (u.portChars ++ u.target))) := by
  obtain ⟨scheme, username, password, h, port, path, query, fragment⟩ := u
  obtain rfl : h = some host := hhost
  obtain rfl : username = "" := hu.username
  obtain rfl : password = none := hu.password
  obtain rfl : fragment = none := hu.fragment
  cases port with
  | none =>
    cases query with
    | none => simp [Url.toString, authority, portChars, target]
    | some q => simp [Url.toString, authority, portChars, target]
  | some p =>
    cases query with
    | none => simp [Url.toString, authority, portChars, target]
    | some q => simp [Url.toString, authority, portChars, target]

/-! ### Writing and reading the parts -/

theorem head_target (hu : u.IsHttp) : ∃ t, u.target = '/' :: t := by
  obtain ⟨rest, hrest⟩ : ∃ rest, u.path.toList = '/' :: rest := by
    have hhead := hu.path
    cases hpath : u.path.toList with
    | nil =>
      rw [hpath] at hhead
      cases hhead
    | cons c rest =>
      rw [hpath] at hhead
      exact ⟨rest, congrArg (· :: rest) (Option.some.inj hhead)⟩
  rw [target, hrest]
  exact ⟨_, rfl⟩

theorem head_shown (hu : u.IsHttp) : ∃ t, u.shown = '/' :: t := by
  obtain ⟨t, ht⟩ := head_target hu
  rw [shown]
  split
  · split
    · exact ⟨t, ht⟩
    · rw [ht]
      exact ⟨_, Text.replaceFirstList_append (a := ['/']) t (by decide)⟩
  · exact ⟨t, ht⟩

theorem slash_not_mem_append_portChars {host : List Char} (hhost : '/' ∉ host) :
    '/' ∉ host ++ u.portChars := by
  rw [portChars, List.mem_append]
  split
  case h_1 =>
    rw [List.mem_cons]
    rintro (h | h | h)
    · exact hhost h
    · cases h
    · exact Text.not_mem_toDigits (by decide) h
  case h_2 => exact fun h ↦ h.elim hhost List.not_mem_nil

/-- A written port ends neither in a colon nor in a bracket. -/
theorem getLast?_digits_ne {host : List Char} {n : ℕ} :
    (host ++ ':' :: Nat.toDigits 10 n).getLast? ≠ some ':' ∧
      (host ++ ':' :: Nat.toDigits 10 n).getLast? ≠ some ']' := by
  rw [List.getLast?_append_of_ne_nil _ (List.cons_ne_nil _ _),
    List.getLast?_cons_of_ne_nil Nat.toDigits_ne_nil]
  exact ⟨fun h ↦ Text.not_mem_toDigits (by decide) (List.mem_of_getLast? h),
    fun h ↦ Text.not_mem_toDigits (by decide) (List.mem_of_getLast? h)⟩

/-- The authority does not end in a colon, which could begin `://www.`. -/
theorem getLast?_append_portChars_ne {host : List Char}
    (hhost : ':' ∈ host → host.getLast? = some ']') :
    (host ++ u.portChars).getLast? ≠ some ':' := by
  rw [portChars]
  split
  case h_1 => exact getLast?_digits_ne.1
  case h_2 =>
    rw [List.append_nil]
    intro h
    rw [hhost (List.mem_of_getLast? h)] at h
    revert h
    decide

/-- What follows the host, if anything. -/
theorem head_portChars_append (hu : u.IsWellFormed) (hhost : u.host.isSome = true) :
    ∀ c ∈ (u.portChars ++ u.target).head?, c ∉ "www.".toList := by
  have hpath := hu.path hhost
  intro c hc
  rw [portChars, target] at hc
  split at hc
  case h_1 =>
    obtain rfl := Option.some.inj hc
    decide
  case h_2 =>
    cases htext : u.path.toList with
    | cons c' rest =>
      rw [htext] at hc hpath
      obtain rfl := Option.some.inj hc
      rw [hpath c' rfl]
      decide
    | nil =>
      rw [htext] at hc
      split at hc
      case h_1 =>
        obtain rfl := Option.some.inj hc
        decide
      case h_2 => cases hc

/-- `www.` is at the start of the host or nowhere near. -/
theorem www_prefix_append {host tail : List Char} (htail : ∀ c ∈ tail.head?, c ∉ "www.".toList) :
    "www.".toList <+: host ++ tail ↔ "www.".toList <+: host := by
  refine ⟨fun h ↦ ?_, fun h ↦ h.trans (List.prefix_append _ _)⟩
  rcases tail with - | ⟨c, tail⟩
  · rwa [List.append_nil] at h
  have hc := htail c rfl
  by_cases hlen : "www.".toList.length ≤ host.length
  · exact List.prefix_of_prefix_length_le h (List.prefix_append _ _) hlen
  · have happend : host ++ c :: tail = host ++ [c] ++ tail := by
      rw [List.append_assoc]
      rfl
    have hshort : host ++ [c] <+: "www.".toList := by
      refine List.prefix_of_prefix_length_le (happend ▸ List.prefix_append _ _) h ?_
      rw [List.length_append, List.length_singleton]
      omega
    exact absurd (hshort.subset (List.mem_append_right _ List.mem_cons_self)) hc

/-- **The replacement, by parts.** -/
theorem toList_stripLeadingWww (hu : u.IsWellFormed) (hcleared : u.IsCleared) {bare : List Char}
    (hbare : u.bareHost = some bare) :
    (stripLeadingWww u.toString).toList =
      u.scheme.toList ++ ':' :: ("//".toList ++ (bare ++ (u.portChars ++ u.shown))) := by
  obtain ⟨host, hhost, rfl⟩ := Option.map_eq_some_iff.1 hbare
  obtain ⟨hslash, hcolon⟩ := hu.host host hhost
  have hnext := head_portChars_append hu (hhost ▸ rfl)
  have hpattern : "://www.".toList = ':' :: '/' :: '/' :: "www.".toList := by decide
  rw [shown, hhost]
  dsimp only
  rw [stripLeadingWww, Text.replaceFirst, String.toList_ofList, toList_toString hcleared hhost,
    hpattern, Text.replaceFirstList_append _ hu.scheme]
  congr 1
  by_cases hwww : Text.startsWith host "www." = true
  · -- the first `://www.` is the one before the host
    have hstarts := Text.startsWith_iff.1 hwww
    have hstart : (':' :: '/' :: '/' :: "www.".toList).isPrefixOf
        (':' :: ("//".toList ++ (host.toList ++ (u.portChars ++ u.target)))) = true :=
      List.isPrefixOf_iff_prefix.2 (List.cons_prefix_cons.2 ⟨rfl, List.cons_prefix_cons.2 ⟨rfl,
        List.cons_prefix_cons.2 ⟨rfl, hstarts.trans (List.prefix_append _ _)⟩⟩⟩)
    rw [Text.replaceFirstList, hstart, if_pos rfl, if_pos hwww, if_pos hwww]
    show ':' :: '/' :: '/' :: (host.toList ++ _).drop 4 = _
    have hlen : 4 ≤ host.toList.length := hstarts.length_le
    rw [List.drop_append_of_le_length hlen]
    rfl
  · -- there is none up to the path: the authority has no slash and ends in no colon
    have hstart : (':' :: '/' :: '/' :: "www.".toList).isPrefixOf
        (':' :: ("//".toList ++ (host.toList ++ (u.portChars ++ u.target)))) = false := by
      refine Bool.eq_false_iff.2 fun h ↦ hwww (Text.startsWith_iff.2 ?_)
      have h₁ := (List.cons_prefix_cons.1 (List.isPrefixOf_iff_prefix.1 h)).2
      have h₂ := (List.cons_prefix_cons.1 (List.cons_prefix_cons.1 h₁).2).2
      exact (www_prefix_append hnext).1 h₂
    rw [Text.replaceFirstList, hstart, if_neg Bool.false_ne_true, if_neg hwww, if_neg hwww,
      Text.replaceFirstList_append _ (by decide), ← List.append_assoc host.toList,
      Text.replaceFirstList_append_of_not_mem _ (slash_not_mem_append_portChars hslash)
        (getLast?_append_portChars_ne hcolon), List.append_assoc]

/-- The host and the port are read back. -/
theorem append_portChars_inj {h h' : List Char} (hh : ':' ∈ h → h.getLast? = some ']')
    (hh' : ':' ∈ h' → h'.getLast? = some ']') :
    h ++ u.portChars = h' ++ p.portChars ↔ h = h' ∧ u.port = p.port := by
  -- a port is told by its digits
  have hmixed : ∀ {a b : List Char} {n : ℕ}, (':' ∈ a → a.getLast? = some ']') →
      a ≠ b ++ ':' :: Nat.toDigits 10 n := by
    rintro a b n ha rfl
    exact getLast?_digits_ne.2 (ha (List.mem_append_right _ List.mem_cons_self))
  rw [portChars, portChars]
  cases u.port with
  | none =>
    cases p.port with
    | none => simp
    | some n =>
      dsimp only
      rw [List.append_nil]
      exact ⟨fun he ↦ absurd he (hmixed hh), fun he ↦ by cases he.2⟩
  | some m =>
    cases p.port with
    | none =>
      dsimp only
      rw [List.append_nil]
      exact ⟨fun he ↦ absurd he.symm (hmixed hh'), fun he ↦ by cases he.2⟩
    | some n =>
      dsimp only
      constructor
      · intro he
        -- the last colon is the one before the digits
        have hrev := congrArg List.reverse he
        simp only [List.reverse_append, List.reverse_cons, List.append_assoc,
          List.singleton_append] at hrev
        have hcolon : ∀ k, ':' ∉ (Nat.toDigits 10 k).reverse := fun k hmem ↦
          Text.not_mem_toDigits (by decide) (List.mem_reverse.1 hmem)
        obtain ⟨hdigits, -⟩ := (Text.append_cons_prefix_iff (hcolon m) (hcolon n)).1
          ⟨[], (List.append_nil _).trans hrev⟩
        obtain rfl := Text.toDigits_injective (List.reverse_injective hdigits)
        exact ⟨List.append_cancel_right he, rfl⟩
      · rintro ⟨rfl, he⟩
        obtain rfl := Option.some.inj he
        rfl

theorem bareHost_isHost (hu : u.IsHttp) {bare : List Char} (h : u.bareHost = some bare) :
    IsHost bare := by
  obtain ⟨host, hhost, hslash, hcolon⟩ := hu.host
  rw [bareHost, hhost, Option.map_some, Option.some_inj] at h
  split at h
  case isFalse => exact h ▸ ⟨hslash, hcolon⟩
  case isTrue =>
    subst h
    refine ⟨fun hmem ↦ hslash (List.mem_of_mem_drop hmem), fun hmem ↦ ?_⟩
    rw [List.getLast?_drop]
    split
    case isTrue hlen =>
      rw [List.drop_eq_nil_of_le hlen] at hmem
      exact absurd hmem List.not_mem_nil
    case isFalse => exact hcolon (List.mem_of_mem_drop hmem)

/-- **The comparison, by parts.** -/
theorem startsWith_iff (hu : u.IsNormal) (hp : p.IsNormal) :
    Text.startsWith (stripLeadingWww u.toString) (stripLeadingWww p.toString) = true ↔
      SameOrigin p u ∧ p.shown <+: u.shown := by
  have hstrip : ∀ {w : Url}, w.IsNormal → ∃ b, w.bareHost = some b ∧
      (stripLeadingWww w.toString).toList =
        w.scheme.toList ++ ':' :: ("//".toList ++ (b ++ (w.portChars ++ w.shown))) := by
    intro w hw
    obtain ⟨host, hhost, -⟩ := hw.host
    obtain ⟨b, hbare⟩ : ∃ b, w.bareHost = some b := Option.isSome_iff_exists.1 (by
      rw [bareHost, hhost]
      rfl)
    exact ⟨b, hbare, toList_stripLeadingWww hw.isWellFormed hw.toIsCleared hbare⟩
  obtain ⟨bu, hbu, htu⟩ := hstrip hu
  obtain ⟨bp, hbp, htp⟩ := hstrip hp
  obtain ⟨su, hsu⟩ := head_shown hu.toIsHttp
  obtain ⟨sp, hsp⟩ := head_shown hp.toIsHttp
  have hauthority : ∀ {w : Url} {b : List Char}, w.IsNormal → w.bareHost = some b →
      '/' ∉ b ++ w.portChars := fun hw hb ↦
    slash_not_mem_append_portChars (bareHost_isHost hw.toIsHttp hb).1
  rw [Text.startsWith_iff, htu, htp,
    Text.append_cons_prefix_iff hp.isWellFormed.scheme hu.isWellFormed.scheme,
    List.prefix_append_right_inj, hsu, hsp,
    ← List.append_assoc, ← List.append_assoc,
    Text.append_cons_prefix_iff (hauthority hp hbp) (hauthority hu hbu),
    append_portChars_inj (bareHost_isHost hp.toIsHttp hbp).2 (bareHost_isHost hu.toIsHttp hbu).2,
    List.cons_prefix_cons, SameOrigin, hbu, hbp, Option.some_inj, String.toList_inj]
  exact ⟨fun h ↦ ⟨⟨h.1, h.2.1.2, h.2.1.1⟩, rfl, h.2.2⟩,
    fun h ↦ ⟨h.1.1, ⟨h.1.2.2, h.1.2.1⟩, h.2.2⟩⟩

/-! ### What is lost -/

/-- A path and query as the comparison reads it: where the host has no `www.` to lose, it is the
first one behind a `://` that is lost. -/
def reads (www : Bool) (t : List Char) : List Char :=
  if www then t else Text.replaceFirstList "://www.".toList "://".toList t

variable {www : Bool} {t y z y' z' : List Char}

theorem reads_true : reads true t = t := rfl

theorem reads_cases (t : List Char) : reads false t = t ∨ ∃ y z,
    t = y ++ ("://".toList ++ ("www.".toList ++ z)) ∧ reads false t = y ++ ("://".toList ++ z) ∧
      Text.containsList "://www.".toList y = false :=
  Text.replaceFirstList_cases ':' _ _ t

/-- No `://www.` begins inside another. -/
theorem not_isPrefixOf_append {x : Char}
    (h : "://www.".toList.isPrefixOf (x :: y) = false) :
    "://www.".toList.isPrefixOf (x :: y ++ ("://www.".toList ++ z)) = false := by
  refine Bool.eq_false_iff.2 fun hpre ↦ ?_
  rcases List.prefix_or_append_of_prefix (List.isPrefixOf_iff_prefix.1 hpre) with hin | ⟨e, he, hez⟩
  · rw [List.isPrefixOf_iff_prefix.2 hin] at h
    cases h
  · have hlen : (x :: y).length + e.length = "://www.".toList.length := by
      rw [he, List.length_append]
    have hborder : e <+: "://www.".toList :=
      List.prefix_of_prefix_length_le hez (List.prefix_append _ z) (by omega)
    have hdrop : e = "://www.".toList.drop (x :: y).length := by rw [he, List.drop_left]
    have hne : e ≠ [] := by
      rintro rfl
      rw [he, List.append_nil, List.isPrefixOf_iff_prefix.2 (List.prefix_refl _)] at h
      cases h
    have hpos := List.length_pos_iff.2 hne
    have hborders : ∀ i < 7, 0 < i →
        ¬ "://www.".toList.drop i <+: "://www.".toList := by decide
    have hseven : "://www.".toList.length = 7 := rfl
    exact hborders (x :: y).length (by omega) (by simp) (hdrop ▸ hborder)

/-- The first `www.` behind a `://` is lost. -/
theorem reads_append (hy : Text.containsList "://www.".toList y = false) :
    reads false (y ++ ("://".toList ++ ("www.".toList ++ z))) = y ++ ("://".toList ++ z) := by
  induction y with
  | nil => rfl
  | cons x y ih =>
    rw [Text.containsList, Bool.or_eq_false_iff] at hy
    have hno := not_isPrefixOf_append (z := z) hy.1
    rw [List.cons_append, List.cons_append, ← ih hy.2]
    show Text.replaceFirstList _ _ (x :: (y ++ ("://www.".toList ++ z))) = _
    rw [Text.replaceFirstList, if_neg (by rw [← List.cons_append, hno]; exact Bool.false_ne_true)]
    rfl

theorem shown_eq (hu : u.IsHttp) : u.shown = reads u.hasWww u.target := by
  obtain ⟨host, hhost, -⟩ := hu.host
  rw [shown, hasWww, hhost]
  rfl

/-- The first `://www.` of a text is in one place. -/
theorem eq_of_append_eq (hy : Text.containsList "://www.".toList y = false)
    (hy' : Text.containsList "://www.".toList y' = false)
    (h : y ++ ("://www.".toList ++ z) = y' ++ ("://www.".toList ++ z')) : y = y' := by
  have hstart : ∀ {x : Char} {l m m' : List Char},
      Text.containsList "://www.".toList (x :: l) = false →
        "://www.".toList ++ m ≠ x :: l ++ ("://www.".toList ++ m') := by
    intro x l m m' hno heq
    have hpre := not_isPrefixOf_append (z := m') (Bool.or_eq_false_iff.1 hno).1
    rw [← heq, List.isPrefixOf_iff_prefix.2 (List.prefix_append _ m)] at hpre
    cases hpre
  induction y generalizing y' with
  | nil =>
    cases y' with
    | nil => rfl
    | cons x' l' => exact absurd h (hstart hy')
  | cons x l ih =>
    cases y' with
    | nil => exact absurd h.symm (hstart hy)
    | cons x' l' =>
      obtain ⟨rfl, htail⟩ := List.cons.inj h
      rw [ih (Bool.or_eq_false_iff.1 hy).2 (Bool.or_eq_false_iff.1 hy').2 htail]

theorem Loses.shown_eq (hu : u.IsHttp) (h : u.Loses y z) : u.shown = y ++ ("://".toList ++ z) := by
  rw [Url.shown_eq hu, h.1, h.2.1, reads_append h.2.2]

theorem LosesNone.shown_eq (hu : u.IsHttp) (h : u.LosesNone) : u.shown = u.target := by
  rw [Url.shown_eq hu]
  cases hwww : u.hasWww with
  | true => rfl
  | false =>
    rcases reads_cases u.target with hsame | ⟨y, z, ht, -, hy⟩
    · exact hsame
    · exact absurd ⟨hwww, ht, hy⟩ (h y z)

/-- What is lost is in one place. -/
theorem Loses.unique (h : u.Loses y z) (h' : u.Loses y' z') : y = y' ∧ z = z' := by
  have heq := h.2.1.symm.trans h'.2.1
  obtain rfl := eq_of_append_eq h.2.2 h'.2.2 heq
  exact ⟨rfl, List.append_cancel_left (List.append_cancel_left (List.append_cancel_left heq))⟩

/-! ### Comparing by segments -/

/-- The comparison answers as the law does. -/
def ComparesAlike (p u : Url) : Prop :=
  p.shown <+: u.shown ↔ p.target <+: u.target ∧ EndsSegment p.target u.target

theorem comparesAlike_none_lost (hp : p.IsHttp) (hu : u.IsHttp) (hpn : p.LosesNone)
    (hun : u.LosesNone) :
    ComparesAlike p u ↔ (p.target <+: u.target → EndsSegment p.target u.target) := by
  rw [ComparesAlike, hpn.shown_eq hp, hun.shown_eq hu]
  exact ⟨fun h ht ↦ (h.1 ht).2, fun h ↦ ⟨fun ht ↦ ⟨ht, h ht⟩, And.left⟩⟩

theorem comparesAlike_url_loses (hp : p.IsHttp) (hu : u.IsHttp) (hpn : p.LosesNone)
    (hul : u.Loses y z) : ComparesAlike p u ↔
      (p.target <+: y ++ "://".toList → EndsSegment p.target u.target) ∧
        ∀ e ≠ [], p.target = y ++ ("://".toList ++ e) →
          (e <+: z ↔ e <+: "www.".toList ++ z ∧ EndsSegment p.target u.target) := by
  rw [ComparesAlike, hpn.shown_eq hp, hul.shown_eq hu]
  nth_rewrite 1 [hul.2.1]
  rw [← List.append_assoc y, ← List.append_assoc y]
  by_cases hshort : p.target <+: y ++ "://".toList
  · -- the prefix ends before anything is lost
    have hbegins : ∀ m, p.target <+: y ++ "://".toList ++ m := fun m ↦
      hshort.trans (List.prefix_append _ m)
    have hno : ∀ e ≠ [], p.target ≠ y ++ ("://".toList ++ e) := by
      intro e he heq
      have hlength := hshort.length_le
      have hpos := List.length_pos_iff.2 he
      rw [heq, ← List.append_assoc, @List.length_append _ _ e] at hlength
      omega
    exact ⟨fun h ↦ ⟨fun _ ↦ (h.1 (hbegins z)).2, fun e he heq ↦ absurd heq (hno e he)⟩,
      fun h ↦ ⟨fun _ ↦ ⟨hbegins _, h.1 hshort⟩, fun _ ↦ hbegins z⟩⟩
  · by_cases hlong : ∃ e, p.target = y ++ "://".toList ++ e
    · -- it ends behind, where the `www.` is lost
      obtain ⟨e, he⟩ := hlong
      have hne : e ≠ [] := by
        rintro rfl
        exact hshort (he ▸ (List.append_nil _).symm ▸ List.prefix_refl _)
      have hunique : ∀ e', p.target = y ++ ("://".toList ++ e') → e' = e := fun e' he' ↦
        List.append_cancel_left ((List.append_assoc ..).trans (he'.symm.trans he))
      have hcancel : ∀ m, p.target <+: y ++ "://".toList ++ m ↔ e <+: m := fun m ↦ by
        rw [he, List.prefix_append_right_inj]
      rw [hcancel, hcancel]
      constructor
      · exact fun h ↦ ⟨fun hs ↦ absurd hs hshort, fun e' _ he' ↦ hunique e' he' ▸ h⟩
      · exact fun h ↦ h.2 e hne (he.trans (List.append_assoc ..))
    · -- it goes another way
      have hnot : ∀ m, ¬ p.target <+: y ++ "://".toList ++ m := fun m hm ↦ by
        rcases List.prefix_or_append_of_prefix hm with hs | ⟨e, he, -⟩
        · exact hshort hs
        · exact hlong ⟨e, he⟩
      refine iff_of_true (iff_of_false (hnot z) fun h ↦ hnot _ h.1)
        ⟨fun hs ↦ absurd hs hshort, fun e _ he ↦ ?_⟩
      exact absurd ⟨e, he.trans (List.append_assoc ..).symm⟩ hlong

theorem comparesAlike_pre_loses (hp : p.IsHttp) (hu : u.IsHttp) (hpl : p.Loses y z)
    (hun : u.LosesNone) : ComparesAlike p u ↔ ∀ d, u.target = y ++ ("://".toList ++ d) →
      (z <+: d ↔ "www.".toList ++ z <+: d ∧ EndsSegment p.target u.target) := by
  rw [ComparesAlike, hpl.shown_eq hp, hun.shown_eq hu]
  nth_rewrite 1 [hpl.2.1]
  by_cases hlong : ∃ d, u.target = y ++ ("://".toList ++ d)
  · obtain ⟨d, hd⟩ := hlong
    have hunique : ∀ d', u.target = y ++ ("://".toList ++ d') → d' = d := fun d' hd' ↦
      List.append_cancel_left (List.append_cancel_left (hd'.symm.trans hd))
    have hcancel : ∀ m, y ++ ("://".toList ++ m) <+: u.target ↔ m <+: d := fun m ↦ by
      rw [hd, List.prefix_append_right_inj, List.prefix_append_right_inj]
    rw [hcancel, hcancel]
    exact ⟨fun h d' hd' ↦ hunique d' hd' ▸ h, fun h ↦ h d hd⟩
  · have hnot : ∀ m, ¬ y ++ ("://".toList ++ m) <+: u.target := by
      rintro m ⟨r, hr⟩
      rw [List.append_assoc, List.append_assoc] at hr
      exact hlong ⟨_, hr.symm⟩
    exact iff_of_true (iff_of_false (hnot z) fun h ↦ hnot _ h.1) fun d hd ↦ absurd ⟨d, hd⟩ hlong

theorem comparesAlike_both_lose (hp : p.IsHttp) (hu : u.IsHttp) (hpl : p.Loses y z)
    (hul : u.Loses y' z') : ComparesAlike p u ↔
      (y = y' → z <+: z' → EndsSegment p.target u.target) ∧
        (y ≠ y' → ¬ y ++ ("://".toList ++ z) <+: y' ++ ("://".toList ++ z')) := by
  rw [ComparesAlike, hpl.shown_eq hp, hul.shown_eq hu]
  by_cases hy : y = y'
  · subst hy
    have htarget : p.target <+: u.target ↔ z <+: z' := by
      rw [hpl.2.1, hul.2.1]
      simp only [List.prefix_append_right_inj]
    rw [htarget, List.prefix_append_right_inj, List.prefix_append_right_inj]
    exact ⟨fun h ↦ ⟨fun _ hz ↦ (h.1 hz).2, fun hne ↦ absurd rfl hne⟩,
      fun h ↦ ⟨fun hz ↦ ⟨hz, h.1 rfl hz⟩, And.left⟩⟩
  · have hno : ¬ p.target <+: u.target := by
      rintro ⟨r, hr⟩
      have heq : y ++ ("://www.".toList ++ (z ++ r)) = y' ++ ("://www.".toList ++ z') := by
        rw [hpl.2.1, hul.2.1] at hr
        simp only [List.append_assoc] at hr
        exact hr
      exact hy (eq_of_append_eq hpl.2.2 hul.2.2 heq)
    exact ⟨fun h ↦ ⟨fun he ↦ absurd he hy, fun _ hs ↦ hno (h.1 hs).1⟩,
      fun h ↦ iff_of_false (h.2 hy) fun ht ↦ hno ht.1⟩

/-- **The comparison answers as the law does** when it keeps to the segments. -/
theorem comparesAlike_iff (hp : p.IsHttp) (hu : u.IsHttp) :
    ComparesAlike p u ↔ KeepsSegments p u := by
  by_cases hpl : p.LosesNone
  · by_cases hul : u.LosesNone
    · rw [comparesAlike_none_lost hp hu hpl hul]
      exact ⟨fun h ↦ ⟨fun _ _ ↦ h, fun _ y z hl ↦ absurd hl (hul y z),
        fun y z hl ↦ absurd hl (hpl y z), fun y z _ _ hl ↦ absurd hl (hpl y z)⟩,
        fun h ↦ h.none_lost hpl hul⟩
    · obtain ⟨y, z, hloses⟩ : ∃ y z, u.Loses y z := by simpa [LosesNone] using hul
      rw [comparesAlike_url_loses hp hu hpl hloses]
      refine ⟨fun h ↦ ⟨fun _ hno ↦ absurd hno hul, fun _ y' z' hl ↦ ?_,
        fun y z hl ↦ absurd hl (hpl y z), fun y z _ _ hl ↦ absurd hl (hpl y z)⟩,
        fun h ↦ h.url_loses hpl y z hloses⟩
      obtain ⟨rfl, rfl⟩ := hloses.unique hl
      exact h
  · obtain ⟨y, z, hloses⟩ : ∃ y z, p.Loses y z := by simpa [LosesNone] using hpl
    by_cases hul : u.LosesNone
    · rw [comparesAlike_pre_loses hp hu hloses hul]
      refine ⟨fun h ↦ ⟨fun hno ↦ absurd hno hpl, fun hno ↦ absurd hno hpl, fun y' z' hl _ ↦ ?_,
        fun _ _ y z _ hl ↦ absurd hl (hul y z)⟩, fun h ↦ h.pre_loses y z hloses hul⟩
      obtain ⟨rfl, rfl⟩ := hloses.unique hl
      exact h
    · obtain ⟨y', z', hloses'⟩ : ∃ y z, u.Loses y z := by simpa [LosesNone] using hul
      rw [comparesAlike_both_lose hp hu hloses hloses']
      refine ⟨fun h ↦ ⟨fun hno ↦ absurd hno hpl, fun hno ↦ absurd hno hpl,
        fun _ _ _ hno ↦ absurd hno hul, fun y₁ z₁ y₁' z₁' hl hl' ↦ ?_⟩,
        fun h ↦ h.both_lose y z y' z' hloses hloses'⟩
      obtain ⟨rfl, rfl⟩ := hloses.unique hl
      obtain ⟨rfl, rfl⟩ := hloses'.unique hl'
      exact h

/-- Without `://www.` in a path or a query, what goes wrong is a prefix that ends inside a
segment. -/
theorem keepsSegments_iff_of_plain (hpu : p.IsHttp) (huu : u.IsHttp)
    (hp : Text.containsList "://www.".toList p.target = false)
    (hu : Text.containsList "://www.".toList u.target = false) :
    KeepsSegments p u ↔ (p.target <+: u.target → EndsSegment p.target u.target) := by
  have hnone : ∀ {w : Url}, Text.containsList "://www.".toList w.target = false → w.LosesNone := by
    rintro w hw y z ⟨-, ht, -⟩
    have hcontains := Text.containsList_append "://www.".toList (y := y) (z := z)
    rw [ht] at hw
    exact Bool.noConfusion (hcontains.symm.trans hw)
  rw [← comparesAlike_iff hpu huu, comparesAlike_none_lost hpu huu (hnone hp) (hnone hu)]

end Url

/-! ### The law -/

variable {X : Crates}

theorem Url.normalize_isNormal (hX : X.HttpLaws) {s : String} {u : Url} (hs : X.parse s = some u)
    (hu : u.scheme = "http" ∨ u.scheme = "https") : (u.normalize X).IsNormal := by
  have h := hX s u hs hu
  rw [Url.normalize_eq_of_not_isOpaque X h.not_isOpaque]
  exact ⟨⟨h.scheme, h.host, h.path⟩, ⟨rfl, rfl, rfl⟩⟩

/-- **What `is_in_prefix` compares**: the origins, and the paths and queries as they are shown. -/
theorem isInPrefix_iff (hX : X.HttpLaws) {s s' : String} {u p : Url} (hs : X.parse s = some u)
    (hs' : X.parse s' = some p) (hu : u.scheme = "http" ∨ u.scheme = "https")
    (hp : p.scheme = "http" ∨ p.scheme = "https") :
    isInPrefix X s s' = true ↔
      Url.SameOrigin (p.normalize X) (u.normalize X) ∧
        (p.normalize X).shown <+: (u.normalize X).shown := by
  rw [isInPrefix, normalizeUrl, normalizeUrl, hs, hs', Option.map_some, Option.map_some]
  exact Url.startsWith_iff (Url.normalize_isNormal hX hs hu) (Url.normalize_isNormal hX hs' hp)

/-- **When `is_in_prefix` is the prefix law**: between origins that differ always, otherwise just
when the comparison of the paths and queries keeps to the segments. -/
theorem isInPrefix_admits_iff (hX : X.HttpLaws) {s s' : String} {u p : Url}
    (hs : X.parse s = some u) (hs' : X.parse s' = some p)
    (hu : u.scheme = "http" ∨ u.scheme = "https") (hp : p.scheme = "http" ∨ p.scheme = "https") :
    (isInPrefix X s s' = true ↔ Url.Admits (p.normalize X) (u.normalize X)) ↔
      (Url.SameOrigin (p.normalize X) (u.normalize X) →
        Url.KeepsSegments (p.normalize X) (u.normalize X)) := by
  rw [isInPrefix_iff hX hs hs' hu hp, Url.Admits, and_congr_right_iff]
  exact imp_congr_right fun _ ↦ Url.comparesAlike_iff (Url.normalize_isNormal hX hs' hp).toIsHttp
    (Url.normalize_isNormal hX hs hu).toIsHttp

namespace Blog

/-- A page of the site. -/
def page (path : String) : Url :=
  ⟨"https", "", none, some "example.com", none, path, none, none⟩

def crates : Crates :=
  Crates.ofTables ⟨[("https://example.com/blog", page "/blog"),
    ("https://example.com/blog/x", page "/blog/x"),
    ("https://example.com/blogger", page "/blogger")], [], [], [], []⟩

theorem httpLaws : crates.HttpLaws := by
  have hpage : ∀ path : String, path.toList.head? = some '/' → (page path).IsHttp := fun _ hpath ↦
    ⟨.inr rfl, ⟨_, rfl, by decide, by decide⟩, hpath⟩
  intro s u hs _
  have hs : List.lookup s _ = some u := hs
  simp only [List.lookup_cons, List.lookup_nil] at hs
  split at hs
  · exact Option.some.inj hs ▸ hpage _ (by decide)
  · split at hs
    · exact Option.some.inj hs ▸ hpage _ (by decide)
    · split at hs
      · exact Option.some.inj hs ▸ hpage _ (by decide)
      · cases hs

theorem isInPrefix_admits_blog :
    (isInPrefix crates "https://example.com/blog/x" "https://example.com/blog" = true ↔
        Url.Admits ((page "/blog").normalize crates) ((page "/blog/x").normalize crates)) ↔
      (Url.SameOrigin ((page "/blog").normalize crates) ((page "/blog/x").normalize crates) →
        Url.KeepsSegments ((page "/blog").normalize crates) ((page "/blog/x").normalize crates)) :=
  isInPrefix_admits_iff httpLaws (by decide) (by decide) (.inr rfl) (.inr rfl)

/-- **A prefix admits the sibling whose name begins with its own.** -/
theorem isInPrefix_blogger :
    crates.parse "https://example.com/blogger" = some (page "/blogger") ∧
      crates.parse "https://example.com/blog" = some (page "/blog") ∧
      isInPrefix crates "https://example.com/blogger" "https://example.com/blog" = true ∧
      ¬ Url.Admits ((page "/blog").normalize crates) ((page "/blogger").normalize crates) := by
  refine ⟨by decide, by decide, by decide, fun h ↦ ?_⟩
  rcases h.2.2 with h | h | h | h
  all_goals
    revert h
    decide

end Blog

end CommunitySearch
