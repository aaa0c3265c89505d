import CommunitySearch.Api.Auth
import CommunitySearch.Crawler.Url
import CommunitySearch.Foundation.Keyed
import Mathlib.Data.List.DropRight
import Mathlib.Data.List.OfFn

/-!
# The admin token from the start of a process to a request

`ensure_admin_token` takes the token from the environment, else from `app_config`, else it draws
one, and stores what it did not find there; from then on every process of the installation checks
requests against it (`Server.Keeps.after`). On the way back the token crosses a header: it must be
text that `to_str` reads (`Crates.ToStrLaw`), and `extract_bearer` trims it. So a token comes back
from its own header exactly when it is `Presentable` (`isAuthorized_bearer_iff`). A token that is
drawn always is; what is configured or stored is only known not to be empty.
-/

namespace Text

/-- Nothing is trimmed of a text that neither begins nor ends with white space. -/
theorem trim_eq_self_iff {s : String} : trim s = s ↔
    (∀ c ∈ s.toList.head?, isWhitespace c = false) ∧
      ∀ c ∈ s.toList.getLast?, isWhitespace c = false := by
  have htrim : trim s = .ofList ((s.toList.dropWhile isWhitespace).rdropWhile isWhitespace) := rfl
  have hhead : s.toList.dropWhile isWhitespace = s.toList ↔
      ∀ c ∈ s.toList.head?, isWhitespace c = false := by
    rcases s.toList with - | ⟨c, l⟩
    · simp
    · simp [List.dropWhile_eq_self_iff]
  have hlast : s.toList.rdropWhile isWhitespace = s.toList ↔
      ∀ c ∈ s.toList.getLast?, isWhitespace c = false := by
    rw [List.rdropWhile_eq_self_iff]
    constructor
    · intro h c hc
      obtain ⟨hne, rfl⟩ := List.mem_getLast?_eq_getLast hc
      exact Bool.eq_false_iff.2 (h hne)
    · intro h hne
      exact Bool.eq_false_iff.1 (h _ (List.getLast_mem_getLast? hne))
  rw [htrim, ← String.toList_inj, String.toList_ofList, ← hhead, ← hlast]
  constructor
  · intro h
    have hdrop : s.toList.dropWhile isWhitespace = s.toList := by
      refine (List.dropWhile_suffix _).eq_of_length_le ?_
      rw [← congrArg List.length h]
      exact (List.rdropWhile_prefix _ _).length_le
    rw [hdrop] at h
    exact ⟨hdrop, h⟩
  · rintro ⟨hdrop, hrdrop⟩
    rw [hdrop, hrdrop]

end Text

namespace CommunitySearch

/-! ### The token of a process -/

/-- A row of `app_config`. -/
structure AppConfigRow where
  key : String
  value : Option String
deriving DecidableEq

/-- The rows of `app_config`. -/
abbrev AppConfig := KeyTable AppConfigRow.key

def ADMIN_TOKEN_KEY : String := "admin_token"

def RUNTIME_CONFIG_KEY : String := "runtime_config"

def TOKEN_LEN : Nat := 48

namespace AppConfig

/-- `fetch_token`. -/
def fetchToken (db : AppConfig) : Option String :=
  (KeyTable.find db ADMIN_TOKEN_KEY).bind AppConfigRow.value

/-- `upsert_token`. -/
def upsertToken (db : AppConfig) (token : String) : AppConfig :=
  KeyTable.put db ⟨ADMIN_TOKEN_KEY, some token⟩

/-- The stored token, unless that is empty. -/
def storedToken (db : AppConfig) : Option String :=
  db.fetchToken.filter fun existing ↦ !existing.isEmpty

end AppConfig

/-- The characters that `Alphanumeric` draws from. -/
abbrev Alphanumeric := {c : Char // c.isAlphanum = true}

/-- A fresh token, from the characters that are drawn. -/
def sampleToken (draws : Fin TOKEN_LEN → Alphanumeric) : String :=
  .ofList (List.ofFn fun i ↦ (draws i).1)

/-- `ensure_admin_token`. -/
def ensureAdminToken (db : AppConfig) (envOverride : Option String)
    (draws : Fin TOKEN_LEN → Alphanumeric) : AppConfig × String :=
  match envOverride with
  | some tok => (db.upsertToken tok, tok)
  | none =>
    match db.storedToken with
    | some existing => (db, existing)
    | none =>
      let token := sampleToken draws
      (db.upsertToken token, token)

/-- The `admin_token` of the configuration, from `COMMUNITY_SEARCH_ADMIN_TOKEN` when that is set
to text. -/
def adminTokenFromEnv (var : Option String) : Option String := var.filter fun s ↦ !s.isEmpty

/-- A process, with the database it runs on. -/
structure Server where
  appConfig : AppConfig
  adminToken : String

/-- What can happen after a process has started. -/
inductive ServerEvent where
  /-- The runtime configuration is saved, in the same table. -/
  | saveConfig (json : String)
  /-- A process starts without an override. -/
  | restart (draws : Fin TOKEN_LEN → Alphanumeric)

namespace Server

/-- A process starts. -/
def start (db : AppConfig) (envOverride : Option String)
    (draws : Fin TOKEN_LEN → Alphanumeric) : Server :=
  let r := ensureAdminToken db envOverride draws
  ⟨r.1, r.2⟩

def step (s : Server) : ServerEvent → Server
  | .saveConfig json =>
    { s with appConfig := KeyTable.put s.appConfig ⟨RUNTIME_CONFIG_KEY, some json⟩ }
  | .restart draws => start s.appConfig none draws

/-- The process that runs after these events. -/
def after (s : Server) (es : List ServerEvent) : Server := es.foldl step s

end Server

/-- The token a process is to have: the configured one, else the stored one, else a fresh one. -/
def issuedToken (db : AppConfig) (var : Option String) (draws : Fin TOKEN_LEN → Alphanumeric) :
    String :=
  ((adminTokenFromEnv var).or db.storedToken).getD (sampleToken draws)

/-- The bytes of the header value `Bearer <token>`. -/
def bearer (tok : String) : List UInt8 := bytes "Bearer " ++ bytes tok

/-- **The claim of a token**: from now on its header is accepted, and no other token. -/
structure TokenRoundTrip (X : Crates) (s : Server) (tok : String) : Prop where
  accepted : ∀ es headers, HeaderMap.get headers "authorization" = some (X.toStr (bearer tok)) →
    isAuthorized (s.after es).adminToken headers = true
  only : ∀ es headers, isAuthorized (s.after es).adminToken headers = true →
    presentedToken headers = some tok

/-- Visible ASCII, spaces and tabs, and no white space at the ends. -/
structure Presentable (tok : String) : Prop where
  visible : tok.toList.all isVisible = true
  head : ∀ c ∈ tok.toList.head?, Text.isWhitespace c = false
  last : ∀ c ∈ tok.toList.getLast?, Text.isWhitespace c = false

/-! ### Through the header -/

theorem bytes_eq (s : String) : bytes s = s.toList.flatMap String.utf8EncodeChar := by
  rw [bytes, String.toUTF8_eq_toByteArray, ← String.utf8Encode_toList, List.utf8Encode]
  simp

theorem bytes_injective {s t : String} (h : bytes s = bytes t) : s = t := by
  rw [bytes, bytes, Array.toList_inj] at h
  exact String.toByteArray_inj.1 (ByteArray.ext h)

/-- An ASCII character is one byte. -/
theorem map_utf8EncodeChar {c : Char} (h : c.toNat < 128) :
    (String.utf8EncodeChar c).map Char.ofUInt8 = [c] := by
  have hsize : c.utf8Size = 1 :=
    Char.utf8Size_eq_one_iff.2 (UInt32.le_iff_toNat_le.2 (Nat.le_of_lt_succ h))
  rw [String.utf8EncodeChar_eq_singleton hsize, List.map_singleton, List.singleton_inj]
  refine Char.toNat_inj.1 ?_
  show c.val.toUInt8.toUInt32.toNat = c.toNat
  rw [UInt8.toNat_toUInt32, UInt32.toNat_toUInt8]
  exact Nat.mod_eq_of_lt (Nat.lt_trans h (by decide))

/-- Any other character has a byte that is not ASCII, its last. -/
theorem exists_mem_utf8EncodeChar {c : Char} (h : 128 ≤ c.toNat) :
    ∃ b ∈ String.utf8EncodeChar c, 128 ≤ b.toNat := by
  have hlast : 128 ≤ (UInt8.ofNat (c.toNat % 64 + 128)).toNat := by
    rw [UInt8.toNat_ofNat', Nat.mod_eq_of_lt (by omega)]
    omega
  refine ⟨UInt8.ofNat (c.toNat % 64 + 128), ?_, hlast⟩
  fun_cases String.utf8EncodeChar c with
  | case1 v hv => exact absurd h (Nat.not_le.2 (Nat.lt_succ_of_le hv))
  | case2 => exact List.mem_cons_of_mem _ List.mem_cons_self
  | case3 => exact List.mem_cons_of_mem _ (List.mem_cons_of_mem _ List.mem_cons_self)
  | case4 =>
    exact List.mem_cons_of_mem _ (List.mem_cons_of_mem _ (List.mem_cons_of_mem _
      List.mem_cons_self))

theorem toNat_lt_of_isVisible {c : Char} (h : isVisible c = true) : c.toNat < 128 := by
  rcases Bool.or_eq_true_iff.1 h with htab | hprint
  · rw [beq_iff_eq.1 htab]
    decide
  · have hlt := of_decide_eq_true (Bool.and_eq_true_iff.1 hprint).2
    omega

/-- Visible text is one byte for each character. -/
theorem map_bytes {tok : String} (h : tok.toList.all isVisible = true) :
    (bytes tok).map Char.ofUInt8 = tok.toList := by
  rw [bytes_eq, List.map_flatMap]
  calc tok.toList.flatMap (fun c ↦ (String.utf8EncodeChar c).map Char.ofUInt8)
      = tok.toList.flatMap (fun c ↦ [c]) := List.flatMap_congr fun c hc ↦
        map_utf8EncodeChar (toNat_lt_of_isVisible (List.all_eq_true.1 h c hc))
    _ = tok.toList := List.flatMap_singleton' _

/-- Text with any other character has a byte that is not visible. -/
theorem all_isVisible_map_bytes (tok : String) :
    ((bytes tok).map Char.ofUInt8).all isVisible = tok.toList.all isVisible := by
  refine Bool.eq_iff_iff.2 ⟨fun h ↦ List.all_eq_true.2 fun c hc ↦ ?_, fun h ↦ ?_⟩
  · have hbytes : ∀ b ∈ String.utf8EncodeChar c, isVisible (Char.ofUInt8 b) = true := by
      intro b hb
      refine List.all_eq_true.1 h _ (List.mem_map_of_mem ?_)
      rw [bytes_eq]
      exact List.mem_flatMap.2 ⟨c, hc, hb⟩
    by_cases hascii : c.toNat < 128
    · have hmem : c ∈ (String.utf8EncodeChar c).map Char.ofUInt8 := by
        rw [map_utf8EncodeChar hascii]
        exact List.mem_singleton_self c
      obtain ⟨b, hb, rfl⟩ := List.mem_map.1 hmem
      exact hbytes b hb
    · obtain ⟨b, hb, hlt⟩ := exists_mem_utf8EncodeChar (Nat.not_lt.1 hascii)
      exact absurd (toNat_lt_of_isVisible (hbytes b hb)) (Nat.not_lt.2 hlt)
  · rw [map_bytes h]
    exact h

theorem map_bearer (tok : String) :
    (bearer tok).map Char.ofUInt8 = "Bearer ".toList ++ (bytes tok).map Char.ofUInt8 := by
  rw [bearer, List.map_append, map_bytes (by decide)]

theorem visibleText_bearer (tok : String) : visibleText (bearer tok) =
    if tok.toList.all isVisible = true then some (.ofList ("Bearer ".toList ++ tok.toList))
    else none := by
  have hscheme : "Bearer ".toList.all isVisible = true := by decide
  have hall : ((bearer tok).map Char.ofUInt8).all isVisible = tok.toList.all isVisible := by
    rw [map_bearer, List.all_append, all_isVisible_map_bytes, hscheme, Bool.true_and]
  rw [visibleText, hall]
  by_cases h : tok.toList.all isVisible = true
  · rw [if_pos h, if_pos h, map_bearer, map_bytes h]
  · rw [if_neg h, if_neg h]

theorem extractBearer_bearer (l : List Char) : extractBearer (.ofList ("Bearer ".toList ++ l)) =
    if (Text.trim (.ofList l)).isEmpty = true then none else some (Text.trim (.ofList l)) := by
  have htake : ("Bearer ".toList ++ l).takeWhile (· != ' ') = "Bearer".toList := rfl
  have hdrop : ("Bearer ".toList ++ l).dropWhile (· != ' ') = ' ' :: l := rfl
  have hscheme : Text.eqIgnoreAsciiCase (.ofList "Bearer".toList) "bearer" = true := by decide
  rw [extractBearer, String.toList_ofList, htake, hdrop]
  dsimp only
  rw [if_pos hscheme]

/-- **The token in its own header** is accepted when it is presentable, and only then. -/
theorem isAuthorized_bearer_iff {X : Crates} (hX : X.ToStrLaw) {tok : String} (htok : tok ≠ "")
    {headers : HeaderMap} (h : headers.get "authorization" = some (X.toStr (bearer tok))) :
    isAuthorized tok headers = true ↔ Presentable tok := by
  have hpresentable : Presentable tok ↔ tok.toList.all isVisible = true ∧ Text.trim tok = tok := by
    rw [Text.trim_eq_self_iff]
    exact ⟨fun h ↦ ⟨h.visible, h.head, h.last⟩, fun ⟨hv, hh, hl⟩ ↦ ⟨hv, hh, hl⟩⟩
  rw [hpresentable, isAuthorized, presentedToken, h, Option.join_some, hX, visibleText_bearer]
  split
  case isTrue hvisible =>
    rw [and_iff_right hvisible, Option.bind_some, extractBearer_bearer, String.ofList_toList]
    split
    case isTrue hempty =>
      rw [String.isEmpty_iff.1 hempty]
      exact iff_of_false Bool.false_ne_true (Ne.symm htok)
    case isFalse =>
      exact constantTimeEq_iff.trans ⟨bytes_injective, congrArg bytes⟩
  case isFalse hvisible => exact iff_of_false Bool.false_ne_true fun h ↦ hvisible h.1

/-- What is accepted is the token. -/
theorem presentedToken_of_isAuthorized {tok : String} {headers : HeaderMap}
    (h : isAuthorized tok headers = true) : presentedToken headers = some tok := by
  rw [isAuthorized] at h
  rcases hpresented : presentedToken headers with - | presented
  · rw [hpresented] at h
    cases h
  · rw [hpresented] at h
    exact congrArg some (bytes_injective (constantTimeEq_iff.1 h))

/-! ### From process to process -/

section Keeps

variable {s : Server} {tok : String} {db : AppConfig} {var : Option String}
  {draws : Fin TOKEN_LEN → Alphanumeric}

theorem fetchToken_put (db : AppConfig) (key value : String) :
    AppConfig.fetchToken (KeyTable.put db ⟨key, some value⟩) =
      if key = ADMIN_TOKEN_KEY then some value else db.fetchToken := by
  rw [AppConfig.fetchToken, KeyTable.find_put]
  split <;> rfl

theorem storedToken_put (db : AppConfig) (key value : String) (hkey : key ≠ ADMIN_TOKEN_KEY) :
    AppConfig.storedToken (KeyTable.put db ⟨key, some value⟩) = db.storedToken := by
  rw [AppConfig.storedToken, fetchToken_put, if_neg hkey]
  rfl

theorem storedToken_upsertToken (db : AppConfig) (htok : tok ≠ "") :
    (db.upsertToken tok).storedToken = some tok := by
  rw [AppConfig.storedToken, AppConfig.upsertToken, fetchToken_put, if_pos rfl, Option.filter,
    if_pos]
  rwa [Bool.not_eq_true', ← Bool.not_eq_true, String.isEmpty_iff]

theorem ne_empty_of_adminTokenFromEnv (h : adminTokenFromEnv var = some tok) : tok ≠ "" := by
  have hne := (Option.filter_eq_some_iff.1 h).2
  rwa [Bool.not_eq_true', ← Bool.not_eq_true, String.isEmpty_iff] at hne

theorem ne_empty_of_storedToken (h : db.storedToken = some tok) : tok ≠ "" :=
  ne_empty_of_adminTokenFromEnv h

theorem sampleToken_ne_empty (draws : Fin TOKEN_LEN → Alphanumeric) : sampleToken draws ≠ "" :=
  fun h ↦ by
    have hlength := congrArg (fun s : String ↦ s.toList.length) h
    rw [sampleToken, String.toList_ofList, List.length_ofFn] at hlength
    exact absurd hlength (by decide)

/-- The process checks requests against this token, and has it stored. -/
structure Server.Keeps (s : Server) (tok : String) : Prop where
  adminToken : s.adminToken = tok
  stored : s.appConfig.storedToken = some tok

/-- A process starts with the token it is to have, and stores it. -/
theorem Server.keeps_start (db : AppConfig) (var : Option String)
    (draws : Fin TOKEN_LEN → Alphanumeric) :
    (Server.start db (adminTokenFromEnv var) draws).Keeps (issuedToken db var draws) := by
  rw [Server.start, issuedToken]
  rcases henv : adminTokenFromEnv var with - | tok
  · rw [Option.none_or]
    rcases hstored : db.storedToken with - | tok
    · rw [ensureAdminToken, hstored]
      exact ⟨rfl, storedToken_upsertToken db (sampleToken_ne_empty draws)⟩
    · rw [ensureAdminToken, hstored]
      exact ⟨rfl, hstored⟩
  · exact ⟨rfl, storedToken_upsertToken db (ne_empty_of_adminTokenFromEnv henv)⟩

theorem Server.Keeps.step (h : s.Keeps tok) (e : ServerEvent) : (s.step e).Keeps tok := by
  cases e with
  | saveConfig json =>
    refine ⟨h.adminToken, ?_⟩
    rw [← h.stored]
    exact storedToken_put s.appConfig RUNTIME_CONFIG_KEY json (by decide)
  | restart draws =>
    have hstart := Server.keeps_start s.appConfig none draws
    rwa [issuedToken, h.stored] at hstart

/-- **A token lasts**: every later process has it. -/
theorem Server.Keeps.after (h : s.Keeps tok) (es : List ServerEvent) : (s.after es).Keeps tok := by
  induction es generalizing s with
  | nil => exact h
  | cons e es ih => exact ih (h.step e)

theorem toNat_of_isAlphanum {c : Char} (h : c.isAlphanum = true) :
    48 ≤ c.toNat ∧ c.toNat ≤ 122 := by
  have hrange : ∀ a b : UInt32, a ≤ c.val → c.val ≤ b → 48 ≤ a.toNat → b.toNat ≤ 122 →
      48 ≤ c.toNat ∧ c.toNat ≤ 122 := fun a b ha hb hlow hhigh ↦
    ⟨Nat.le_trans hlow (UInt32.le_iff_toNat_le.1 ha),
      Nat.le_trans (UInt32.le_iff_toNat_le.1 hb) hhigh⟩
  rcases Bool.or_eq_true_iff.1 h with halpha | hdigit
  · rcases Bool.or_eq_true_iff.1 halpha with hupper | hlower
    · obtain ⟨ha, hb⟩ := of_decide_eq_true hupper
      exact hrange _ _ ha hb (by decide) (by decide)
    · obtain ⟨ha, hb⟩ := Bool.and_eq_true_iff.1 hlower
      exact hrange _ _ (of_decide_eq_true ha) (of_decide_eq_true hb) (by decide) (by decide)
  · obtain ⟨ha, hb⟩ := Bool.and_eq_true_iff.1 hdigit
    exact hrange _ _ (of_decide_eq_true ha) (of_decide_eq_true hb) (by decide) (by decide)

theorem isVisible_of_isAlphanum {c : Char} (h : c.isAlphanum = true) : isVisible c = true := by
  obtain ⟨hle, hge⟩ := toNat_of_isAlphanum h
  refine Bool.or_eq_true_iff.2 (Or.inr (Bool.and_eq_true_iff.2 ⟨?_, ?_⟩))
  · exact decide_eq_true (by omega)
  · exact decide_eq_true (by omega)

theorem isWhitespace_of_isAlphanum {c : Char} (h : c.isAlphanum = true) :
    Text.isWhitespace c = false := by
  obtain ⟨hle, hge⟩ := toNat_of_isAlphanum h
  simp only [Text.isWhitespace, Bool.or_eq_false_iff, Bool.and_eq_false_iff, beq_eq_false_iff_ne,
    decide_eq_false_iff_not]
  omega

/-- A fresh token is letters and digits. -/
theorem presentable_sampleToken (draws : Fin TOKEN_LEN → Alphanumeric) :
    Presentable (sampleToken draws) := by
  have halnum : ∀ c ∈ (sampleToken draws).toList, c.isAlphanum = true := fun c hc ↦ by
    rw [sampleToken, String.toList_ofList] at hc
    obtain ⟨i, rfl⟩ := List.mem_ofFn.1 hc
    exact (draws i).2
  exact ⟨List.all_eq_true.2 fun c hc ↦ isVisible_of_isAlphanum (halnum c hc),
    fun c hc ↦ isWhitespace_of_isAlphanum (halnum c (List.mem_of_mem_head? hc)),
    fun c hc ↦ isWhitespace_of_isAlphanum (halnum c (List.mem_of_mem_getLast? hc))⟩

/-- **The admin token** comes back from its header, in this process and in every later one, when
what was configured or stored is presentable, and only then. -/
theorem adminToken_exact (X : Crates) (hX : X.ToStrLaw) (db : AppConfig) (var : Option String)
    (draws : Fin TOKEN_LEN → Alphanumeric) :
    TokenRoundTrip X (.start db (adminTokenFromEnv var) draws) (issuedToken db var draws) ↔
      ∀ tok, (adminTokenFromEnv var).or db.storedToken = some tok → Presentable tok := by
  have hkeeps := Server.keeps_start db var draws
  have hexact : TokenRoundTrip X (.start db (adminTokenFromEnv var) draws)
      (issuedToken db var draws) ↔ Presentable (issuedToken db var draws) := by
    constructor
    · intro h
      have haccepted := h.accepted []
        [("authorization", X.toStr (bearer (issuedToken db var draws)))] rfl
      rw [(hkeeps.after []).adminToken] at haccepted
      exact (isAuthorized_bearer_iff hX (ne_empty_of_storedToken hkeeps.stored) rfl).1 haccepted
    · refine fun h ↦ ⟨fun es headers hheader ↦ ?_, fun es headers hauthorized ↦ ?_⟩
      · rw [(hkeeps.after es).adminToken]
        exact (isAuthorized_bearer_iff hX (ne_empty_of_storedToken hkeeps.stored) hheader).2 h
      · rw [(hkeeps.after es).adminToken] at hauthorized
        exact presentedToken_of_isAuthorized hauthorized
  rw [hexact, issuedToken]
  rcases hissued : (adminTokenFromEnv var).or db.storedToken with - | tok
  · exact iff_of_true (presentable_sampleToken draws) nofun
  · exact ⟨fun h tok' htok' ↦ Option.some.inj htok' ▸ h, fun h ↦ h tok rfl⟩

/-- A space inside a token does no harm. -/
theorem adminToken_exact_configured : TokenRoundTrip (.ofTables ⟨[], [], [], [], []⟩)
    (.start .empty (adminTokenFromEnv (some "a b")) fun _ ↦ ⟨'a', rfl⟩)
    (issuedToken .empty (some "a b") fun _ ↦ ⟨'a', rfl⟩) :=
  (adminToken_exact _ (Crates.toStrLaw_ofTables _) .empty (some "a b") fun _ ↦ ⟨'a', rfl⟩).2
    fun tok htok ↦ by
      obtain rfl : "a b" = tok := Option.some.inj htok
      refine ⟨by decide, fun c hc ↦ ?_, fun c hc ↦ ?_⟩
      · obtain rfl : 'a' = c := Option.some.inj hc
        decide
      · obtain rfl : 'b' = c := Option.some.inj hc
        decide

/-- A token with a space in front is configured, and locks everyone out. -/
theorem not_adminToken : ¬ ∀ (X : Crates) (db : AppConfig) (tok : String)
    (draws : Fin TOKEN_LEN → Alphanumeric), X.ToStrLaw → tok ≠ "" →
      TokenRoundTrip X (.start db (adminTokenFromEnv (some tok)) draws) tok := fun h ↦ by
  have hlaw := Crates.toStrLaw_ofTables ⟨[], [], [], [], []⟩
  have haccepted := (h _ Table.empty " a" (fun _ ↦ ⟨'a', rfl⟩) hlaw (by decide)).accepted []
    [("authorization", some "Bearer  a")] (by decide)
  exact absurd haccepted (by decide)

end Keeps

end CommunitySearch
