import CommunitySearch.Api.RateLimit
import CommunitySearch.Foundation.Machine
import Mathlib.Data.List.Perm.Basic

/-!
# The runtime configuration

The configuration an administrator may change while the engine runs is kept in three places: in
memory, in the configuration of the rate limiter, and as a JSON text in the database, which a start
of the process reads back. `put_config` writes them one after the other, each under a lock of its
own, so that requests overtake one another: what the second has written, the first then overwrites
(`Overtaken`).

`agrees_of_guarded` says that the three agree once no request is under way, if no request writes
what is out of date after the last one has written what is current. `settles_iff_guarded` says that
this is what it takes.
-/

namespace CommunitySearch

/-- `RuntimeConfig`. -/
structure RuntimeConfig where
  fanoutDepth : Option UInt32
  searchRateLimitPerMinute : Option UInt32
  crawlDefaultRecrawlIntervalSecs : Option UInt64
  crawlPolitenessDelayMs : Option UInt64
  maxConcurrentCrawls : Option UInt32
deriving DecidableEq

/-- `RuntimeConfig::default`. -/
def RuntimeConfig.default : RuntimeConfig := ⟨none, none, none, none, none⟩

/-- The body of a request; the fields that are absent are left unchanged. -/
structure PutConfigBody where
  fanoutDepth : Option UInt32
  searchRateLimitPerMinute : Option UInt32
  crawlDefaultRecrawlIntervalSecs : Option UInt64
  crawlPolitenessDelayMs : Option UInt64
  maxConcurrentCrawls : Option UInt32

/-- The first section of `put_config`. -/
def RuntimeConfig.patch (cfg : RuntimeConfig) (body : PutConfigBody) : RuntimeConfig where
  fanoutDepth := body.fanoutDepth.or cfg.fanoutDepth
  searchRateLimitPerMinute := body.searchRateLimitPerMinute.or cfg.searchRateLimitPerMinute
  crawlDefaultRecrawlIntervalSecs :=
    body.crawlDefaultRecrawlIntervalSecs.or cfg.crawlDefaultRecrawlIntervalSecs
  crawlPolitenessDelayMs := body.crawlPolitenessDelayMs.or cfg.crawlPolitenessDelayMs
  maxConcurrentCrawls := body.maxConcurrentCrawls.or cfg.maxConcurrentCrawls

/-- The limiter a process starts with. -/
def RuntimeConfig.rateLimits (cfg : RuntimeConfig) : RateLimitConfig :=
  match cfg.searchRateLimitPerMinute with
  | some limit => { RateLimitConfig.default with limit := limit }
  | none => .default

/-- A request between two of its sections. -/
inductive PutRequest where
  /-- Before the second section, which sets the limit. -/
  | limiting (snapshot : RuntimeConfig) (limit : UInt32)
  /-- Before the last section, which writes the snapshot to the database. -/
  | persisting (snapshot : RuntimeConfig)
deriving DecidableEq

/-- What the first section has read. -/
def PutRequest.snapshot : PutRequest → RuntimeConfig
  | limiting snapshot _ => snapshot
  | persisting snapshot => snapshot

/-- The limit that is still to be set. -/
def PutRequest.limit : PutRequest → Option UInt32
  | limiting _ limit => some limit
  | persisting _ => none

/-- The three stores, and the requests under way. -/
structure ConfigStores where
  runtimeConfig : RuntimeConfig
  rateLimitConfig : RateLimitConfig
  /-- What the text under the key `runtime_config` of `app_config` parses to. -/
  appConfig : Option RuntimeConfig
  requests : List PutRequest
deriving DecidableEq

/-- What can happen. -/
inductive ConfigLabel where
  /-- A request patches the configuration in memory. -/
  | put (body : PutConfigBody)
  | limit (k : ℕ)
  /-- The last section; it may fail. -/
  | persist (k : ℕ) (fails : Bool)
  | restart

namespace ConfigStores

/-- The process starts. -/
def start (appConfig : Option RuntimeConfig) : ConfigStores where
  runtimeConfig := appConfig.getD .default
  rateLimitConfig := (appConfig.getD .default).rateLimits
  appConfig := appConfig
  requests := []

/-- The first section. -/
def put (s : ConfigStores) (body : PutConfigBody) : ConfigStores :=
  let snapshot := s.runtimeConfig.patch body
  let request := match body.searchRateLimitPerMinute with
    | some limit => PutRequest.limiting snapshot limit
    | none => .persisting snapshot
  { s with runtimeConfig := snapshot, requests := s.requests ++ [request] }

def machine : Machine ConfigStores ConfigLabel where
  step s
    | .put body => some (s.put body)
    | .limit k =>
      match s.requests[k]? with
      | some (.limiting snapshot limit) =>
        some { s with
          rateLimitConfig := { s.rateLimitConfig with limit := limit }
          requests := s.requests.set k (.persisting snapshot) }
      | _ => none
    | .persist k fails =>
      match s.requests[k]? with
      | some (.persisting snapshot) =>
        some { s with
          appConfig := if fails then s.appConfig else some snapshot
          requests := s.requests.eraseIdx k }
      | _ => none
    | .restart => some (start s.appConfig)

/-- What a start would load. -/
def saved (s : ConfigStores) : RuntimeConfig := s.appConfig.getD .default

/-- **Agreement** of the three stores. -/
structure Agrees (s : ConfigStores) : Prop where
  saved : s.saved = s.runtimeConfig
  limits : s.rateLimitConfig = s.runtimeConfig.rateLimits

/-- The stores agree, or a request that has still to write would have them agree. -/
structure Settles (s : ConfigStores) : Prop where
  saved : s.saved = s.runtimeConfig ∨ ∃ r ∈ s.requests, r.snapshot = s.runtimeConfig
  limits : s.rateLimitConfig = s.runtimeConfig.rateLimits ∨
    ∃ r ∈ s.requests, r.limit ≠ none ∧ r.limit = s.runtimeConfig.searchRateLimitPerMinute

/-- The step writes what is current, or a request that has it has still to write. -/
def InOrder (s : ConfigStores) : ConfigLabel → Prop
  | .limit k =>
    (s.requests[k]?).bind PutRequest.limit = s.runtimeConfig.searchRateLimitPerMinute ∨
      ∃ r ∈ s.requests.eraseIdx k,
        r.limit ≠ none ∧ r.limit = s.runtimeConfig.searchRateLimitPerMinute
  | .persist k fails =>
    (if fails then some s.saved else (s.requests[k]?).map PutRequest.snapshot) =
        some s.runtimeConfig ∨
      ∃ r ∈ s.requests.eraseIdx k, r.snapshot = s.runtimeConfig
  | _ => True

instance (s : ConfigStores) : (l : ConfigLabel) → Decidable (s.InOrder l)
  | .put _ => isTrue trivial
  | .limit _ => instDecidableOr
  | .persist _ _ => instDecidableOr
  | .restart => isTrue trivial

/-- What holds in every run: only the limit of the limiter changes, and a limit to be set has been
patched. -/
structure Sound (s : ConfigStores) : Prop where
  limiter : ∃ limit, s.rateLimitConfig = { RateLimitConfig.default with limit := limit }
  patched : ∀ r ∈ s.requests, r.limit ≠ none → s.runtimeConfig.searchRateLimitPerMinute ≠ none

variable {s s' : ConfigStores} {l : ConfigLabel} {appConfig : Option RuntimeConfig}

theorem agrees_start (appConfig : Option RuntimeConfig) : (start appConfig).Agrees := ⟨rfl, rfl⟩

theorem Agrees.settles (h : s.Agrees) : s.Settles := ⟨Or.inl h.saved, Or.inl h.limits⟩

/-- Where no request is under way, to settle is to agree. -/
theorem Settles.agrees (h : s.Settles) (hdone : s.requests = []) : s.Agrees := by
  have hnone : ∀ r, r ∉ s.requests := fun r hr ↦ by
    rw [hdone] at hr
    cases hr
  constructor
  · exact h.saved.resolve_right fun ⟨r, hr, _⟩ ↦ hnone r hr
  · exact h.limits.resolve_right fun ⟨r, hr, _⟩ ↦ hnone r hr

/-- A restart changes nothing when the stores agree. -/
theorem Agrees.start_eq (h : s.Agrees) (hdone : s.requests = []) : start s.appConfig = s := by
  have hsaved : s.appConfig.getD .default = s.runtimeConfig := h.saved
  rw [start, hsaved, ← h.limits, ← hdone]

theorem sound_start (appConfig : Option RuntimeConfig) : (start appConfig).Sound := by
  refine ⟨?_, fun r hr ↦ absurd hr List.not_mem_nil⟩
  show ∃ limit, (appConfig.getD .default).rateLimits = _
  rw [RuntimeConfig.rateLimits]
  split
  case h_1 limit _ => exact ⟨limit, rfl⟩
  case h_2 => exact ⟨_, rfl⟩

/-! ### One step -/

theorem rateLimits_of_eq {cfg : RuntimeConfig} {limit : UInt32}
    (h : cfg.searchRateLimitPerMinute = some limit) :
    cfg.rateLimits = { RateLimitConfig.default with limit := limit } := by
  rw [RuntimeConfig.rateLimits, h]

theorem rateLimits_congr {cfg cfg' : RuntimeConfig}
    (h : cfg.searchRateLimitPerMinute = cfg'.searchRateLimitPerMinute) :
    cfg.rateLimits = cfg'.rateLimits := by
  rw [RuntimeConfig.rateLimits, RuntimeConfig.rateLimits, h]

/-- The request `put` adds, and what it does to the configuration. -/
theorem put_eq (body : PutConfigBody) : ∃ r, s.put body =
      { s with runtimeConfig := s.runtimeConfig.patch body, requests := s.requests ++ [r] } ∧
    r.snapshot = s.runtimeConfig.patch body ∧ r.limit = body.searchRateLimitPerMinute := by
  rw [put]
  cases body.searchRateLimitPerMinute with
  | none => exact ⟨_, rfl, rfl, rfl⟩
  | some limit => exact ⟨_, rfl, rfl, rfl⟩

theorem Sound.put (hs : s.Sound) (body : PutConfigBody) : (s.put body).Sound := by
  obtain ⟨r, hput, -, hlimit⟩ := put_eq (s := s) body
  rw [hput]
  refine ⟨hs.limiter, fun r' hr' hne ↦ ?_⟩
  show body.searchRateLimitPerMinute.or s.runtimeConfig.searchRateLimitPerMinute ≠ none
  intro hnone
  obtain ⟨hbody, hold⟩ := Option.or_eq_none_iff.1 hnone
  rcases List.mem_append.1 hr' with hr' | hr'
  · exact hs.patched r' hr' hne hold
  · obtain rfl := List.mem_singleton.1 hr'
    exact hne (hlimit.trans hbody)

/-- **A new request** has what is current. -/
theorem Settles.put (hs : s.Settles) (body : PutConfigBody) : (s.put body).Settles := by
  obtain ⟨r, hput, hsnapshot, hlimit⟩ := put_eq (s := s) body
  rw [hput]
  have hr : r ∈ s.requests ++ [r] := List.mem_append_right _ (List.mem_singleton_self r)
  refine ⟨Or.inr ⟨r, hr, hsnapshot⟩, ?_⟩
  show s.rateLimitConfig = (s.runtimeConfig.patch body).rateLimits ∨ ∃ r' ∈ s.requests ++ [r],
    r'.limit ≠ none ∧
      r'.limit = body.searchRateLimitPerMinute.or s.runtimeConfig.searchRateLimitPerMinute
  cases hbody : body.searchRateLimitPerMinute with
  | some limit =>
    rw [hbody] at hlimit
    exact Or.inr ⟨r, hr, hlimit ▸ Option.some_ne_none limit, hlimit⟩
  | none =>
    have hsame : (s.runtimeConfig.patch body).rateLimits = s.runtimeConfig.rateLimits :=
      rateLimits_congr (by rw [RuntimeConfig.patch, hbody, Option.none_or])
    rw [hsame, Option.none_or]
    refine hs.limits.imp_right fun ⟨r', hr', hlimit'⟩ ↦ ⟨r', ?_, hlimit'⟩
    exact List.mem_append_left _ hr'

variable {k : ℕ} {snapshot : RuntimeConfig} {limit : UInt32}

/-- The limiter after the second section of a request. -/
def limited (s : ConfigStores) (k : ℕ) (snapshot : RuntimeConfig) (limit : UInt32) :
    ConfigStores :=
  { s with
    rateLimitConfig := { s.rateLimitConfig with limit := limit }
    requests := s.requests.set k (.persisting snapshot) }

theorem mem_requests {r r' : PutRequest} (hk : s.requests[k]? = some r) :
    r' ∈ s.requests ↔ r' = r ∨ r' ∈ s.requests.eraseIdx k := by
  obtain ⟨hlt, rfl⟩ := List.getElem?_eq_some_iff.1 hk
  rw [← (List.getElem_cons_eraseIdx_perm hlt).mem_iff, List.mem_cons]

/-- The requests after the second section of one of them. -/
theorem mem_limited {r : PutRequest} (hk : s.requests[k]? = some (.limiting snapshot limit)) :
    r ∈ (s.limited k snapshot limit).requests ↔
      r = .persisting snapshot ∨ r ∈ s.requests.eraseIdx k := by
  obtain ⟨hlt, -⟩ := List.getElem?_eq_some_iff.1 hk
  show r ∈ s.requests.set k (.persisting snapshot) ↔ _
  rw [(List.set_perm_cons_eraseIdx hlt _).mem_iff, List.mem_cons]

theorem Sound.limited (hs : s.Sound) (hk : s.requests[k]? = some (.limiting snapshot limit)) :
    (s.limited k snapshot limit).Sound := by
  obtain ⟨old, hold⟩ := hs.limiter
  refine ⟨⟨limit, ?_⟩, fun r hr hne ↦ ?_⟩
  · show { s.rateLimitConfig with limit := limit } = _
    rw [hold]
  · rcases (mem_limited hk).1 hr with rfl | hr
    · exact absurd rfl hne
    · exact hs.patched r (List.mem_of_mem_eraseIdx hr) hne

/-- **A limit is set in order**, or what is current is lost. -/
theorem settles_limited_iff (hsound : s.Sound) (hs : s.Settles)
    (hk : s.requests[k]? = some (.limiting snapshot limit)) :
    (s.limited k snapshot limit).Settles ↔ s.InOrder (.limit k) := by
  obtain ⟨old, hold⟩ := hsound.limiter
  have hlimiter : (s.limited k snapshot limit).rateLimitConfig =
      { RateLimitConfig.default with limit := limit } := by
    show { s.rateLimitConfig with limit := limit } = _
    rw [hold]
  obtain ⟨current, hcurrent⟩ := Option.ne_none_iff_exists'.1
    (hsound.patched _ (List.mem_of_getElem? hk) (Option.some_ne_none limit))
  have hlimits : (s.limited k snapshot limit).rateLimitConfig = s.runtimeConfig.rateLimits ↔
      some limit = s.runtimeConfig.searchRateLimitPerMinute := by
    rw [hlimiter, rateLimits_of_eq hcurrent, hcurrent, Option.some.injEq]
    exact ⟨congrArg RateLimitConfig.limit, fun h ↦ h ▸ rfl⟩
  have hbind : (s.requests[k]?).bind PutRequest.limit = some limit := by
    rw [hk]
    rfl
  constructor
  · intro h
    rcases h.limits with heq | ⟨r, hr, hne, heq⟩
    · exact Or.inl (hbind.trans (hlimits.1 heq))
    · rcases (mem_limited hk).1 hr with rfl | hr
      · exact absurd rfl hne
      · exact Or.inr ⟨r, hr, hne, heq⟩
  · intro h
    constructor
    · refine hs.saved.imp_right fun ⟨r, hr, heq⟩ ↦ ?_
      rcases (mem_requests hk).1 hr with rfl | hr
      · exact ⟨_, (mem_limited hk).2 (Or.inl rfl), heq⟩
      · exact ⟨r, (mem_limited hk).2 (Or.inr hr), heq⟩
    · rcases h with heq | ⟨r, hr, hlimit⟩
      · exact Or.inl (hlimits.2 (hbind.symm.trans heq))
      · exact Or.inr ⟨r, (mem_limited hk).2 (Or.inr hr), hlimit⟩

/-- The stores after the last section of a request. -/
def persisted (s : ConfigStores) (k : ℕ) (snapshot : RuntimeConfig) (fails : Bool) :
    ConfigStores :=
  { s with
    appConfig := if fails then s.appConfig else some snapshot
    requests := s.requests.eraseIdx k }

theorem Sound.persisted (hs : s.Sound) (fails : Bool) : (s.persisted k snapshot fails).Sound :=
  ⟨hs.limiter, fun r hr ↦ hs.patched r (List.mem_of_mem_eraseIdx hr)⟩

/-- **A snapshot is written in order**, or what is current is lost. -/
theorem settles_persisted_iff (hs : s.Settles) (hk : s.requests[k]? = some (.persisting snapshot))
    {fails : Bool} : (s.persisted k snapshot fails).Settles ↔ s.InOrder (.persist k fails) := by
  have hsaved : (s.persisted k snapshot fails).saved = s.runtimeConfig ↔
      (if fails then some s.saved else (s.requests[k]?).map PutRequest.snapshot) =
        some s.runtimeConfig := by
    rw [hk]
    cases fails with
    | true => exact Option.some_inj.symm
    | false => exact Option.some_inj.symm
  constructor
  · exact fun h ↦ h.saved.imp_left hsaved.1
  · intro h
    refine ⟨h.imp_left hsaved.2, hs.limits.imp_right fun ⟨r, hr, hne, heq⟩ ↦ ?_⟩
    rcases (mem_requests hk).1 hr with rfl | hr
    · exact absurd rfl hne
    · exact ⟨r, hr, hne, heq⟩

theorem limit_eq_some (h : machine.step s (.limit k) = some s') :
    ∃ snapshot limit, s.requests[k]? = some (.limiting snapshot limit) ∧
      s' = s.limited k snapshot limit := by
  simp only [machine] at h
  split at h
  case h_1 snapshot limit hk => exact ⟨snapshot, limit, hk, (Option.some.inj h).symm⟩
  case h_2 => cases h

theorem persist_eq_some {fails : Bool} (h : machine.step s (.persist k fails) = some s') :
    ∃ snapshot, s.requests[k]? = some (.persisting snapshot) ∧
      s' = s.persisted k snapshot fails := by
  simp only [machine] at h
  split at h
  case h_1 snapshot hk => exact ⟨snapshot, hk, (Option.some.inj h).symm⟩
  case h_2 => cases h

/-- **A step** that is in order, and any other. -/
theorem settles_step_iff (hsound : s.Sound) (hs : s.Settles) (h : machine.step s l = some s') :
    s'.Sound ∧ (s'.Settles ↔ s.InOrder l) := by
  cases l with
  | put body =>
    obtain rfl := Option.some.inj h
    exact ⟨hsound.put body, iff_of_true (hs.put body) trivial⟩
  | limit k =>
    obtain ⟨snapshot, limit, hk, rfl⟩ := limit_eq_some h
    exact ⟨hsound.limited hk, settles_limited_iff hsound hs hk⟩
  | persist k fails =>
    obtain ⟨snapshot, hk, rfl⟩ := persist_eq_some h
    exact ⟨hsound.persisted fails, settles_persisted_iff hs hk⟩
  | restart =>
    obtain rfl := Option.some.inj h
    exact ⟨sound_start _, iff_of_true (agrees_start _).settles trivial⟩

/-! ### Every run -/

/-- **What it takes** for the stores to settle all along. -/
theorem settles_iff_guarded (appConfig : Option RuntimeConfig) {ls : List ConfigLabel}
    (hrun : machine.run (start appConfig) ls = some s) :
    (∀ l₁ l₂ t, ls = l₁ ++ l₂ → machine.run (start appConfig) l₁ = some t → t.Settles) ↔
      machine.Guarded InOrder (start appConfig) ls := by
  refine Machine.forall_prefix_iff_guarded (B := fun _ _ ↦ True) (P := Settles)
    (I := fun s ↦ s.Sound ∧ s.Settles) (fun _ hs ↦ hs.2)
    (fun s l s' hs _ hl h ↦ ?_) (fun s l s' hs _ hl h hs' ↦ ?_)
    ⟨sound_start appConfig, (agrees_start appConfig).settles⟩ (Machine.guarded_true _ _) hrun
  · obtain ⟨hsound, hiff⟩ := settles_step_iff hs.1 hs.2 h
    exact ⟨hsound, hiff.2 hl⟩
  · obtain ⟨-, hiff⟩ := settles_step_iff hs.1 hs.2 h
    exact hl (hiff.1 hs')

/-- **Agreement of the configuration**: after every run in order, from any row of the database, the
three stores agree once no request is under way, and a restart changes none of them. -/
theorem agrees_of_guarded (appConfig : Option RuntimeConfig) {ls : List ConfigLabel}
    (hguarded : machine.Guarded InOrder (start appConfig) ls)
    (hrun : machine.run (start appConfig) ls = some s) (hdone : s.requests = []) :
    s.Agrees ∧ start s.appConfig = s := by
  have hsettles := (settles_iff_guarded appConfig hrun).2 hguarded ls [] s
    (List.append_nil ls).symm hrun
  have hagrees := hsettles.agrees hdone
  exact ⟨hagrees, hagrees.start_eq hdone⟩

/-! ### A request that is overtaken -/

namespace Overtaken

/-- A request for another limit. -/
def body (limit : UInt32) : PutConfigBody := ⟨none, some limit, none, none, none⟩

/-- The second request is patched last, and is through before the first goes on. -/
def overtaking : List ConfigLabel :=
  [.put (body 10), .put (body 20), .limit 1, .persist 1 false, .limit 0, .persist 0 false]

/-- The limit 20 is in memory only; the limiter and the database have 10. -/
theorem not_agrees : ∃ s, machine.run (start none) overtaking = some s ∧ s.requests = [] ∧
    ¬ s.Agrees := by
  have hany : (machine.run (start none) overtaking).any
      (fun s ↦ s.requests = [] ∧ s.saved ≠ s.runtimeConfig) = true := by decide +kernel
  obtain ⟨s, hs, h⟩ := Machine.exists_run_of_any hany
  obtain ⟨hdone, hne⟩ := of_decide_eq_true h
  exact ⟨s, hs, hdone, fun hagrees ↦ hne hagrees.saved⟩

/-- The two requests overlap, and keep their order. -/
def ordered : List ConfigLabel :=
  [.put (body 10), .put (body 20), .limit 0, .limit 1, .persist 0 false, .persist 0 false]

theorem agrees_of_guarded_ordered : ∃ s, machine.run (start none) ordered = some s ∧
    s.Agrees ∧ start s.appConfig = s := by
  have hany : (machine.run (start none) ordered).any (fun s ↦ s.requests = []) = true := by
    decide +kernel
  obtain ⟨s, hs, hdone⟩ := Machine.exists_run_of_any hany
  exact ⟨s, hs, agrees_of_guarded none (by decide +kernel) hs (of_decide_eq_true hdone)⟩

end Overtaken

end ConfigStores

end CommunitySearch
