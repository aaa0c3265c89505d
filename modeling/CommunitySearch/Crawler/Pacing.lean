import CommunitySearch.Crawler.LoopHistory
import CommunitySearch.Crawler.RobotsObedience

/-!
# How a crawl paces itself

A page makes its first request to the host of its URL, and further ones only by following
redirects, at once (`wp_crawlPage_paces`). Between two pages the loop sleeps: the effective delay,
which is at least the configured one, or after a 429 the back-off (`feed_paces`).
-/

namespace CommunitySearch

open Prog

variable (X : Crates)

/-! ### The requests of a page -/

/-- Where a page stands with its requests. -/
inductive PageStage where
  /-- Nothing has been requested. -/
  | before
  /-- A redirect is being followed. -/
  | hop (next : Url)
  /-- The last request has been answered. -/
  | after
deriving DecidableEq

/-- The stage of a page and the number of its redirects, after one more event. -/
def PageStage.advance (w : PageStage × ℕ) : CrawlEvent → PageStage × ℕ
  | ⟨.request .page target _ _, .redirect status location⟩ =>
    match if w.2 < MAX_REDIRECTS then X.redirectTarget target status location else none with
    | some next => (.hop next, w.2 + 1)
    | none => (.after, w.2 + 1)
  | ⟨.request .page .., .response _⟩ => (.after, w.2)
  | ⟨.request .page .., .failed⟩ => (.after, w.2)
  | _ => w

/-- The stage of a page after its events. -/
def pageStage (events : List CrawlEvent) : PageStage × ℕ :=
  events.foldl (PageStage.advance X) (.before, 0)

/-- What a page may do at a stage: request its own URL first, follow a redirect at once, and request
nothing after that. -/
def PageStage.Allows (url : String) (w : PageStage × ℕ) : CrawlOp → Prop
  | .request .page target _ _ =>
    match w.1 with
    | .before => X.parse url = some target
    | .hop next => target = next
    | .after => False
  | _ => ∀ next, w.1 ≠ .hop next

variable {X}

theorem PageStage.before_ne_hop (next : Url) : before ≠ .hop next := by
  intro h
  cases h

theorem PageStage.after_ne_hop (next : Url) : after ≠ .hop next := by
  intro h
  cases h

/-- An operation that is not a page request leaves the stage alone. -/
theorem PageStage.advance_of_not_request {o : CrawlOp} (ho : ¬ o.IsRequest .page) (r : o.Resp)
    (w : PageStage × ℕ) : PageStage.advance X w ⟨o, r⟩ = w := by
  cases o with
  | request kind =>
    cases kind with
    | page => exact absurd rfl ho
    | sitemap => rfl
  | _ => rfl

theorem PageStage.allows_of_not_request {o : CrawlOp} (ho : ¬ o.IsRequest .page) {url : String}
    {w : PageStage × ℕ} (hw : ∀ next, w.1 ≠ .hop next) : PageStage.Allows X url w o := by
  cases o with
  | request kind =>
    cases kind with
    | page => exact absurd rfl ho
    | sitemap => exact hw
  | _ => exact hw

/-- A part of a page that makes no request. -/
theorem wp_paces_of_performs {α : Type} {S : CrawlOp → Prop} {p : Crawl α} {url : String}
    {w : PageStage × ℕ} (hp : Performs S p) (hS : ∀ o, S o → ¬ o.IsRequest .page)
    (hw : ∀ next, w.1 ≠ .hop next) :
    wp (fun w o r w' ↦ w' = PageStage.advance X w ⟨o, r⟩) (PageStage.Allows X url)
      (fun _ w' ↦ w' = w) p w := by
  refine hp.wp (I := fun w' ↦ w' = w) ?_ ?_ rfl
  · rintro _ o rfl ho
    exact PageStage.allows_of_not_request (hS o ho) hw
  · rintro _ o r _ rfl ho rfl
    exact PageStage.advance_of_not_request (hS o ho) r _

theorem CrawlOp.IsRobots.not_isRequest {o : CrawlOp} (h : o.IsRobots) : ¬ o.IsRequest .page := by
  cases o with
  | request => exact h.elim
  | _ => exact id

theorem CrawlOp.Records.not_isRequest {ctx : PageContext} {o : CrawlOp} (h : o.Records ctx) :
    ¬ o.IsRequest .page := by
  cases o with
  | request => exact h.elim
  | _ => exact id

/-- Redirects are followed at once, and after them nothing is requested. -/
theorem wp_follow_paces {url : String} {v : Validators} {hops n : ℕ} {stage : PageStage}
    (hn : n + hops = MAX_REDIRECTS) {current : Url} {spelled : String}
    (h : PageStage.Allows X url (stage, n) (.request .page current spelled v)) :
    wp (fun w o r w' ↦ w' = PageStage.advance X w ⟨o, r⟩) (PageStage.Allows X url)
      (fun _ w' ↦ w'.1 = .after) (follow X .page v hops current spelled) (stage, n) := by
  induction hops generalizing n stage current spelled with
  | zero =>
    refine ⟨h, ?_⟩
    rintro answer _ rfl
    cases answer with
    | failed => rfl
    | response r => rfl
    | redirect status location =>
      have hlast : ¬ n < MAX_REDIRECTS := by omega
      have hstage : (PageStage.advance X (stage, n)
          ⟨.request .page current spelled v, .redirect status location⟩).1 = .after := by
        simp only [PageStage.advance, if_neg hlast]
      dsimp only
      split
      all_goals exact hstage
  | succ hops ih =>
    refine ⟨h, ?_⟩
    rintro answer _ rfl
    cases answer with
    | failed => rfl
    | response r => rfl
    | redirect status location =>
      have hmore : n < MAX_REDIRECTS := by omega
      dsimp only
      split
      case h_1 hjoin => simp only [PageStage.advance, if_pos hmore, hjoin, wp_ret]
      case h_2 next hjoin =>
        simp only [PageStage.advance, if_pos hmore, hjoin]
        exact ih (by omega) rfl

/-- **The requests of a page**: its own URL, and then what the redirects lead to. -/
theorem wp_crawlPage_paces (fetcher : Fetcher) (ctx : PageContext) (now : Int) (url : String) :
    wp (fun w o r w' ↦ w' = PageStage.advance X w ⟨o, r⟩) (PageStage.Allows X url)
      (fun _ _ ↦ True) (crawlPage X fetcher ctx now url) (.before, 0) := by
  refine wp_attempt.2 (wp_mono ?_ (wp_paces_of_performs (performs_isAllowed url)
    (fun _ ↦ CrawlOp.IsRobots.not_isRequest) PageStage.before_ne_hop))
  rintro r _ rfl
  cases r with
  | error err => trivial
  | ok allowed =>
    dsimp only
    split
    · trivial
    · refine ⟨PageStage.before_ne_hop, ?_⟩
      rintro row _ rfl
      cases row with
      | none => trivial
      | some prior =>
        refine wp_attempt.2 ?_
        rw [fetch]
        split
        case isFalse => trivial
        case isTrue =>
          -- nothing is requested once the answer is there
          have hhandle : ∀ outcome (w : PageStage × ℕ), w.1 = .after →
              wp (fun w o r w' ↦ w' = PageStage.advance X w ⟨o, r⟩) (PageStage.Allows X url)
                (fun _ _ ↦ True) (handleOutcome X ctx url now prior outcome) w :=
            fun outcome w hw ↦ wp_mono (fun _ _ _ ↦ trivial)
              (wp_paces_of_performs (performs_handleOutcome ctx url now prior outcome)
                (fun _ ↦ CrawlOp.Records.not_isRequest)
                fun next h ↦ PageStage.after_ne_hop next (hw.symm.trans h))
          refine wp_bind.2 ?_
          rw [clientGet]
          split
          case h_1 => trivial
          case h_2 u hu =>
            refine wp_mono (fun res w hw ↦ ?_) (wp_follow_paces rfl hu)
            cases res with
            | none => trivial
            | some res =>
              refine wp_ret.2 ?_
              split
              · exact hhandle _ w hw
              · trivial

/-! ### The requests of a run -/

/-- What is left of a page keeps to the stage it is in. -/
def CrawlRun.KeepsStage (X : Crates) (run : CrawlRun) : Prop :=
  run.PageMeets (fun _ _ ↦ True) (fun url events ↦ PageStage.Allows X url (pageStage X events))
    (fun _ _ _ ↦ True)

theorem CrawlRun.keepsStage_start (fetcher : Fetcher) (ctx : PageContext) (config : DriverConfig)
    (now : Int) : (CrawlRun.start X fetcher ctx config now).KeepsStage X :=
  CrawlRun.pageMeets_start _ _ _ _

theorem CrawlRun.KeepsStage.step {e e' : Engine} {run run' : CrawlRun} {l : CrawlLabel}
    (hI : run.KeepsStage X) (h : run.step X e l = some (e', run')) : run'.KeepsStage X :=
  PageMeets.step (fun _ ↦ wp_mono (fun _ _ _ ↦ trivial)
    (wp_history_of_foldl (wp_crawlPage_paces _ _ _ _))) (fun _ _ _ _ _ _ _ _ _ _ ↦ trivial) hI h

/-- **What a run requests**: the URL of its page, or what a redirect of it leads to. -/
theorem CrawlRun.KeepsStage.requested {run : CrawlRun} {target : Url} (hI : run.KeepsStage X)
    (hprelude : run.Preluding) (h : run.requested = some target) :
    ∃ d url p events, run.phase = .crawling d url p events ∧
      ((pageStage X events).1 = .before ∧ X.parse url = some target ∨
        (pageStage X events).1 = .hop target) := by
  obtain ⟨spelled, v, hop⟩ := CrawlRun.requested_eq_some h
  obtain hpre | ⟨d, url, k, events, hp⟩ := hprelude.of_nextOp hop
  · cases hpre
  · refine ⟨d, url, _, events, hp, ?_⟩
    have hallows := PageMeets.nextOp hI hp
    unfold PageStage.Allows at hallows
    dsimp only at hallows
    split at hallows
    case h_1 hstage => exact Or.inl ⟨hstage, hallows⟩
    case h_2 hstage => exact Or.inr (hallows ▸ hstage)
    case h_3 => exact hallows.elim

/-- **How a page comes to a stage** by an operation: it was there, and the operation was no page
request; or the request was answered, by a redirect if one is followed. -/
theorem CrawlRun.stage_of_answer {e e' : Engine} {run : CrawlRun} {d : DriverState} {url : String}
    {o : CrawlOp} {k : o.Resp → Crawl (CrawlResult PageResult)} {events : List CrawlEvent}
    {a : Answer} {r : o.Resp} (hI : run.KeepsStage X)
    (hp : run.phase = .crawling d url (.op o k) events) (hr : e.perform o a = some (r, e')) :
    (run.requested = none ∧ pageStage X (events ++ [⟨o, r⟩]) = pageStage X events ∧
        ∀ next, (pageStage X events).1 ≠ .hop next) ∨
      (pageStage X (events ++ [⟨o, r⟩])).1 = .after ∨
      ∃ target status location next, run.requested = some target ∧
        a = .http (.redirect status location) ∧ redirects events < MAX_REDIRECTS ∧
        X.redirectTarget target status location = some next ∧
        (pageStage X (events ++ [⟨o, r⟩])).1 = .hop next := by
  have hallows := PageMeets.nextOp hI hp
  have hcount : ∀ (events : List CrawlEvent), (pageStage X events).2 = redirects events := by
    intro events
    induction events using List.reverseRecOn with
    | nil => rfl
    | append_singleton events ev ih =>
      rw [pageStage, List.foldl_append, redirects_append, ← ih]
      show (PageStage.advance X (pageStage X events) ev).2 = _
      obtain ⟨o, r⟩ := ev
      cases o with
      | request kind =>
        cases kind with
        | sitemap => rfl
        | page =>
          cases r with
          | redirect status location =>
            simp only [PageStage.advance]
            split <;> rfl
          | _ => rfl
      | _ => rfl
  have hadvance : pageStage X (events ++ [⟨o, r⟩]) =
      PageStage.advance X (pageStage X events) ⟨o, r⟩ := by
    rw [pageStage, List.foldl_append]
    rfl
  have hnext : run.nextOp = some o := by rw [CrawlRun.nextOp, hp]
  by_cases ho : o.IsRequest .page
  · cases o with
    | request kind target spelled v =>
      obtain rfl : kind = .page := ho
      obtain ⟨rfl, -⟩ := Engine.performed_of_perform hr
      refine Or.inr ?_
      rw [hadvance]
      cases r with
      | failed => exact Or.inl rfl
      | response _ => exact Or.inl rfl
      | redirect status location =>
        simp only [PageStage.advance]
        split
        case h_1 next hjoin =>
          obtain ⟨hlt, hjoin⟩ := Option.ite_none_right_eq_some.1 hjoin
          refine Or.inr ⟨target, status, location, next, ?_, rfl, hcount events ▸ hlt, hjoin, rfl⟩
          rw [CrawlRun.requested, hnext]
        case h_2 => exact Or.inl rfl
    | _ => exact ho.elim
  · refine Or.inl ⟨?_, hadvance.trans (PageStage.advance_of_not_request ho r _), ?_⟩
    · rw [Option.eq_none_iff_forall_ne_some]
      intro target htarget
      obtain ⟨spelled, v, hop⟩ := CrawlRun.requested_eq_some htarget
      obtain rfl := Option.some.inj (hnext.symm.trans hop)
      exact ho rfl
    · cases o with
      | request kind =>
        cases kind with
        | page => exact absurd rfl ho
        | sitemap => exact hallows
      | _ => exact hallows

/-! ### The sleep between pages -/

/-- The loop is about to end. -/
def DriverState.Done (config : DriverConfig) (d : DriverState) : Prop :=
  d.frontier.queue = [] ∨ config.maxPagesPerRun ≤ d.stats.pagesFetched

/-- **After a page** the loop ends, or it sleeps: the effective delay, or the back-off of a 429. -/
theorem feed_paces (config : DriverConfig) (d : DriverState) (url : String)
    (r : CrawlResult PageResult) :
    (∃ d', d'.effectiveDelay = d.effectiveDelay ∧ d'.Done config ∧
        feed config d url r = .looping d') ∨
      (∃ d', d'.effectiveDelay = d.effectiveDelay ∧
        feed config d url r = .sleeping d' d.effectiveDelay) ∨
      (∃ d' retryAfter, d'.effectiveDelay = d.effectiveDelay ∧
        r = .error (.rateLimited retryAfter) ∧ d.consecutive429s + 1 < 5 ∧
        feed config d url r = .sleeping d' (sleepDur retryAfter (d.consecutive429s + 1))) ∨
      ∃ d', d'.effectiveDelay = d.effectiveDelay ∧ feed config d url r = .ended d' := by
  have hrests : ∀ d' : DriverState, feed config d url r = rest config d' →
      d'.effectiveDelay = d.effectiveDelay →
      (∃ d'', d''.effectiveDelay = d.effectiveDelay ∧ d''.Done config ∧
        feed config d url r = .looping d'') ∨
      ∃ d'', d''.effectiveDelay = d.effectiveDelay ∧
        feed config d url r = .sleeping d'' d.effectiveDelay := fun d' hfeed hd' ↦ by
    rw [hfeed]
    obtain ⟨hdone, hrest⟩ | hrest := rest_cases config d'
    · exact Or.inl ⟨d', hd', hdone, hrest⟩
    · exact Or.inr ⟨d', hd', hd' ▸ hrest⟩
  cases r with
  | ok p => exact (hrests _ rfl rfl).imp_right Or.inl
  | error err =>
    cases err with
    | rateLimited retryAfter =>
      by_cases h5 : d.consecutive429s + 1 ≥ 5
      · have hended : feed config d url (.error (.rateLimited retryAfter)) =
            .ended { d with consecutive429s := d.consecutive429s + 1 } := if_pos h5
        refine Or.inr (Or.inr (Or.inr ⟨_, ?_, hended⟩))
        rfl
      · have hretry : feed config d url (.error (.rateLimited retryAfter)) =
            .sleeping ({ d with consecutive429s := d.consecutive429s + 1 }.pushFront url)
              (sleepDur retryAfter (d.consecutive429s + 1)) := if_neg h5
        refine Or.inr (Or.inr (Or.inl ⟨_, retryAfter, ?_, rfl, Nat.lt_of_not_ge h5, hretry⟩))
        rfl
    | _ => exact (hrests _ rfl rfl).imp_right Or.inl

/-- **The delay of a run stays what the prelude has made it.** -/
theorem CrawlRun.delay_of_step {P : Duration → Prop} {e e' : Engine} {run run' : CrawlRun}
    {l : CrawlLabel} (hstarting : ∀ d, run.phase = .starting (.ret (.ok d)) → P d.effectiveDelay)
    (hdriver : ∀ d ∈ run.driver, P d.effectiveDelay) (h : run.step X e l = some (e', run')) :
    ∀ d ∈ run'.driver, P d.effectiveDelay := by
  intro d' hd'
  obtain hp | hd | ⟨d, url, queue, hd, -, rfl⟩ | ⟨d, url, res, events, hp, rfl⟩ :=
    CrawlRun.driver_of_step h hd'
  · exact hstarting d' hp
  · exact hdriver d' hd
  · exact hdriver d hd
  · have hdelay : P d.effectiveDelay := hdriver d (by rw [CrawlRun.driver, hp]; rfl)
    obtain ⟨d₁, hsame, -, hfeed⟩ | ⟨d₁, hsame, hfeed⟩ | ⟨d₁, _, hsame, -, -, hfeed⟩ |
      ⟨d₁, hsame, hfeed⟩ := feed_paces run.config d url res
    all_goals
      rw [CrawlRun.driver, hfeed] at hd'
      obtain rfl := Option.some.inj hd'
      exact hsame ▸ hdelay

/-- The delay of a run is at least the configured one. -/
theorem returns_prelude_delay (fetcher : Fetcher) (ctx : PageContext) (config : DriverConfig) :
    Returns (fun _ _ ↦ True)
      (fun r ↦ ∀ d, r = .ok d → config.politenessDelay ≤ d.effectiveDelay)
      (prelude X fetcher ctx config ctx.urlPrefix) := by
  have hmax : ∀ crawlDelay : Option Duration,
      config.politenessDelay ≤ effectiveDelayForRun config.politenessDelay crawlDelay :=
    fun crawlDelay ↦ by
      cases crawlDelay with
      | none => exact le_refl _
      | some delay => exact le_max_right _ _
  unfold prelude
  split
  case h_1 => exact fun _ h ↦ nomatch h
  case h_2 seed _ =>
    refine returns_bind.2 (returns_of_forall _ fun delay ↦ ?_)
    refine returns_bind.2 (returns_of_forall _ fun seeds ↦ ?_)
    rintro d hd
    obtain rfl := Except.ok.inj hd
    exact hmax _

end CommunitySearch
