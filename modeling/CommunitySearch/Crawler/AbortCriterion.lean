import CommunitySearch.Crawler.LoopHistory
import CommunitySearch.Crawler.RecrawlCoverage
import CommunitySearch.Foundation.Streak

/-!
# When a run gives up

A run gives up when its counter of 429s reaches five. The counter is called one of consecutive
429s, but only a success clears it: a page that fails in another way leaves it as it is. So a run
gives up on the last five answers being 429 exactly if no other failure stands between five 429s
that no success separates (`abortsAtFive_iff`).
-/

namespace CommunitySearch

open LoopEvent Streak

variable {X : Crates} {config : DriverConfig}

def isSuccess : CrawlResult PageResult → Bool
  | .ok _ => true
  | .error _ => false

def isRateLimited : CrawlResult PageResult → Bool
  | .error (.rateLimited _) => true
  | _ => false

/-- What the pages of a run came to, in order. -/
def results (log : List LoopEvent) : List (CrawlResult PageResult) := (outcomes log).map Prod.snd

def LoopEvent.isAbort : LoopEvent → Bool
  | aborted => true
  | _ => false

/-- **The abort criterion**: a run has given up exactly if its last five pages were all answered
with 429. -/
def AbortsAtFive (log : List LoopEvent) : Prop :=
  log.any isAbort = true ↔ LastAll isRateLimited 5 (results log)

/-- Five 429s that no success separates, with another failure after the first of them. -/
abbrev StreakInterrupted (rs : List (CrawlResult PageResult)) : Prop :=
  Interrupted isSuccess isRateLimited 5 rs

theorem isSuccess_of_isRateLimited {r : CrawlResult PageResult} (h : isRateLimited r = true) :
    isSuccess r = false := by
  cases r with
  | ok page => cases h
  | error err => rfl

theorem isRateLimited_iff {r : CrawlResult PageResult} :
    isRateLimited r = true ↔ RateLimited r := by
  constructor
  · intro h
    rw [isRateLimited.eq_def] at h
    split at h
    case h_1 retryAfter => exact ⟨retryAfter, rfl⟩
    case h_2 => cases h
  · rintro ⟨retryAfter, rfl⟩
    rfl

theorem results_append (log log' : List LoopEvent) :
    results (log ++ log') = results log ++ results log' := by
  rw [results, outcomes_append, List.map_append]
  rfl

/-! ### The counter of a run -/

/-- The counter of a loop that goes on is that of a streak below five. -/
structure CountsStreak (d : DriverState) (log : List LoopEvent) : Prop where
  goesOn : log.any isAbort = false
  running : Running isSuccess isRateLimited 5 (results log)
  streak_eq : streak isSuccess isRateLimited (results log) = d.consecutive429s
  lt_five : d.consecutive429s < 5

/-- A loop that has ended gave up if its streak reached five. -/
structure EndsStreak (log : List LoopEvent) : Prop where
  running : Running isSuccess isRateLimited 5 (results log)
  le_five : streak isSuccess isRateLimited (results log) ≤ 5
  abort_iff : log.any isAbort = true ↔ streak isSuccess isRateLimited (results log) = 5

/-- The invariant of a run and its log, phase by phase. -/
def StreakCounted : Phase → List LoopEvent → Prop
  | .starting p, log => log = [] ∧
    Prog.Returns (fun _ _ ↦ True) (fun r ↦ ∀ d, r = .ok d → d.Fresh) p
  | .looping d, log | .sleeping d _, log | .crawling d .., log => CountsStreak d log
  | .ended _, log => EndsStreak log
  | .failed _, log => log = []

theorem CountsStreak.ends {d : DriverState} {log : List LoopEvent} (h : CountsStreak d log) :
    EndsStreak log := by
  have hlt := h.lt_five
  have heq := h.streak_eq
  refine ⟨h.running, by omega, ?_⟩
  rw [h.goesOn]
  constructor
  · intro hf
    cases hf
  · omega

theorem endsStreak_nil : EndsStreak [] := by
  refine ⟨running_nil 5, Nat.zero_le 5, ?_⟩
  show false = true ↔ 0 = 5
  simp

/-- A step that shows no result and no abort. -/
theorem CountsStreak.quiet {d d' : DriverState} {log : List LoopEvent} (h : CountsStreak d log)
    (hsame : d'.consecutive429s = d.consecutive429s) {e : LoopEvent} (hresult : results [e] = [])
    (hgoes : e.isAbort = false) : CountsStreak d' (log ++ [e]) := by
  have hresults : results (log ++ [e]) = results log := by
    rw [results_append, hresult, List.append_nil]
  refine ⟨?_, hresults ▸ h.running, hresults ▸ h.streak_eq.trans hsame.symm, hsame ▸ h.lt_five⟩
  rw [List.any_append, h.goesOn]
  simp [hgoes]

/-- **One more page**: the counter of the loop goes with that of the streak. -/
theorem CountsStreak.return {d d' : DriverState} {log : List LoopEvent} (h : CountsStreak d log)
    (url : String) {r : CrawlResult PageResult}
    (hcount : d'.consecutive429s = count isSuccess isRateLimited d.consecutive429s r)
    (hlt : d'.consecutive429s < 5) : CountsStreak d' (log ++ [returned url r]) := by
  have hresults : results (log ++ [returned url r]) = results log ++ [r] := results_append ..
  refine ⟨?_, ?_, ?_, hlt⟩
  · rw [List.any_append, h.goesOn]
    rfl
  · rw [hresults]
    exact h.running.append_singleton (h.streak_eq ▸ h.lt_five) r
  · rw [hresults, streak_append_singleton, h.streak_eq, hcount]

/-- The fifth 429 ends the run. -/
theorem CountsStreak.abort {d : DriverState} {log : List LoopEvent} (h : CountsStreak d log)
    (url : String) {r : CrawlResult PageResult} (hr : isRateLimited r = true)
    (h5 : 5 ≤ d.consecutive429s + 1) : EndsStreak (log ++ [returned url r, aborted]) := by
  have hresults : results (log ++ [returned url r, aborted]) = results log ++ [r] :=
    results_append ..
  have hstreak : streak isSuccess isRateLimited (results log ++ [r]) = 5 := by
    rw [streak_append_singleton, h.streak_eq, count, isSuccess_of_isRateLimited hr,
      if_neg Bool.false_ne_true, if_pos hr]
    have := h.lt_five
    omega
  refine ⟨?_, ?_, ?_⟩
  · rw [hresults]
    exact h.running.append_singleton (h.streak_eq ▸ h.lt_five) r
  · rw [hresults, hstreak]
  · rw [hresults, hstreak, List.any_append]
    simp [LoopEvent.isAbort]

theorem counted_rest {d : DriverState} {log : List LoopEvent} (h : CountsStreak d log) :
    StreakCounted (rest config d) log := by
  obtain ⟨-, hrest⟩ | hrest := rest_cases config d
  all_goals
    rw [hrest]
    exact h

/-- **One step of the loop.** -/
theorem StreakCounted.step {p p' : Phase} {log shown : List LoopEvent} (hI : StreakCounted p log)
    (h : LoopStep config p shown p') : StreakCounted p' (log ++ shown) := by
  cases h with
  | prelude =>
    rw [List.append_nil]
    exact ⟨hI.1, Prog.returns_op.1 hI.2 _ trivial⟩
  | enter =>
    obtain ⟨rfl, hfresh⟩ := hI
    have hzero := (hfresh _ rfl).limited
    exact ⟨rfl, running_nil 5, hzero.symm, by omega⟩
  | fail =>
    rw [List.append_nil]
    exact hI.1
  | take => exact CountsStreak.quiet hI (by rfl) (by rfl) (by rfl)
  | finish =>
    rw [List.append_nil]
    exact hI.ends
  | page =>
    rw [List.append_nil]
    exact hI
  | succeed =>
    refine counted_rest (hI.return _ rfl ?_)
    show 0 < 5
    omega
  | retry h5 => exact hI.return _ rfl h5
  | abort h5 => exact hI.abort _ rfl h5
  | skip hother =>
    -- neither a success nor a 429: the counter stays
    refine counted_rest (hI.return _ ?_ hI.lt_five)
    rw [count, if_neg fun h ↦ hother (isRateLimited_iff.1 h)]
    rfl
  | wake => exact CountsStreak.quiet hI (by rfl) (by rfl) (by rfl)

theorem StreakCounted.ends {p : Phase} {log : List LoopEvent} (hI : StreakCounted p log) :
    EndsStreak log := by
  cases p with
  | starting p => exact hI.1 ▸ endsStreak_nil
  | failed err =>
    obtain rfl := hI
    exact endsStreak_nil
  | ended d => exact hI
  | _ => exact CountsStreak.ends hI

/-- **When a run gives up.** Whatever the pages of a run come to, and whatever the other tasks do:
the run has given up exactly if its last five pages were all answered with 429, if and only if no
other failure stands between five 429s that no success separates. -/
theorem abortsAtFive_iff {e : Engine} {fetcher : Fetcher} {ctx : PageContext} {now : Int}
    {labels : List RunLabel} {s : Engine × CrawlRun} {log : List LoopEvent}
    (hrun : (crawlMachine X).run (e, CrawlRun.start X fetcher ctx config now) labels = some s)
    (hlog : (crawlMachine X).observe noteLoop []
      (e, CrawlRun.start X fetcher ctx config now) labels = log) :
    AbortsAtFive log ↔ ¬ StreakInterrupted (results log) := by
  have hI : StreakCounted s.2.phase log :=
    hlog ▸ loop_invariant (I := StreakCounted) ⟨rfl, returns_prelude_fresh _ _ _ _⟩
      (fun _ _ _ _ hI h ↦ hI.step h) hrun
  have hends := hI.ends
  rw [AbortsAtFive, hends.abort_iff]
  exact lastAll_iff (fun _ ↦ isSuccess_of_isRateLimited) (by omega) hends.running hends.le_five

namespace Throttled

def startBody : String := "<body><a href=\"/a/\">A</a><a href=\"/b/\">B</a></body>"

/-- What the crates compute on a page that links to two others. -/
def crates : Crates := .ofTables
  { urls := ["/", "/a/", "/b/", "/sitemap.xml"].map fun path ↦
      ("https://guide.example" ++ path, TwoPages.url path)
    joins := ["/a/", "/b/"].map fun path ↦ ((TwoPages.url "/", path), TwoPages.url path)
    documents := [(startBody, ⟨[⟨"/a/", "A"⟩, ⟨"/b/", "B"⟩], [], [], some [⟨"AB", false⟩]⟩)]
    disallowed := []
    digests := [("\x00AB", "385e2ba0cc8fc6bd16e9a08b789b445ed47bc02ab8d17adf849aaeb52f66992d")] }

def start : Engine × CrawlRun :=
  (.start TwoPages.db [], .start crates ⟨"search-bot"⟩ TwoPages.target ⟨1000, 100⟩ 0)

/-- A page is answered, and its result is fed back. -/
def answered (r : HttpResponse) : List CrawlLabel :=
  pageUpToFetch ++ [.answer (.http (.response r)), .next]

def tooMany : HttpResponse := ⟨429, none, none, none, none, none⟩

def pdf : HttpResponse := ⟨200, some "application/pdf", none, none, none, some "%PDF"⟩

/-- The start page is served, and the pages after it are answered with `rs`. -/
def labels (rs : List HttpResponse) : List RunLabel :=
  (plainPrelude none false ++ TwoPages.served startBody ++
    rs.flatMap fun r ↦ CrawlLabel.next :: answered r).map .crawl

/-- The log of the run. -/
def log (rs : List HttpResponse) : List LoopEvent :=
  (crawlMachine crates).observe noteLoop [] start (labels rs)

end Throttled

/-- A page answered with 429 five times in a row. -/
theorem abortsAtFive_iff_throttled : ∃ s,
    (crawlMachine Throttled.crates).run Throttled.start
      (Throttled.labels (List.replicate 5 Throttled.tooMany)) = some s ∧
    s.2.isOver = true ∧
    (AbortsAtFive (Throttled.log (List.replicate 5 Throttled.tooMany)) ↔
      ¬ StreakInterrupted (results (Throttled.log (List.replicate 5 Throttled.tooMany)))) := by
  obtain ⟨s, hrun, hover⟩ : ∃ s, (crawlMachine Throttled.crates).run Throttled.start
      (Throttled.labels (List.replicate 5 Throttled.tooMany)) = some s ∧ s.2.isOver = true :=
    Machine.exists_run_of_any (by decide +kernel)
  exact ⟨s, hrun, hover, abortsAtFive_iff hrun rfl⟩

/-- Of the last five answers one is a PDF document, and the run gives up. -/
theorem not_abortsAtFive : ¬ ∀ labels s,
    (crawlMachine Throttled.crates).run Throttled.start labels = some s →
      AbortsAtFive
        ((crawlMachine Throttled.crates).observe noteLoop [] Throttled.start labels) := by
  obtain ⟨s, hrun, -⟩ : ∃ s, (crawlMachine Throttled.crates).run Throttled.start
      (Throttled.labels ([Throttled.tooMany, Throttled.pdf] ++
        List.replicate 4 Throttled.tooMany)) = some s ∧ true = true :=
    Machine.exists_run_of_any (by decide +kernel)
  have hlog : (Throttled.log ([Throttled.tooMany, Throttled.pdf] ++
      List.replicate 4 Throttled.tooMany)).any isAbort = true ∧
        (results (Throttled.log ([Throttled.tooMany, Throttled.pdf] ++
          List.replicate 4 Throttled.tooMany))).map isRateLimited =
            [false, true, false, true, true, true, true] := by
    decide +kernel
  intro h
  -- the run has given up, so its last five results should be 429s
  obtain ⟨before, m, hm, hlen, hall⟩ := (h _ s hrun).1 hlog.1
  have hsuffix : List.replicate 5 true <:+ (results (Throttled.log ([Throttled.tooMany,
      Throttled.pdf] ++ List.replicate 4 Throttled.tooMany))).map isRateLimited := by
    rw [Throttled.log, hm, List.map_append, ← hlen, ← List.map_eq_replicate_iff.2 hall]
    exact List.suffix_append _ _
  rw [hlog.2] at hsuffix
  exact absurd hsuffix (by decide)

end CommunitySearch
