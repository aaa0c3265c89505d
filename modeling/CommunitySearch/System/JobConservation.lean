import CommunitySearch.System
import Mathlib.Data.List.Perm.Basic

/-!
# Conservation of jobs

Three parties count jobs: the tasks that send them, which move the counter of jobs in flight
before the send and back when it fails; the loop of the indexer; and its writer, whose journal is
returned by a commit. `JobsConserved` says how the three agree.

The counter is put right after a send that fails, and after nothing else. The handler of an import
whose client hangs up is dropped where it waits to send, with the job counted and not sent, and the
counter stays too high by one from then on. So in a run in which no operation of Tantivy or SQLite
fails, the three agree exactly when no client of an import has hung up (`jobsConserved_iff`).

That the tasks count is a property of their programs (`Counted`): read along a program, the counter
has moved by one exactly when the next operation is the send of a job, or the rollback after a send
that has failed (`CrawlOp.settles`). Every operation keeps the balance between the counter, the
queue and the tasks that have a job on its way to the queue (`balance_of_perform`), and every turn
of the indexer the one between the counter, the queue and the journal (`turn_done`).
-/

namespace CommunitySearch

/-! ### Programs that count -/

/-- The operation ends a send: it is the send itself, or the rollback of the counter after a send
that has failed. -/
def CrawlOp.settles : CrawlOp → Bool
  | .send _ => true
  | .inflightAdd n => decide (n < 0)
  | _ => false

/-- What a task that counts may do, `owing` saying whether it has counted a job that has not
reached the queue. -/
def CrawlOp.Fits (owing : Bool) : CrawlOp → Prop
  | .inflightAdd n => n = if owing then -1 else 1
  | o => owing = o.settles

/-- Does the task owe a job after the operation? -/
def CrawlOp.owingAfter (owing : Bool) : (o : CrawlOp) → o.Resp → Bool
  | .inflightAdd n, _ => decide (0 < n)
  | .send _, sent => !sent
  | _, _ => owing

/-- The program counts every job before it sends it, and takes the count back when the send
fails. -/
def Counted {α : Type} (p : Crawl α) (owing : Bool) : Prop :=
  Prog.wp (fun b o r b' ↦ b' = CrawlOp.owingAfter b o r) (fun b (o : CrawlOp) ↦ o.Fits b)
    (fun _ b ↦ b = false) p owing

/-- The operation neither counts nor sends. -/
def CrawlOp.Quiet : CrawlOp → Prop
  | .inflightAdd _ | .send _ => False
  | _ => True

/-- The next operation of a program. -/
def Crawl.nextOp {α : Type} : Crawl α → Option CrawlOp
  | .op o _ => some o
  | .ret _ => none

/-- The program has a job on its way to the queue. -/
def Crawl.isSending {α : Type} (p : Crawl α) : Bool := (Crawl.nextOp p).any CrawlOp.settles

section Programs

variable {X : Crates} {α : Type}

theorem CrawlOp.Fits.settles_eq {o : CrawlOp} {b : Bool} (h : o.Fits b) : o.settles = b := by
  cases o with
  | inflightAdd n =>
    obtain rfl : n = if b then -1 else 1 := h
    cases b <;> decide
  | _ => exact Eq.symm h

theorem Counted.isSending_eq {p : Crawl α} {b : Bool} (h : Counted p b) :
    Crawl.isSending p = b := by
  cases p with
  | ret a => exact Eq.symm h
  | op o k => exact h.1.settles_eq

theorem counted_of_quiet {S : CrawlOp → Prop} {p : Crawl α} (hp : Prog.Performs S p)
    (hS : ∀ o, S o → o.Quiet) : Counted p false := by
  refine Prog.wp_mono (fun _ b h ↦ h) (hp.wp (I := fun b ↦ b = false) ?_ ?_ rfl)
  · rintro _ o rfl ho
    have hquiet := hS o ho
    cases o with
    | inflightAdd | send => exact False.elim hquiet
    | _ => rfl
  · rintro _ o r _ rfl ho rfl
    have hquiet := hS o ho
    cases o with
    | inflightAdd | send => exact False.elim hquiet
    | _ => rfl

theorem Counted.attempt {β ε : Type} {p : Crawl (Except ε α)} {f : α → Crawl (Except ε β)}
    {b : Bool} (hp : Counted p b) (hf : ∀ a, Counted (f a) false) : Counted (p.attempt f) b := by
  refine Prog.wp_attempt.2 (Prog.wp_mono (fun r b' hb ↦ ?_) hp)
  obtain rfl : b' = false := hb
  cases r with
  | ok a => exact hf a
  | error err => rfl

theorem counted_sendJob (job : IndexJob) : Counted (sendJob job) false := by
  refine ⟨rfl, ?_⟩
  rintro _ _ rfl
  refine ⟨rfl, ?_⟩
  rintro sent _ rfl
  cases sent with
  | true => rfl
  | false => exact ⟨rfl, by rintro _ _ rfl; rfl⟩

theorem counted_sendImport (report : ImportReport) (jobs : List IndexJob) :
    Counted (sendImport report jobs) false := by
  induction jobs with
  | nil => rfl
  | cons job jobs ih =>
    refine ⟨rfl, ?_⟩
    rintro _ _ rfl
    refine ⟨rfl, ?_⟩
    rintro sent _ rfl
    cases sent with
    | true => exact ih
    | false => exact ⟨rfl, by rintro _ _ rfl; rfl⟩

theorem CrawlOp.IsPrelude.quiet {o : CrawlOp} (h : o.IsPrelude) : o.Quiet := by
  cases o <;> trivial

theorem CrawlOp.IsRequest.quiet {kind : RequestKind} {o : CrawlOp} (h : o.IsRequest kind) :
    o.Quiet := by
  cases o <;> trivial

theorem counted_upsertRow (row : CrawledPageRow) : Counted (upsertRow row) false :=
  ⟨rfl, by rintro _ _ rfl; rfl⟩

/-- **`crawl_page` counts.** -/
theorem counted_crawlPage (fetcher : Fetcher) (ctx : PageContext) (now : Int) (url : String) :
    Counted (crawlPage X fetcher ctx now url) false := by
  refine (counted_of_quiet (performs_isAllowed url) fun _ h ↦ h.isPrelude.quiet).attempt
    fun allowed ↦ ?_
  split
  · rfl
  · refine ⟨rfl, ?_⟩
    rintro row _ rfl
    cases row with
    | none => rfl
    | some prior =>
      refine (counted_of_quiet (performs_fetch fetcher url _) fun _ h ↦ h.quiet).attempt
        fun outcome ↦ ?_
      cases outcome with
      | rateLimited _ => rfl
      | notModified => exact (counted_upsertRow _).attempt fun _ ↦ rfl
      | otherStatus _ => exact (counted_upsertRow _).attempt fun _ ↦ rfl
      | fresh status body etag lm finalUrl =>
        refine Counted.attempt ?_ fun _ ↦ counted_of_quiet
          (S := fun o ↦ o.Quiet) (performs_recordFresh (fun _ _ _ ↦ trivial) fun _ _ _ _ ↦ trivial)
          fun _ h ↦ h
        split
        · rfl
        · exact counted_sendJob _

end Programs

/-! ### An operation of a task -/

namespace Engine

/-- The jobs the channel takes from a task. -/
def accepted (e : Engine) : Option CrawlOp → List IndexJob
  | some (.send job) => if e.indexer.isSome then [job] else []
  | _ => []

/-- The journal of the upserts buffered and not committed. -/
def uncommitted (e : Engine) : List JournalEntry :=
  match e.indexer with
  | some ix => ix.writer.pending
  | none => []

theorem perform_quiet {e e' : Engine} {o : CrawlOp} {a : Answer} {r : o.Resp}
    (h : e.perform o a = some (r, e')) (hquiet : o.Quiet) :
    e'.indexer = e.indexer ∧ e'.upsertQueue = e.upsertQueue ∧ e'.inflight = e.inflight := by
  unfold perform at h
  split at h
  case h_5 =>
    split at h
    · obtain ⟨-, rfl⟩ := Prod.mk.inj (Option.some.inj h)
      exact ⟨rfl, rfl, rfl⟩
    · cases h
  case h_8 => exact False.elim hquiet
  case h_9 => exact False.elim hquiet
  case h_10 | h_12 =>
    split at h
    all_goals
      obtain ⟨-, rfl⟩ := Prod.mk.inj (Option.some.inj h)
      exact ⟨rfl, rfl, rfl⟩
  case h_14 => cases h
  all_goals
    obtain ⟨-, rfl⟩ := Prod.mk.inj (Option.some.inj h)
    exact ⟨rfl, rfl, rfl⟩

/-- **The balance of a task.** An operation moves the counter as it moves the queue and what the
task owes, and the queue grows by the job it takes. -/
theorem balance_of_perform {e e' : Engine} {o : CrawlOp} {a : Answer} {r : o.Resp} {b : Bool}
    (h : e.perform o a = some (r, e')) (hfit : o.Fits b) :
    e'.indexer = e.indexer ∧ e'.upsertQueue = e.upsertQueue ++ e.accepted (some o) ∧
      e'.inflight + b.toNat =
        e.inflight + (o.owingAfter b r).toNat + (e.accepted (some o)).length := by
  cases o with
  | inflightAdd n =>
    cases a with
    | ok =>
      obtain ⟨-, rfl⟩ := Prod.mk.inj (Option.some.inj h)
      obtain rfl : n = if b then -1 else 1 := hfit
      refine ⟨rfl, (List.append_nil _).symm, ?_⟩
      cases b with
      | false => rfl
      | true =>
        show e.inflight + -1 + 1 = e.inflight + 0 + 0
        omega
    | _ => cases h
  | send job =>
    cases a with
    | ok =>
      obtain rfl : b = true := hfit
      simp only [perform] at h
      split at h
      case h_1 hix =>
        obtain ⟨rfl, rfl⟩ := Prod.mk.inj (Option.some.inj h)
        refine ⟨rfl, ?_, ?_⟩ <;> simp [CrawlOp.owingAfter, accepted, hix]
      case h_2 ix hix =>
        split at h
        · obtain ⟨rfl, rfl⟩ := Prod.mk.inj (Option.some.inj h)
          refine ⟨rfl, ?_, ?_⟩ <;> simp [CrawlOp.owingAfter, accepted, hix]
        · cases h
    | _ => cases h
  | _ =>
    obtain ⟨hindexer, hqueue, hcount⟩ := perform_quiet h trivial
    obtain rfl : b = false := hfit
    refine ⟨hindexer, hqueue.trans (List.append_nil _).symm, ?_⟩
    simp [CrawlOp.owingAfter, accepted, hcount]

/-- The balance of a task with the program `p`, before and after an operation. -/
theorem balance_of_op {α : Type} {e e' : Engine} {o : CrawlOp} {k : o.Resp → Crawl α} {a : Answer}
    {r : o.Resp} (h : e.perform o a = some (r, e')) {b : Bool} (hp : Counted (.op o k) b) :
    (∃ b', Counted (k r) b') ∧ e'.indexer = e.indexer ∧
      e'.upsertQueue = e.upsertQueue ++ e.accepted (some o) ∧
      e'.inflight + (Crawl.isSending (.op o k : Crawl α)).toNat =
        e.inflight + (Crawl.isSending (k r)).toNat + (e.accepted (some o)).length := by
  have hafter : Counted (k r) (o.owingAfter b r) := hp.2 r _ rfl
  obtain ⟨hindexer, hqueue, hbalance⟩ := balance_of_perform h hp.1
  rw [hp.isSending_eq, hafter.isSending_eq]
  exact ⟨⟨_, hafter⟩, hindexer, hqueue, hbalance⟩

end Engine

/-! ### A step of a crawl -/

namespace CrawlRun

/-- The crawl has a job on its way to the queue. -/
def isSending (run : CrawlRun) : Bool := run.nextOp.any CrawlOp.settles

/-- What is left of the crawl counts. -/
def Counts (run : CrawlRun) : Prop :=
  match run.phase with
  | .starting p => ∃ b, Counted p b
  | .crawling _ _ p _ => ∃ b, Counted p b
  | _ => True

variable {X : Crates} {e e' : Engine} {run run' : CrawlRun}

theorem counted_prelude (fetcher : Fetcher) (ctx : PageContext) (config : DriverConfig)
    (seedUrl : String) : Counted (prelude X fetcher ctx config seedUrl) false :=
  counted_of_quiet (performs_prelude fetcher ctx config seedUrl) fun _ h ↦ h.quiet

theorem counts_start (fetcher : Fetcher) (ctx : PageContext) (config : DriverConfig) (now : Int) :
    (CrawlRun.start X fetcher ctx config now).Counts :=
  ⟨false, counted_prelude fetcher ctx config ctx.urlPrefix⟩

theorem isSending_of_starting {p : Crawl (CrawlResult DriverState)} (h : run.phase = .starting p) :
    run.isSending = Crawl.isSending p := by
  rw [isSending, nextOp, h]
  cases p <;> rfl

theorem isSending_of_crawling {d : DriverState} {url : String} {p : Crawl (CrawlResult PageResult)}
    {events : List CrawlEvent} (h : run.phase = .crawling d url p events) :
    run.isSending = Crawl.isSending p := by
  rw [isSending, nextOp, h]
  cases p <;> rfl

theorem isSending_start (fetcher : Fetcher) (ctx : PageContext) (config : DriverConfig)
    (now : Int) : (CrawlRun.start X fetcher ctx config now).isSending = false :=
  (isSending_of_starting rfl).trans (counted_prelude fetcher ctx config ctx.urlPrefix).isSending_eq

/-- Between operations a crawl sends nothing, and it goes on to count. -/
theorem counts_of_next (h : run.next X = some run') :
    run'.Counts ∧ run.isSending = false ∧ run'.isSending = false := by
  obtain ⟨_, hp, rfl⟩ | ⟨_, hp, rfl⟩ | ⟨_, hp, rfl⟩ | ⟨_, _, _, hp, -, rfl⟩ |
    ⟨d, url, r, _, hp, rfl⟩ | ⟨_, _, hp, rfl⟩ := next_cases h
  · exact ⟨trivial, by rw [isSending, nextOp, hp]; rfl, rfl⟩
  · exact ⟨trivial, by rw [isSending, nextOp, hp]; rfl, rfl⟩
  · exact ⟨trivial, by rw [isSending, nextOp, hp]; rfl, rfl⟩
  · have hpage := counted_crawlPage (X := X) run.fetcher run.ctx run.now
    exact ⟨⟨false, hpage _⟩, by rw [isSending, nextOp, hp]; rfl,
      (isSending_of_crawling rfl).trans (hpage _).isSending_eq⟩
  · have hfeed : ∀ phase, feed run.config d url r = phase →
        ({ run with phase := feed run.config d url r } : CrawlRun) = { run with phase := phase } :=
      fun _ h ↦ by rw [h]
    refine ⟨?_, by rw [isSending, nextOp, hp]; rfl, ?_⟩
    all_goals
      obtain ⟨d', hd | ⟨_, hd⟩ | hd, -⟩ := feed_cases run.config d url r
      all_goals
        rw [hfeed _ hd]
        first | exact trivial | rfl
  · exact ⟨trivial, by rw [isSending, nextOp, hp]; rfl, rfl⟩

/-- The operation a step performs. -/
def performing (run : CrawlRun) : CrawlLabel → Option CrawlOp
  | .answer _ => run.nextOp
  | .next => none

/-- **The balance of a crawl.** -/
theorem balance_of_step {l : CrawlLabel} (hI : run.Counts) (h : run.step X e l = some (e', run')) :
    run'.Counts ∧ e'.indexer = e.indexer ∧
      e'.upsertQueue = e.upsertQueue ++ e.accepted (run.performing l) ∧
      e'.inflight + run.isSending.toNat =
        e.inflight + run'.isSending.toNat + (e.accepted (run.performing l)).length := by
  obtain ⟨o, k, a, r, hp, rfl, hr, rfl⟩ | ⟨d, url, o, k, events, a, r, hp, rfl, hr, rfl⟩ |
    ⟨rfl, rfl, hn⟩ := step_cases h
  · obtain ⟨b, hb⟩ : ∃ b, Counted (.op o k) b := by
      rw [Counts, hp] at hI
      exact hI
    rw [isSending_of_starting hp, isSending_of_starting rfl, performing, nextOp, hp]
    exact Engine.balance_of_op hr hb
  · obtain ⟨b, hb⟩ : ∃ b, Counted (.op o k) b := by
      rw [Counts, hp] at hI
      exact hI
    rw [isSending_of_crawling hp, isSending_of_crawling rfl, performing, nextOp, hp]
    exact Engine.balance_of_op hr hb
  · obtain ⟨hcounts, hbefore, hafter⟩ := counts_of_next hn
    rw [hbefore, hafter]
    exact ⟨hcounts, rfl, (List.append_nil _).symm, by simp [performing, Engine.accepted]⟩

theorem isSending_of_isOver (h : run.isOver = true) : run.isSending = false := by
  rw [isSending, nextOp_of_isOver h]
  rfl

end CrawlRun

/-! ### A turn of the indexer -/

namespace Engine

/-- The jobs the loop receives in a turn. -/
def receivedJobs (e : Engine) : IndexerEvent → List IndexJob
  | .upsert => e.upsertQueue.take 1
  | _ => []

/-- The journal a turn's commit returns, when it succeeds. -/
def returned (e : Engine) (event : IndexerEvent) (outcome : FlushOutcome) : List JournalEntry :=
  if outcome = .commitFails then [] else ((e.flushing event).map IndexWriter.pending).getD []

end Engine

theorem IndexWriter.pending_deleteUrls (w : IndexWriter) (urls : List String) :
    (w.deleteUrls urls).pending = w.pending := by
  induction urls generalizing w with
  | nil => rfl
  | cons u urls ih =>
    have hcons : w.deleteUrls (u :: urls) = (w.deleteUrl u).deleteUrls urls := rfl
    rw [hcons, ih]
    rfl

namespace Engine

/-- **What the loop receives.** Between turns fewer jobs than a batch are pending; with what a turn
receives it is at most a batch, and it flushes at a full one. -/
theorem receive_pending {e e₁ : Engine} {event : IndexerEvent} {ix ix₁ : Indexer} {flushes : Bool}
    (hix : e.indexer = some ix) (htallied : ix.pending = ix.writer.pending.length)
    (hlt : ix.pending < BATCH_SIZE) (h : e.receive event = some (e₁, ix₁, flushes)) :
    ix₁.writer.pending =
        e.uncommitted ++ (e.receivedJobs event).map (fun job ↦ job.asDocument.journalEntry) ∧
      ix₁.pending = ix₁.writer.pending.length ∧ ix₁.pending ≤ BATCH_SIZE ∧
      (flushes = false → ix₁.pending < BATCH_SIZE) ∧
      e.receivedJobs event ++ e₁.upsertQueue = e.upsertQueue ∧ e₁.inflight = e.inflight := by
  have huncommitted : e.uncommitted = ix.writer.pending := by rw [uncommitted, hix]
  unfold receive at h
  cases event with
  | upsert =>
    simp only [hix] at h
    split at h
    case h_2 => cases h
    case h_1 ix₀ job queue hix₀ hq =>
      obtain rfl := Option.some.inj hix₀
      obtain ⟨rfl, rfl, rfl⟩ : _ ∧ _ ∧ _ := by simpa using h
      have hjobs : e.receivedJobs .upsert = [job] := by rw [receivedJobs, hq]; rfl
      rw [hjobs, huncommitted]
      -- it is the one event that adds to what is pending, and the only one to fill a batch
      refine ⟨rfl, ?_, hlt, fun hno ↦ ?_, hq.symm, rfl⟩
      · show ix.pending + 1 = (ix.writer.pending ++ [job.asDocument.journalEntry]).length
        rw [List.length_append, htallied]
        rfl
      · exact Nat.not_le.1 (of_decide_eq_false hno)
  | delete =>
    simp only [hix] at h
    split at h
    case h_2 => cases h
    case h_1 ix₀ batch batches hix₀ hq hd =>
      obtain rfl := Option.some.inj hix₀
      obtain ⟨rfl, rfl, rfl⟩ : _ ∧ _ ∧ _ := by simpa using h
      have hpending : (ix.writer.deleteUrls batch.urls).pending = ix.writer.pending :=
        ix.writer.pending_deleteUrls batch.urls
      rw [huncommitted]
      refine ⟨hpending.trans (List.append_nil _).symm, ?_, hlt.le, fun _ ↦ hlt, rfl, rfl⟩
      show ix.pending = (ix.writer.deleteUrls batch.urls).pending.length
      rw [hpending, htallied]
  | timer =>
    simp only [hix] at h
    split at h
    case h_2 => cases h
    case h_1 ix₀ hix₀ hq hd =>
      obtain rfl := Option.some.inj hix₀
      obtain ⟨rfl, rfl, rfl⟩ : _ ∧ _ ∧ _ := by simpa using h
      rw [huncommitted]
      exact ⟨(List.append_nil _).symm, htallied, hlt.le, fun _ ↦ hlt, rfl, rfl⟩
  | closed =>
    simp only [hix] at h
    split at h
    case h_2 => cases h
    case h_1 ix₀ hix₀ hq =>
      obtain rfl := Option.some.inj hix₀
      obtain ⟨rfl, rfl, rfl⟩ : _ ∧ _ ∧ _ := by simpa using h
      rw [huncommitted]
      exact ⟨(List.append_nil _).symm, htallied, hlt.le, fun _ ↦ hlt, rfl, rfl⟩

/-- **The balance of a turn** whose flush succeeds: the counter falls by the journal it returns. -/
theorem turn_done {e e' : Engine} {event : IndexerEvent} {ix : Indexer} (hix : e.indexer = some ix)
    (htallied : ix.pending = ix.writer.pending.length) (hlt : ix.pending < BATCH_SIZE)
    (h : e.indexerStep event .done = some e') :
    (∀ ix', e'.indexer = some ix' →
        ix'.pending = ix'.writer.pending.length ∧ ix'.pending < BATCH_SIZE) ∧
      e.returned event .done ++ e'.uncommitted =
        e.uncommitted ++ (e.receivedJobs event).map (fun job ↦ job.asDocument.journalEntry) ∧
      e.receivedJobs event ++ e'.upsertQueue = e.upsertQueue ∧
      e'.inflight + (e.returned event .done).length = e.inflight ∧
      (event = .closed → e'.indexer = none) := by
  obtain ⟨⟨e₁, ix₁, flushes⟩, hr, rfl⟩ := Option.map_eq_some_iff.1 h
  obtain ⟨hjournal, htallied₁, -, hlt₁, hqueue, hcount⟩ := receive_pending hix htallied hlt hr
  dsimp only
  cases flushes with
  | true =>
    have hflushing : e.flushing event = some ix₁.writer := by rw [flushing, hr]
    have hreturned : e.returned event .done = ix₁.writer.pending := by
      rw [returned, hflushing]
      rfl
    have hinflight : e₁.inflight - (ix₁.writer.pending.length : Int) +
        (ix₁.writer.pending.length : Int) = e.inflight := by
      rw [Int.sub_add_cancel, hcount]
    have hfresh : ∀ ix', some Indexer.fresh = some ix' →
        ix'.pending = ix'.writer.pending.length ∧ ix'.pending < BATCH_SIZE := by
      rintro _ ⟨⟩
      exact ⟨rfl, by decide⟩
    rw [if_pos rfl, hreturned]
    by_cases hclosed : event = .closed
    · subst hclosed
      rw [if_pos rfl]
      -- `recv` returns `None` only once the queue is drained
      have hempty : e₁.upsertQueue = [] := by
        rw [receive] at hr
        simp only [hix] at hr
        split at hr
        case h_1 hq =>
          obtain ⟨rfl, -⟩ := Prod.mk.inj (Option.some.inj hr)
          exact hq
        case h_2 => cases hr
      refine ⟨?_, (List.append_nil _).trans hjournal, ?_, hinflight, fun _ ↦ rfl⟩
      · intro _ h
        cases h
      · rw [← hqueue, hempty]
        rfl
    · rw [if_neg hclosed]
      exact ⟨hfresh, (List.append_nil _).trans hjournal, hqueue, hinflight,
        fun h ↦ absurd h hclosed⟩
  | false =>
    have hflushing : e.flushing event = none := by rw [flushing, hr]
    have hreturned : e.returned event .done = [] := by
      rw [returned, hflushing]
      rfl
    have hclosed : event ≠ .closed := by
      rintro rfl
      simp only [receive, hix] at hr
      split at hr
      · exact Bool.noConfusion (Prod.mk.inj (Prod.mk.inj (Option.some.inj hr)).2).2
      · cases hr
    rw [if_neg Bool.false_ne_true, if_neg hclosed, hreturned]
    refine ⟨?_, hjournal, hqueue, (Int.add_zero _).trans hcount, fun h ↦ absurd h hclosed⟩
    rintro _ ⟨⟩
    exact ⟨htallied₁, hlt₁ rfl⟩

end Engine

/-! ### The system -/

/-- What has passed through the channel and the indexer so far. -/
structure Traffic where
  /-- The jobs the channel has taken. -/
  sent : List IndexJob
  /-- The jobs the loop has received. -/
  received : List IndexJob
  /-- The journals the commits have returned, one after the other. -/
  returned : List JournalEntry
  /-- How many imports were dropped. -/
  hungUp : Nat

/-- Nothing has passed yet. -/
def Traffic.none : Traffic := ⟨[], [], [], 0⟩

/-- The step drops an import. -/
def SysLabel.hangsUp : SysLabel → Bool
  | .hangUp _ => true
  | _ => false

namespace Sys

/-- The operation a step performs. -/
def performing (s : Sys) : SysLabel → Option CrawlOp
  | .crawl k l => s.runs[k]?.bind fun run ↦ run.performing l
  | .import_ k _ => s.imports[k]?.bind Crawl.nextOp
  | _ => none

/-- Watch a step. -/
def watch (t : Traffic) (s : Sys) : SysLabel → Traffic
  | .indexer event outcome =>
    { t with
      received := t.received ++ s.engine.receivedJobs event
      returned := t.returned ++ s.engine.returned event outcome }
  | l =>
    { t with
      sent := t.sent ++ s.engine.accepted (s.performing l)
      hungUp := t.hungUp + l.hangsUp.toNat }

/-- The tasks that have a job on its way to the queue. -/
def beingSent (s : Sys) : Nat :=
  s.runs.countP CrawlRun.isSending + s.imports.countP Crawl.isSending

end Sys

/-! ### A step of a task -/

/-- The step is one of a task: not a turn of the indexer, its end, or a crash. -/
def SysLabel.OfTask : SysLabel → Prop
  | .indexer .. | .upsertFails | .crash => False
  | _ => True

theorem countP_set_add {α : Type*} {p : α → Bool} {l : List α} {k : ℕ} {a b : α}
    (h : l[k]? = some a) : (l.set k b).countP p + (p a).toNat = l.countP p + (p b).toNat := by
  obtain ⟨hk, rfl⟩ := List.getElem?_eq_some_iff.1 h
  have hle : (if p l[k] = true then 1 else 0) ≤ l.countP p := by
    split
    case isTrue hp => exact List.countP_pos_iff.2 ⟨_, List.getElem_mem hk, hp⟩
    case isFalse => exact Nat.zero_le _
  rw [List.countP_set hk]
  cases hp : p l[k] <;> cases hb : p b
  all_goals
    simp only [hp, if_true, Bool.false_eq_true, if_false, Bool.toNat_true, Bool.toNat_false]
      at hle ⊢
    omega

theorem countP_eraseIdx {α : Type*} {p : α → Bool} {l : List α} {k : ℕ} {a : α}
    (h : l[k]? = some a) (ha : p a = false) : (l.eraseIdx k).countP p = l.countP p := by
  obtain ⟨hk, rfl⟩ := List.getElem?_eq_some_iff.1 h
  rw [← (List.getElem_cons_eraseIdx_perm hk).countP_eq, List.countP_cons_of_neg]
  rw [ha]
  exact Bool.false_ne_true

theorem countP_concat {α : Type*} {p : α → Bool} {l : List α} {a : α} (ha : p a = false) :
    (l ++ [a]).countP p = l.countP p := by
  rw [List.countP_append, List.countP_singleton, ha]
  rfl

theorem countP_eraseIdx_add {α : Type*} {p : α → Bool} {l : List α} {k : ℕ} {a : α}
    (h : l[k]? = some a) (ha : p a = true) : (l.eraseIdx k).countP p + 1 = l.countP p := by
  obtain ⟨hk, rfl⟩ := List.getElem?_eq_some_iff.1 h
  rw [← (List.getElem_cons_eraseIdx_perm hk).countP_eq, List.countP_cons_of_pos ha]

theorem Sys.watch_of_task {s : Sys} {t : Traffic} {l : SysLabel} (hl : l.OfTask) :
    s.watch t l =
      { t with
        sent := t.sent ++ s.engine.accepted (s.performing l)
        hungUp := t.hungUp + l.hangsUp.toNat } := by
  cases l with
  | indexer => exact False.elim hl
  | _ => rfl

namespace Sys

/-- What a step of a task does, when the channel takes `jobs` from it and it drops `n` jobs that are
counted: the queue grows by the first, the counter moves as the queue and what the tasks owe, but
for the second, and the tasks go on to count. -/
structure Balances (s s' : Sys) (jobs : List IndexJob) (n : Nat) : Prop where
  indexer_eq : s'.engine.indexer = s.engine.indexer
  queue_eq : s'.engine.upsertQueue = s.engine.upsertQueue ++ jobs
  inflight_eq : s'.engine.inflight + s.beingSent =
    s.engine.inflight + s'.beingSent + jobs.length + n
  runs : ∀ run ∈ s'.runs, run.Counts
  imports : ∀ p ∈ s'.imports, ∃ b, Counted p b

variable {X : Crates} {s s' : Sys}

/-- A step that neither counts nor sends, and leaves the tasks with as many jobs on their way. -/
theorem Balances.of_eq (hindexer : s'.engine.indexer = s.engine.indexer)
    (hqueue : s'.engine.upsertQueue = s.engine.upsertQueue)
    (hinflight : s'.engine.inflight = s.engine.inflight)
    (hruns : ∀ run ∈ s'.runs, run.Counts) (himports : ∀ p ∈ s'.imports, ∃ b, Counted p b)
    (hsending : s'.beingSent = s.beingSent) : s.Balances s' [] 0 where
  indexer_eq := hindexer
  queue_eq := hqueue.trans (List.append_nil _).symm
  inflight_eq := by
    rw [hinflight, hsending]
    show _ = _ + ((0 : Nat) : Int) + ((0 : Nat) : Int)
    omega
  runs := hruns
  imports := himports

theorem beingSent_eq
    (hruns : s'.runs.countP CrawlRun.isSending = s.runs.countP CrawlRun.isSending)
    (himports : s'.imports.countP Crawl.isSending = s.imports.countP Crawl.isSending) :
    s'.beingSent = s.beingSent :=
  congrArg₂ (· + ·) hruns himports

/-- **The balance of a step of a task.** -/
theorem balances_of_step {l : SysLabel} (hcounts : ∀ run ∈ s.runs, run.Counts)
    (hcounted : ∀ p ∈ s.imports, ∃ b, Counted p b) (hl : l.OfTask)
    (hstep : (sysMachine X).step s l = some s') :
    s.Balances s' (s.engine.accepted (s.performing l)) l.hangsUp.toNat := by
  cases move_of_step hstep with
  | indexed | upsertFailed | crashed => exact False.elim hl
  | @crawled k l run run' e hk hr =>
    obtain ⟨hcounts', hindexer, hqueue, hinflight⟩ :=
      CrawlRun.balance_of_step (hcounts run (List.mem_of_getElem? hk)) hr
    have hperforming : s.performing (.crawl k l) = run.performing l := by
      rw [performing, hk]
      rfl
    rw [hperforming]
    refine ⟨hindexer, hqueue, ?_, fun run₁ hrun₁ ↦ ?_, hcounted⟩
    · have hset := countP_set_add (p := CrawlRun.isSending) (b := run') hk
      show e.inflight + ((s.runs.countP CrawlRun.isSending +
          s.imports.countP Crawl.isSending : Nat) : Int) =
        s.engine.inflight + (((s.runs.set k run').countP CrawlRun.isSending +
          s.imports.countP Crawl.isSending : Nat) : Int) + _ + ((0 : Nat) : Int)
      omega
    · rcases List.mem_or_eq_of_mem_set hrun₁ with hrun₁ | rfl
      · exact hcounts run₁ hrun₁
      · exact hcounts'
  | @importStepped k a o next r e hk hr =>
    obtain ⟨b, hb⟩ := hcounted _ (List.mem_of_getElem? hk)
    obtain ⟨hcounted', hindexer, hqueue, hinflight⟩ := Engine.balance_of_op hr hb
    have hperforming : s.performing (.import_ k a) = some o := by
      rw [performing, hk]
      rfl
    rw [hperforming]
    refine ⟨hindexer, hqueue, ?_, hcounts, fun p hp ↦ ?_⟩
    · have hset := countP_set_add (p := Crawl.isSending) (b := next r) hk
      show e.inflight + ((s.runs.countP CrawlRun.isSending +
          s.imports.countP Crawl.isSending : Nat) : Int) =
        s.engine.inflight + ((s.runs.countP CrawlRun.isSending +
          (s.imports.set k (next r)).countP Crawl.isSending : Nat) : Int) + _ + ((0 : Nat) : Int)
      omega
    · rcases List.mem_or_eq_of_mem_set hp with hp | rfl
      · exact hcounted p hp
      · exact hcounted'
  | importEnded hk =>
    exact Balances.of_eq rfl rfl rfl hcounts (fun p hp ↦ hcounted p (List.mem_of_mem_eraseIdx hp))
      (beingSent_eq rfl (countP_eraseIdx hk rfl))
  | @importDropped k job next hk =>
    -- the job has been counted, and nobody takes the count back
    have hsending : (s.imports.eraseIdx k).countP Crawl.isSending + 1 =
        s.imports.countP Crawl.isSending := countP_eraseIdx_add hk rfl
    refine ⟨rfl, (List.append_nil _).symm, ?_, hcounts,
      fun p hp ↦ hcounted p (List.mem_of_mem_eraseIdx hp)⟩
    show s.engine.inflight + ((s.runs.countP CrawlRun.isSending +
        s.imports.countP Crawl.isSending : Nat) : Int) =
      s.engine.inflight + ((s.runs.countP CrawlRun.isSending +
        (s.imports.eraseIdx k).countP Crawl.isSending : Nat) : Int) + ((0 : Nat) : Int) +
        ((1 : Nat) : Int)
    omega
  | runEnded hk hover =>
    exact Balances.of_eq rfl rfl rfl (fun run hrun ↦ hcounts run (List.mem_of_mem_eraseIdx hrun))
      hcounted (beingSent_eq (countP_eraseIdx hk (CrawlRun.isSending_of_isOver hover)) rfl)
  | runStarted =>
    refine Balances.of_eq rfl rfl rfl (fun run hrun ↦ ?_) hcounted
      (beingSent_eq (countP_concat (CrawlRun.isSending_start _ _ _ _)) rfl)
    rcases List.mem_append.1 hrun with hrun | hrun
    · exact hcounts run hrun
    · obtain rfl := List.mem_singleton.1 hrun
      exact CrawlRun.counts_start _ _ _ _
  | @imported _ _ db report jobs =>
    have hsend := counted_sendImport report jobs
    refine Balances.of_eq rfl rfl rfl hcounts (fun p hp ↦ ?_)
      (beingSent_eq rfl (countP_concat hsend.isSending_eq))
    rcases List.mem_append.1 hp with hp | hp
    · exact hcounted p hp
    · obtain rfl := List.mem_singleton.1 hp
      exact ⟨false, hsend⟩
  | _ => exact Balances.of_eq rfl rfl rfl hcounts hcounted rfl

end Sys

/-- Neither Tantivy nor the journal update fails in the step, and the process lives on. -/
def SysLabel.Succeeds : SysLabel → Prop
  | .indexer _ outcome => outcome = .done
  | .upsertFails | .crash => False
  | _ => True

instance : (l : SysLabel) → Decidable l.Succeeds
  | .indexer _ outcome => inferInstanceAs (Decidable (outcome = .done))
  | .upsertFails | .crash => inferInstanceAs (Decidable False)
  | .collections .. | .crawlTargets .. | .sendDeletes _ | .importEnvelope .. | .import_ .. |
    .endImport _ | .hangUp _ | .startRun .. | .crawl .. | .endRun .. =>
    inferInstanceAs (Decidable True)

/-- The entry of a job in the journal. -/
def IndexJob.journalEntry (job : IndexJob) : JournalEntry := job.asDocument.journalEntry

/-- **Conservation of jobs**, in a state and after what has been watched so far. -/
structure JobsConserved (X : Crates) (s : Sys) (t : Traffic) : Prop where
  /-- The counter of jobs in flight. -/
  inflight_eq : s.engine.inflight =
    s.beingSent + s.engine.upsertQueue.length + s.engine.uncommitted.length
  /-- The counter of the loop. -/
  pending_eq : ∀ ix, s.engine.indexer = some ix →
    ix.pending = ix.writer.pending.length ∧ ix.pending ≤ BATCH_SIZE
  /-- The counter of the loop in the middle of a turn, before the flush. -/
  pending_receive : ∀ event e ix flushes, s.engine.receive event = some (e, ix, flushes) →
    ix.pending = ix.writer.pending.length ∧ ix.pending ≤ BATCH_SIZE
  /-- Every job taken by the channel is received, in order, or queued. -/
  sent_eq : t.sent = t.received ++ s.engine.upsertQueue
  /-- Every job received is journaled, in order, or buffered. -/
  received_eq : t.received.map IndexJob.journalEntry = t.returned ++ s.engine.uncommitted
  /-- When the upsert channel closes, everything sent has been received and committed, and the
  counter is zero. -/
  closed : ∀ s', (sysMachine X).step s (.indexer .closed .done) = some s' →
    s'.engine.inflight = 0 ∧
      (s.watch t (.indexer .closed .done)).returned = t.sent.map IndexJob.journalEntry

/-! ### Every run -/

/-- The invariant behind the conservation of jobs. -/
structure Balanced (s : Sys) (t : Traffic) : Prop where
  runs : ∀ run ∈ s.runs, run.Counts
  imports : ∀ p ∈ s.imports, ∃ b, Counted p b
  /-- The counter has the jobs of the imports that were dropped as well. -/
  inflight_eq : s.engine.inflight =
    s.beingSent + s.engine.upsertQueue.length + s.engine.uncommitted.length + t.hungUp
  pending : ∀ ix, s.engine.indexer = some ix →
    ix.pending = ix.writer.pending.length ∧ ix.pending < BATCH_SIZE
  sent_eq : t.sent = t.received ++ s.engine.upsertQueue
  received_eq : t.received.map IndexJob.journalEntry = t.returned ++ s.engine.uncommitted

namespace Balanced

variable {X : Crates} {s s' : Sys} {t : Traffic}

/-- A process that has just started. -/
theorem start (db : Database) (index : List Document) :
    Balanced ⟨.start db index, [], [], []⟩ .none where
  runs _ h := absurd h List.not_mem_nil
  imports _ h := absurd h List.not_mem_nil
  inflight_eq := rfl
  pending := by
    rintro _ ⟨⟩
    exact ⟨rfl, by decide⟩
  sent_eq := rfl
  received_eq := rfl

/-- **One step keeps the balance**, if nothing fails in it. -/
theorem step (h : Balanced s t) {l : SysLabel} (hl : l.Succeeds)
    (hstep : (sysMachine X).step s l = some s') : Balanced s' (s.watch t l) := by
  by_cases htask : l.OfTask
  · obtain ⟨hindexer, hqueue, hcount, hruns, himports⟩ :=
      Sys.balances_of_step h.runs h.imports htask hstep
    have huncommitted : s'.engine.uncommitted = s.engine.uncommitted := by
      rw [Engine.uncommitted, Engine.uncommitted, hindexer]
    rw [Sys.watch_of_task htask]
    refine ⟨hruns, himports, ?_, fun ix hix ↦ h.pending ix (hindexer ▸ hix), ?_, ?_⟩
    · -- the counter moves with what is being sent, queued or left behind by a hang-up
      have hinflight := h.inflight_eq
      rw [huncommitted, hqueue, List.length_append]
      push_cast
      omega
    · rw [hqueue, ← List.append_assoc, ← h.sent_eq]
    · rw [huncommitted]
      exact h.received_eq
  · obtain ⟨event, outcome, rfl⟩ : ∃ event outcome, l = .indexer event outcome := by
      cases l with
      | indexer event outcome => exact ⟨event, outcome, rfl⟩
      | upsertFails | crash => exact False.elim hl
      | _ => exact absurd trivial htask
    obtain rfl : outcome = .done := hl
    have hs : s.step X (.indexer event .done) = some s' := hstep
    obtain ⟨-, hs⟩ := Option.ite_none_left_eq_some.1 hs
    obtain ⟨e, he, rfl⟩ := Option.map_eq_some_iff.1 hs
    obtain ⟨ix, hix⟩ : ∃ ix, s.engine.indexer = some ix := by
      obtain ⟨r, hr, -⟩ := Option.map_eq_some_iff.1 he
      exact Option.isSome_iff_exists.1 (Engine.receive_cases hr).1
    obtain ⟨htallied, hlt⟩ := h.pending ix hix
    obtain ⟨hpending, hjournal, hqueue, hcount, -⟩ := Engine.turn_done hix htallied hlt he
    refine ⟨h.runs, h.imports, ?_, hpending, ?_, ?_⟩
    · have hinflight := h.inflight_eq
      have hlength := congrArg List.length hjournal
      have hqueued := congrArg List.length hqueue
      rw [List.length_append, List.length_append, List.length_map] at hlength
      rw [List.length_append] at hqueued
      show e.inflight = s.beingSent + e.upsertQueue.length + e.uncommitted.length + t.hungUp
      omega
    · show t.sent = t.received ++ s.engine.receivedJobs event ++ e.upsertQueue
      rw [List.append_assoc, hqueue, h.sent_eq]
    · show (t.received ++ s.engine.receivedJobs event).map IndexJob.journalEntry =
        t.returned ++ s.engine.returned event .done ++ e.uncommitted
      rw [List.map_append, h.received_eq, List.append_assoc, List.append_assoc, hjournal]
      rfl

/-- When the upsert channel closes, everything sent has been committed, and the counter has only the
jobs of the imports that were dropped. -/
theorem closed (h : Balanced s t)
    (hs : (sysMachine X).step s (.indexer .closed .done) = some s') :
    s'.engine.inflight = t.hungUp ∧
      (s.watch t (.indexer .closed .done)).returned = t.sent.map IndexJob.journalEntry := by
  have hafter : Balanced s' (s.watch t (.indexer .closed .done)) := h.step rfl hs
  obtain ⟨hidle, hs⟩ := Option.ite_none_left_eq_some.1
    (show s.step X (.indexer .closed .done) = some s' from hs)
  obtain ⟨hruns, himports⟩ := not_or.1 (not_and.1 hidle rfl)
  obtain ⟨e, he, rfl⟩ := Option.map_eq_some_iff.1 hs
  obtain ⟨⟨e₁, ix₁, flushes⟩, hr, rfl⟩ := Option.map_eq_some_iff.1 he
  have hnothing : s.beingSent = 0 := by
    rw [Sys.beingSent, not_not.1 hruns, List.length_eq_zero_iff.1 (not_not.1 himports)]
    rfl
  refine ⟨?_, ?_⟩
  · rw [hafter.inflight_eq]
    show ((s.beingSent : Nat) : Int) + ((0 : Nat) : Int) + ((0 : Nat) : Int) + t.hungUp = t.hungUp
    rw [hnothing]
    exact Int.zero_add _
  · have hsent : t.sent = (s.watch t (.indexer .closed .done)).received :=
      hafter.sent_eq.trans (List.append_nil _)
    rw [hsent, hafter.received_eq]
    exact (List.append_nil _).symm

/-- A balanced state conserves jobs if no import was dropped. -/
theorem conserved (h : Balanced s t) (hnone : t.hungUp = 0) : JobsConserved X s t where
  inflight_eq := by
    have hinflight := h.inflight_eq
    rw [hnone] at hinflight
    exact hinflight.trans (Int.add_zero _)
  pending_eq ix hix := (h.pending ix hix).imp_right le_of_lt
  pending_receive event e ix flushes hr := by
    obtain ⟨ix₀, hix₀⟩ := Option.isSome_iff_exists.1 (Engine.receive_cases hr).1
    obtain ⟨htallied, hlt⟩ := h.pending ix₀ hix₀
    obtain ⟨-, hpending, hle, -⟩ := Engine.receive_pending hix₀ htallied hlt hr
    exact ⟨hpending, hle⟩
  sent_eq := h.sent_eq
  received_eq := h.received_eq
  closed s' hs := by
    obtain ⟨hinflight, hreturned⟩ := h.closed hs
    exact ⟨hinflight.trans (congrArg _ hnone), hreturned⟩

end Balanced

/-- What has been watched of a run knows how many of its steps drop an import. -/
theorem hungUp_observe {X : Crates} {s s' : Sys} {t : Traffic} {labels : List SysLabel}
    (hrun : (sysMachine X).run s labels = some s') :
    ((sysMachine X).observe Sys.watch t s labels).hungUp =
      t.hungUp + labels.countP SysLabel.hangsUp := by
  induction labels generalizing s t with
  | nil => rfl
  | cons l labels ih =>
    obtain ⟨s₁, hs₁, hrest⟩ := Machine.run_cons_eq_some _ |>.1 hrun
    have hwatch : (s.watch t l).hungUp = t.hungUp + if l.hangsUp then 1 else 0 := by
      cases l <;> rfl
    rw [Machine.observe, hs₁, List.countP_cons]
    dsimp only
    rw [ih hrest, hwatch, Nat.add_assoc, Nat.add_comm (ite ..)]

/-- **Conservation of jobs.** Take any run of a process, over whatever database and index it starts
with, in which no commit, journal update or upsert fails. At its end the counter of jobs in flight
is the number of jobs being sent, queued and buffered; the counter of the loop is the length of the
writer's journal and at most `BATCH_SIZE`; the journals returned by the commits, one after the
other, are those of the jobs received, in order; and when the upsert channel closes every job has
been committed and the counter is zero: all this exactly when no client of an import has hung up
while the import waited to send. -/
theorem jobsConserved_iff (X : Crates) (db : Database) (index : List Document)
    (labels : List SysLabel) (s : Sys) (hok : ∀ l ∈ labels, l.Succeeds)
    (hrun : (sysMachine X).run ⟨.start db index, [], [], []⟩ labels = some s) :
    JobsConserved X s ((sysMachine X).observe Sys.watch .none ⟨.start db index, [], [], []⟩
      labels) ↔ ∀ k, .hangUp k ∉ labels := by
  have hguarded : (sysMachine X).Guarded (fun _ l ↦ l.Succeeds) ⟨.start db index, [], [], []⟩
      labels := (sysMachine X).guarded_of_forall hok
  have hbalanced : Balanced s ((sysMachine X).observe Sys.watch .none
      ⟨.start db index, [], [], []⟩ labels) := by
    refine Machine.observed_invariant (I := Balanced) ?_ (.start db index) hguarded hrun
    exact fun _ _ _ _ hI hl hs ↦ hI.step hl hs
  have hcount := hungUp_observe (t := .none) hrun
  have hnone : labels.countP SysLabel.hangsUp = 0 ↔ ∀ k, .hangUp k ∉ labels := by
    rw [List.countP_eq_zero]
    constructor
    · exact fun h k hk ↦ h _ hk rfl
    · intro h l hl
      cases l with
      | hangUp k => exact absurd hl (h k)
      | _ => exact Bool.false_ne_true
  rw [← hnone]
  constructor
  · intro h
    have hinflight := h.inflight_eq.symm.trans hbalanced.inflight_eq
    rw [hcount] at hinflight
    have hzero : Traffic.none.hungUp = 0 := rfl
    omega
  · intro h
    exact hbalanced.conserved (hcount.trans ((Nat.zero_add _).trans h))

/-! ### One page -/

namespace OnePage

/-- A page is crawled and committed, and the process shuts down. -/
def shutdown : List SysLabel :=
  install ++ [startRun due 1000] ++ fetch 0 false page ++ send 0 ++ write 0 ++
    [.crawl 0 .next, .crawl 0 .next, .endRun 0 true, .indexer .upsert .done,
      .indexer .closed .done]

theorem jobsConserved_shutdown :
    ∃ s, (sysMachine crates).run ⟨.start .empty [], [], [], []⟩ shutdown = some s ∧
      JobsConserved crates s ((sysMachine crates).observe Sys.watch .none
        ⟨.start .empty [], [], [], []⟩ shutdown) := by
  obtain ⟨s, hrun, -⟩ := Machine.exists_run_of_any
    (show ((sysMachine crates).run ⟨.start .empty [], [], [], []⟩ shutdown).any
      (fun s ↦ s.engine.indexer.isNone) = true by decide +kernel)
  have hnever : ∀ l ∈ shutdown, l.hangsUp = false := by decide
  refine ⟨s, hrun, (jobsConserved_iff crates .empty [] shutdown s (by decide) hrun).2 ?_⟩
  exact fun k hk ↦ Bool.noConfusion (hnever _ hk)

end OnePage

/-! ### An import that is dropped -/

namespace Backlog

variable {X : Crates} {report : ImportReport}

/-- A step that commits an import. -/
theorem step_importEnvelope {s : Sys} {env : ExportEnvelope} {ts : String} {db : Database}
    {jobs : List IndexJob}
    (h : acceptImport X s.engine.db ts (.ok env) = .ok (db, report, jobs)) :
    (sysMachine X).step s (.importEnvelope env ts) =
      some { s.withDb db with imports := s.imports ++ [sendImport report jobs] } := by
  show s.step X (.importEnvelope env ts) = _
  simp only [Sys.step, h]

/-- What is left of an import that has counted a job. -/
def sendCounted (report : ImportReport) (job : IndexJob) (jobs : List IndexJob) :
    Crawl (Except ApiError ImportReport) :=
  .op (.send job) fun sent ↦
    if sent then sendImport report jobs
    else .op (.inflightAdd (-1)) fun _ ↦
      .ret (.error ⟨500, "indexer channel closed mid-import: channel closed"⟩)

/-- The `n` next jobs of the only import are sent. -/
def sends (n : Nat) : List SysLabel :=
  (List.replicate n [.import_ 0 .ok, .import_ 0 .ok]).flatten

/-- As long as there is room, the channel takes them. -/
theorem run_sends {jobs rest : List IndexJob} {e : Engine} {ix : Indexer}
    (hix : e.indexer = some ix) (hroom : e.upsertQueue.length + jobs.length ≤ CHANNEL_CAPACITY) :
    (sysMachine X).run ⟨e, [], [sendImport report (jobs ++ rest)], []⟩ (sends jobs.length) =
      some ⟨{ e with
        upsertQueue := e.upsertQueue ++ jobs
        inflight := e.inflight + jobs.length }, [], [sendImport report rest], []⟩ := by
  induction jobs generalizing e with
  | nil => simp [sends]
  | cons job jobs ih =>
    rw [List.length_cons] at hroom
    have hlt : e.upsertQueue.length < CHANNEL_CAPACITY := by omega
    have hlabels : sends (job :: jobs).length =
        .import_ 0 .ok :: .import_ 0 .ok :: sends jobs.length := rfl
    have hcounted : (sysMachine X).step ⟨e, [], [sendImport report (job :: jobs ++ rest)], []⟩
        (.import_ 0 .ok) = some ⟨{ e with inflight := e.inflight + 1 }, [],
          [sendCounted report job (jobs ++ rest)], []⟩ := rfl
    have hsent : (sysMachine X).step ⟨{ e with inflight := e.inflight + 1 }, [],
          [sendCounted report job (jobs ++ rest)], []⟩ (.import_ 0 .ok) =
        some ⟨{ e with inflight := e.inflight + 1, upsertQueue := e.upsertQueue ++ [job] }, [],
          [sendImport report (jobs ++ rest)], []⟩ := by
      simp [sysMachine, Sys.step, sendCounted, Engine.perform, hix, hlt]
    have hmore : (e.upsertQueue ++ [job]).length + jobs.length ≤ CHANNEL_CAPACITY := by
      rw [List.length_append, List.length_singleton]
      omega
    rw [hlabels, Machine.run_cons, hcounted, Option.bind_some, Machine.run_cons, hsent,
      Option.bind_some,
      ih (e := { e with inflight := e.inflight + 1, upsertQueue := e.upsertQueue ++ [job] })
        hix hmore]
    dsimp only
    rw [List.append_assoc, List.length_cons, Int.add_assoc]
    push_cast
    rw [Int.add_comm 1]
    rfl

/-- One document more than the channel has room for. -/
def envelope : ExportEnvelope where
  formatVersion := 1
  exportedAt := "t1"
  selfUrl := "https://mirror.example"
  collections := [{
    name := "mirror", description := "", createdAt := "", updatedAt := ""
    documents := List.replicate (CHANNEL_CAPACITY + 1)
      ⟨"https://guide.example/", "Mirror", "Copy", 0⟩ }]

/-- The import fills the channel and waits, and its client hangs up. -/
def dropped : List SysLabel :=
  .importEnvelope envelope "t2" :: sends CHANNEL_CAPACITY ++ [.import_ 0 .ok, .hangUp 0]

theorem exists_run_dropped :
    ∃ s, (sysMachine OnePage.crates).run ⟨.start .empty [], [], [], []⟩ dropped = some s := by
  have hcommitted : (acceptImport OnePage.crates .empty "t2" (.ok envelope)).toOption.any
      (fun r ↦ r.2.2.length = CHANNEL_CAPACITY + 1) = true := by decide +kernel
  rcases himport : acceptImport OnePage.crates .empty "t2" (.ok envelope) with
    err | ⟨db, report, jobs⟩
  · rw [himport] at hcommitted
    cases hcommitted
  · rw [himport] at hcommitted
    have hlength : jobs.length = CHANNEL_CAPACITY + 1 := of_decide_eq_true hcommitted
    obtain ⟨taken, last, rfl⟩ : ∃ taken last, jobs = taken ++ [last] :=
      ⟨_, _, (List.dropLast_append_getLast (List.ne_nil_of_length_eq_add_one hlength)).symm⟩
    have htaken : taken.length = CHANNEL_CAPACITY := by
      rw [List.length_append, List.length_singleton] at hlength
      exact Nat.succ.inj hlength
    have hsends := @run_sends OnePage.crates report taken [last] (.start db []) _ rfl
      ((Nat.zero_add _).trans htaken).le
    rw [htaken] at hsends
    refine Option.isSome_iff_exists.1 ?_
    rw [dropped, Machine.run_append, Machine.run_cons, step_importEnvelope himport,
      Option.bind_some]
    exact (congrArg (fun o ↦ (Option.bind o _).isSome) hsends).trans rfl

/-- Nothing fails, and the counter is one more than the jobs there are. -/
theorem not_jobsConserved :
    ¬ ∀ X db index labels s, (∀ l ∈ labels, SysLabel.Succeeds l) →
      (sysMachine X).run ⟨.start db index, [], [], []⟩ labels = some s →
      JobsConserved X s ((sysMachine X).observe Sys.watch .none ⟨.start db index, [], [], []⟩
        labels) := by
  intro h
  obtain ⟨s, hrun⟩ := exists_run_dropped
  have hok : ∀ l ∈ dropped, l.Succeeds := by decide +kernel
  have hnever := (jobsConserved_iff _ _ _ _ s hok hrun).1 (h _ _ _ _ s hok hrun)
  exact hnever 0 (List.mem_append_right _ (List.mem_cons_of_mem _ List.mem_cons_self))

end Backlog

end CommunitySearch
