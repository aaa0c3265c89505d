import CommunitySearch.Api.ImportContract

/-!
# Failed imports and their retries

An import commits its rows, releases the lock and sends its documents. The channel of the indexer
may be closed on the way; the request fails then, and the rows stay. A retry skips every collection
whose name is taken, so it skips those of the failed attempt and queues none of their documents
(`handleImport_again`): a failed import can be made up for exactly when it has committed nothing,
and an import that has committed does not fail exactly when the channel takes all its documents.

The channel a request meets is described by how many documents it takes before it is closed.
-/

namespace CommunitySearch

/-- The channel of the indexer as an import meets it. -/
structure Channel where
  /-- How many more documents it takes before it is closed; `none` if it stays open. -/
  room : Option Nat
  queued : List IndexJob
  /-- `indexing_inflight`. -/
  inflight : Int

/-- The answer to an operation of an import. -/
def Channel.answer (c : Channel) : (o : CrawlOp) → Option (o.Resp × Channel)
  | .inflightAdd n => some ((), { c with inflight := c.inflight + n })
  | .send job =>
    match c.room with
    | none => some (true, { c with queued := c.queued ++ [job] })
    | some 0 => some (false, c)
    | some (n + 1) => some (true, { c with room := some n, queued := c.queued ++ [job] })
  | _ => none

/-- What a request to the import endpoint has left. -/
structure ImportOutcome where
  response : Except ApiError ImportReport
  db : Database
  queued : List IndexJob

/-- A document with the name of its collection: what a job carries that does not depend on the
identifiers drawn. -/
def IndexJob.exported (job : IndexJob) : String × ExportedDocument :=
  (job.collectionName, ⟨job.url, job.title, job.body, job.indexedAt⟩)

/-- The documents of the collections. -/
def exportedDocuments (cs : List ExportedCollection) : List (String × ExportedDocument) :=
  cs.flatMap fun c ↦ c.documents.map (Prod.mk c.name)

/-- The documents to import: those of the collections that are new to the database. -/
def newDocuments (db : Database) (env : ExportEnvelope) : List (String × ExportedDocument) :=
  exportedDocuments (newCollections db.collectionNames env.collections)

variable (X : Crates)

/-- `handle_import` on a body that decodes, with a channel that takes `room` documents. -/
def handleImport (db : Database) (ts : String) (env : ExportEnvelope) (room : Option Nat) :
    Option ImportOutcome :=
  match acceptImport X db ts (.ok env) with
  | .ok (db', report, jobs) =>
    (Prog.run Channel.answer (sendImport report jobs) ⟨room, [], 0⟩).map fun (response, c) ↦
      ⟨response, db', c.queued⟩
  | .error err => some ⟨.error err, db, []⟩

/-- The request is refused before anything is committed. -/
def RefusesImport (db : Database) (ts : String) (env : ExportEnvelope) : Prop :=
  env.formatVersion ≠ FORMAT_VERSION ∨ committedImport X ts env db = none

/-- **Nothing is lost by a failure**: the request succeeds, or it has left the database unchanged,
or every retry with a channel that stays open queues every document it has not queued. -/
def ImportRecovers (db : Database) (ts : String) (env : ExportEnvelope) (room : Option Nat) :
    Prop :=
  ∃ out, handleImport X db ts env room = some out ∧
    ((∃ report, out.response = .ok report) ∨ out.db = db ∨
      ∀ ts', ∃ again, handleImport X out.db ts' env none = some again ∧
        ∀ d ∈ (newDocuments db env).drop out.queued.length,
          d ∈ again.queued.map IndexJob.exported)

variable {X} {db db' : Database} {ts : String} {env : ExportEnvelope}

/-! ### The documents that are sent -/

/-- A channel that takes all the documents. -/
theorem run_sendImport {jobs : List IndexJob} (report : ImportReport) (room : Option Nat)
    (queued : List IndexJob) (inflight : Int) (hroom : ∀ n, room = some n → jobs.length ≤ n) :
    ∃ c, Prog.run Channel.answer (sendImport report jobs) ⟨room, queued, inflight⟩ =
      some (.ok report, c) ∧ c.queued = queued ++ jobs := by
  induction jobs generalizing room queued inflight with
  | nil => exact ⟨_, rfl, (List.append_nil queued).symm⟩
  | cons job jobs ih =>
    match room with
    | none =>
      obtain ⟨c, hc, hqueued⟩ := ih none (queued ++ [job]) (inflight + 1) fun n hn ↦ (nomatch hn)
      exact ⟨c, hc, by rw [hqueued, List.append_assoc, List.singleton_append]⟩
    | some 0 =>
      have hlen := hroom 0 rfl
      rw [List.length_cons] at hlen
      omega
    | some (n + 1) =>
      have hlen := hroom (n + 1) rfl
      rw [List.length_cons] at hlen
      obtain ⟨c, hc, hqueued⟩ := ih (some n) (queued ++ [job]) (inflight + 1)
        fun m hm ↦ by
          obtain rfl := Option.some.inj hm
          omega
      exact ⟨c, hc, by rw [hqueued, List.append_assoc, List.singleton_append]⟩

/-- A channel that is closed before. -/
theorem run_sendImport_closed {jobs : List IndexJob} {n : Nat} (report : ImportReport)
    (queued : List IndexJob) (inflight : Int) (hroom : n < jobs.length) :
    ∃ err c, Prog.run Channel.answer (sendImport report jobs) ⟨some n, queued, inflight⟩ =
      some (.error err, c) ∧ c.queued = queued ++ jobs.take n := by
  induction jobs generalizing n queued inflight with
  | nil => exact absurd hroom (Nat.not_lt_zero n)
  | cons job jobs ih =>
    match n with
    | 0 => exact ⟨_, _, rfl, (List.append_nil queued).symm⟩
    | n + 1 =>
      obtain ⟨err, c, hc, hqueued⟩ := ih (queued ++ [job]) (inflight + 1)
        (Nat.lt_of_succ_lt_succ hroom)
      exact ⟨err, c, hc, by
        rw [hqueued, List.append_assoc, List.singleton_append, List.take_succ_cons]⟩

/-- **The jobs of an import** are the documents of the collections that are new. -/
theorem exported_jobs {report : ImportReport} {jobs : List IndexJob}
    (h : committedImport X ts env db = some (db', report, jobs)) :
    jobs.map IndexJob.exported = newDocuments db env := by
  obtain ⟨db₁, acc, _, _, hcollections, -, -, rfl⟩ := committedImport_eq_some.1 h
  have hjobs := newCollections_invariant (I := fun rest _ jobs ↦
    jobs.map IndexJob.exported ++ exportedDocuments rest = newDocuments db env)
    (fun c rest _ acc _ acc' hI hc ↦ by
      obtain ⟨_, _, _, _, _, -, -, -, -, rfl⟩ := exec_importCollection_eq_some.1 hc
      rw [exportedDocuments, List.flatMap_cons, ← List.append_assoc] at hI
      rw [List.map_append, List.map_map]
      exact hI) rfl hcollections
  rw [exportedDocuments, List.flatMap_nil, List.append_nil] at hjobs
  exact hjobs

theorem exists_new_of_newCollections {known : List String} {cs : List ExportedCollection}
    (h : newCollections known cs ≠ []) : ∃ c ∈ cs, c.name ∉ known := by
  by_contra hnone
  push Not at hnone
  refine h ?_
  induction cs with
  | nil => rfl
  | cons c cs ih =>
    rw [newCollections, if_pos (hnone c List.mem_cons_self)]
    have hcs := fun c' hc' ↦ hnone c' (List.mem_cons_of_mem c hc')
    by_contra hne
    exact hne (ih hne hcs)

/-! ### Requests -/

theorem acceptImport_eq_ok {r : Database × ImportReport × List IndexJob} :
    acceptImport X db ts (.ok env) = .ok r ↔
      env.formatVersion = FORMAT_VERSION ∧ committedImport X ts env db = some r := by
  rw [acceptImport]
  split
  case isTrue hversion =>
    split
    case h_1 r' hr => rw [hr, Except.ok.injEq, Option.some.injEq, and_iff_right hversion]
    case h_2 hnone => simp [hnone]
  case isFalse hversion => simp [hversion]

theorem exists_error_of_refuses (h : RefusesImport X db ts env) :
    ∃ err, acceptImport X db ts (.ok env) = .error err := by
  rcases hr : acceptImport X db ts (.ok env) with err | r
  · exact ⟨err, rfl⟩
  · obtain ⟨hversion, hsome⟩ := acceptImport_eq_ok.1 hr
    rcases h with h | h
    · exact absurd hversion h
    · exact nomatch h.symm.trans hsome

theorem exists_ok_of_not_refuses (h : ¬ RefusesImport X db ts env) :
    env.formatVersion = FORMAT_VERSION ∧
      ∃ db' report jobs, committedImport X ts env db = some (db', report, jobs) := by
  obtain ⟨hversion, hsome⟩ := not_or.1 h
  obtain ⟨⟨db', report, jobs⟩, hr⟩ := Option.ne_none_iff_exists'.1 hsome
  exact ⟨not_not.1 hversion, db', report, jobs, hr⟩

/-- **Every retry of an import that has committed** queues nothing, whatever has become of the
first attempt. -/
theorem handleImport_again {report : ImportReport} {jobs : List IndexJob}
    (hversion : env.formatVersion = FORMAT_VERSION)
    (h : committedImport X ts env db = some (db', report, jobs)) (ts' : String)
    (room : Option Nat) :
    ∃ report', handleImport X db' ts' env room = some ⟨.ok report', db', []⟩ := by
  obtain ⟨report', hagain, -⟩ :=
    committedImport_again (X := X) (imported_of_committedImport h).absorbed ts'
  refine ⟨report', ?_⟩
  rw [handleImport, acceptImport_eq_ok.2 ⟨hversion, hagain⟩]
  rfl

theorem importRecovers_of_refuses {room : Option Nat} (h : RefusesImport X db ts env) :
    ImportRecovers X db ts env room := by
  obtain ⟨err, herr⟩ := exists_error_of_refuses h
  refine ⟨⟨.error err, db, []⟩, ?_, Or.inr (Or.inl rfl)⟩
  rw [handleImport, herr]

theorem importRecovers_of_room {room : Option Nat}
    (h : ∀ n, room = some n → (newDocuments db env).length ≤ n) :
    ImportRecovers X db ts env room := by
  by_cases hrefuses : RefusesImport X db ts env
  · exact importRecovers_of_refuses hrefuses
  · obtain ⟨hversion, db', report, jobs, hr⟩ := exists_ok_of_not_refuses hrefuses
    have hjobs := congrArg List.length (exported_jobs hr)
    rw [List.length_map] at hjobs
    obtain ⟨c, hc, hqueued⟩ := run_sendImport report room [] 0
      fun n hn ↦ hjobs ▸ h n hn
    refine ⟨⟨.ok report, db', c.queued⟩, ?_, Or.inl ⟨report, rfl⟩⟩
    rw [handleImport, acceptImport_eq_ok.2 ⟨hversion, hr⟩]
    show (Prog.run _ _ _).map _ = _
    rw [hc]
    rfl

/-- A channel that is closed before the last document loses the rest. -/
theorem not_importRecovers {n : Nat} (hrefuses : ¬ RefusesImport X db ts env)
    (hroom : n < (newDocuments db env).length) :
    ¬ ImportRecovers X db ts env (some n) := by
  obtain ⟨hversion, db', report, jobs, hr⟩ := exists_ok_of_not_refuses hrefuses
  have hjobs := congrArg List.length (exported_jobs hr)
  rw [List.length_map] at hjobs
  obtain ⟨err, c, hc, hqueued⟩ := run_sendImport_closed report [] 0
    (hjobs ▸ hroom)
  have hout : handleImport X db ts env (some n) = some ⟨.error err, db', c.queued⟩ := by
    rw [handleImport, acceptImport_eq_ok.2 ⟨hversion, hr⟩]
    show (Prog.run _ _ _).map _ = _
    rw [hc]
    rfl
  rintro ⟨out, hfirst, hcase⟩
  obtain rfl := Option.some.inj (hfirst.symm.trans hout)
  rcases hcase with ⟨report', hok⟩ | hsame | hagain
  · cases hok
  · have hne : newCollections db.collectionNames env.collections ≠ [] := by
      intro hnil
      rw [newDocuments, hnil] at hroom
      exact absurd hroom (Nat.not_lt_zero n)
    obtain ⟨c', hc', hnew⟩ := exists_new_of_newCollections hne
    have hthere := (imported_of_committedImport hr).absorbed.collections c' hc'
    have hsame : db' = db := hsame
    rw [hsame] at hthere
    exact hnew hthere
  · obtain ⟨again, hretry, hdocs⟩ := hagain ts
    obtain ⟨report', hretry'⟩ := handleImport_again hversion hr ts none
    obtain rfl := Option.some.inj (hretry.symm.trans hretry')
    have hlen : c.queued.length = n := by
      rw [hqueued, List.nil_append, List.length_take]
      omega
    obtain ⟨d, hd⟩ := List.exists_mem_of_ne_nil
      ((newDocuments db env).drop c.queued.length) (by
        rw [hlen, ← List.length_pos_iff, List.length_drop]
        omega)
    exact absurd (hdocs d hd) List.not_mem_nil

/-- **Exactly when nothing is lost**: the request is refused before it commits anything, or the
channel takes every document of the collections that are new. -/
theorem importRecovers_iff (db : Database) (ts : String) (env : ExportEnvelope)
    (room : Option Nat) :
    ImportRecovers X db ts env room ↔ RefusesImport X db ts env ∨
      ∀ n, room = some n → (newDocuments db env).length ≤ n := by
  constructor
  · intro h
    by_contra hneither
    obtain ⟨hrefuses, hroom⟩ := not_or.1 hneither
    push Not at hroom
    obtain ⟨n, rfl, hlt⟩ := hroom
    exact not_importRecovers hrefuses hlt h
  · rintro (h | h)
    · exact importRecovers_of_refuses h
    · exact importRecovers_of_room h

namespace OneDocument

/-- What the crates compute on the document. -/
def crates : Crates := .ofTables
  { urls := []
    joins := []
    documents := []
    disallowed := []
    digests := [("Copy", "e21f935f11d7e966dbbae78da9daa378fe8142a14e7c0cd7434183005faa6c5c")] }

/-- A collection with one document. -/
def envelope : ExportEnvelope where
  formatVersion := 1
  exportedAt := "t0"
  selfUrl := ""
  collections := [{
    name := "guide"
    description := ""
    createdAt := "t0"
    updatedAt := "t0"
    documents := [⟨"https://guide.example/", "Guide", "Copy", 0⟩] }]

/-- **A document is lost** when the channel is closed before it is sent: the collection is there,
and no retry queues its document. -/
theorem not_importRecovers_closed : ¬ ImportRecovers crates .empty "t1" envelope (some 0) := by
  refine not_importRecovers ?_ Nat.zero_lt_one
  rw [RefusesImport, not_or, not_not, ← ne_eq, ← Option.isSome_iff_ne_none]
  exact ⟨rfl, rfl⟩

end OneDocument

end CommunitySearch
