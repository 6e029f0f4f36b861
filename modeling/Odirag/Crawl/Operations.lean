import Odirag.Crawl.Steps
import Odirag.Foundations.Parties

/-!
# Everything that moves a crawl task

Reference: `backend/app/services/crawl.py` (`retry`, `mark_queue_failure`, `mark_queued`,
`cancel`), `backend/app/repositories/crawl.py` (`recover_stale_tasks`),
`backend/app/repositories/reviews.py` (`reconcile_crawl_tasks`).

Every call that works on the task is a party, and a step of a party is one database statement
with its commit. Two kinds of step change the row: a conditional UPDATE, whose effect on the
status is a `StatusUpdate`, and the commit of a session (`Party.commits`). `next_cases` is what
the rest of the development uses of the step function.
-/

namespace Odirag.Crawl

open Documents CrawlRepository CrawlTaskStateMachine

/-! ## Operations that load the task and save it -/

/-- The operations that assign a loaded task in memory and save it. -/
inductive SaveKind
  | retry
  | markQueueFailure (errorType : String)
  | recoverStaleTasks
deriving DecidableEq, Repr

/-- `CrawlService.retry`, up to its save. -/
def retry (now : DateTime) (task : CrawlTask) : Except Exc CrawlTask :=
  match transition task .pending none now with
  | .ok task => .ok { task with retryCount := task.retryCount + 1 }
  | .error exc => .error (.app "INVALID_TASK_STATE" exc.message)

/-- `CrawlService.mark_queue_failure`, up to its save; `none` when it returns the task as it is. -/
def markQueueFailure (errorType : String) (now : DateTime) (task : CrawlTask) :
    Except Exc (Option CrawlTask) :=
  if task.status ≠ .pending ∧ task.status ≠ .queued then .ok none
  else
    (transition task .failed (some ("TASK_QUEUE_UNAVAILABLE:" ++ errorType)) now).map fun task =>
      some { task with
        providerErrorCode := some "TASK_QUEUE_UNAVAILABLE"
        providerErrorMessage := some ("Crawl task could not be queued: " ++ errorType)
        providerStatus := some .failed
        failedCount := task.failedCount + 1 }

/-- What an operation assigns to the task it has loaded; `none` when there is nothing to save. -/
def SaveKind.assign (cfg : Config) (now : DateTime) (k : SaveKind) (task : CrawlTask) :
    Except Exc (Option CrawlTask) :=
  match k with
  | .retry => (Crawl.retry now task).map some
  | .markQueueFailure errorType => Crawl.markQueueFailure errorType now task
  | .recoverStaleTasks =>
      if isStale (now - cfg.staleAfter) task then
        .ok (some (recoverStaleTask cfg.maxRecoveryAttempts now task))
      else .ok none

/-! ## Cancellation -/

/-- The points of a `cancel` call. Its attempts are bounded: `left` counts those that remain after
the present one. -/
inductive Cancel
  | load
  /-- Before the conditional UPDATE, for the task as this call knows it. -/
  | update (left : ℕ) (task : CrawlTask) (allowed : task.status.Cancellable)
  /-- Before the refresh that follows the UPDATE. -/
  | refresh (left : ℕ) (won : Bool)
  | returned
  | raised (exc : Exc)
deriving DecidableEq

namespace Cancel

/-- The provider status and message that a cancellation records. -/
def reason (task : CrawlTask) : ProviderStatus × Option String :=
  if task.status ∈ [TaskStatus.callingCoze, .cozeRunning, .normalizing] then
    (.cancelRequestedLocalOnly,
      some ("The synchronous Coze request cannot be cancelled remotely; " ++
        "local normalization and document saving will be skipped."))
  else if task.status = .running ∧ task.providerStatus = some .localRunning then
    (.cancelRequestedLocalOnly,
      some ("The local crawl cannot interrupt an in-flight fetch; " ++
        "document saving will be skipped when it returns."))
  else (.cancelledBeforeStart, none)

/-- The check at the head of an attempt. -/
def check (left : ℕ) (task : CrawlTask) : Cancel :=
  if h : task.status.Cancellable then .update left task h
  else .raised (.app "INVALID_TASK_STATE"
    ("cannot transition crawl task from " ++ task.status.text ++ " to cancelled"))

/-- The next database statement of a `cancel` call. -/
def step (now : DateTime) (db : Db) : Cancel → Option (Db × Cancel)
  | .load => some (db, check 2 db.task)
  | .update left task _ =>
      match cancelTaskIfStatus task.status (reason task).1 (reason task).2 now db with
      | (db', won) => some (db', .refresh left won)
  | .refresh _ true => some (db, .returned)
  | .refresh 0 false => some (db, .raised (.app "TASK_STATE_CHANGED"
      "Crawl task changed state while cancellation was requested"))
  -- The `get` of the next attempt returns the object that this refresh has just loaded.
  | .refresh (left + 1) false => some (db, check left db.task)
  | .returned => none
  | .raised _ => none

end Cancel

/-! ## Review decisions -/

/-- A decision on one document of the task; `flushed` says whether the counts that follow see
it. -/
structure ReviewDecision where
  canonicalUrl : String
  finalStatus : FinalStatus
  manualReviewStatus : Option ManualReviewStatus := none
  flushed : Bool := true
deriving DecidableEq, Repr

namespace ReviewDecision

/-- The documents after the decision. -/
def apply (d : ReviewDecision) (documents : List CrawlDocument) : List CrawlDocument :=
  documents.map fun doc =>
    if doc.canonicalUrl = d.canonicalUrl then
      { doc with
        finalStatus := d.finalStatus
        manualReviewStatus := d.manualReviewStatus.getD doc.manualReviewStatus }
    else doc

/-- The decided document is linked to the task. -/
def links (d : ReviewDecision) (documents : List CrawlDocument) : Bool :=
  documents.any fun doc => doc.canonicalUrl == d.canonicalUrl && doc.linked

/-- Decide the document and reconcile the task. The row lock of `SELECT ... FOR UPDATE` is held
until the commit, so for the task this is one step. -/
def step (now : DateTime) (d : ReviewDecision) (db : Db) : Db :=
  let documents := d.apply db.documents
  if db.task.status = .waitingReview ∧ d.links db.documents then
    let seen := (if d.flushed then documents else db.documents).filter (·.linked)
    { db with
      documents
      task := db.task.reconcile (seen.countP (·.finalStatus == .approved))
        (seen.countP (·.finalStatus == .rejected)) seen.length now }
  else { db with documents }

end ReviewDecision

/-! ## Parties -/

/-- One call that works on the task. -/
inductive Party
  | worker (w : Worker)
  | cancel (c : Cancel)
  /-- A load-and-save operation before its SELECT. -/
  | load (k : SaveKind)
  /-- A load-and-save operation before its commit. -/
  | save (k : SaveKind) (m : Session)
  | markQueued
  | failedUrl (f : FailedUrl)
  | review
  | returned
  | raised (exc : Exc)
deriving DecidableEq

/-- The choices of a step: the clock, and what the world does. -/
inductive Act
  | step (now : DateTime) (o : Outcome)
  | review (now : DateTime) (d : ReviewDecision)
deriving DecidableEq

namespace Party

/-- A call that has not started. -/
def AtStart : Party → Prop
  | .worker .start | .cancel .load | .load _ | .markQueued | .failedUrl (.load _) | .review => True
  | _ => False

/-- The next step of a party. -/
def next (cfg : Config) (a : Act) (db : Db) (p : Party) : Option (Db × Party) :=
  match p, a with
  | .worker w, .step now o => (w.step cfg now o db).map fun r => (r.1, .worker r.2)
  | .cancel c, .step now .next => (c.step now db).map fun r => (r.1, .cancel r.2)
  | .load k, .step now .next =>
      match k.assign cfg now db.task with
      | .ok (some task) => some (db, .save k ((Session.load db).assign fun _ => task))
      | .ok none => some (db, .returned)
      | .error exc => some (db, .raised exc)
  | .save _ m, .step _ .next => some (m.commit db, .returned)
  | .markQueued, .step _ .next =>
      some ((advanceTaskIfStatus .pending .queued (.ofStatus .queued) .queued db).1, .returned)
  | .failedUrl f, .step now o => (f.step cfg now o db).map fun r => (r.1, .failedUrl r.2)
  | .review, .review now d => some (d.step now db, .returned)
  | _, _ => none

end Party

/-- The session that a retry of a failed URL commits when its next statement succeeds. -/
def FailedUrl.pendingCommit (db : Db) : FailedUrl → Option Session
  | .begin r => some r.session
  | .commit r => if r.Violates db then none else some r.session
  | _ => none

namespace Party

/-- The session that a step of a party commits. -/
def commits (db : Db) (a : Act) (p : Party) : Option Session :=
  match p, a with
  | .worker w, .step _ .next => w.pendingCommit
  | .failedUrl f, .step _ .next => f.pendingCommit db
  | .save _ m, .step _ .next => some m
  | _, _ => none

end Party

/-- What a worker's step commits is its pending session. -/
theorem Party.commits_worker {db : Db} {a : Act} {w : Worker} {m : Session}
    (h : (Party.worker w).commits db a = some m) : w.pendingCommit = some m := by
  unfold Party.commits at h
  split at h
  · next heq =>
      cases heq
      exact h
  · next heq => cases heq
  · next heq => cases heq
  · cases h

/-- The system of all calls on one task: every party starts at the beginning of its call, over any
committed rows. -/
def calls (cfg : Config) : Parties ℕ Db Party Act where
  next _ := Party.next cfg

/-- Every call is at its beginning. -/
def Fresh (s : Parties.State ℕ Db Party) : Prop := ∀ i, (s.loc i).AtStart

/-- The interleavings of the calls on one task. -/
def crawlSystem (cfg : Config) : System (Parties.State ℕ Db Party) (ℕ × Act) :=
  (calls cfg).system Fresh

/-! ## What a step can do -/

/-- The effect of a conditional UPDATE, or of the review reconciliation, on the status. -/
inductive StatusUpdate : TaskStatus → TaskStatus → Prop
  | claim {s : TaskStatus} (h : s = .pending ∨ s = .queued) : StatusUpdate s .running
  | advance (g : Gate) : StatusUpdate g.expected g.target
  | cancel {s : TaskStatus} (h : s.Cancellable) : StatusUpdate s .cancelled
  | queue : StatusUpdate .pending .queued
  | complete : StatusUpdate .waitingReview .completed

namespace StatusUpdate

/-- Conditional UPDATEs follow edges of the state machine. -/
theorem move {s t : TaskStatus} (h : StatusUpdate s t) : TaskStatus.Move s t := by
  cases h with
  | claim h => rcases h with rfl | rfl <;> decide
  | advance g => exact g.move
  | cancel h => exact .inr h
  | queue => decide
  | complete => decide

/-- Every conditional UPDATE starts from a status that `cancel` accepts. -/
theorem cancellable {s t : TaskStatus} (h : StatusUpdate s t) : s.Cancellable := by
  cases h with
  | claim h => rcases h with rfl | rfl <;> decide
  | advance g => cases g <;> decide
  | cancel h => exact h
  | queue => decide
  | complete => decide

end StatusUpdate

/-- What a step does that commits no session: failure rows stay, documents stay unless it is a
review, and the status stays or follows a conditional UPDATE. -/
structure NoCommit (p : Party) (db db' : Db) : Prop where
  failures : db'.failures = db.failures
  documents : db'.documents = db.documents ∨ p = .review
  status : db'.task.status = db.task.status ∨ StatusUpdate db.task.status db'.task.status

theorem NoCommit.refl (p : Party) (db : Db) : NoCommit p db db := ⟨rfl, .inl rfl, .inl rfl⟩

/-- A worker's step commits its pending session or commits none. -/
theorem Worker.step_cases {cfg : Config} {now : DateTime} {o : Outcome} {db db' : Db}
    {w w' : Worker} (h : w.step cfg now o db = some (db', w')) :
    (∃ m, o = .next ∧ w.pendingCommit = some m ∧ db' = m.commit db) ∨
      ((o = .next → w.pendingCommit = none) ∧ NoCommit (.worker w) db db') := by
  cases moves_of_step h with
  | commit hm => exact .inl ⟨_, rfl, hm, rfl⟩
  | raises exc => exact .inr ⟨by rintro ⟨⟩, .refl _ _⟩
  | claim hclaim =>
      obtain ⟨hs, ht, hf, hd⟩ := claimTask_won hclaim
      exact .inr ⟨fun _ => rfl, hf, .inl hd, .inr (by rw [ht]; exact .claim hs)⟩
  | @win g m o c db' hc hwon =>
      obtain ⟨hs, ht, hf, hd⟩ := advance_won hwon
      exact .inr ⟨fun _ => rfl, hf, .inl hd, .inr (by rw [hs, ht]; exact .advance g)⟩
  | _ => exact .inr ⟨fun _ => rfl, .refl _ _⟩

/-- A retry's step commits its pending session or commits none. -/
theorem FailedUrl.step_cases {cfg : Config} {now : DateTime} {o : Outcome} {db db' : Db}
    {f f' : FailedUrl} (h : f.step cfg now o db = some (db', f')) :
    (∃ m, o = .next ∧ f.pendingCommit db = some m ∧ db' = m.commit db) ∨
      ((o = .next → f.pendingCommit db = none) ∧ db' = db) := by
  cases moves_of_step h with
  | begin | notPublished => exact .inl ⟨_, rfl, rfl, rfl⟩
  | commit hv => exact .inl ⟨_, rfl, if_neg hv, rfl⟩
  | violate _ hv => exact .inr ⟨fun _ => if_pos hv, rfl⟩
  | beginRaises | commitRaises => exact .inr ⟨by rintro ⟨⟩, rfl⟩
  | _ => exact .inr ⟨fun _ => rfl, rfl⟩

/-- A `cancel` call commits nothing but its conditional UPDATE. -/
theorem Cancel.noCommit_step {now : DateTime} {db db' : Db} {c c' : Cancel} {p : Party}
    (h : c.step now db = some (db', c')) : NoCommit p db db' := by
  cases c with
  | load => cases h; exact .refl _ _
  | update left task allowed =>
      cases hc : cancelTaskIfStatus task.status (reason task).1 (reason task).2 now db with
      | mk db₁ won =>
          simp only [step, hc] at h
          cases h
          cases won with
          | true =>
              obtain ⟨hs, ht, hf, hd⟩ := cancel_won hc
              exact ⟨hf, .inl hd, .inr (by rw [hs, ht]; exact .cancel allowed)⟩
          | false =>
              obtain ⟨-, rfl⟩ := cancel_lost hc
              exact .refl _ _
  | refresh left won =>
      cases won with
      | true => cases h; exact .refl _ _
      | false =>
          cases left with
          | zero => cases h; exact .refl _ _
          | succ left => cases h; exact .refl _ _
  | returned | raised => cases h

/-- A review commits its decision, and completes a waiting task or keeps its status. -/
theorem ReviewDecision.noCommit_step (now : DateTime) (d : ReviewDecision) (db : Db) :
    NoCommit .review db (d.step now db) := by
  unfold ReviewDecision.step
  dsimp only
  split
  · next hw =>
      refine ⟨rfl, .inr rfl, ?_⟩
      rcases CrawlTask.reconcile_status _ _ _ now db.task with hs | hs
      · exact .inl hs
      · refine .inr ?_
        rw [hs, hw.1]
        exact .complete
  · exact ⟨rfl, .inr rfl, .inl rfl⟩

/-- A step commits the party's pending session, or commits none. -/
theorem Party.next_cases {cfg : Config} {a : Act} {db db' : Db} {p p' : Party}
    (h : p.next cfg a db = some (db', p')) :
    (∃ m, p.commits db a = some m ∧ db' = m.commit db) ∨
      (p.commits db a = none ∧ NoCommit p db db') := by
  cases a with
  | step now o =>
      cases p with
      | worker w =>
          simp only [next, Option.map_eq_some_iff, Prod.exists] at h
          obtain ⟨db₁, w', hw, heq⟩ := h
          cases heq
          rcases w.step_cases hw with ⟨m, rfl, hm, hdb⟩ | ⟨hnone, hno⟩
          · exact .inl ⟨m, hm, hdb⟩
          · refine .inr ⟨?_, hno⟩
            cases o with
            | next => exact hnone rfl
            | _ => rfl
      | failedUrl f =>
          simp only [next, Option.map_eq_some_iff, Prod.exists] at h
          obtain ⟨db₁, f', hf, heq⟩ := h
          cases heq
          rcases f.step_cases hf with ⟨m, rfl, hm, hdb⟩ | ⟨hnone, rfl⟩
          · exact .inl ⟨m, hm, hdb⟩
          · refine .inr ⟨?_, .refl _ _⟩
            cases o with
            | next => exact hnone rfl
            | _ => rfl
      | cancel c =>
          cases o with
          | next =>
              simp only [next, Option.map_eq_some_iff, Prod.exists] at h
              obtain ⟨db₁, c', hc, heq⟩ := h
              cases heq
              exact .inr ⟨rfl, c.noCommit_step hc⟩
          | _ => cases h
      | load k =>
          cases o with
          | next =>
              simp only [next] at h
              split at h <;> (cases h; exact .inr ⟨rfl, .refl _ _⟩)
          | _ => cases h
      | save k m =>
          cases o with
          | next => cases h; exact .inl ⟨m, rfl, rfl⟩
          | _ => cases h
      | markQueued =>
          cases o with
          | next =>
              cases h
              refine .inr ⟨rfl, ?_⟩
              -- The UPDATE to `queued` is unconditional for its caller: losing it is no error.
              unfold advanceTaskIfStatus
              split
              · next hs => exact ⟨rfl, .inl rfl, .inr (by rw [hs]; exact .queue)⟩
              · exact .refl _ _
          | _ => cases h
      | review | returned | raised => cases h
  | review now d =>
      cases p with
      | review => cases h; exact .inr ⟨rfl, d.noCommit_step now db⟩
      | _ => cases h

/-- A party that is a worker after a step was one before it, and made a worker's step. -/
theorem Party.next_worker {cfg : Config} {a : Act} {db db' : Db} {p : Party} {w' : Worker}
    (h : p.next cfg a db = some (db', .worker w')) :
    ∃ w now o, p = .worker w ∧ a = .step now o ∧ w.step cfg now o db = some (db', w') := by
  unfold Party.next at h
  split at h
  · next w now o =>
      obtain ⟨⟨db₁, w₁⟩, hw, heq⟩ := Option.map_eq_some_iff.mp h
      cases heq
      exact ⟨w, now, o, rfl, rfl, hw⟩
  · obtain ⟨r, -, heq⟩ := Option.map_eq_some_iff.mp h
    cases heq
  · split at h <;> cases h
  · cases h
  · cases h
  · obtain ⟨r, -, heq⟩ := Option.map_eq_some_iff.mp h
    cases heq
  · cases h
  · cases h

end Odirag.Crawl
