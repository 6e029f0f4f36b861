import Odirag.Crawl.Batch

/-!
# The database of one task, its sessions, and the statements of the repository

Reference: `backend/app/repositories/crawl.py`.

`Db` is what is committed. A `Session` holds the task row with its unsaved assignments and the
flushed changes of failures and documents that its commit will publish. The conditional UPDATEs
(`claimTask`, `advanceTaskIfStatus`, `cancelTaskIfStatus`) read and write the committed row in one
step; `Session.commit` writes what the session changed, whatever the row holds by then.
-/

namespace Odirag.Crawl

open Documents

/-- The committed rows of one crawl task. -/
structure Db where
  task : CrawlTask
  failures : List CrawlTaskFailure := []
  documents : List CrawlDocument := []
deriving DecidableEq

/-- One worker's or request's ORM session. -/
structure Session where
  task : Held CrawlTask
  failures : List FailureChange := []
  documents : List DocumentChange := []
deriving DecidableEq

namespace Session

/-- A session that has just loaded the task. -/
def load (db : Db) : Session := { task := .fresh db.task }

/-- Assign attributes of the task in memory. -/
def assign (m : Session) (f : CrawlTask → CrawlTask) : Session :=
  { m with task := m.task.assign f }

/-- `session.refresh(task)`: unsaved assignments are lost, flushed changes of other rows stay. -/
def refresh (m : Session) (db : Db) : Session := { m with task := .fresh db.task }

/-- The session after its commit: nothing is left to write. -/
def flushed (m : Session) : Session := { task := .fresh m.task.current }

/-- `session.commit()`. -/
def commit (m : Session) (db : Db) : Db where
  task := CrawlTask.save m.task db.task
  failures := m.failures.foldl FailureChange.apply db.failures
  documents := m.documents.foldl DocumentChange.apply db.documents

/-- The session has documents or failure rows that its next commit publishes. -/
def HasRows (m : Session) : Prop := m.failures ≠ [] ∨ m.documents ≠ []

instance (m : Session) : Decidable m.HasRows := inferInstanceAs (Decidable (_ ∨ _))

@[simp] theorem commit_status (m : Session) (db : Db) :
    (m.commit db).task.status =
      column m.task.loaded.status m.task.current.status db.task.status := rfl

@[simp] theorem load_task (db : Db) : (load db).task = .fresh db.task := rfl
@[simp] theorem assign_loaded (m : Session) (f : CrawlTask → CrawlTask) :
    (m.assign f).task.loaded = m.task.loaded := rfl
@[simp] theorem assign_current (m : Session) (f : CrawlTask → CrawlTask) :
    (m.assign f).task.current = f m.task.current := rfl
@[simp] theorem refresh_task (m : Session) (db : Db) : (m.refresh db).task = .fresh db.task := rfl
@[simp] theorem flushed_task (m : Session) : m.flushed.task = .fresh m.task.current := rfl

@[simp] theorem not_hasRows_load (db : Db) : ¬ (load db).HasRows := by simp [HasRows, load]
@[simp] theorem not_hasRows_flushed (m : Session) : ¬ m.flushed.HasRows := by
  simp [HasRows, flushed]
@[simp] theorem hasRows_assign (m : Session) (f : CrawlTask → CrawlTask) :
    (m.assign f).HasRows ↔ m.HasRows := Iff.rfl
@[simp] theorem hasRows_refresh (m : Session) (db : Db) : (m.refresh db).HasRows ↔ m.HasRows :=
  Iff.rfl

/-- A commit with no rows to publish writes the task row only. -/
theorem commit_of_not_hasRows {m : Session} (h : ¬ m.HasRows) (db : Db) :
    m.commit db = { db with task := CrawlTask.save m.task db.task } := by
  simp only [HasRows, not_or, not_not] at h
  simp [commit, h.1, h.2]

end Session

namespace CrawlRepository

/-- `claim_task`: the conditional UPDATE and its commit. -/
def claimTask (now : DateTime) (db : Db) : Db × Bool :=
  if db.task.status = .pending ∨ db.task.status = .queued then
    ({ db with
        task := { db.task with
          status := .running
          currentStage := .ofStatus .running
          startedAt := some now
          finishedAt := none
          completedAt := none
          errorMessage := none } }, true)
  else (db, false)

/-- `advance_task_if_status`: the conditional UPDATE and its commit. -/
def advanceTaskIfStatus (expected target : TaskStatus) (stage : Stage)
    (providerStatus : ProviderStatus) (db : Db) : Db × Bool :=
  if db.task.status = expected then
    ({ db with
        task := { db.task with
          status := target
          currentStage := stage
          providerStatus := some providerStatus } }, true)
  else (db, false)

/-- `cancel_task_if_status`: the conditional UPDATE and its commit. -/
def cancelTaskIfStatus (expected : TaskStatus) (providerStatus : ProviderStatus)
    (providerErrorMessage : Option String) (now : DateTime) (db : Db) : Db × Bool :=
  if db.task.status = expected then
    ({ db with
        task := { db.task with
          status := .cancelled
          currentStage := .ofStatus .cancelled
          providerStatus := some providerStatus
          providerErrorMessage := providerErrorMessage
          finishedAt := some now
          completedAt := some now
          errorMessage := none } }, true)
  else (db, false)

/-- The rows that the query of `recover_stale_tasks` selects. -/
def isStale (cutoff : DateTime) (task : CrawlTask) : Bool :=
  task.status ∈ TaskStatus.active && task.startedAt.any (· < cutoff)

/-- What `recover_stale_tasks` assigns to a selected task. -/
def recoverStaleTask (maxRecoveryAttempts : ℕ) (now : DateTime) (task : CrawlTask) : CrawlTask :=
  if maxRecoveryAttempts ≤ task.retryCount then
    { task with
      status := .failed
      currentStage := .ofStatus .failed
      finishedAt := some now
      completedAt := some now
      failedCount := task.failedCount + 1
      errorMessage := some "WORKER_LOST_MAX_RECOVERIES"
      providerErrorCode := some "WORKER_LOST_MAX_RECOVERIES"
      providerErrorMessage := some "Worker recovery attempts were exhausted" }
  else
    CrawlTask.resetProgress
      { task with
        status := .pending
        currentStage := .ofStatus .pending
        startedAt := none
        finishedAt := none
        completedAt := none
        errorMessage := some "WORKER_LOST_RECOVERED"
        providerStatus := some .recoveredForRetry
        providerErrorCode := none
        providerErrorMessage := none
        providerTaskId := none
        cozeExecutionId := none
        nextRetryAt := none
        retryCount := task.retryCount + 1 }

/-- A claim that is won moves a pending or queued row to `running`. -/
theorem claimTask_won {now : DateTime} {db db' : Db} (h : claimTask now db = (db', true)) :
    (db.task.status = .pending ∨ db.task.status = .queued) ∧ db'.task.status = .running ∧
      db'.failures = db.failures ∧ db'.documents = db.documents := by
  unfold claimTask at h
  split at h
  · next hs =>
      cases h
      exact ⟨hs, rfl, rfl, rfl⟩
  · cases h

/-- A claim that is lost changes nothing. -/
theorem claimTask_lost {now : DateTime} {db db' : Db} (h : claimTask now db = (db', false)) :
    db' = db := by
  unfold claimTask at h
  split at h
  · cases h
  · cases h
    rfl

/-- An advance that is won found the expected status and leaves the target. -/
theorem advance_won {expected target : TaskStatus} {stage : Stage} {ps : ProviderStatus}
    {db db' : Db} (h : advanceTaskIfStatus expected target stage ps db = (db', true)) :
    db.task.status = expected ∧ db'.task.status = target ∧
      db'.failures = db.failures ∧ db'.documents = db.documents := by
  unfold advanceTaskIfStatus at h
  split at h
  · next hs =>
      cases h
      exact ⟨hs, rfl, rfl, rfl⟩
  · cases h

/-- An advance that is lost changes nothing. -/
theorem advance_lost {expected target : TaskStatus} {stage : Stage} {ps : ProviderStatus}
    {db db' : Db} (h : advanceTaskIfStatus expected target stage ps db = (db', false)) :
    db.task.status ≠ expected ∧ db' = db := by
  unfold advanceTaskIfStatus at h
  split at h
  · cases h
  · next hs =>
      cases h
      exact ⟨hs, rfl⟩

/-- A cancellation that is won found the status its caller had read. -/
theorem cancel_won {expected : TaskStatus} {ps : ProviderStatus} {msg : Option String}
    {now : DateTime} {db db' : Db} (h : cancelTaskIfStatus expected ps msg now db = (db', true)) :
    db.task.status = expected ∧ db'.task.status = .cancelled ∧
      db'.failures = db.failures ∧ db'.documents = db.documents := by
  unfold cancelTaskIfStatus at h
  split at h
  · next hs =>
      cases h
      exact ⟨hs, rfl, rfl, rfl⟩
  · cases h

/-- A cancellation that is lost changes nothing. -/
theorem cancel_lost {expected : TaskStatus} {ps : ProviderStatus} {msg : Option String}
    {now : DateTime} {db db' : Db} (h : cancelTaskIfStatus expected ps msg now db = (db', false)) :
    db.task.status ≠ expected ∧ db' = db := by
  unfold cancelTaskIfStatus at h
  split at h
  · cases h
  · next hs =>
      cases h
      exact ⟨hs, rfl⟩

/-- Recovery assigns `failed` or `pending`. -/
theorem recoverStaleTask_status (maxRecoveryAttempts : ℕ) (now : DateTime) (task : CrawlTask) :
    (recoverStaleTask maxRecoveryAttempts now task).status = .failed ∨
      (recoverStaleTask maxRecoveryAttempts now task).status = .pending := by
  unfold recoverStaleTask
  split
  · exact .inl rfl
  · exact .inr rfl

end CrawlRepository

end Odirag.Crawl
