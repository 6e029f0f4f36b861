import Mathlib.Algebra.Group.Nat.Defs
import Odirag.Crawl.Saving

/-!
# Retrying one failed URL: `CrawlService.execute_failed_url`

Reference: `backend/app/services/crawl.py`: `execute_failed_url`, `_fail_failure_retry`.

The retry holds the failure row and its task in one session. It commits `retrying`, calls the
provider, and then commits either the success or the failure of the attempt. The sessions do not
flush before a query, so the count that decides whether the task is resolved still sees the
failure row as `retrying`.
-/

namespace Odirag.Crawl

open Documents CrawlTaskStateMachine

/-- The session of a retry: the task and its documents, and the failure row. -/
structure RetrySession where
  base : Session
  failure : Held CrawlTaskFailure
deriving DecidableEq

namespace RetrySession

/-- Assign attributes of the task in memory. -/
def assignTask (r : RetrySession) (f : CrawlTask → CrawlTask) : RetrySession :=
  { r with base := r.base.assign f }

/-- Assign attributes of the failure row in memory. -/
def assignFailure (r : RetrySession) (f : CrawlTaskFailure → CrawlTaskFailure) : RetrySession :=
  { r with failure := r.failure.assign f }

/-- Everything the session's commit writes. -/
def session (r : RetrySession) : Session :=
  { r.base with failures := [⟨some r.failure.loaded, r.failure.current⟩] }

/-- The session after its commit. -/
def flushed (r : RetrySession) : RetrySession :=
  { base := r.base.flushed, failure := .fresh r.failure.current }

/-- Another failure row of the task has the identity that the commit would give this one
(`uq_crawl_task_failures_identity`). -/
def Violates (r : RetrySession) (db : Db) : Prop :=
  ∃ row ∈ db.failures, row.id ≠ r.failure.loaded.id ∧ row.sameIdentity r.failure.current

instance (r : RetrySession) (db : Db) : Decidable (r.Violates db) :=
  inferInstanceAs (Decidable (∃ row ∈ db.failures, _))

@[simp] theorem session_task (r : RetrySession) : r.session.task = r.base.task := rfl

end RetrySession

/-- The SELECT of the failure row and its task, the check, and what is assigned before the first
commit. -/
def beginRetry (now : DateTime) (db : Db) (failure : CrawlTaskFailure) :
    Except Exc RetrySession :=
  if failure.status.runnable ∧ failure.retryable then
    .ok
      { base := (Session.load db).assign fun t => { t with currentStage := .retryingFailedUrl }
        failure := (Held.fresh failure).assign fun f =>
          { f with
            status := .retrying, retryCount := f.retryCount + 1, lastAttemptAt := some now } }
  else
    .error (.app "CRAWL_FAILURE_ALREADY_HANDLED"
      ("Failed URL cannot run from status " ++ failure.status.text))

/-- `_fail_failure_retry`, up to but not including its commit. -/
def failRetry (now : DateTime) (errorCode : String) (r : RetrySession) : RetrySession :=
  let nextRetryAt := now + min 3600 (60 * 2 ^ min r.failure.current.retryCount 6)
  (r.assignFailure fun f =>
    { f with status := .failed, errorCode, nextRetryAt := some nextRetryAt }).assignTask
    fun t => { t with nextRetryAt := some nextRetryAt, currentStage := .failedUrlRetryFailed }

/-- The task id that the payload of a retry carries. -/
def retryTaskId (cfg : Config) (failureId : ℕ) : String :=
  cfg.taskId ++ ":failure:" ++ toString failureId

/-- The error code that the `except` clauses give an exception. -/
def retryErrorCode : Exc → String
  | .provider code _ => code
  | _ => "LOCAL_FAILED_URL_RETRY_ERROR"

/-- The batch that a retry may save, or the error code it fails with. -/
def checkRetryBatch (cfg : Config) (failureId : ℕ) (b : BatchCrawlResponse) :
    Except String BatchCrawlResponse :=
  if b.taskId ≠ retryTaskId cfg failureId then .error "COZE_TASK_ID_MISMATCH"
  else if b.failedUrls ≠ [] ∨ b.articles = [] ∨ b.articles.any (·.decision == .failed) then
    .error "COZE_RETRY_UNRESOLVED"
  else .ok b

/-- The save loop of a retry; an article that raises ends it, with its savepoint rolled back. -/
def saveRetried (cfg : Config) (db : Db) :
    Session → List BatchArticle → List ArticleSave → Session × Option Exc
  | m, [], _ => (m, none)
  | m, article :: rest, outcomes =>
      match outcomes.headD (.stored false false) with
      | .stored changedFields reviewChanged =>
          saveRetried cfg db (m.saveCozeArticle cfg db article changedFields reviewChanged) rest
            outcomes.tail
      | .raises className => (m, some (.other className))
      | .raisesInRefresh => (m, some (.other "Exception"))
      | .aborts exc => (m, some exc)

/-- The assignments of a retry that saved its articles. The two counts are queries: the first sees
the session's flushed documents, the second the committed failure rows only, because the row's
own `succeeded` has not been flushed. -/
def succeedRetry (now : DateTime) (db : Db) (b : BatchCrawlResponse) (r : RetrySession) :
    Except Exc RetrySession :=
  let r := r.assignFailure fun f =>
    { f with status := .succeeded, resolvedAt := some now, nextRetryAt := none }
  let pending := countPendingTaskDocuments (visibleDocuments db.documents r.base.documents)
  let r := r.assignTask fun t =>
    { t with
      failedCount := t.failedCount - 1
      acceptedCount := t.acceptedCount + b.statistics.articlesAccepted
      rejectedCount := t.rejectedCount + b.statistics.articlesRejected
      pendingReviewCount := pending
      currentStage := .failedUrlRetryCompleted }
  if countUnresolvedFailures db.failures = 0 then
    let t : CrawlTask := { r.base.task.current with nextRetryAt := none }
    if t.status = .partialFailed then
      if pending ≠ 0 then
        (transition { t with providerStatus := some .waitingReview } .waitingReview none now).map
          fun t => r.assignTask fun _ => t
      else
        (transition { t with providerStatus := some .completed } .completed none now).map
          fun t => r.assignTask fun _ => t
    else .ok (r.assignTask fun _ => t)
  else .ok r

/-- The points of a retry between two database statements. -/
inductive FailedUrl
  /-- Before the SELECT of the failure row. -/
  | load (failureId : ℕ)
  /-- `retrying` is set in memory; before its commit. -/
  | begin (r : RetrySession)
  /-- Before the remote call, and the commits of the invocation around it. -/
  | calling (r : RetrySession)
  /-- The batch is accepted; before the statements that save it. -/
  | saving (r : RetrySession) (b : BatchCrawlResponse)
  /-- The attempt's outcome is set in memory; before its commit. -/
  | commit (r : RetrySession)
  | returned
  | raised (exc : Exc)
deriving DecidableEq

/-- What the world does at a worker's or a retry's next statement. -/
inductive Outcome
  /-- The statement succeeds. -/
  | next
  /-- The task is still in the session that claims it, and is not reloaded. -/
  | keep
  /-- The crawl returned this. -/
  | crawled (c : Crawled)
  /-- The provider returned no batch. -/
  | noBatch
  /-- How the articles of the save section fare. -/
  | saves (outcomes : List ArticleSave)
  /-- The statement, or the call before it, raises. -/
  | raises (exc : Exc)
deriving DecidableEq

namespace FailedUrl

/-- The remote call of a retry and the checks of its response. -/
def respond (cfg : Config) (now : DateTime) (o : Outcome) (r : RetrySession) : Option FailedUrl :=
  match o with
  | .raises exc => some (.commit (failRetry now (retryErrorCode exc) r))
  | .noBatch => some (.commit (failRetry now "COZE_RETRY_UNRESOLVED" r))
  | .crawled (.batch b) =>
      if b.validateStatistics.isOk then
        match checkRetryBatch cfg r.failure.loaded.id b with
        | .ok b => some (.saving r b)
        | .error code => some (.commit (failRetry now code r))
      else none
  | _ => none

/-- The save section of a retry. -/
def save (cfg : Config) (now : DateTime) (db : Db) (r : RetrySession) (b : BatchCrawlResponse)
    (outcomes : List ArticleSave) : FailedUrl :=
  match saveRetried cfg db r.base b.articles outcomes with
  | (m, some exc) => .commit (failRetry now (retryErrorCode exc) { r with base := m })
  | (m, none) =>
      match succeedRetry now db b { r with base := m } with
      | .ok r => .commit r
      | .error exc => .commit (failRetry now (retryErrorCode exc) { r with base := m })

/-- The next database statement of a retry. -/
def step (cfg : Config) (now : DateTime) (o : Outcome) (db : Db) :
    FailedUrl → Option (Db × FailedUrl)
  | .load failureId =>
      match db.failures.find? (·.id == failureId) with
      | none => some (db, .raised (.app "NOT_FOUND" "CrawlTaskFailure"))
      | some failure =>
          match beginRetry now db failure with
          | .ok r => some (db, .begin r)
          | .error exc => some (db, .raised exc)
  | .begin r =>
      match o with
      | .next =>
          if cfg.cozeEnabled ∧ cfg.batchEndpoint then some (r.session.commit db, .calling r.flushed)
          else some (r.session.commit db,
            .commit (failRetry now "COZE_BATCH_WORKFLOW_NOT_PUBLISHED" r.flushed))
      | .raises exc => some (db, .raised exc)
      | _ => none
  | .calling r => (respond cfg now o r).map fun p => (db, p)
  | .saving r b =>
      match o with
      | .saves outcomes => some (db, save cfg now db r b outcomes)
      | _ => none
  | .commit r =>
      match o with
      | .next =>
          if r.Violates db then some (db, .raised (.other "IntegrityError"))
          else some (r.session.commit db, .returned)
      -- The handler around a failed commit commits again, on a session that needs a rollback.
      | .raises exc => some (db, .raised exc)
      | _ => none
  | .returned => none
  | .raised _ => none

end FailedUrl

end Odirag.Crawl
