import Odirag.Crawl.FailedUrl

/-!
# The worker: `CrawlService.execute`

Reference: `backend/app/services/crawl.py`: `execute`, `_execute_local`, `_execute_coze`,
`_finish_cancelled_provider_result` and the exception handlers of all three.

A worker is the sequence of its database statements. Each constructor of `Worker` is a point
between two of them, and `Worker.step` performs the next one together with the in-memory code up
to the following point. The conditional UPDATEs of the stages differ only in their values, so
they are one point `gate`, indexed by `Gate`.
-/

namespace Odirag.Crawl

open CrawlRepository CrawlTaskStateMachine

/-- The `except` clauses around the crawl: the one of `execute` (shared by the legacy path), the
one of `_execute_local`, and the two equal ones of `_execute_coze`. -/
inductive Handler
  | execute | localPath | coze
deriving DecidableEq, Repr

/-- The stage advances of the three paths. -/
inductive Gate
  | legacySave
  | localStart | localSave
  | cozeCall | cozeRun | cozeNormalize | cozeSave
deriving DecidableEq, Repr

namespace Gate

/-- The status the UPDATE requires. -/
def expected : Gate → TaskStatus
  | legacySave | localStart | localSave | cozeCall => .running
  | cozeRun => .callingCoze
  | cozeNormalize => .cozeRunning
  | cozeSave => .normalizing

/-- The status the UPDATE writes. -/
def target : Gate → TaskStatus
  | localStart => .running
  | legacySave | localSave | cozeSave => .savingDocuments
  | cozeCall => .callingCoze
  | cozeRun => .cozeRunning
  | cozeNormalize => .normalizing

/-- The stage the UPDATE writes. -/
def stage : Gate → Stage
  | localStart => .localRunning
  | g => .ofStatus g.target

/-- The provider status the UPDATE writes. -/
def providerStatus : Gate → ProviderStatus
  | localStart => .localRunning
  | legacySave | localSave | cozeSave => .savingDocuments
  | cozeCall => .callingCoze
  | cozeRun => .cozeRunning
  | cozeNormalize => .normalizing

/-- The provider status recorded when the UPDATE finds another status. -/
def lost : Gate → ProviderStatus
  | legacySave => .crawlCompletedDiscardedCancelled
  | localStart => .localCancelledBeforeStart
  | localSave => .localCompletedDiscardedCancelled
  | cozeCall | cozeRun => .remoteCancelledBeforeStart
  | cozeNormalize | cozeSave => .remoteCompletedLocalProcessingCancelled

/-- The `except` clause that a gate stands under. -/
def handler : Gate → Handler
  | legacySave | localStart | cozeCall => .execute
  | localSave => .localPath
  | cozeRun | cozeNormalize | cozeSave => .coze

/-- The path whose save section a gate opens. -/
def opensSave : Gate → Option Path
  | legacySave => some .legacy
  | localSave => some .localPath
  | cozeSave => some .coze
  | _ => none

/-- Every stage advance follows an edge of the state machine, or keeps the status. -/
theorem move (g : Gate) : TaskStatus.Move g.expected g.target := by
  cases g <;> decide

/-- Exactly the gates that open a save section lead to `saving_documents`. -/
theorem opensSave_isSome_iff (g : Gate) :
    g.opensSave.isSome = true ↔ g.target = .savingDocuments := by
  cases g <;> simp [opensSave, target]

/-- No gate starts from `saving_documents`. -/
theorem expected_ne_saving (g : Gate) : g.expected ≠ .savingDocuments := by
  cases g <;> simp [expected]

end Gate

/-- The handler of a save section's path. -/
def Path.handler : Path → Handler
  | .legacy => .execute
  | .localPath => .localPath
  | .coze => .coze

/-- The handler that still works once a commit has failed: the session of the Coze path needs a
rollback first, which only the handler of `execute` does. -/
def Handler.afterFailedCommit : Handler → Handler
  | .localPath => .localPath
  | _ => .execute

/-- The points of a worker between two database statements. -/
inductive Worker
  /-- Before `claim_task`. -/
  | start
  /-- The claim found no claimable row; before the `get` that reports its status. -/
  | refused
  /-- The claim is committed; before the SELECT that loads the task. -/
  | claimed (row : CrawlTask)
  /-- Coze is disabled or has no endpoint: marked failed in memory, before the save. -/
  | notConfigured (m : Session)
  /-- Before the conditional UPDATE of a stage, and the crawl that precedes it. -/
  | gate (g : Gate) (m : Session)
  /-- The UPDATE of a stage was won; before `session.refresh(task)`. -/
  | advanced (g : Gate) (c : Crawled) (m : Session)
  /-- Before the commit of the new Coze invocation. -/
  | invocation (m : Session)
  /-- Before the remote call and the commit of its response. -/
  | calling (m : Session)
  /-- The response is committed; before the refresh that looks for a cancellation. -/
  | responded (m : Session)
  /-- Before the statements of the save section. -/
  | save (p : Path) (c : Crawled) (m : Session)
  /-- The final status is set in memory; before its commit. -/
  | commit (p : Path) (m : Session)
  /-- `_finish_cancelled_provider_result`, before its refresh. -/
  | finish (h : Handler) (ps : ProviderStatus) (m : Session)
  /-- `_finish_cancelled_provider_result`, before its commit. -/
  | finishCommit (h : Handler) (m : Session)
  /-- An exception has reached a handler; before the handler's SELECT. -/
  | handling (h : Handler) (exc : Exc) (m : Session)
  /-- The handler has set `failed` in memory; before its commit. -/
  | handlerCommit (h : Handler) (exc : Exc) (m : Session)
  | returned
  | raised (exc : Exc)
deriving DecidableEq

/-- The endpoint of a contract is configured. -/
def Config.endpoint (cfg : Config) : Contract → Bool
  | .batchCrawl => cfg.batchEndpoint
  | .legacySingleArticle => cfg.legacyEndpoint

namespace Worker

/-- The error code of a contract without an endpoint. -/
def notPublished : Contract → String
  | .batchCrawl => "COZE_BATCH_WORKFLOW_NOT_PUBLISHED"
  | .legacySingleArticle => "COZE_LEGACY_WORKFLOW_NOT_CONFIGURED"

/-- What a claimed task runs into, with the exceptions of a misconfigured Coze path. -/
def dispatch (cfg : Config) (now : DateTime) (m : Session) : Worker :=
  let t := m.task.current
  if t.crawlProvider = .localProvider then .gate .localStart m
  else if t.crawlProvider = .coze ∧ (cfg.cozeEnabled ∨ ¬ cfg.testEnvironment) then
    let contract := t.providerContract.getD cfg.defaultContract
    if !cfg.cozeEnabled then
      failWith m { t with
        providerErrorCode := some "COZE_NOT_CONFIGURED"
        providerErrorMessage := some "Coze crawling is disabled"
        providerStatus := some .failed
        failedCount := t.failedCount + 1 } "COZE_NOT_CONFIGURED"
    else if !cfg.endpoint contract then
      failWith m { t with
        providerErrorCode := some (notPublished contract)
        providerErrorMessage := some "The selected Coze workflow is not published"
        failedCount := t.failedCount + 1 } (notPublished contract)
    else .gate .cozeCall m
  else .gate .legacySave m
where
  /-- `transition(task, "failed", error=code)` and the save that follows it. -/
  failWith (m : Session) (t : CrawlTask) (code : String) : Worker :=
    match transition t .failed (some code) now with
    | .ok t => .notConfigured (m.assign fun _ => t)
    | .error exc => .handling .execute exc m

/-- `_execute_coze` after its first advance: the contract is written back to the task. -/
def setContract (cfg : Config) (t : CrawlTask) : CrawlTask :=
  let contract := t.providerContract.getD cfg.defaultContract
  { t with providerContract := some contract, contractMode := contract }

/-- Where a worker goes once it has refreshed the task after a won advance. -/
def continueAfter (cfg : Config) (g : Gate) (c : Crawled) (m : Session) : Worker :=
  match g with
  | .localStart => .gate .localSave m
  | .cozeCall => .invocation (m.assign (setContract cfg))
  | .cozeRun => .calling m
  | .cozeNormalize => .gate .cozeSave m
  | .legacySave => .save .legacy c m
  | .localSave => .save .localPath c m
  | .cozeSave => .save .coze c m

/-- What a gate does with the outcome of the crawl before it: go on to the UPDATE with a result,
or raise. -/
def crawlResult (cfg : Config) : Gate → Outcome → Option (Except Exc Crawled)
  | _, .raises exc => some (.error exc)
  | .localStart, .next | .cozeCall, .next | .cozeRun, .next | .cozeNormalize, .next =>
      some (.ok .nothing)
  | .legacySave, .crawled (.documents urls) => some (.ok (.documents urls))
  | .localSave, .crawled (.batch b) =>
      if b.validateStatistics.isOk then some (.ok (.batch b)) else none
  | .localSave, .noBatch =>
      some (.error (.provider "LOCAL_CONTRACT_MISMATCH"
        "Local provider did not return a batch response"))
  | .cozeSave, .crawled (.batch b) =>
      if !b.validateStatistics.isOk then none
      else if b.taskId ≠ cfg.taskId then
        some (.error (.provider "COZE_TASK_ID_MISMATCH"
          "Coze response task_id does not match the request"))
      else some (.ok (.batch b))
  | .cozeSave, .noBatch =>
      some (.error (.provider "COZE_BATCH_CONTRACT_REQUIRED"
        "batch_crawl requires a strict batch response"))
  | _, _ => none

/-- The conditional UPDATE of a stage. -/
def pass (g : Gate) (c : Crawled) (db : Db) (m : Session) : Db × Worker :=
  match advanceTaskIfStatus g.expected g.target g.stage g.providerStatus db with
  | (db', true) => (db', .advanced g c m)
  | (db', false) => (db', .finish g.handler g.lost m)

/-- The SELECT of `_finish_cancelled_provider_result` and the check after it. -/
def finishSelect (h : Handler) (ps : ProviderStatus) (db : Db) (m : Session) : Worker :=
  let m := m.refresh db
  if m.task.current.status ≠ .cancelled then
    .handling h (.app "TASK_STATE_CHANGED"
      "Crawl task changed state before document saving could start") m
  else
    .finishCommit h (m.assign fun t =>
      { t with providerStatus := some ps, currentStage := .ofStatus .cancelled })

/-- The SELECT of a handler, and what it assigns before its commit. The handlers of `execute` and
`_execute_local` roll back; those of `_execute_coze` keep what the session has flushed. The rollback
expires the task, so that `_execute_local` raises where it reads `task.id` for its SELECT, and nothing
behind that is run. -/
def handle (h : Handler) (exc : Exc) (now : DateTime) (db : Db) (m : Session) : Worker :=
  match h with
  | .execute =>
      let m := Session.load db
      let t := m.task.current
      if t.status = .running ∨ t.status = .savingDocuments then
        match transition { t with failedCount := t.failedCount + 1 } .failed
          (some exc.className) now with
        | .ok t => .handlerCommit .execute exc (m.assign fun _ => t)
        | .error exc' => .raised exc'
      else .raised exc
  | .localPath => .handling .execute (.other "MissingGreenlet") (Session.load db)
  | .coze =>
      let m := m.refresh db
      let t := m.task.current
      if t.status = .cancelled then .finish .execute .remoteFailedAfterLocalCancel m
      else
        let code := cozeErrorCode exc
        let t := { t with
          providerErrorCode := some code
          providerErrorMessage := some (cozeErrorMessage exc)
          providerStatus := some .failed
          failedCount := t.failedCount + 1
          errorMessage := some (cozeTaskError exc) }
        if t.status ∈ [TaskStatus.failed, .cancelled, .completed, .partialFailed] then
          .handlerCommit .coze exc (m.assign fun _ => t)
        else
          match transition t .failed (some code) now with
          | .ok t => .handlerCommit .coze exc (m.assign fun _ => t)
          | .error exc' => .handling .execute exc' m
where
  /-- `exc.code`, or `COZE_INTERNAL_ERROR` for an exception that has none. -/
  cozeErrorCode : Exc → String
    | .app code _ | .provider code _ => code
    | _ => "COZE_INTERNAL_ERROR"
  /-- `str(exc)` or `exc.message`, or the class name. -/
  cozeErrorMessage : Exc → String
    | .app _ message | .provider _ message => message
    | exc => exc.className
  /-- `task.error_message` before the transition overwrites it. -/
  cozeTaskError : Exc → String
    | .provider _ message => message
    | exc => cozeErrorCode exc

/-- Where a worker is after a handler's commit. -/
def afterHandler (h : Handler) (exc : Exc) (m : Session) : Worker :=
  match h with
  | .execute => .raised exc
  | .localPath => .handling .execute exc m
  | .coze => .returned

/-- Where a worker is when a handler's commit raises. -/
def handlerRaises (h : Handler) (exc : Exc) (m : Session) : Worker :=
  match h with
  | .execute => .raised exc
  | _ => .handling .execute exc m

/-- The next database statement of a worker. -/
def step (cfg : Config) (now : DateTime) (o : Outcome) (db : Db) : Worker → Option (Db × Worker)
  | .start =>
      match o with
      | .next =>
          match claimTask now db with
          | (db', true) => some (db', .claimed db'.task)
          | (db', false) => some (db', .refused)
      | .raises exc => some (db, .raised exc)
      | _ => none
  | .refused =>
      match o with
      | .next => some (db, .raised (.app "TASK_ALREADY_CLAIMED"
          "Crawl task is not pending and cannot be claimed"))
      | .raises exc => some (db, .raised exc)
      | _ => none
  | .claimed row =>
      match o with
      | .next => some (db, dispatch cfg now (Session.load db))
      | .keep => some (db, dispatch cfg now { task := .fresh row })
      | .raises exc => some (db, .raised exc)
      | _ => none
  | .notConfigured m =>
      match o with
      | .next => some (m.commit db, .returned)
      | .raises exc => some (db, .handling .execute exc m)
      | _ => none
  | .gate g m =>
      match crawlResult cfg g o with
      | some (.ok c) => some (pass g c db m)
      | some (.error exc) => some (db, .handling g.handler exc m)
      | none => none
  | .advanced g c m =>
      match o with
      | .next => some (db, continueAfter cfg g c (m.refresh db))
      | .raises exc => some (db, .handling g.handler exc m)
      | _ => none
  | .invocation m =>
      match o with
      | .next => some (m.commit db, .gate .cozeRun m.flushed)
      | .raises exc => some (db, .handling .execute exc m)
      | _ => none
  | .calling m =>
      match o with
      | .next => some (m.commit db, .responded m.flushed)
      | .raises exc => some (db, .handling .coze exc m)
      | _ => none
  | .responded m =>
      match o with
      | .next =>
          if (m.refresh db).task.current.status = .cancelled then
            some (db, .finish .coze .remoteCompletedLocalProcessingCancelled (m.refresh db))
          else some (db, .gate .cozeNormalize (m.refresh db))
      | .raises exc => some (db, .handling .coze exc m)
      | _ => none
  | .save p c m =>
      match o with
      | .saves outcomes =>
          match m.saveCrawled cfg p now db c outcomes with
          | (m', none) => some (db, .commit p m')
          | (m', some exc) => some (db, .handling p.handler exc m')
      | _ => none
  | .commit p m =>
      match o with
      | .next => some (m.commit db, .returned)
      | .raises exc => some (db, .handling p.handler.afterFailedCommit exc m)
      | _ => none
  | .finish h ps m =>
      match o with
      | .next => some (db, finishSelect h ps db m)
      | .raises exc => some (db, .handling h exc m)
      | _ => none
  | .finishCommit h m =>
      match o with
      | .next => some (m.commit db, .returned)
      | .raises exc => some (db, .handling h.afterFailedCommit exc m)
      | _ => none
  | .handling h exc m =>
      match o with
      | .next => some (db, handle h exc now db m)
      | .raises exc' => some (db, handlerRaises h exc' m)
      | _ => none
  | .handlerCommit h exc m =>
      match o with
      | .next => some (m.commit db, afterHandler h exc m.flushed)
      | .raises exc' => some (db, handlerRaises h exc' m)
      | _ => none
  | .returned => none
  | .raised _ => none

end Worker

end Odirag.Crawl
