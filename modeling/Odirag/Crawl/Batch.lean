import Odirag.Crawl.Task
import Odirag.Documents.Status

/-!
# Batches, failure rows and the documents of a task

Reference: `backend/app/schemas/coze.py`, `backend/app/repositories/crawl.py` and the save loops
of `backend/app/services/crawl.py`.

A session collects its changes to failure rows and documents (`FailureChange`,
`DocumentChange`) and publishes them at its commit. What a query of the session sees are the
committed rows and the changes it has flushed.
-/

namespace Odirag.Crawl

open Documents

/-! ## The provider's batch -/

/-- `BatchFailedUrl`. -/
structure BatchFailedUrl where
  url : String
  stage : String
  errorCode : String
  errorMessage : String
  retryable : Bool := false
deriving DecidableEq, Repr

/-- The fields of `BatchArticle` that the crawl task and its failures depend on. -/
structure BatchArticle where
  url : String
  extractionMethod : String
  decision : Decision
  decisionReason : String
deriving DecidableEq, Repr

/-- `BatchStatistics`. -/
structure BatchStatistics where
  articlesDiscovered : ℕ := 0
  articlesFetched : ℕ := 0
  articlesAccepted : ℕ := 0
  articlesRejected : ℕ := 0
  articlesPendingReview : ℕ := 0
  articlesFailed : ℕ := 0
deriving DecidableEq, Repr

/-- `BatchCrawlResponse`. -/
structure BatchCrawlResponse where
  success : Bool
  taskId : String
  statistics : BatchStatistics
  articles : List BatchArticle
  failedUrls : List BatchFailedUrl
  warnings : List String
deriving DecidableEq, Repr

/-- How many articles of a batch carry a decision. -/
def BatchCrawlResponse.decisions (b : BatchCrawlResponse) (d : Decision) : ℕ :=
  b.articles.countP (·.decision == d)

/-- `BatchCrawlResponse.validate_statistics`. -/
def BatchCrawlResponse.validateStatistics (b : BatchCrawlResponse) : Except String Unit :=
  if b.decisions .accepted ≠ b.statistics.articlesAccepted then
    .error "accepted article count does not match statistics"
  else if b.decisions .rejected ≠ b.statistics.articlesRejected then
    .error "rejected article count does not match statistics"
  else if b.decisions .pendingReview ≠ b.statistics.articlesPendingReview then
    .error "pending_review article count does not match statistics"
  else if b.decisions .failed + b.failedUrls.length ≠ b.statistics.articlesFailed then
    .error "article decision counts do not match statistics"
  else if b.statistics.articlesFetched ≠ b.articles.length then
    .error "articles_fetched must equal articles length"
  else .ok ()

/-! ## Failure rows -/

/-- `CrawlTaskFailure.status`. -/
inductive FailureStatus
  | pending | queued | retrying | succeeded | failed | skipped
deriving DecidableEq, Repr

/-- The status as the column stores it. -/
def FailureStatus.text : FailureStatus → String
  | .pending => "pending"
  | .queued => "queued"
  | .retrying => "retrying"
  | .succeeded => "succeeded"
  | .failed => "failed"
  | .skipped => "skipped"

/-- The statuses that `execute_failed_url` accepts. -/
def FailureStatus.runnable : FailureStatus → Bool
  | .queued | .pending | .failed => true
  | _ => false

/-- Neither succeeded nor skipped: what `count_unresolved_failures` counts. -/
def FailureStatus.unresolved : FailureStatus → Bool
  | .succeeded | .skipped => false
  | _ => true

/-- A `crawl_task_failures` row of the task. -/
structure CrawlTaskFailure where
  id : ℕ := 0
  url : String
  stage : String
  errorCode : String
  errorMessage : String
  retryable : Bool
  status : FailureStatus
  retryCount : ℕ := 0
  lastAttemptAt : Option DateTime := none
  nextRetryAt : Option DateTime := none
  resolvedAt : Option DateTime := none
deriving DecidableEq, Repr

namespace CrawlTaskFailure

/-- The columns of `uq_crawl_task_failures_identity`, the task apart. -/
def sameIdentity (a b : CrawlTaskFailure) : Bool :=
  a.url == b.url && a.stage == b.stage && a.errorCode == b.errorCode

/-- The UPDATE of a held failure row. -/
def save (m : Held CrawlTaskFailure) (stored : CrawlTaskFailure) : CrawlTaskFailure where
  id := stored.id
  url := column m.loaded.url m.current.url stored.url
  stage := column m.loaded.stage m.current.stage stored.stage
  errorCode := column m.loaded.errorCode m.current.errorCode stored.errorCode
  errorMessage := column m.loaded.errorMessage m.current.errorMessage stored.errorMessage
  retryable := column m.loaded.retryable m.current.retryable stored.retryable
  status := column m.loaded.status m.current.status stored.status
  retryCount := column m.loaded.retryCount m.current.retryCount stored.retryCount
  lastAttemptAt := column m.loaded.lastAttemptAt m.current.lastAttemptAt stored.lastAttemptAt
  nextRetryAt := column m.loaded.nextRetryAt m.current.nextRetryAt stored.nextRetryAt
  resolvedAt := column m.loaded.resolvedAt m.current.resolvedAt stored.resolvedAt

/-- Saving a row that was loaded from the stored one stores the session's values. -/
theorem save_of_loaded {m : Held CrawlTaskFailure} {stored : CrawlTaskFailure}
    (h : m.loaded = stored) (hid : m.current.id = stored.id) : save m stored = m.current := by
  subst h
  cases hm : m.current
  simp_all [save]

/-- What `add_failure` assigns to a row that is already there. -/
def merge (current failure : CrawlTaskFailure) : CrawlTaskFailure :=
  { current with
    errorMessage := failure.errorMessage
    retryable := failure.retryable
    status := if current.status = .succeeded ∨ current.status = .retrying then current.status
      else failure.status }

end CrawlTaskFailure

/-- A session's change of a failure row: an insert, or the update of a row it has loaded. -/
structure FailureChange where
  loaded : Option CrawlTaskFailure
  current : CrawlTaskFailure
deriving DecidableEq

/-- `CrawlRepository.add_failure`. The lookup finds the session's own flushed rows first. -/
def addFailure (rows : List CrawlTaskFailure) (changes : List FailureChange)
    (failure : CrawlTaskFailure) : List FailureChange :=
  match changes.findIdx? (·.current.sameIdentity failure) with
  | some i => changes.modify i fun c => { c with current := c.current.merge failure }
  | none =>
      match rows.find? (·.sameIdentity failure) with
      | some row => changes ++ [⟨some row, row.merge failure⟩]
      | none => changes ++ [⟨none, failure⟩]

/-- Commit one change. Failure rows are never deleted, so the number of rows is a fresh id. -/
def FailureChange.apply (rows : List CrawlTaskFailure) (c : FailureChange) :
    List CrawlTaskFailure :=
  match c.loaded with
  | some l => rows.map fun row => if row.id = l.id then CrawlTaskFailure.save ⟨l, c.current⟩ row else row
  | none => rows ++ [{ c.current with id := rows.length }]

/-! ## Documents of the crawled column -/

/-- A document of the crawled column as the task sees it; `linked` says that a lineage row of the
task names it. -/
structure CrawlDocument where
  canonicalUrl : String
  finalStatus : FinalStatus
  manualReviewStatus : ManualReviewStatus
  linked : Bool
deriving DecidableEq, Repr

namespace CrawlDocument

/-- The UPDATE of a held document; its lineage row is inserted, never updated. -/
def save (m : Held CrawlDocument) (stored : CrawlDocument) : CrawlDocument where
  canonicalUrl := stored.canonicalUrl
  finalStatus := column m.loaded.finalStatus m.current.finalStatus stored.finalStatus
  manualReviewStatus :=
    column m.loaded.manualReviewStatus m.current.manualReviewStatus stored.manualReviewStatus
  linked := m.current.linked || stored.linked

/-- `_save_coze_article` for a URL that the column does not have yet. -/
def create (canonicalUrl : String) (decision : Decision) : CrawlDocument where
  canonicalUrl
  finalStatus := decision.finalStatus
  manualReviewStatus := decision.manualReviewStatus
  linked := true

/-- `_refresh_coze_document`: `changedFields` and `reviewChanged` say what the comparison with
the stored document found. -/
def refresh (document : CrawlDocument) (decision : Decision) (changedFields reviewChanged : Bool) :
    CrawlDocument :=
  if !changedFields && !reviewChanged then { document with linked := true }
  else if changedFields || !document.manualReviewStatus.isDecision then
    { document with
      finalStatus := decision.finalStatus
      manualReviewStatus := decision.manualReviewStatus
      linked := true }
  else { document with linked := true }

end CrawlDocument

/-- A session's change of a document: an insert, or the update of a row it has loaded. -/
structure DocumentChange where
  loaded : Option CrawlDocument
  current : CrawlDocument
deriving DecidableEq

/-- The document a session finds under a canonical URL, and the values it had when loaded. -/
def findDocument (rows : List CrawlDocument) (changes : List DocumentChange)
    (canonicalUrl : String) : Option DocumentChange :=
  match changes.find? (·.current.canonicalUrl == canonicalUrl) with
  | some c => some c
  | none => (rows.find? (·.canonicalUrl == canonicalUrl)).map fun row => ⟨some row, row⟩

/-- Record a change under its canonical URL, over an earlier one of the same session. -/
def recordDocument (changes : List DocumentChange) (c : DocumentChange) : List DocumentChange :=
  changes.filter (fun d => d.current.canonicalUrl != c.current.canonicalUrl) ++ [c]

/-- Commit one change of a document. -/
def DocumentChange.apply (rows : List CrawlDocument) (c : DocumentChange) : List CrawlDocument :=
  match c.loaded with
  | some l =>
      rows.map fun row =>
        if row.canonicalUrl = l.canonicalUrl then CrawlDocument.save ⟨l, c.current⟩ row else row
  | none => rows ++ [c.current]

/-- The documents that a session's queries see: committed rows under its own flushed changes. -/
def visibleDocuments (rows : List CrawlDocument) (changes : List DocumentChange) :
    List CrawlDocument :=
  changes.foldl DocumentChange.apply rows

/-- `CrawlRepository.count_pending_task_documents` over the rows a query sees. -/
def countPendingTaskDocuments (rows : List CrawlDocument) : ℕ :=
  rows.countP fun d => d.linked && !d.finalStatus.decided

/-- `CrawlRepository.count_unresolved_failures` over the rows a query sees. -/
def countUnresolvedFailures (rows : List CrawlTaskFailure) : ℕ :=
  rows.countP (·.status.unresolved)

end Odirag.Crawl
