import Odirag.Crawl.Session

/-!
# Saving a crawl result

Reference: `backend/app/services/crawl.py`: the save sections of `execute`, `_execute_local` and
`_execute_coze`, `_persist_batch_failures`, `_persist_failed_article`, `_save_coze_article`.

Nothing here commits: a save section assigns the task in memory and collects rows that the commit
of its final status publishes. `ArticleSave` is what happens to one article's savepoint.
-/

namespace Odirag.Crawl

open Documents CrawlTaskStateMachine

/-- The settings and collaborators that a worker of the task reads. -/
structure Config where
  taskId : String := "1"
  cozeEnabled : Bool := true
  testEnvironment : Bool := false
  batchEndpoint : Bool := true
  legacyEndpoint : Bool := false
  defaultContract : Contract := .batchCrawl
  maxRecoveryAttempts : ℕ := 3
  staleAfter : ℕ := 30 * 60
  normalizeUrl : String → String := id

/-- The three ways `execute` can crawl. -/
inductive Path
  | legacy | localPath | coze
deriving DecidableEq, Repr

/-- What the crawl of a path returned. -/
inductive Crawled
  | nothing
  | documents (urls : List String)
  | batch (b : BatchCrawlResponse)
deriving DecidableEq, Repr

/-- How the savepoint of one article ends. -/
inductive ArticleSave
  /-- Saved; for a document that is there already, what the comparison found. -/
  | stored (changedFields reviewChanged : Bool)
  /-- An exception before the task object was touched. -/
  | raises (className : String)
  /-- An exception in `_refresh_coze_document`, after `task.url_duplicate_count += 1`. -/
  | raisesInRefresh
  /-- An exception outside the savepoint. -/
  | aborts (exc : Exc)
deriving DecidableEq, Repr

/-- `task.crawl_provider.upper()`. -/
def Provider.upper : Provider → String
  | .coze => "COZE"
  | .localProvider => "LOCAL"
  | .playwright => "PLAYWRIGHT"

namespace Session

/-- `_persist_batch_failures` for one failed URL. -/
def persistFailedUrl (db : Db) (m : Session) (failed : BatchFailedUrl) : Session :=
  { m with
    failures := addFailure db.failures m.failures
      { url := failed.url, stage := failed.stage, errorCode := failed.errorCode
        errorMessage := failed.errorMessage, retryable := failed.retryable, status := .pending } }

/-- `_persist_failed_article`. -/
def persistFailedArticle (db : Db) (m : Session) (article : BatchArticle) : Session :=
  { m with
    failures := addFailure db.failures m.failures
      { url := article.url, stage := article.extractionMethod
        errorCode := m.task.current.crawlProvider.upper ++ "_ARTICLE_FAILED"
        errorMessage := article.decisionReason, retryable := true, status := .pending } }

/-- `_save_coze_article`. -/
def saveCozeArticle (cfg : Config) (db : Db) (m : Session) (article : BatchArticle)
    (changedFields reviewChanged : Bool) : Session :=
  let canonicalUrl := cfg.normalizeUrl article.url
  match findDocument db.documents m.documents canonicalUrl with
  | some found =>
      { m.assign (fun t => { t with urlDuplicateCount := t.urlDuplicateCount + 1 }) with
        documents := recordDocument m.documents
          { found with
            current := found.current.refresh article.decision changedFields reviewChanged } }
  | none =>
      { m with
        documents := recordDocument m.documents
          ⟨none, CrawlDocument.create canonicalUrl article.decision⟩ }

/-- The counters after an article that could not be saved. -/
def countSaveFailure (decision : Decision) (t : CrawlTask) : CrawlTask :=
  let t := { t with failedCount := t.failedCount + 1 }
  match decision with
  | .accepted =>
      { t with acceptedCount := t.acceptedCount - 1, successCount := t.acceptedCount - 1 }
  | .rejected => { t with rejectedCount := t.rejectedCount - 1 }
  | .pendingReview => { t with pendingReviewCount := t.pendingReviewCount - 1 }
  | .failed => t

/-- The handler of a savepoint that was rolled back. -/
def recordSaveFailure (p : Path) (db : Db) (m : Session) (article : BatchArticle)
    (className : String) : Session :=
  { m.assign (countSaveFailure article.decision) with
    failures := addFailure db.failures m.failures
      { url := article.url, stage := "saving_documents"
        errorCode := if p = .localPath then "LOCAL_DOCUMENT_SAVE_FAILED"
          else "COZE_DOCUMENT_SAVE_FAILED"
        errorMessage := className, retryable := true, status := .pending } }

/-- One article of the save loop: the session after it, and the exception that leaves the loop. -/
def saveArticle (cfg : Config) (p : Path) (db : Db) (m : Session) (article : BatchArticle)
    (outcome : ArticleSave) : Session × Option Exc :=
  match outcome with
  | .aborts exc => (m, some exc)
  | .stored changedFields reviewChanged =>
      if article.decision = .failed then (m.persistFailedArticle db article, none)
      else (m.saveCozeArticle cfg db article changedFields reviewChanged, none)
  | .raises className =>
      if article.decision = .failed then (m.persistFailedArticle db article, none)
      else (m.recordSaveFailure p db article className, none)
  | .raisesInRefresh =>
      if article.decision = .failed then (m.persistFailedArticle db article, none)
      -- The rollback of the savepoint expires the task object, which the handler then reads
      -- outside a greenlet.
      else (m, some (.other "MissingGreenlet"))

/-- The save loop. Articles beyond the listed outcomes are saved with no change found. -/
def saveArticles (cfg : Config) (p : Path) (db : Db) :
    Session → List BatchArticle → List ArticleSave → Session × Option Exc
  | m, [], _ => (m, none)
  | m, article :: rest, outcomes =>
      match m.saveArticle cfg p db article (outcomes.headD (.stored false false)) with
      | (m, some exc) => (m, some exc)
      | (m, none) => saveArticles cfg p db m rest outcomes.tail

/-- The counters a save section takes from the batch. -/
def takeStatistics (p : Path) (b : BatchCrawlResponse) (t : CrawlTask) : CrawlTask :=
  { t with
    discoveredCount := b.statistics.articlesDiscovered
    fetchedCount := b.statistics.articlesFetched
    failedCount := b.statistics.articlesFailed
    successCount := if p = .localPath then 0 else b.statistics.articlesAccepted
    acceptedCount := b.statistics.articlesAccepted
    rejectedCount := b.statistics.articlesRejected
    pendingReviewCount := b.statistics.articlesPendingReview }

/-- `no_articles`. -/
def noArticles (b : BatchCrawlResponse) (t : CrawlTask) : Bool :=
  b.statistics.articlesDiscovered == 0 && b.statistics.articlesFetched == 0 &&
    t.failedCount == 0 && (b.success || b.warnings.contains "NO_ARTICLES")

/-- `partial_failed`. -/
def isPartialFailed (b : BatchCrawlResponse) (t : CrawlTask) : Bool :=
  !noArticles b t && (t.failedCount != 0 || !b.success)

/-- The final status of a batch, set on the task in memory. -/
def conclude (p : Path) (b : BatchCrawlResponse) (pending : ℕ) (now : DateTime)
    (t : CrawlTask) : Except Exc CrawlTask :=
  let t := { t with
    pendingReviewCount := pending, providerErrorCode := none, providerErrorMessage := none }
  if isPartialFailed b t then
    transition { t with providerStatus := some .partialFailed } .partialFailed
      (some (if p = .localPath then "LOCAL_PARTIAL_FAILED" else "COZE_PARTIAL_FAILED")) now
  else if pending ≠ 0 then
    transition { t with providerStatus := some .waitingReview } .waitingReview none now
  else
    transition
      { t with providerStatus := some (if noArticles b t then .noArticles else .completed) }
      .completed none now

/-- The save section of a batch, up to but not including its commit. -/
def saveBatch (cfg : Config) (p : Path) (now : DateTime) (db : Db) (m : Session)
    (b : BatchCrawlResponse) (outcomes : List ArticleSave) : Session × Option Exc :=
  let m := m.assign (takeStatistics p b)
  let m := b.failedUrls.foldl (persistFailedUrl db) m
  match saveArticles cfg p db m b.articles outcomes with
  | (m, some exc) => (m, some exc)
  | (m, none) =>
      let pending := countPendingTaskDocuments (visibleDocuments db.documents m.documents)
      match conclude p b pending now m.task.current with
      | .ok t => (m.assign fun _ => t, none)
      | .error exc => (m, some exc)

/-- The legacy save of one crawled document. -/
def saveLegacyDocument (cfg : Config) (db : Db) (m : Session) (url : String) : Session :=
  let canonicalUrl := cfg.normalizeUrl url
  let m := m.assign fun t => { t with fetchedCount := t.fetchedCount + 1 }
  match findDocument db.documents m.documents canonicalUrl with
  | some found =>
      { m.assign (fun t => { t with urlDuplicateCount := t.urlDuplicateCount + 1 }) with
        documents := recordDocument m.documents found }
  | none =>
      { m.assign (fun t => { t with successCount := t.successCount + 1 }) with
        documents := recordDocument m.documents
          ⟨none, { canonicalUrl, finalStatus := .pending, manualReviewStatus := .pending
                   linked := true }⟩ }

/-- The legacy save section, up to but not including its commit. -/
def saveLegacy (cfg : Config) (now : DateTime) (db : Db) (m : Session) (urls : List String)
    (outcomes : List ArticleSave) : Session × Option Exc :=
  let m := m.assign fun t => { t with discoveredCount := urls.length }
  match outcomes with
  | .aborts exc :: _ => (m, some exc)
  | _ =>
      let m := urls.foldl (saveLegacyDocument cfg db) m
      match transition { m.task.current with pendingReviewCount := m.task.current.successCount }
        .completed none now with
      | .ok t => (m.assign fun _ => t, none)
      | .error exc => (m, some exc)

/-- The save section of a path. -/
def saveCrawled (cfg : Config) (p : Path) (now : DateTime) (db : Db) (m : Session) :
    Crawled → List ArticleSave → Session × Option Exc
  | .nothing, _ => (m, none)
  | .documents urls, outcomes => saveLegacy cfg now db m urls outcomes
  | .batch b, outcomes => saveBatch cfg p now db m b outcomes

/-! ### What a save section does to the task object -/

@[simp] theorem persistFailedUrl_task (db : Db) (m : Session) (f : BatchFailedUrl) :
    (m.persistFailedUrl db f).task = m.task := rfl

@[simp] theorem persistFailedArticle_task (db : Db) (m : Session) (a : BatchArticle) :
    (m.persistFailedArticle db a).task = m.task := rfl

/-- The two sessions hold the same loaded row and the same status in memory. -/
def SameStatus (m m' : Session) : Prop :=
  m'.task.loaded = m.task.loaded ∧ m'.task.current.status = m.task.current.status

theorem SameStatus.refl (m : Session) : m.SameStatus m := ⟨rfl, rfl⟩

theorem SameStatus.trans {m₁ m₂ m₃ : Session} (h : m₁.SameStatus m₂) (h' : m₂.SameStatus m₃) :
    m₁.SameStatus m₃ := ⟨h'.1.trans h.1, h'.2.trans h.2⟩

theorem sameStatus_saveCozeArticle (cfg : Config) (db : Db) (m : Session) (a : BatchArticle)
    (c r : Bool) : m.SameStatus (m.saveCozeArticle cfg db a c r) := by
  unfold saveCozeArticle
  dsimp only
  split <;> exact ⟨rfl, rfl⟩

theorem countSaveFailure_status (d : Decision) (t : CrawlTask) :
    (countSaveFailure d t).status = t.status := by
  cases d <;> rfl

theorem sameStatus_recordSaveFailure (p : Path) (db : Db) (m : Session) (a : BatchArticle)
    (c : String) : m.SameStatus (m.recordSaveFailure p db a c) :=
  ⟨rfl, countSaveFailure_status a.decision m.task.current⟩

theorem sameStatus_saveArticle (cfg : Config) (p : Path) (db : Db) (m : Session)
    (a : BatchArticle) (o : ArticleSave) : m.SameStatus (m.saveArticle cfg p db a o).1 := by
  cases o with
  | aborts exc => exact .refl m
  | stored c r =>
      simp only [saveArticle]
      split
      · exact ⟨rfl, rfl⟩
      · exact sameStatus_saveCozeArticle cfg db m a c r
  | raises c =>
      simp only [saveArticle]
      split
      · exact ⟨rfl, rfl⟩
      · exact sameStatus_recordSaveFailure p db m a c
  | raisesInRefresh =>
      simp only [saveArticle]
      split <;> exact ⟨rfl, rfl⟩

theorem sameStatus_saveArticles (cfg : Config) (p : Path) (db : Db) (m : Session)
    (articles : List BatchArticle) (outcomes : List ArticleSave) :
    m.SameStatus (saveArticles cfg p db m articles outcomes).1 := by
  induction articles generalizing m outcomes with
  | nil => exact .refl m
  | cons a rest ih =>
      have hone := sameStatus_saveArticle cfg p db m a (outcomes.headD (.stored false false))
      simp only [saveArticles]
      split
      · next m' exc h =>
          rw [h] at hone
          exact hone
      · next m' h =>
          rw [h] at hone
          exact hone.trans (ih m' outcomes.tail)

theorem sameStatus_foldl {α : Type*} {f : Session → α → Session}
    (h : ∀ (m : Session) a, m.SameStatus (f m a)) (l : List α) (m : Session) :
    m.SameStatus (l.foldl f m) := by
  induction l generalizing m with
  | nil => exact .refl m
  | cons a rest ih => exact (h m a).trans (ih (f m a))

theorem sameStatus_saveLegacyDocument (cfg : Config) (db : Db) (m : Session) (url : String) :
    m.SameStatus (m.saveLegacyDocument cfg db url) := by
  unfold saveLegacyDocument
  dsimp only
  split <;> exact ⟨rfl, rfl⟩

/-- The final status of a batch is an edge from the status held in memory. -/
theorem conclude_move {p : Path} {b : BatchCrawlResponse} {pending : ℕ} {now : DateTime}
    {t t' : CrawlTask} (h : conclude p b pending now t = .ok t') :
    t'.status ∈ t.status.transitions ∧
      t'.status ∈ [TaskStatus.partialFailed, .waitingReview, .completed] := by
  unfold conclude at h
  dsimp only at h
  split at h
  · obtain ⟨hmem, rfl⟩ := transition_ok h
    exact ⟨by simpa using hmem, by simp⟩
  · split at h
    · obtain ⟨hmem, rfl⟩ := transition_ok h
      exact ⟨by simpa using hmem, by simp⟩
    · obtain ⟨hmem, rfl⟩ := transition_ok h
      exact ⟨by simpa using hmem, by simp⟩

/-- What a save section leaves in the session: the loaded row as it was, and either no new
status, with an exception or nothing crawled, or one of the final statuses over an edge. -/
structure Concluded (m : Session) (r : Session × Option Exc) : Prop where
  loaded : r.1.task.loaded = m.task.loaded
  status : r.1.task.current.status = m.task.current.status ∨
    r.1.task.current.status ∈ m.task.current.status.transitions ∧
      r.1.task.current.status ∈ [TaskStatus.partialFailed, .waitingReview, .completed]

theorem SameStatus.concluded {m m' : Session} (h : m.SameStatus m') (e : Option Exc) :
    Concluded m (m', e) := ⟨h.1, .inl h.2⟩

theorem concluded_saveBatch (cfg : Config) (p : Path) (now : DateTime) (db : Db) (m : Session)
    (b : BatchCrawlResponse) (outcomes : List ArticleSave) :
    Concluded m (m.saveBatch cfg p now db b outcomes) := by
  have hstart : m.SameStatus (b.failedUrls.foldl (persistFailedUrl db)
      (m.assign (takeStatistics p b))) :=
    SameStatus.trans ⟨rfl, rfl⟩
      (sameStatus_foldl (f := persistFailedUrl db) (fun _ _ => ⟨rfl, rfl⟩) b.failedUrls
        (m.assign (takeStatistics p b)))
  have hloop := hstart.trans (sameStatus_saveArticles cfg p db _ b.articles outcomes)
  unfold saveBatch
  dsimp only
  split
  · next m' exc h =>
      rw [h] at hloop
      exact hloop.concluded (some exc)
  · next m' h =>
      rw [h] at hloop
      split
      · next t hc =>
          obtain ⟨hedge, hfinal⟩ := conclude_move hc
          have hsame : m'.task.current.status = m.task.current.status := hloop.2
          rw [hsame] at hedge
          exact ⟨hloop.1, .inr ⟨hedge, by simpa using hfinal⟩⟩
      · next exc hc => exact hloop.concluded (some exc)

theorem concluded_saveLegacy (cfg : Config) (now : DateTime) (db : Db) (m : Session)
    (urls : List String) (outcomes : List ArticleSave) :
    Concluded m (m.saveLegacy cfg now db urls outcomes) := by
  have hstart : m.SameStatus (m.assign fun t => { t with discoveredCount := urls.length }) :=
    ⟨rfl, rfl⟩
  have hloop := hstart.trans
    (sameStatus_foldl (sameStatus_saveLegacyDocument cfg db) urls _)
  unfold saveLegacy
  dsimp only
  split
  · exact hstart.concluded _
  · split
    · next t hc =>
        obtain ⟨hmem, rfl⟩ := transition_ok hc
        refine ⟨hloop.1, .inr ⟨?_, by simp⟩⟩
        simpa [hloop.2] using hmem
    · exact hloop.concluded _

/-- Every save section keeps the loaded row, and what it leaves in memory is the status it found
or a final status over an edge. -/
theorem concluded_saveCrawled (cfg : Config) (p : Path) (now : DateTime) (db : Db) (m : Session)
    (c : Crawled) (outcomes : List ArticleSave) :
    Concluded m (m.saveCrawled cfg p now db c outcomes) := by
  cases c with
  | nothing => exact (SameStatus.refl m).concluded none
  | documents urls => exact concluded_saveLegacy cfg now db m urls outcomes
  | batch b => exact concluded_saveBatch cfg p now db m b outcomes

end Session

end Odirag.Crawl
