import Odirag.Crawl.SaveSection
import Odirag.Crawl.FailureQueue

/-!
# Completed tasks and their failure rows

Reference: `backend/app/services/crawl.py`: the final status of `_execute_coze` and
`_execute_local`, `retry`, `execute_failed_url`, `queue_failure_retry`,
`mark_failure_queue_error`; `backend/app/repositories/reviews.py`: `reconcile_crawl_tasks`.

A history of a task interleaves everything that moves the task with the calls that queue the retry
of a failed URL. The final status of an attempt is computed from the counters of its own batch,
which are right about the attempt's own failures (`Worker.Closing`): a session that completes the
task publishes no failure of its own. Failure rows of earlier attempts are not looked at, neither
by a worker nor by the review reconciliation.
-/

namespace Odirag.Crawl

open Documents CrawlRepository CrawlTaskStateMachine

/-! ## Histories of a task -/

/-- The points of a `mark_failure_queue_error` call. -/
inductive QueueError
  | load (failureId : ℕ) (errorType : String)
  /-- `failed` is set in memory; before its commit. -/
  | commit (failure : Held CrawlTaskFailure)
  | returned
  | raised (exc : Exc)
deriving DecidableEq

/-- What `mark_failure_queue_error` assigns. -/
def markFailureQueueError (errorType : String) (now : DateTime) (failure : CrawlTaskFailure) :
    CrawlTaskFailure :=
  { failure with
    status := .failed
    errorMessage := "TASK_QUEUE_UNAVAILABLE:" ++ errorType
    nextRetryAt := some (now + 60) }

/-- The next database statement of a `mark_failure_queue_error` call. -/
def QueueError.step (now : DateTime) (o : Outcome) (db : Db) :
    QueueError → Option (Db × QueueError)
  | .load failureId errorType =>
      match db.failures.find? (·.id == failureId) with
      | none => some (db, .returned)
      | some failure =>
          some (db, .commit ((Held.fresh failure).assign (markFailureQueueError errorType now)))
  | .commit m =>
      match o with
      | .next =>
          some ({ db with failures := FailureChange.apply db.failures ⟨some m.loaded, m.current⟩ },
            .returned)
      | .raises exc => some (db, .raised exc)
      | _ => none
  | .returned => none
  | .raised _ => none

/-- A call in the history of a task. -/
inductive HistoryCall
  | task (p : Party)
  | queue (q : QueueRetry)
  | queueError (e : QueueError)
deriving DecidableEq

/-- The session of a call that only changes a failure row. -/
def rowSession (db : Db) (m : Held CrawlTaskFailure) : Session where
  task := .fresh db.task
  failures := [⟨some m.loaded, m.current⟩]

namespace HistoryCall

/-- A call that has not started. -/
def AtStart : HistoryCall → Prop
  | .task p => p.AtStart
  | .queue (.load _) | .queueError (.load _ _) => True
  | _ => False

/-- The next step of a call. -/
def next (cfg : Config) (a : Act) (db : Db) (c : HistoryCall) : Option (Db × HistoryCall) :=
  match c, a with
  | .task p, a => (p.next cfg a db).map fun r => (r.1, .task r.2)
  | .queue q, .step _ o => (q.step o db).map fun r => (r.1, .queue r.2)
  | .queueError e, .step now o => (e.step now o db).map fun r => (r.1, .queueError r.2)
  | _, _ => none

/-- The session that a step of a call commits. -/
def commits (db : Db) (a : Act) (c : HistoryCall) : Option Session :=
  match c, a with
  | .task p, a => p.commits db a
  | .queue (.commit m), .step _ .next => some (rowSession db m)
  | .queueError (.commit m), .step _ .next => some (rowSession db m)
  | _, _ => none

end HistoryCall

/-- Everything that works on a task and its failures. -/
def historyCalls (cfg : Config) : Parties ℕ Db HistoryCall Act where
  next _ := HistoryCall.next cfg

/-- The states of a history. -/
abbrev HistoryState := Parties.State ℕ Db HistoryCall

/-- The histories of a task, from its creation on: it has no failure rows, and no call has
started. -/
def historySystem (cfg : Config) : System HistoryState (ℕ × Act) :=
  (historyCalls cfg).system fun s => s.shared.failures = [] ∧ ∀ i, (s.loc i).AtStart

/-! ## Completing a task -/

/-- Every failure row is resolved. -/
def AllResolved (rows : List CrawlTaskFailure) : Prop :=
  ∀ row ∈ rows, row.status.unresolved = false

instance (rows : List CrawlTaskFailure) : Decidable (AllResolved rows) :=
  inferInstanceAs (Decidable (∀ row ∈ rows, _))

/-- A completed task has no open failures. -/
def CompletedResolved (db : Db) : Prop := db.task.status = .completed → AllResolved db.failures

namespace Session

/-- The session has assigned `completed`. -/
def Completes (m : Session) : Prop :=
  m.task.current.status = .completed ∧ m.task.loaded.status ≠ .completed

instance (m : Session) : Decidable m.Completes := inferInstanceAs (Decidable (_ ∧ _))

/-- The session's commit updates this row. -/
def Updates (m : Session) (row : CrawlTaskFailure) : Prop :=
  ∃ c ∈ m.failures, c.loaded.map (·.id) = some row.id

instance (m : Session) (row : CrawlTaskFailure) : Decidable (m.Updates row) :=
  inferInstanceAs (Decidable (∃ c ∈ m.failures, _))

theorem Kept.not_completes {m : Session} (h : m.Kept) : ¬ m.Completes :=
  fun hc => hc.2 (h.symm.trans hc.1)

end Session

/-- The documents that the counts of a review decision see. -/
def ReviewDecision.seen (d : ReviewDecision) (db : Db) : List CrawlDocument :=
  (if d.flushed then d.apply db.documents else db.documents).filter (·.linked)

/-- The decision leaves no document of the waiting task pending. -/
def ReviewDecision.Completes (d : ReviewDecision) (db : Db) : Prop :=
  db.task.status = .waitingReview ∧ d.links db.documents = true ∧ 0 < (d.seen db).length ∧
    (d.seen db).length - (d.seen db).countP (·.finalStatus == .approved) -
      (d.seen db).countP (·.finalStatus == .rejected) = 0

instance (d : ReviewDecision) (db : Db) : Decidable (d.Completes db) :=
  inferInstanceAs (Decidable (_ ∧ _))

/-- The decision of a review step. -/
def Act.decision : Act → Option ReviewDecision
  | .review _ d => some d
  | .step _ _ => none

/-- What the code relies on for its final status: whoever completes the task, by a commit or by a
review decision, finds the failure rows resolved that are committed by then, and whoever commits a
failure row over a completed task resolves it. -/
structure Closes (s : HistoryState) (l : ℕ × Act) : Prop where
  commit : ∀ m ∈ (s.loc l.1).commits s.shared l.2, m.Completes →
    ∀ row ∈ s.shared.failures, row.status.unresolved = true → m.Updates row
  keep : ∀ m ∈ (s.loc l.1).commits s.shared l.2, m.Kept → s.shared.task.status = .completed →
    ∀ c ∈ m.failures, c.current.status.unresolved = false
  review : s.loc l.1 = .task .review → ∀ d ∈ l.2.decision, d.Completes s.shared →
    AllResolved s.shared.failures

instance (s : HistoryState) (l : ℕ × Act) : Decidable (Closes s l) :=
  decidable_of_iff
    ((∀ m ∈ (s.loc l.1).commits s.shared l.2, m.Completes →
        ∀ row ∈ s.shared.failures, row.status.unresolved = true → m.Updates row) ∧
      (∀ m ∈ (s.loc l.1).commits s.shared l.2, m.Kept → s.shared.task.status = .completed →
        ∀ c ∈ m.failures, c.current.status.unresolved = false) ∧
      (s.loc l.1 = .task .review → ∀ d ∈ l.2.decision, d.Completes s.shared →
        AllResolved s.shared.failures))
    ⟨fun h => ⟨h.1, h.2.1, h.2.2⟩, fun h => ⟨h.commit, h.keep, h.review⟩⟩

/-! ## Publishing failure rows -/

/-- The change resolves a row that was open, or inserts a resolved one. -/
def FailureChange.Resolves (c : FailureChange) : Prop :=
  c.current.status.unresolved = false ∧ ∀ l ∈ c.loaded, l.status.unresolved = true

/-- Resolving every open row leaves all rows resolved. -/
theorem allResolved_foldl {changes : List FailureChange} {rows : List CrawlTaskFailure}
    (hchanges : ∀ c ∈ changes, c.Resolves)
    (hopen : ∀ row ∈ rows, row.status.unresolved = true →
      ∃ c ∈ changes, c.loaded.map (·.id) = some row.id) :
    AllResolved (changes.foldl FailureChange.apply rows) := by
  induction changes generalizing rows with
  | nil =>
      intro row hrow
      by_contra hun
      obtain ⟨c, hc, -⟩ := hopen row hrow (by simpa using hun)
      cases hc
  | cons c rest ih =>
      have hrest : ∀ c ∈ rest, c.Resolves := fun c hc => hchanges c (List.mem_cons_of_mem _ hc)
      obtain ⟨hdone, hloaded⟩ := hchanges c List.mem_cons_self
      refine ih hrest fun row hrow hun => ?_
      unfold FailureChange.apply at hrow
      split at hrow
      · next l hl =>
          obtain ⟨stored, hstored, rfl⟩ := List.mem_map.mp hrow
          have hl' : l.status.unresolved = true := hloaded l hl
          split at hun
          · next hid =>
              -- The row is the one that this change resolves.
              have hne : c.current.status ≠ l.status := by
                intro heq
                rw [heq, hl'] at hdone
                cases hdone
              simp only [CrawlTaskFailure.save, column, if_neg hne] at hun
              rw [hdone] at hun
              cases hun
          · next hid =>
              obtain ⟨c', hc', hid'⟩ := hopen stored hstored hun
              rcases List.mem_cons.mp hc' with rfl | hc'
              · rw [hl] at hid'
                exact absurd (Option.some.inj hid').symm hid
              · exact ⟨c', hc', by rw [hid', if_neg hid]⟩
      · rcases List.mem_append.mp hrow with hrow | hrow
        · obtain ⟨c', hc', hid'⟩ := hopen row hrow hun
          rcases List.mem_cons.mp hc' with rfl | hc'
          · next hnone =>
              rw [hnone] at hid'
              cases hid'
          · exact ⟨c', hc', hid'⟩
        · obtain rfl := List.mem_singleton.mp hrow
          exact absurd (hdone.symm.trans hun) (by decide)

/-- Publishing resolved rows only keeps all rows resolved. -/
theorem AllResolved.foldl {changes : List FailureChange} {rows : List CrawlTaskFailure}
    (h : AllResolved rows) (hchanges : ∀ c ∈ changes, c.current.status.unresolved = false) :
    AllResolved (changes.foldl FailureChange.apply rows) := by
  induction changes generalizing rows with
  | nil => exact h
  | cons c rest ih =>
      have hdone := hchanges c List.mem_cons_self
      refine ih ?_ fun c hc => hchanges c (List.mem_cons_of_mem _ hc)
      intro row hrow
      unfold FailureChange.apply at hrow
      split at hrow
      · next l _ =>
          obtain ⟨stored, hstored, rfl⟩ := List.mem_map.mp hrow
          split
          · simp only [CrawlTaskFailure.save, column]
            split
            · exact h stored hstored
            · exact hdone
          · exact h stored hstored
      · rcases List.mem_append.mp hrow with hrow | hrow
        · exact h row hrow
        · obtain rfl := List.mem_singleton.mp hrow
          exact hdone

/-! ## The save section of an attempt -/

/-- The batch of a crawl has passed its validation. -/
def Crawled.Validated : Crawled → Prop
  | .batch b => b.validateStatistics.isOk = true
  | _ => True

/-- A validated batch counts its failed URLs and failed articles. -/
theorem articlesFailed_of_validated {b : BatchCrawlResponse}
    (h : b.validateStatistics.isOk = true) :
    b.statistics.articlesFailed = b.decisions .failed + b.failedUrls.length := by
  unfold BatchCrawlResponse.validateStatistics at h
  split at h
  · cases h
  · split at h
    · cases h
    · split at h
      · cases h
      · split at h
        · cases h
        · next hfailed => exact (not_not.mp hfailed).symm

namespace Session

/-- The failures that the session holds are counted: its counter is positive, or it holds none and
none of the articles that are left has failed. -/
def Counted (m : Session) (rest : List BatchArticle) : Prop :=
  0 < m.task.current.failedCount ∨ m.failures = [] ∧ ∀ a ∈ rest, a.decision ≠ .failed

theorem counted_saveArticle (cfg : Config) (p : Path) (db : Db) {m : Session} {a : BatchArticle}
    {rest : List BatchArticle} (h : m.Counted (a :: rest)) (o : ArticleSave) :
    (m.saveArticle cfg p db a o).1.Counted rest := by
  have hkeep : m.Counted rest :=
    h.imp_right fun ⟨hnone, hrest⟩ => ⟨hnone, fun b hb => hrest b (List.mem_cons_of_mem _ hb)⟩
  -- An article that has failed was counted with the batch.
  have hfailed : a.decision = .failed → 0 < m.task.current.failedCount :=
    fun ha => h.resolve_right fun ⟨_, hrest⟩ => hrest a List.mem_cons_self ha
  cases o with
  | aborts exc => exact hkeep
  | stored c r =>
      simp only [saveArticle]
      split
      · next ha => exact .inl (hfailed ha)
      · unfold saveCozeArticle
        dsimp only
        split <;> exact hkeep
  | raises className =>
      simp only [saveArticle]
      split
      · next ha => exact .inl (hfailed ha)
      · refine .inl ?_
        simp only [recordSaveFailure, countSaveFailure, assign_current]
        cases a.decision <;> exact Nat.succ_pos _
  | raisesInRefresh =>
      simp only [saveArticle]
      split
      · next ha => exact .inl (hfailed ha)
      · exact hkeep

theorem counted_saveArticles (cfg : Config) (p : Path) (db : Db) {m : Session}
    {articles : List BatchArticle} (h : m.Counted articles) (outcomes : List ArticleSave)
    (hok : (saveArticles cfg p db m articles outcomes).2 = none) :
    (saveArticles cfg p db m articles outcomes).1.Counted [] := by
  induction articles generalizing m outcomes with
  | nil => exact h
  | cons a rest ih =>
      have hone := counted_saveArticle cfg p db h
        (outcomes.headD (.stored false false))
      simp only [saveArticles] at hok ⊢
      split at hok
      · cases hok
      · next m' heq =>
          rw [heq] at hone
          exact ih hone outcomes.tail hok

/-- What a batch is counted with covers its failed URLs and failed articles. -/
theorem counted_start (db : Db) {m : Session} (p : Path) {b : BatchCrawlResponse}
    (hvalid : b.validateStatistics.isOk = true) (hnone : m.failures = []) :
    (b.failedUrls.foldl (persistFailedUrl db) (m.assign (takeStatistics p b))).Counted
      b.articles := by
  have hcount := articlesFailed_of_validated hvalid
  have htask : ∀ (urls : List BatchFailedUrl) (m : Session),
      (urls.foldl (persistFailedUrl db) m).task = m.task := by
    intro urls
    induction urls with
    | nil => exact fun _ => rfl
    | cons u rest ih => exact fun m => ih _
  by_cases hzero : b.statistics.articlesFailed = 0
  · refine .inr ⟨?_, fun a ha hfailed => ?_⟩
    · have hurls : b.failedUrls = [] := List.length_eq_zero_iff.mp (by omega)
      rw [hurls]
      exact hnone
    · have hdecisions : b.decisions .failed = 0 := by omega
      exact List.countP_eq_zero.mp hdecisions a ha (by simp [hfailed])
  · refine .inl ?_
    rw [htask]
    exact Nat.pos_of_ne_zero hzero

/-- A batch that is concluded as completed has counted no failure. -/
theorem conclude_completed {p : Path} {b : BatchCrawlResponse} {pending : ℕ} {now : DateTime}
    {t t' : CrawlTask} (h : conclude p b pending now t = .ok t')
    (hdone : t'.status = .completed) : t.failedCount = 0 := by
  unfold conclude at h
  dsimp only at h
  split at h
  · obtain ⟨-, rfl⟩ := transition_ok h
    rw [enter_status] at hdone
    cases hdone
  · next hpartial =>
      by_contra hne
      refine hpartial ?_
      simp [isPartialFailed, noArticles, hne]

/-- A save section that completes the task holds no failure row of its own. -/
theorem failures_saveCrawled {cfg : Config} {p : Path} {now : DateTime} {db : Db} {m m' : Session}
    {c : Crawled} {outcomes : List ArticleSave} (hvalid : c.Validated) (hnone : m.failures = [])
    (h : m.saveCrawled cfg p now db c outcomes = (m', none))
    (hdone : m'.Completes) : m'.failures = [] := by
  cases c with
  | nothing =>
      cases h
      exact hnone
  | documents urls =>
      have hdocs : ∀ (urls : List String) (m : Session), m.failures = [] →
          (urls.foldl (saveLegacyDocument cfg db) m).failures = [] := by
        intro urls
        induction urls with
        | nil => exact fun _ h => h
        | cons u rest ih =>
            intro m hm
            refine ih _ ?_
            unfold saveLegacyDocument
            dsimp only
            split <;> exact hm
      simp only [saveCrawled, saveLegacy] at h
      split at h
      · cases h
      · split at h
        · cases h
          exact hdocs urls _ hnone
        · cases h
  | batch b =>
      have hstart := counted_start db p hvalid hnone
      simp only [saveCrawled, saveBatch] at h
      split at h
      · cases h
      · next m₁ hloop =>
          have hcounted := counted_saveArticles cfg p db hstart outcomes
            (by rw [hloop])
          rw [hloop] at hcounted
          split at h
          · next t hconclude =>
              cases h
              -- A batch with a failure row counts it, and a counted failure keeps the task from
              -- completing.
              have hzero := conclude_completed hconclude hdone.1
              rcases hcounted with hpos | ⟨hfailures, -⟩
              · exact absurd hzero (Nat.pos_iff_ne_zero.mp hpos)
              · exact hfailures
          · cases h

end Session

/-! ## What a call holds -/

/-- A worker's session that completes the task holds no failure row, and no session but that of
its final commit completes it. -/
def Worker.Closing : Worker → Prop
  | .advanced _ c _ => c.Validated
  | .save _ c m => c.Validated ∧ m.failures = []
  | .commit _ m => m.Completes → m.failures = []
  | .notConfigured m | .finishCommit _ m | .handlerCommit _ _ m => ¬ m.Completes
  | _ => True

namespace Worker

/-- A session whose status was set to `failed` does not complete the task. -/
theorem not_completes_failed {m : Session} {t t' : CrawlTask} {error : Option String}
    {now : DateTime} (h : transition t .failed error now = .ok t') :
    ¬ (m.assign fun _ => t').Completes := by
  obtain ⟨-, rfl⟩ := transition_ok h
  rintro ⟨hdone, -⟩
  rw [Session.assign_current, enter_status] at hdone
  cases hdone

theorem Dispatched.closing {now : DateTime} {m : Session} {w : Worker} (h : Dispatched now m w) :
    w.Closing := by
  cases h with
  | refused ht hok => exact not_completes_failed hok
  | _ => trivial

theorem closing_continueAfter (cfg : Config) (g : Gate) {c : Crawled} {m : Session}
    (hc : c.Validated) (hm : ¬ m.HasRows) : (continueAfter cfg g c m).Closing := by
  have hnone : m.failures = [] := not_not.mp fun h => hm (.inl h)
  cases g with
  | legacySave | localSave | cozeSave => exact ⟨hc, hnone⟩
  | _ => trivial

theorem Finished.closing {db : Db} {m : Session} {hd : Handler} {w : Worker}
    (h : Finished db m hd w) : w.Closing := by
  cases h with
  | changed => trivial
  | cancelled ht => exact ((Session.kept_refresh m db).assign ht).not_completes

theorem Handled.closing {now : DateTime} {db : Db} {m : Session} {hd : Handler} {exc : Exc}
    {w : Worker} (h : Handled now db m hd exc w) : w.Closing := by
  cases h with
  | failed ht hok => exact not_completes_failed hok
  | recorded ht =>
      exact ((kept_handlerSession hd db m).assign
        (by rw [handlerSession_task]; exact ht)).not_completes
  | _ => trivial

theorem closing_raising (exc : Exc) (w : Worker) : (w.raising exc).Closing := by
  rcases raising_cases exc w with h | ⟨hd, m, h⟩ <;> (rw [h]; trivial)

theorem closing_committed (w : Worker) : w.committed.Closing := by
  cases w with
  | handlerCommit hd => cases hd <;> trivial
  | _ => trivial

/-- What a gate lets through has been validated. -/
theorem validated_crawlResult {cfg : Config} {g : Gate} {o : Outcome} {c : Crawled}
    (h : crawlResult cfg g o = some (.ok c)) : c.Validated := by
  unfold crawlResult at h
  split at h
  · cases h
  · cases h
    trivial
  · cases h
    trivial
  · cases h
    trivial
  · cases h
    trivial
  · cases h
    trivial
  · split at h
    · next hvalid =>
        cases h
        exact hvalid
    · cases h
  · cases h
  · split at h
    · cases h
    · next hvalid =>
        split at h
        · cases h
        · cases h
          simpa [Crawled.Validated] using hvalid
  · cases h
  · cases h

/-- A worker's step keeps `Closing`. -/
theorem Closing.step {cfg : Config} {now : DateTime} {o : Outcome} {db db' : Db} {w w' : Worker}
    (hw : w.Closing) (htidy : w.Tidy) (h : w.step cfg now o db = some (db', w')) : w'.Closing := by
  cases moves_of_step h with
  | raises exc => exact closing_raising exc w
  | commit => exact closing_committed w
  | load | keep => exact (dispatched_dispatch cfg now _).closing
  | win hc hwon => exact validated_crawlResult hc
  | advance g c m => exact closing_continueAfter cfg g hw (m := m.refresh db) htidy
  | save hsave => exact Session.failures_saveCrawled hw.1 hw.2 hsave
  | finish => exact (finished_finishSelect _ _ db _).closing
  | handle => exact (handled_handle _ _ now db _).closing
  | _ => trivial

/-- A worker's session that completes the task publishes no failure. -/
theorem Closing.pendingCommit {w : Worker} {m : Session} (hw : w.Closing) (hsound : w.Sound)
    (h : w.pendingCommit = some m) (hdone : m.Completes) : m.failures = [] := by
  cases w with
  | commit => cases h; exact hw hdone
  | notConfigured | finishCommit | handlerCommit => cases h; exact absurd hdone hw
  | invocation | calling =>
      cases h
      exact absurd hdone (Session.Kept.not_completes hsound)
  | _ => cases h

end Worker

/-- A retry that completes the task has resolved the row it holds. -/
def FailedUrl.Closing : FailedUrl → Prop
  | .commit r => r.failure.current.status = .succeeded ∨ r.base.Kept
  | _ => True

namespace FailedUrl

/-- A retry's step keeps `Closing`. -/
theorem Closing.step {cfg : Config} {now : DateTime} {o : Outcome} {db db' : Db} {f f' : FailedUrl}
    (hsound : f.Sound) (h : f.step cfg now o db = some (db', f')) : f'.Closing := by
  cases moves_of_step h with
  | notPublished code r => exact .inr (kept_failRetry (Session.kept_flushed r.base))
  | fail => exact .inr (kept_failRetry hsound)
  | save hsave hok =>
      refine .inl ?_
      rw [failure_succeedRetry hok]
      rfl
  | saveFails code r b outcomes =>
      have hsame := (sameStatus_saveRetried cfg db r.base b.articles outcomes).kept hsound
      exact .inr (kept_failRetry (r := { r with base := _ }) hsame)
  | _ => trivial

/-- A retry's session that completes the task resolves the open row that it holds. -/
theorem Closing.pendingCommit {failureId : ℕ} {db : Db} {f : FailedUrl} {m : Session}
    (hf : f.Closing) (hsound : f.Sound) (hfor : f.For failureId) (h : f.pendingCommit db = some m)
    (hdone : m.Completes) : ∀ c ∈ m.failures, c.Resolves := by
  cases f with
  | begin r =>
      cases h
      exact absurd hdone (Session.Kept.not_completes hsound)
  | commit r =>
      simp only [FailedUrl.pendingCommit] at h
      split at h
      · cases h
      · cases h
        intro c hc
        obtain rfl := List.mem_singleton.mp hc
        rcases hf with hrow | hkept
        · refine ⟨?_, fun l hl => ?_⟩
          · show r.failure.current.status.unresolved = false
            rw [hrow]
            rfl
          · obtain rfl := Option.some.inj hl
            rw [hfor.1.status]
            rfl
        · exact absurd hdone (Session.Kept.not_completes hkept)
  | _ => cases h

end FailedUrl

/-- The session of a load-and-save operation holds no failure row. -/
def Party.Closing : Party → Prop
  | .worker w => w.Closing
  | .failedUrl f => f.Closing ∧ ∃ failureId, f.For failureId
  | .save _ m => m.failures = []
  | _ => True

/-- What a party holds that moves the task. -/
structure Party.Holds (p : Party) : Prop where
  sound : p.Sound
  tidy : p.Tidy
  closing : p.Closing

/-- What a call of a history holds. -/
def HistoryCall.Holds : HistoryCall → Prop
  | .task p => p.Holds
  | _ => True

namespace Party

/-- A party's step keeps what it holds. -/
theorem Holds.next {cfg : Config} {a : Act} {db db' : Db} {p p' : Party} (hp : p.Holds)
    (h : p.next cfg a db = some (db', p')) : p'.Holds := by
  refine ⟨hp.sound.next h, (hp.tidy.next h).1, ?_⟩
  obtain ⟨hsound, htidy, hclosing⟩ := hp
  unfold Party.next at h
  split at h
  · next w now o =>
      obtain ⟨⟨db₁, w'⟩, hw, heq⟩ := Option.map_eq_some_iff.mp h
      cases heq
      exact Worker.Closing.step hclosing htidy hw
  · obtain ⟨r, -, heq⟩ := Option.map_eq_some_iff.mp h
    cases heq
    trivial
  · split at h <;> (cases h; first | rfl | trivial)
  · cases h
    trivial
  · cases h
    trivial
  · next f now o =>
      obtain ⟨⟨db₁, f'⟩, hf, heq⟩ := Option.map_eq_some_iff.mp h
      cases heq
      obtain ⟨-, failureId, hfor⟩ := hclosing
      exact ⟨FailedUrl.Closing.step hsound hf, failureId, (hfor.step hf).1⟩
  · cases h
    trivial
  · cases h

/-- A session that completes the task resolves every row that it publishes. -/
theorem Holds.commits {db : Db} {a : Act} {p : Party} {m : Session} (hp : p.Holds)
    (h : p.commits db a = some m) (hdone : m.Completes) : ∀ c ∈ m.failures, c.Resolves := by
  have hnone : m.failures = [] → ∀ c ∈ m.failures, c.Resolves := by
    intro hnil c hc
    rw [hnil] at hc
    cases hc
  unfold Party.commits at h
  split at h
  · exact hnone (Worker.Closing.pendingCommit hp.closing hp.sound h hdone)
  · obtain ⟨hclosing, failureId, hfor⟩ := hp.closing
    exact hclosing.pendingCommit hp.sound hfor h hdone
  · cases h
    exact hnone hp.closing
  · cases h

end Party

/-! ## Steps that commit no session -/

/-- A worker completes a task by a commit only. -/
theorem Worker.completed_of_noCommit {cfg : Config} {now : DateTime} {o : Outcome} {db db' : Db}
    {w w' : Worker} (h : w.step cfg now o db = some (db', w'))
    (hnone : o = .next → w.pendingCommit = none) (hdone : db'.task.status = .completed) :
    db.task.status = .completed := by
  -- Only two kinds of statement write the status, and neither writes `completed`.
  cases moves_of_step h with
  | commit hm =>
      rw [hnone rfl] at hm
      cases hm
  | claim hclaim =>
      obtain ⟨-, ht, -, -⟩ := claimTask_won hclaim
      rw [ht] at hdone
      cases hdone
  | @win g m o c db' hc hwon =>
      obtain ⟨-, ht, -, -⟩ := advance_won hwon
      rw [ht] at hdone
      cases g <;> cases hdone
  | _ => exact hdone

/-- A `cancel` call completes no task. -/
theorem Cancel.completed_step {now : DateTime} {db db' : Db} {c c' : Cancel}
    (h : c.step now db = some (db', c')) (hdone : db'.task.status = .completed) :
    db.task.status = .completed := by
  cases c with
  | update left task allowed =>
      cases hc : cancelTaskIfStatus task.status (reason task).1 (reason task).2 now db with
      | mk db₁ won =>
          simp only [step, hc] at h
          cases h
          cases won with
          | true =>
              obtain ⟨-, ht, -, -⟩ := cancel_won hc
              rw [ht] at hdone
              cases hdone
          | false =>
              obtain ⟨-, rfl⟩ := cancel_lost hc
              exact hdone
  | refresh left won =>
      cases won with
      | true => cases h; exact hdone
      | false => cases left <;> (cases h; exact hdone)
  | load => cases h; exact hdone
  | returned | raised => cases h

/-- Reconciliation completes a task only if none of its documents is pending. -/
theorem CrawlTask.reconcile_completed {accepted rejected total : ℕ} {now : DateTime}
    {task : CrawlTask} (h : (task.reconcile accepted rejected total now).status = .completed) :
    task.status = .completed ∨ 0 < total ∧ total - accepted - rejected = 0 := by
  unfold CrawlTask.reconcile at h
  dsimp only at h
  split at h
  · next hcount => exact .inr hcount
  · exact .inl h

/-- A review decision completes a task only if it leaves none of its documents pending. -/
theorem ReviewDecision.completed_step {now : DateTime} {d : ReviewDecision} {db : Db}
    (h : (d.step now db).task.status = .completed) :
    db.task.status = .completed ∨ d.Completes db := by
  by_cases hw : db.task.status = .waitingReview ∧ d.links db.documents = true
  · simp only [ReviewDecision.step, if_pos hw] at h
    rcases CrawlTask.reconcile_completed h with hdone | hcount
    · exact .inl hdone
    · exact .inr ⟨hw.1, hw.2, hcount⟩
  · simp only [ReviewDecision.step, if_neg hw] at h
    exact .inl h

/-- A step that commits no session completes the task only by a review decision. -/
theorem Party.completed_of_noCommit {cfg : Config} {a : Act} {db db' : Db} {p p' : Party}
    (h : p.next cfg a db = some (db', p')) (hnone : p.commits db a = none)
    (hdone : db'.task.status = .completed) :
    db.task.status = .completed ∨ p = .review ∧ ∃ d ∈ a.decision, d.Completes db := by
  unfold Party.next at h
  split at h
  · next w now o =>
      obtain ⟨⟨db₁, w'⟩, hw, heq⟩ := Option.map_eq_some_iff.mp h
      cases heq
      refine .inl (Worker.completed_of_noCommit hw ?_ hdone)
      rintro rfl
      exact hnone
  · obtain ⟨⟨db₁, c'⟩, hc, heq⟩ := Option.map_eq_some_iff.mp h
    cases heq
    exact .inl (Cancel.completed_step hc hdone)
  · split at h <;> (cases h; exact .inl hdone)
  · cases hnone
  · cases h
    -- `mark_queued` writes `queued`, or leaves the row.
    unfold advanceTaskIfStatus at hdone
    split at hdone
    · cases hdone
    · exact .inl hdone
  · next f now o =>
      obtain ⟨⟨db₁, f'⟩, hf, heq⟩ := Option.map_eq_some_iff.mp h
      cases heq
      rcases f.step_cases hf with ⟨m, rfl, hm, -⟩ | ⟨-, rfl⟩
      · have hm' : f.pendingCommit db = none := hnone
        rw [hm'] at hm
        cases hm
      · exact .inl hdone
  · next now d =>
      cases h
      rcases ReviewDecision.completed_step hdone with hdone | hd
      · exact .inl hdone
      · exact .inr ⟨rfl, d, rfl, hd⟩
  · cases h

/-- What a call's step does to the completion of the task: it commits its pending session, or it
leaves the failure rows alone and completes the task only by a review decision. -/
theorem HistoryCall.next_cases {cfg : Config} {a : Act} {db db' : Db} {c c' : HistoryCall}
    (h : c.next cfg a db = some (db', c')) :
    (∃ m, c.commits db a = some m ∧ db' = m.commit db) ∨
      db'.failures = db.failures ∧ (db'.task.status = .completed → db.task.status = .completed ∨
        c = .task .review ∧ ∃ d ∈ a.decision, d.Completes db) := by
  have hrow : ∀ m : Held CrawlTaskFailure, (rowSession db m).commit db =
      { db with failures := FailureChange.apply db.failures ⟨some m.loaded, m.current⟩ } := by
    intro m
    simp only [rowSession, Session.commit, List.foldl_cons, List.foldl_nil]
    rw [CrawlTask.save_unchanged rfl]
  -- A read, or a statement that raises.
  have hidle : ∀ {db₁ : Db} {c : HistoryCall} {a : Act}, db₁ = db → db₁.failures = db.failures ∧
      (db₁.task.status = .completed → db.task.status = .completed ∨
        c = .task .review ∧ ∃ d ∈ a.decision, d.Completes db) := by
    rintro _ c a rfl
    exact ⟨rfl, .inl⟩
  unfold HistoryCall.next at h
  split at h
  · next p a =>
      obtain ⟨⟨db₁, p'⟩, hp, heq⟩ := Option.map_eq_some_iff.mp h
      cases heq
      rcases Party.next_cases hp with ⟨m, hm, hdb⟩ | ⟨hnone, hno⟩
      · exact .inl ⟨m, hm, hdb⟩
      · refine .inr ⟨hno.failures, fun hdone => ?_⟩
        rcases Party.completed_of_noCommit hp hnone hdone with hdone | ⟨rfl, hd⟩
        · exact .inl hdone
        · exact .inr ⟨rfl, hd⟩
  · next q now o =>
      obtain ⟨⟨db₁, q'⟩, hq, heq⟩ := Option.map_eq_some_iff.mp h
      cases heq
      cases q with
      | load j =>
          simp only [QueueRetry.step] at hq
          split at hq
          · cases hq
            exact .inr (hidle rfl)
          · split at hq <;> (cases hq; exact .inr (hidle rfl))
      | commit m =>
          cases o with
          | next => cases hq; exact .inl ⟨rowSession db m, rfl, (hrow m).symm⟩
          | raises exc => cases hq; exact .inr (hidle rfl)
          | _ => cases hq
      | refresh j =>
          cases o with
          | next | raises exc => cases hq; exact .inr (hidle rfl)
          | _ => cases hq
      | returned | raised => cases hq
  · next e now o =>
      obtain ⟨⟨db₁, e'⟩, he, heq⟩ := Option.map_eq_some_iff.mp h
      cases heq
      cases e with
      | load j errorType =>
          simp only [QueueError.step] at he
          split at he <;> (cases he; exact .inr (hidle rfl))
      | commit m =>
          cases o with
          | next => cases he; exact .inl ⟨rowSession db m, rfl, (hrow m).symm⟩
          | raises exc => cases he; exact .inr (hidle rfl)
          | _ => cases he
      | returned | raised => cases he
  · cases h

/-! ## Whole histories -/

namespace HistoryCall

/-- A call's step keeps what it holds. -/
theorem Holds.next {cfg : Config} {a : Act} {db db' : Db} {c c' : HistoryCall} (hc : c.Holds)
    (h : c.next cfg a db = some (db', c')) : c'.Holds := by
  unfold HistoryCall.next at h
  split at h
  · obtain ⟨⟨db₁, p'⟩, hp, heq⟩ := Option.map_eq_some_iff.mp h
    cases heq
    exact Party.Holds.next hc hp
  · obtain ⟨r, -, heq⟩ := Option.map_eq_some_iff.mp h
    cases heq
    trivial
  · obtain ⟨r, -, heq⟩ := Option.map_eq_some_iff.mp h
    cases heq
    trivial
  · cases h

/-- A session that completes the task resolves every row that it publishes. -/
theorem Holds.commits {db : Db} {a : Act} {c : HistoryCall} {m : Session} (hc : c.Holds)
    (h : c.commits db a = some m) (hdone : m.Completes) : ∀ c ∈ m.failures, c.Resolves := by
  have hrow : ∀ f : Held CrawlTaskFailure, ¬ (rowSession db f).Completes :=
    fun f => Session.Kept.not_completes rfl
  unfold HistoryCall.commits at h
  split at h
  · exact Party.Holds.commits hc h hdone
  · cases h
    exact absurd hdone (hrow _)
  · cases h
    exact absurd hdone (hrow _)
  · cases h

/-- A call that has not started holds nothing. -/
theorem AtStart.holds {c : HistoryCall} (h : c.AtStart) : c.Holds := by
  cases c with
  | task p =>
      cases p with
      | worker w => cases w <;> first | exact ⟨trivial, trivial, trivial⟩ | exact h.elim
      | failedUrl f =>
          cases f with
          | load j => exact ⟨trivial, trivial, trivial, j, rfl⟩
          | _ => exact h.elim
      | save k m => exact h.elim
      | _ => exact ⟨trivial, trivial, trivial⟩
  | _ => trivial

end HistoryCall

/-- In every reachable state, every call holds what it should. -/
theorem holds_of_history {cfg : Config}
    {ok : List (HistoryState × (ℕ × Act)) → HistoryState → ℕ × Act → HistoryState → Prop}
    {tr : List (HistoryState × (ℕ × Act))} {s : HistoryState}
    (h : (historySystem cfg).Run ok tr s) : ∀ i, (s.loc i).Holds := by
  refine Parties.Outline.holds (fun _ _ c => c.Holds) ⟨?_, ?_, ?_⟩ h
  · intro s hs i
    exact (hs.2 i).holds
  · intro _ s i a s' _ hs hnext
    exact (hs i).next hnext
  · intro _ s i a s' j _ _ hs _
    exact hs j

/-- A step that meets its condition completes no task with an open failure, and opens none of a
completed one. -/
theorem completedResolved_step {cfg : Config} {s s' : HistoryState} {l : ℕ × Act}
    (hs : CompletedResolved s.shared) (hholds : (s.loc l.1).Holds) (hcloses : Closes s l)
    (h : (historySystem cfg).step s l s') : CompletedResolved s'.shared := by
  intro hdone
  rcases HistoryCall.next_cases (Parties.next_of_step h) with ⟨m, hm, hdb⟩ | ⟨hfailures, hreview⟩
  · rw [hdb] at hdone ⊢
    rw [Session.commit_status] at hdone
    rcases column_cases m.task.loaded.status m.task.current.status s.shared.task.status with
      ⟨hcol, hkept⟩ | ⟨hcol, hne⟩
    · rw [hcol] at hdone
      exact (hs hdone).foldl (hcloses.keep m hm hkept hdone)
    · have hcompletes : m.Completes := ⟨hcol.symm.trans hdone, fun hloaded => hne (by
        rw [hloaded]
        exact hcol.symm.trans hdone)⟩
      exact allResolved_foldl (hholds.commits hm hcompletes) (hcloses.commit m hm hcompletes)
  · rw [hfailures]
    rcases hreview hdone with hbefore | ⟨hcall, d, hd, hcompletes⟩
    · exact hs hbefore
    · exact hcloses.review hcall d hd hcompletes

/-- In every history whose steps meet the condition, a completed task has no open failures. -/
theorem completed_has_no_open_failures {cfg : Config} {tr : List (HistoryState × (ℕ × Act))}
    {s : HistoryState} (h : (historySystem cfg).Run (fun _ s l _ => Closes s l) tr s) :
    s.shared.task.status = .completed → ∀ row ∈ s.shared.failures, row.status.unresolved = false := by
  refine h.invariant (I := fun _ (s : HistoryState) => CompletedResolved s.shared) (fun s hs => ?_) ?_
  · intro _
    rw [hs.1]
    exact fun row hrow => nomatch hrow
  · intro tr s l s' hrun hs hok hstep
    exact completedResolved_step hs (holds_of_history hrun l.1) hok hstep

/-! ## Two histories -/

/-- A batch of one rejected article, with these failed URLs. -/
def rejectedArticle (failedUrls : List BatchFailedUrl) : BatchCrawlResponse where
  success := true
  taskId := "1"
  statistics :=
    { articlesDiscovered := 1, articlesFetched := 1, articlesRejected := 1
      articlesFailed := failedUrls.length }
  articles := [⟨"https://example.org/b", "html", .rejected, "too short"⟩]
  failedUrls
  warnings := []

/-- A URL that timed out. -/
def timedOut : BatchFailedUrl where
  url := "https://example.org/a"
  stage := "detail_fetch"
  errorCode := "HTTP_TIMEOUT"
  errorMessage := "timed out"
  retryable := true

/-- A new task of the local provider; calls 0 and 1 execute it, call 2 retries it, the others
retry its first failed URL. -/
def newTask : HistoryState where
  shared := { task := { crawlProvider := .localProvider } }
  loc i :=
    if i < 2 then .task (.worker .start)
    else if i = 2 then .task (.load .retry)
    else .task (.failedUrl (.load 0))

/-- A worker of the local path from its claim to its last commit. -/
def execute (i : ℕ) (b : BatchCrawlResponse) : List (ℕ × Act) :=
  [.next, .next, .next, .next, .crawled (.batch b), .next, .saves [], .next].map fun o =>
    (i, .step 0 o)

/-- The whole-task retry. -/
def retryTask : List (ℕ × Act) := [(2, .step 0 .next), (2, .step 0 .next)]

/-- The retry of the failed URL that resolves it. -/
def retryUrl : List (ℕ × Act) :=
  [.next, .next, .crawled (.batch { rejectedArticle [] with taskId := "1:failure:0" }), .saves [],
    .next].map fun o => (3, .step 0 o)

theorem newTask_init : newTask.shared.failures = [] ∧ ∀ i, (newTask.loc i).AtStart := by
  refine ⟨rfl, fun i => ?_⟩
  simp only [newTask]
  split
  · trivial
  · split <;> trivial

/-- An attempt leaves a failed URL, a retry resolves it, and the next attempt completes the task. -/
theorem completed_has_no_open_failures_resolved :
    ∃ tr s, (historySystem {}).Run (fun _ s l _ => Closes s l) tr s ∧
      (s.shared.task.status = .completed →
        ∀ row ∈ s.shared.failures, row.status.unresolved = false) ∧
      s.shared.task.status = .completed ∧ s.shared.failures.length = 1 := by
  let sched := execute 0 (rejectedArticle [timedOut]) ++ retryUrl ++ retryTask ++
    execute 1 (rejectedArticle [])
  have hcheck : ((historyCalls {}).exec newTask sched).map (fun s =>
      (s.shared.task.status, s.shared.failures.length)) = some (.completed, 1) := by
    decide
  obtain ⟨s, hs, hcheck⟩ := Option.map_eq_some_iff.mp hcheck
  have hok : ∀ e ∈ (historyCalls {}).traceOf newTask sched, Closes e.1 e.2 := by
    decide
  have hrun : (historySystem {}).Run (fun _ s l _ => Closes s l)
      ((historyCalls {}).traceOf newTask sched) s :=
    ⟨_, newTask_init, System.exec_path_of hs hok⟩
  exact ⟨_, s, hrun, completed_has_no_open_failures hrun, congrArg Prod.fst hcheck,
    congrArg Prod.snd hcheck⟩

/-- An attempt leaves a failed URL, the task is retried as a whole, and the next attempt completes
it with the row still pending. -/
theorem completed_with_open_failure :
    ∃ tr s, (historySystem {}).Run System.always tr s ∧ s.shared.task.status = .completed ∧
      ∃ row ∈ s.shared.failures, row.status.unresolved = true := by
  let sched := execute 0 (rejectedArticle [timedOut]) ++ retryTask ++ execute 1 (rejectedArticle [])
  have hcheck : ((historyCalls {}).exec newTask sched).map (fun s =>
      (s.shared.task.status, s.shared.failures.any (·.status.unresolved))) =
      some (.completed, true) := by
    decide
  obtain ⟨s, hs, hcheck⟩ := Option.map_eq_some_iff.mp hcheck
  have hopen : s.shared.failures.any (·.status.unresolved) = true := congrArg Prod.snd hcheck
  exact ⟨_, s, ⟨_, newTask_init, System.exec_path hs⟩, congrArg Prod.fst hcheck,
    List.any_eq_true.mp hopen⟩

end Odirag.Crawl
