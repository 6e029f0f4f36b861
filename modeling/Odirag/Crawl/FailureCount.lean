import Odirag.Crawl.Completion
import Mathlib.Data.Finset.Card

/-!
# The failure counter of an attempt and its failure rows

Reference: `backend/app/services/crawl.py`: `_execute_coze`, `_execute_local`,
`_persist_batch_failures`, `_persist_failed_article`; `backend/app/repositories/crawl.py`:
`add_failure`; `backend/app/schemas/coze.py`: `validate_statistics`.

The counter of an attempt is a sum of list lengths, while `add_failure` merges failures of one
URL, stage and error code into one row. The two agree exactly if no two failures of the attempt
share these.
-/

namespace Odirag.Crawl

open CrawlTaskStateMachine

/-! ## The first execution of a task -/

/-- The committed rows and the only worker. -/
structure Execution where
  db : Db
  worker : Worker
deriving DecidableEq

/-- The next state of an execution. -/
def executionNext (cfg : Config) (s : Execution) (l : DateTime × Outcome) : Option Execution :=
  (s.worker.step cfg l.1 l.2 s.db).map fun r => ⟨r.1, r.2⟩

/-- The first executions of a task, which has no failure rows yet. -/
def executionSystem (cfg : Config) : System Execution (DateTime × Outcome) :=
  .ofNext (executionNext cfg) fun s => s.db.failures = [] ∧ s.worker = .start

/-! ## The failures of an attempt -/

/-- URL, stage and error code. -/
abbrev FailureKey := String × String × String

/-- The key of a row. -/
def CrawlTaskFailure.key (row : CrawlTaskFailure) : FailureKey := (row.url, row.stage, row.errorCode)

/-- The key of an article that has failed, or that could not be saved. -/
def articleFailureKey (p : Path) (provider : Provider) (a : BatchArticle) (o : ArticleSave) :
    Option FailureKey :=
  if a.decision = .failed then
    some (a.url, a.extractionMethod, provider.upper ++ "_ARTICLE_FAILED")
  else
    match o with
    | .raises _ => some (a.url, "saving_documents",
        if p = .localPath then "LOCAL_DOCUMENT_SAVE_FAILED" else "COZE_DOCUMENT_SAVE_FAILED")
    | _ => none

/-- The keys of the articles' failures, in the order of the save loop. -/
def articleFailureKeys (p : Path) (provider : Provider) :
    List BatchArticle → List ArticleSave → List FailureKey
  | [], _ => []
  | a :: rest, outcomes =>
      (articleFailureKey p provider a (outcomes.headD (.stored false false))).toList ++
        articleFailureKeys p provider rest outcomes.tail

/-- The keys of everything that fails in an attempt: the batch's failed URLs, its failed articles,
and the articles that could not be saved. -/
def failureKeys (p : Path) (provider : Provider) (b : BatchCrawlResponse)
    (outcomes : List ArticleSave) : List FailureKey :=
  b.failedUrls.map (fun u => (u.url, u.stage, u.errorCode)) ++
    articleFailureKeys p provider b.articles outcomes

/-! ## Merging failures -/

/-- The changes are inserts of pending rows, one for each key. -/
structure Records (keys : List FailureKey) (changes : List FailureChange) : Prop where
  inserts : ∀ c ∈ changes, c.loaded = none ∧ c.current.status = .pending
  nodup : (changes.map (·.current.key)).Nodup
  mem : ∀ k, k ∈ changes.map (·.current.key) ↔ k ∈ keys

theorem CrawlTaskFailure.sameIdentity_iff {a b : CrawlTaskFailure} :
    a.sameIdentity b = true ↔ a.key = b.key := by
  simp [sameIdentity, key, and_assoc]

namespace Records

theorem nil : Records [] [] := ⟨by simp, by simp, by simp⟩

/-- There are as many changes as failures exactly if no two failures share a key. -/
theorem length_eq_iff {keys : List FailureKey} {changes : List FailureChange}
    (h : Records keys changes) : keys.length = changes.length ↔ keys.Nodup := by
  have hset : (changes.map (·.current.key)).toFinset = keys.toFinset := by
    ext k
    simpa using h.mem k
  have hcard : changes.length = keys.toFinset.card := by
    rw [← hset, List.toFinset_card_of_nodup h.nodup, List.length_map]
  rw [hcard, eq_comm]
  exact Multiset.toFinset_card_eq_card_iff_nodup (m := (keys : Multiset FailureKey))

/-- `add_failure` records one more failure, in a row of its own or merged into the row of its
key. -/
theorem addFailure {keys : List FailureKey} {changes : List FailureChange}
    (h : Records keys changes) (failure : CrawlTaskFailure) (hpending : failure.status = .pending) :
    Records (keys ++ [failure.key]) (Crawl.addFailure [] changes failure) := by
  unfold Crawl.addFailure
  split
  · next i hi =>
      obtain ⟨hlt, hsame, -⟩ := List.findIdx?_eq_some_iff_getElem.mp hi
      have hkey : changes[i].current.key = failure.key :=
        CrawlTaskFailure.sameIdentity_iff.mp hsame
      -- Merging changes no key.
      have hkeys : (changes.modify i fun c => { c with current := c.current.merge failure }).map
          (·.current.key) = changes.map (·.current.key) := by
        refine List.ext_getElem (by simp) fun j _ _ => ?_
        simp only [List.getElem_map, List.getElem_modify]
        split <;> rfl
      refine ⟨fun c hc => ?_, by rw [hkeys]; exact h.nodup, fun k => ?_⟩
      · obtain ⟨j, hj, rfl⟩ := List.mem_iff_getElem.mp hc
        have hj' : j < changes.length := by simpa using hj
        obtain ⟨hloaded, hstatus⟩ := h.inserts changes[j] (List.getElem_mem hj')
        rw [List.getElem_modify]
        split
        · refine ⟨hloaded, ?_⟩
          simp [CrawlTaskFailure.merge, hstatus, hpending]
        · exact ⟨hloaded, hstatus⟩
      · rw [hkeys, h.mem, List.mem_append, List.mem_singleton]
        refine ⟨.inl, ?_⟩
        rintro (hk | rfl)
        · exact hk
        · rw [← h.mem, ← hkey]
          exact List.mem_map.mpr ⟨changes[i], List.getElem_mem hlt, rfl⟩
  · next hnone =>
      have hfresh : failure.key ∉ changes.map (·.current.key) := by
        intro hmem
        obtain ⟨c, hc, hkey⟩ := List.mem_map.mp hmem
        have hsame := List.findIdx?_eq_none_iff.mp hnone c hc
        rw [CrawlTaskFailure.sameIdentity_iff.mpr hkey] at hsame
        cases hsame
      simp only [List.find?_nil]
      refine ⟨fun c hc => ?_, ?_, fun k => ?_⟩
      · rcases List.mem_append.mp hc with hc | hc
        · exact h.inserts c hc
        · obtain rfl := List.mem_singleton.mp hc
          exact ⟨rfl, hpending⟩
      · rw [List.map_append, List.map_singleton]
        exact List.nodup_append.mpr ⟨h.nodup, List.nodup_singleton _, fun k hk k' hk' heq => by
          rw [List.mem_singleton.mp hk'] at heq
          exact hfresh (heq ▸ hk)⟩
      · rw [List.map_append, List.map_singleton, List.mem_append, List.mem_append, h.mem]

/-- Committing the changes to a task without failure rows leaves one open row for each. -/
theorem countUnresolved {keys : List FailureKey} {changes : List FailureChange}
    (h : Records keys changes) (rows : List CrawlTaskFailure) :
    countUnresolvedFailures (changes.foldl FailureChange.apply rows) =
      countUnresolvedFailures rows + changes.length := by
  have hinserts := h.inserts
  clear h
  induction changes generalizing rows with
  | nil => rfl
  | cons c rest ih =>
      obtain ⟨hloaded, hstatus⟩ := hinserts c List.mem_cons_self
      rw [List.foldl_cons, ih _ fun c hc => hinserts c (List.mem_cons_of_mem _ hc)]
      simp only [FailureChange.apply, hloaded, countUnresolvedFailures, List.countP_append,
        List.countP_singleton, hstatus, FailureStatus.unresolved, List.length_cons, if_true]
      omega

end Records

/-! ## The save section -/

namespace Session

/-- The session holds the rows of these failures, and its task is crawled by this provider. -/
structure Recorded (m : Session) (provider : Provider) (keys : List FailureKey) : Prop where
  provider : m.task.current.crawlProvider = provider
  records : Records keys m.failures

theorem recorded_saveCozeArticle {m : Session} {provider : Provider} {keys : List FailureKey}
    (h : m.Recorded provider keys) (cfg : Config) (db : Db) (a : BatchArticle) (c r : Bool) :
    (m.saveCozeArticle cfg db a c r).Recorded provider keys ∧
      (m.saveCozeArticle cfg db a c r).task.current.failedCount = m.task.current.failedCount := by
  unfold saveCozeArticle
  dsimp only
  split <;> exact ⟨⟨h.provider, h.records⟩, rfl⟩

/-- An article that has failed, or could not be saved, is recorded under its key; the latter is
counted, the former was counted with the batch. -/
theorem recorded_saveArticle {cfg : Config} {p : Path} {db : Db} {m m' : Session}
    {provider : Provider} {keys : List FailureKey} {a : BatchArticle} {o : ArticleSave}
    (hdb : db.failures = []) (h : m.Recorded provider keys)
    (hok : m.saveArticle cfg p db a o = (m', none)) :
    m'.Recorded provider (keys ++ (articleFailureKey p provider a o).toList) ∧
      m'.task.current.failedCount + (if a.decision = .failed then 1 else 0) =
        m.task.current.failedCount + (articleFailureKey p provider a o).toList.length := by
  -- A failed article is recorded whatever its save does.
  have hfailed : a.decision = .failed →
      (m.persistFailedArticle db a).Recorded provider
        (keys ++ (articleFailureKey p provider a o).toList) ∧
      (m.persistFailedArticle db a).task.current.failedCount +
          (if a.decision = .failed then 1 else 0) =
        m.task.current.failedCount + (articleFailureKey p provider a o).toList.length := by
    intro ha
    refine ⟨⟨h.provider, ?_⟩, by simp [articleFailureKey, ha]⟩
    have hone := h.records.addFailure
      { url := a.url, stage := a.extractionMethod
        errorCode := m.task.current.crawlProvider.upper ++ "_ARTICLE_FAILED"
        errorMessage := a.decisionReason, retryable := true, status := .pending } rfl
    simpa [persistFailedArticle, hdb, articleFailureKey, ha, h.provider, CrawlTaskFailure.key]
      using hone
  cases o with
  | aborts exc => cases hok
  | stored c r =>
      simp only [saveArticle] at hok
      split at hok
      · next ha => cases hok; exact hfailed ha
      · next ha =>
          cases hok
          obtain ⟨hrec, hcount⟩ := recorded_saveCozeArticle h cfg db a c r
          simp only [articleFailureKey, if_neg ha]
          exact ⟨by simpa using hrec, by simpa using hcount⟩
  | raises className =>
      simp only [saveArticle] at hok
      split at hok
      · next ha => cases hok; exact hfailed ha
      · next ha =>
          cases hok
          simp only [articleFailureKey, if_neg ha]
          have hone := h.records.addFailure
            { url := a.url, stage := "saving_documents"
              errorCode := if p = .localPath then "LOCAL_DOCUMENT_SAVE_FAILED"
                else "COZE_DOCUMENT_SAVE_FAILED"
              errorMessage := className, retryable := true, status := .pending } rfl
          refine ⟨⟨?_, by simpa [recordSaveFailure, hdb, CrawlTaskFailure.key] using hone⟩, ?_⟩
          · rw [← h.provider]
            simp only [recordSaveFailure, countSaveFailure, assign_current]
            cases a.decision <;> rfl
          · simp only [recordSaveFailure, countSaveFailure, assign_current]
            cases a.decision <;> rfl
  -- The handler reads an expired task, so that the exception leaves the loop.
  | raisesInRefresh =>
      simp only [saveArticle] at hok
      split at hok
      · next ha => cases hok; exact hfailed ha
      · cases hok

theorem recorded_saveArticles {cfg : Config} {p : Path} {db : Db} {m m' : Session}
    {provider : Provider} {keys : List FailureKey} {articles : List BatchArticle}
    {outcomes : List ArticleSave} (hdb : db.failures = []) (h : m.Recorded provider keys)
    (hok : saveArticles cfg p db m articles outcomes = (m', none)) :
    m'.Recorded provider (keys ++ articleFailureKeys p provider articles outcomes) ∧
      m'.task.current.failedCount + articles.countP (·.decision == .failed) =
        m.task.current.failedCount + (articleFailureKeys p provider articles outcomes).length := by
  induction articles generalizing m keys outcomes with
  | nil =>
      cases hok
      exact ⟨by simpa [articleFailureKeys] using h, rfl⟩
  | cons a rest ih =>
      simp only [saveArticles] at hok
      split at hok
      · cases hok
      · next m₁ hone =>
          obtain ⟨hrec, hcount⟩ := recorded_saveArticle hdb h hone
          obtain ⟨hrec', hcount'⟩ := ih hrec hok
          refine ⟨by simpa [articleFailureKeys] using hrec', ?_⟩
          simp only [articleFailureKeys, List.length_append, List.countP_cons, beq_iff_eq]
          omega

/-- The failed URLs of the batch are recorded under their keys. -/
theorem recorded_failedUrls {db : Db} (hdb : db.failures = []) (urls : List BatchFailedUrl)
    {m : Session} {provider : Provider} {keys : List FailureKey} (h : m.Recorded provider keys) :
    (urls.foldl (persistFailedUrl db) m).Recorded provider
        (keys ++ urls.map fun u => (u.url, u.stage, u.errorCode)) ∧
      (urls.foldl (persistFailedUrl db) m).task = m.task := by
  induction urls generalizing m keys with
  | nil => exact ⟨by simpa using h, rfl⟩
  | cons u rest ih =>
      have hone := h.records.addFailure
        { url := u.url, stage := u.stage, errorCode := u.errorCode
          errorMessage := u.errorMessage, retryable := u.retryable, status := .pending } rfl
      have hrec : (m.persistFailedUrl db u).Recorded provider
          (keys ++ [(u.url, u.stage, u.errorCode)]) :=
        ⟨h.provider, by simpa [persistFailedUrl, hdb, CrawlTaskFailure.key] using hone⟩
      obtain ⟨hrest, htask⟩ := ih hrec
      exact ⟨by simpa using hrest, htask⟩

/-- The final status keeps the failure counter. -/
theorem conclude_failedCount {p : Path} {b : BatchCrawlResponse} {pending : ℕ} {now : DateTime}
    {t t' : CrawlTask} (h : conclude p b pending now t = .ok t') :
    t'.failedCount = t.failedCount := by
  unfold conclude at h
  dsimp only at h
  split at h
  · obtain ⟨-, rfl⟩ := transition_ok h
    rfl
  · split at h
    · obtain ⟨-, rfl⟩ := transition_ok h
      rfl
    · obtain ⟨-, rfl⟩ := transition_ok h
      rfl

/-- A save section that comes to its end has counted the failures that it holds. -/
theorem recorded_saveBatch {cfg : Config} {p : Path} {now : DateTime} {db : Db} {m m' : Session}
    {b : BatchCrawlResponse} {outcomes : List ArticleSave} (hdb : db.failures = [])
    (hvalid : b.validateStatistics.isOk = true) (hnone : m.failures = [])
    (h : m.saveBatch cfg p now db b outcomes = (m', none)) :
    Records (failureKeys p m.task.current.crawlProvider b outcomes) m'.failures ∧
      m'.task.current.failedCount =
        (failureKeys p m.task.current.crawlProvider b outcomes).length ∧
      m'.task.loaded = m.task.loaded := by
  have hloaded := (concluded_saveBatch cfg p now db m b outcomes).loaded
  rw [h] at hloaded
  -- The counter starts with the failed articles of the batch, which the loop does not count again.
  have hstart : (m.assign (takeStatistics p b)).Recorded m.task.current.crawlProvider [] := by
    refine ⟨rfl, ?_⟩
    show Records [] m.failures
    rw [hnone]
    exact .nil
  obtain ⟨hurls, htask⟩ := recorded_failedUrls hdb b.failedUrls hstart
  have hvalidated := articlesFailed_of_validated hvalid
  simp only [saveBatch] at h
  split at h
  · cases h
  · next m₁ hloop =>
      obtain ⟨hrec, hcount⟩ := recorded_saveArticles hdb hurls hloop
      split at h
      · next t hconclude =>
          cases h
          refine ⟨?_, ?_, hloaded⟩
          · show Records _ m₁.failures
            simpa [failureKeys] using hrec.records
          show t.failedCount = _
          rw [conclude_failedCount hconclude]
          rw [htask] at hcount
          have hbatch : (m.assign (takeStatistics p b)).task.current.failedCount =
              b.statistics.articlesFailed := rfl
          simp only [failureKeys, List.length_append, List.length_map]
          rw [hbatch, hvalidated] at hcount
          unfold BatchCrawlResponse.decisions at hcount
          omega
      · cases h

end Session

/-! ## The run up to the save section -/

namespace Worker

/-- The worker has not come to the end of its save section. -/
def BeforeSaved : Worker → Prop
  | .commit _ _ | .finish _ _ _ | .finishCommit _ _ | .handling _ _ _ | .handlerCommit _ _ _
  | .returned | .raised _ => False
  | _ => True

theorem Finished.not_beforeSaved {db : Db} {m : Session} {hd : Handler} {w : Worker}
    (h : Finished db m hd w) : ¬ w.BeforeSaved := by
  cases h <;> exact not_false

theorem Handled.not_beforeSaved {now : DateTime} {db : Db} {m : Session} {hd : Handler} {exc : Exc}
    {w : Worker} (h : Handled now db m hd exc w) : ¬ w.BeforeSaved := by
  cases h <;> exact not_false

/-- No step leads back to the points before. -/
theorem BeforeSaved.of_step {cfg : Config} {now : DateTime} {o : Outcome} {db db' : Db}
    {w w' : Worker} (h : w.step cfg now o db = some (db', w')) (hw' : w'.BeforeSaved) :
    w.BeforeSaved := by
  cases moves_of_step h with
  | raises exc =>
      rcases raising_cases exc w with h | ⟨hd, m, h⟩ <;> (rw [h] at hw'; exact hw'.elim)
  | commit hm =>
      cases w with
      | commit | finishCommit => exact hw'.elim
      | handlerCommit hd => cases hd <;> exact hw'.elim
      | notConfigured | invocation | calling => trivial
      | _ => cases hm
  | finish => exact absurd hw' (finished_finishSelect _ _ db _).not_beforeSaved
  | handle => exact absurd hw' (handled_handle _ _ now db _).not_beforeSaved
  | _ => trivial

/-- A save section starts with the task as it has just been read. -/
theorem fresh_of_step_save {cfg : Config} {now : DateTime} {o : Outcome} {db db' : Db}
    {w : Worker} {p : Path} {c : Crawled} {m : Session} (htidy : w.Tidy)
    (h : w.step cfg now o db = some (db', .save p c m)) : m.task = .fresh db'.task := by
  have hbefore := BeforeSaved.of_step h trivial
  rcases (htidy.step h).2 trivial with ⟨hin, rfl⟩ | ⟨g, m₁, rfl, -, -⟩
  · cases w with
    | advanced g c₁ m₁ =>
        cases o with
        | next =>
            cases g <;> cases h
            all_goals rfl
        | _ => cases h
    | save p₁ c₁ m₁ =>
        cases o with
        | saves outcomes =>
            simp only [Worker.step] at h
            split at h <;> cases h
        | _ => cases h
    | commit | finish | finishCommit | handling | handlerCommit => exact hbefore.elim
    | _ => exact hin.elim
  · -- A stage UPDATE leads to the refresh that follows it.
    simp only [Worker.step] at h
    split at h
    · have heq := (Prod.ext_iff.mp (Option.some.inj h)).2
      unfold pass at heq
      split at heq <;> cases heq
    · cases h
    · cases h

end Worker

/-- Up to the end of the first save section the task has no failure rows, and the save section
works on the task as it has just been read. -/
structure Execution.Inv (s : Execution) : Prop where
  tidy : s.worker.Tidy
  closing : s.worker.Closing
  failures : s.worker.BeforeSaved → s.db.failures = []
  fresh : ∀ p c m, s.worker = .save p c m → m.task = .fresh s.db.task

theorem Execution.Inv.step {cfg : Config} {s s' : Execution} {l : DateTime × Outcome} (hs : s.Inv)
    (h : executionNext cfg s l = some s') : s'.Inv := by
  obtain ⟨⟨db', w'⟩, hw, heq⟩ := Option.map_eq_some_iff.mp h
  cases heq
  refine ⟨(hs.tidy.step hw).1, hs.closing.step hs.tidy hw, fun hbefore => ?_, ?_⟩
  · have hearlier := Worker.BeforeSaved.of_step hw hbefore
    have hnone := hs.failures hearlier
    rcases Worker.step_cases hw with ⟨m, -, hm, rfl⟩ | ⟨-, hno⟩
    · -- Before the save section a commit publishes no rows.
      have hrows : ¬ m.HasRows := by
        intro hrows
        have hin := hs.tidy.inSave hm hrows
        generalize s.worker = w at hm hin hearlier
        cases w <;> first | exact hin.elim | exact hearlier.elim | cases hm
      rw [Session.commit_of_not_hasRows hrows]
      exact hnone
    · exact hno.failures.trans hnone
  · rintro p c m rfl
    exact Worker.fresh_of_step_save hs.tidy hw

theorem Execution.inv_of_run {cfg : Config} {tr : List (Execution × (DateTime × Outcome))}
    {s : Execution} (h : (executionSystem cfg).Run System.always tr s) : s.Inv := by
  refine h.invariant (I := fun _ s => s.Inv) (fun s hs => ?_) ?_
  · obtain ⟨hfailures, hstart⟩ := hs
    rw [show s = ⟨s.db, .start⟩ by rw [← hstart]]
    refine ⟨trivial, trivial, fun _ => hfailures, ?_⟩
    intro p c m hsave
    cases hsave
  · intro _ s l s' _ hs _ hstep
    exact hs.step hstep

/-- When the first execution of a task has saved its batch, the failure counter equals the number
of open failure rows if and only if no two failures of the attempt have the same URL, stage and
error code. -/
theorem failed_count_eq_rows_iff {cfg : Config} {tr : List (Execution × (DateTime × Outcome))}
    {s₁ s₂ s₃ : Execution} {p : Path} {b : BatchCrawlResponse} {m m' : Session}
    {outcomes : List ArticleSave} {now now' : DateTime}
    (hsave : s₁.worker = .save p (.batch b) m) (hcommit : s₂.worker = .commit p m')
    (h : (executionSystem cfg).Run System.always
      ((s₂, (now', .next)) :: (s₁, (now, .saves outcomes)) :: tr) s₃) :
    s₃.db.task.failedCount = countUnresolvedFailures s₃.db.failures ↔
      (failureKeys p s₁.db.task.crawlProvider b outcomes).Nodup := by
  obtain ⟨hrun₂, -, hstep₃⟩ := h.last
  obtain ⟨hrun₁, -, hstep₂⟩ := hrun₂.last
  have hinv := Execution.inv_of_run hrun₁
  obtain ⟨db₁, w₁⟩ := s₁
  obtain ⟨db₂, w₂⟩ := s₂
  obtain rfl : w₁ = .save p (.batch b) m := hsave
  obtain rfl : w₂ = .commit p m' := hcommit
  have hdb : db₁.failures = [] := hinv.failures trivial
  have hfresh : m.task = .fresh db₁.task := hinv.fresh p (.batch b) m rfl
  obtain ⟨hvalid, hnone⟩ := hinv.closing
  -- The save section ends with these rows and this counter in the session.
  have hsaved : m.saveBatch cfg p now db₁ b outcomes = (m', none) ∧ db₁ = db₂ := by
    obtain ⟨r, hr, heq⟩ := Option.map_eq_some_iff.mp hstep₂
    simp only [Worker.step] at hr
    split at hr
    · next m₁ hs =>
        cases hr
        cases heq
        exact ⟨hs, rfl⟩
    · cases hr
      cases heq
  obtain ⟨hsaved, rfl⟩ := hsaved
  obtain ⟨hrecords, hcount, hloaded⟩ := Session.recorded_saveBatch hdb hvalid hnone hsaved
  have hprovider : m.task.current.crawlProvider = db₁.task.crawlProvider := by rw [hfresh]; rfl
  rw [hprovider] at hrecords hcount
  -- The commit writes both.
  cases hstep₃
  have htask : CrawlTask.save m'.task db₁.task = m'.task.current :=
    CrawlTask.save_of_loaded (by rw [hloaded, hfresh]; rfl)
  show (CrawlTask.save m'.task db₁.task).failedCount =
    countUnresolvedFailures (m'.failures.foldl FailureChange.apply db₁.failures) ↔ _
  rw [htask, hcount, hrecords.countUnresolved, hdb, ← hrecords.length_eq_iff]
  simp [countUnresolvedFailures]

/-- A new task of the local provider, about to be executed. -/
def newExecution : Execution where
  db := { task := { crawlProvider := .localProvider } }
  worker := .start

/-- The local path up to the crawl's result, which is this batch. -/
def crawl (b : BatchCrawlResponse) : List (DateTime × Outcome) :=
  [.next, .next, .next, .next, .crawled (.batch b), .next].map fun o => (0, o)

/-- A batch of these failed URLs, with one article that was rejected and one that has failed. -/
def mixedBatch (failedUrls : List BatchFailedUrl) : BatchCrawlResponse where
  success := false
  taskId := "1"
  statistics :=
    { articlesDiscovered := 2, articlesFetched := 2, articlesRejected := 1
      articlesFailed := failedUrls.length + 1 }
  articles :=
    [⟨"https://example.org/b", "html", .rejected, "too short"⟩,
      ⟨"https://example.org/c", "pdf", .failed, "no text"⟩]
  failedUrls
  warnings := []

/-- The save section of this batch was left with its final status in memory. -/
def savesBatch (b : BatchCrawlResponse) : Worker → Worker → Bool
  | .save .localPath (.batch b') _, .commit .localPath _ => b' == b
  | _, _ => false

theorem savesBatch_iff {b : BatchCrawlResponse} {w w' : Worker} :
    savesBatch b w w' = true ↔
      ∃ m m', w = .save .localPath (.batch b) m ∧ w' = .commit .localPath m' := by
  constructor
  · intro h
    unfold savesBatch at h
    split at h
    · next b' m m' =>
        obtain rfl : b' = b := by simpa using h
        exact ⟨m, m', rfl, rfl⟩
    · cases h
  · rintro ⟨m, m', rfl, rfl⟩
    simp [savesBatch]

/-- A failed URL, a failed article and an article that cannot be saved: three failures, three
rows. -/
theorem failed_count_eq_rows_distinct :
    ∃ (tr : List (Execution × (DateTime × Outcome))) (s₁ s₂ s₃ : Execution) (m m' : Session),
      s₁.worker = .save .localPath (.batch (mixedBatch [timedOut])) m ∧
        s₂.worker = .commit .localPath m' ∧
        (executionSystem {}).Run System.always
          ((s₂, (0, .next)) :: (s₁, (0, .saves [.raises "DataError"])) :: tr) s₃ ∧
        (s₃.db.task.failedCount = countUnresolvedFailures s₃.db.failures ↔
          (failureKeys .localPath s₁.db.task.crawlProvider (mixedBatch [timedOut])
            [.raises "DataError"]).Nodup) ∧
        s₃.db.task.failedCount = 3 := by
  have hcheck : ((System.exec (executionNext {}) newExecution (crawl (mixedBatch [timedOut]))).bind
      fun s₁ => (executionNext {} s₁ (0, .saves [.raises "DataError"])).bind fun s₂ =>
        (executionNext {} s₂ (0, .next)).map fun s₃ =>
          (savesBatch (mixedBatch [timedOut]) s₁.worker s₂.worker, s₃.db.task.failedCount)) =
            some (true, 3) := by
    decide
  obtain ⟨s₁, h₁, hcheck⟩ := Option.bind_eq_some_iff.mp hcheck
  obtain ⟨s₂, h₂, hcheck⟩ := Option.bind_eq_some_iff.mp hcheck
  obtain ⟨s₃, h₃, hcheck⟩ := Option.map_eq_some_iff.mp hcheck
  obtain ⟨hworkers, hcount⟩ := Prod.mk.inj hcheck
  obtain ⟨m, m', hsave, hcommit⟩ := savesBatch_iff.mp hworkers
  have hrun : (executionSystem {}).Run System.always
      ((s₂, (0, .next)) :: (s₁, (0, .saves [.raises "DataError"])) ::
        System.traceOf (executionNext {}) newExecution (crawl (mixedBatch [timedOut]))) s₃ :=
    ⟨newExecution, ⟨rfl, rfl⟩, .cons (.cons (System.exec_path h₁) trivial h₂) trivial h₃⟩
  exact ⟨_, s₁, s₂, s₃, m, m', hsave, hcommit, hrun,
    failed_count_eq_rows_iff hsave hcommit hrun, hcount⟩

/-- A batch that lists one failed URL twice is valid, and is counted twice in one row. -/
theorem failed_count_exceeds_rows :
    (mixedBatch [timedOut, timedOut]).validateStatistics = .ok () ∧
      ∃ tr s, (executionSystem {}).Run System.always tr s ∧ s.worker = .returned ∧
        s.db.task.failedCount = 3 ∧ countUnresolvedFailures s.db.failures = 2 := by
  refine ⟨rfl, ?_⟩
  have hcheck : (System.exec (executionNext {}) newExecution
      (crawl (mixedBatch [timedOut, timedOut]) ++ [(0, .saves []), (0, .next)])).map (fun s =>
        (decide (s.worker = .returned), s.db.task.failedCount,
          countUnresolvedFailures s.db.failures)) = some (true, 3, 2) := by
    decide
  obtain ⟨s, hs, hcheck⟩ := Option.map_eq_some_iff.mp hcheck
  obtain ⟨hreturned, hcheck⟩ := Prod.mk.inj hcheck
  obtain ⟨hcount, hrows⟩ := Prod.mk.inj hcheck
  exact ⟨_, s, ⟨newExecution, ⟨rfl, rfl⟩, System.exec_path hs⟩, of_decide_eq_true hreturned, hcount,
    hrows⟩

end Odirag.Crawl
