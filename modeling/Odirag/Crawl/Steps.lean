import Odirag.Crawl.Worker

/-!
# What a step of a worker and of a retry can do

Reference: `execute` and `execute_failed_url` of `backend/app/services/crawl.py`.

The step functions of `execute` and `execute_failed_url` taken apart once. `Worker.Moves` and
`FailedUrl.Moves` list what a database statement does and where it leads; what holds after a step is
proved by cases on them.
-/

namespace Odirag.Crawl

open CrawlRepository CrawlTaskStateMachine

namespace Worker

/-- The session that a worker commits when its next statement succeeds. -/
def pendingCommit : Worker → Option Session
  | .notConfigured m | .invocation m | .calling m | .commit _ m | .finishCommit _ m
  | .handlerCommit _ _ m => some m
  | _ => none

/-- Where a worker is after that commit. -/
def committed : Worker → Worker
  | .invocation m => .gate .cozeRun m.flushed
  | .calling m => .responded m.flushed
  | .handlerCommit h exc m => afterHandler h exc m.flushed
  | _ => .returned

/-- Where an exception leads a worker. -/
def raising (exc : Exc) : Worker → Worker
  | .notConfigured m | .invocation m => .handling .execute exc m
  | .gate g m | .advanced g _ m => .handling g.handler exc m
  | .calling m | .responded m => .handling .coze exc m
  | .save p _ m => .handling p.handler exc m
  | .commit p m => .handling p.handler.afterFailedCommit exc m
  | .finish h _ m => .handling h exc m
  | .finishCommit h m => .handling h.afterFailedCommit exc m
  | .handling h _ m | .handlerCommit h _ m => handlerRaises h exc m
  | _ => .raised exc

/-- An exception hands the worker to a handler, or ends it. -/
theorem raising_cases (exc : Exc) (w : Worker) :
    w.raising exc = .raised exc ∨ ∃ h m, w.raising exc = .handling h exc m := by
  cases w with
  | handling hd | handlerCommit hd =>
      cases hd with
      | execute => exact .inl rfl
      | _ => exact .inr ⟨_, _, rfl⟩
  | start | refused | claimed | returned | raised => exact .inl rfl
  | _ => exact .inr ⟨_, _, rfl⟩

/-! ## The in-memory code after a SELECT -/

/-- Where a claimed task goes: on to a stage, or to the save of a refusal. -/
inductive Dispatched (now : DateTime) (m : Session) : Worker → Prop
  | gate (g : Gate) : Dispatched now m (.gate g m)
  | refused {t t' : CrawlTask} {code : String} (ht : t.status = m.task.current.status)
      (hok : transition t .failed (some code) now = .ok t') :
      Dispatched now m (.notConfigured (m.assign fun _ => t'))
  | raised (exc : Exc) : Dispatched now m (.handling .execute exc m)

theorem dispatched_dispatch (cfg : Config) (now : DateTime) (m : Session) :
    Dispatched now m (dispatch cfg now m) := by
  have hfail : ∀ (t : CrawlTask) code, t.status = m.task.current.status →
      Dispatched now m (dispatch.failWith now m t code) := by
    intro t code ht
    unfold dispatch.failWith
    split
    · next t' hok => exact .refused ht hok
    · exact .raised _
  unfold dispatch
  dsimp only
  split
  · exact .gate _
  · split
    · split
      · exact hfail _ _ rfl
      · split
        · exact hfail _ _ rfl
        · exact .gate _
    · exact .gate _

/-- The session that a handler works on: the handlers of `execute` and `_execute_local` roll
back. -/
def handlerSession (h : Handler) (db : Db) (m : Session) : Session :=
  match h with
  | .coze => m.refresh db
  | _ => Session.load db

@[simp] theorem handlerSession_task (h : Handler) (db : Db) (m : Session) :
    (handlerSession h db m).task = .fresh db.task := by
  cases h <;> rfl

/-- What a handler makes of the row that it finds. -/
inductive Handled (now : DateTime) (db : Db) (m : Session) (h : Handler) (exc : Exc) :
    Worker → Prop
  | failed {t t' : CrawlTask} {code : String} (ht : t.status = db.task.status)
      (hok : transition t .failed (some code) now = .ok t') :
      Handled now db m h exc (.handlerCommit h exc ((handlerSession h db m).assign fun _ => t'))
  /-- The row is already at its end: only the error is recorded. -/
  | recorded {t : CrawlTask} (ht : t.status = db.task.status) :
      Handled now db m h exc (.handlerCommit h exc ((handlerSession h db m).assign fun _ => t))
  | cancelled (hcoze : h = .coze) :
      Handled now db m h exc (.finish .execute .remoteFailedAfterLocalCancel (m.refresh db))
  | passed (exc' : Exc) :
      Handled now db m h exc (.handling .execute exc' (handlerSession h db m))
  | raised (exc' : Exc) : Handled now db m h exc (.raised exc')

theorem handled_handle (h : Handler) (exc : Exc) (now : DateTime) (db : Db) (m : Session) :
    Handled now db m h exc (handle h exc now db m) := by
  cases h with
  | execute =>
      simp only [handle]
      split
      · split
        · next t hok => exact .failed (h := .execute) (by rfl) hok
        · exact .raised _
      · exact .raised _
  | localPath => exact .passed (h := .localPath) _
  | coze =>
      simp only [handle]
      split
      · exact .cancelled rfl
      · split
        · exact .recorded (h := .coze) rfl
        · split
          · next t hok => exact .failed (h := .coze) (by rfl) hok
          · exact .passed (h := .coze) _

/-- `_finish_cancelled_provider_result` finds the task cancelled, or hands an error to the handler
that it stands under. -/
inductive Finished (db : Db) (m : Session) (h : Handler) : Worker → Prop
  | changed (exc : Exc) : Finished db m h (.handling h exc (m.refresh db))
  | cancelled {t : CrawlTask} (ht : t.status = db.task.status) :
      Finished db m h (.finishCommit h ((m.refresh db).assign fun _ => t))

theorem finished_finishSelect (h : Handler) (ps : ProviderStatus) (db : Db) (m : Session) :
    Finished db m h (finishSelect h ps db m) := by
  unfold finishSelect
  dsimp only
  split
  · exact .changed _
  · exact .cancelled rfl

/-! ## The steps of a worker -/

section

variable (cfg : Config) (now : DateTime) (db : Db)

/-- A step of a worker. -/
inductive Moves : Outcome → Worker → Db → Worker → Prop
  | raises (exc : Exc) (w : Worker) : Moves (.raises exc) w db (w.raising exc)
  | commit {w : Worker} {m : Session} (hm : w.pendingCommit = some m) :
      Moves .next w (m.commit db) w.committed
  | claim {db' : Db} (hclaim : claimTask now db = (db', true)) :
      Moves .next .start db' (.claimed db'.task)
  | refuse : Moves .next .start db .refused
  | refused (exc : Exc) : Moves .next .refused db (.raised exc)
  | load (row : CrawlTask) :
      Moves .next (.claimed row) db (dispatch cfg now (Session.load db))
  | keep (row : CrawlTask) :
      Moves .keep (.claimed row) db (dispatch cfg now { task := .fresh row })
  | win {g : Gate} {m : Session} {o : Outcome} {c : Crawled} {db' : Db}
      (hc : crawlResult cfg g o = some (.ok c))
      (hwon : advanceTaskIfStatus g.expected g.target g.stage g.providerStatus db = (db', true)) :
      Moves o (.gate g m) db' (.advanced g c m)
  | lose (g : Gate) (m : Session) (o : Outcome) :
      Moves o (.gate g m) db (.finish g.handler g.lost m)
  | reject {g : Gate} {m : Session} {o : Outcome} {exc : Exc}
      (hexc : crawlResult cfg g o = some (.error exc)) :
      Moves o (.gate g m) db (.handling g.handler exc m)
  | advance (g : Gate) (c : Crawled) (m : Session) :
      Moves .next (.advanced g c m) db (continueAfter cfg g c (m.refresh db))
  | respond (m : Session) : Moves .next (.responded m) db (.gate .cozeNormalize (m.refresh db))
  | cancelled (m : Session) :
      Moves .next (.responded m) db
        (.finish .coze .remoteCompletedLocalProcessingCancelled (m.refresh db))
  | save {p : Path} {c : Crawled} {m m' : Session} {outcomes : List ArticleSave}
      (hsave : m.saveCrawled cfg p now db c outcomes = (m', none)) :
      Moves (.saves outcomes) (.save p c m) db (.commit p m')
  | saveRaises {p : Path} {c : Crawled} {m m' : Session} {outcomes : List ArticleSave} {exc : Exc}
      (hsave : m.saveCrawled cfg p now db c outcomes = (m', some exc)) :
      Moves (.saves outcomes) (.save p c m) db (.handling p.handler exc m')
  | finish (h : Handler) (ps : ProviderStatus) (m : Session) :
      Moves .next (.finish h ps m) db (finishSelect h ps db m)
  | handle (h : Handler) (exc : Exc) (m : Session) :
      Moves .next (.handling h exc m) db (handle h exc now db m)

end

/-- Every step of a worker is one of its moves. -/
theorem moves_of_step {cfg : Config} {now : DateTime} {o : Outcome} {db db' : Db} {w w' : Worker}
    (h : w.step cfg now o db = some (db', w')) : Moves cfg now db o w db' w' := by
  cases w with
  | start =>
      cases o with
      | next =>
          simp only [step] at h
          split at h
          · next hclaim =>
              cases h
              exact .claim hclaim
          · next hclaim =>
              cases h
              obtain rfl := claimTask_lost hclaim
              exact .refuse
      | raises exc => cases h; exact .raises exc .start
      | _ => cases h
  | refused =>
      cases o with
      | next => cases h; exact .refused _
      | raises exc => cases h; exact .raises exc .refused
      | _ => cases h
  | claimed row =>
      cases o with
      | next => cases h; exact .load row
      | keep => cases h; exact .keep row
      | raises exc => cases h; exact .raises exc (.claimed row)
      | _ => cases h
  | gate g m =>
      simp only [step] at h
      split at h
      · next c hc =>
          unfold pass at h
          split at h
          · next hwon =>
              cases h
              exact .win hc hwon
          · next hlost =>
              cases h
              obtain ⟨-, rfl⟩ := advance_lost hlost
              exact .lose g m o
      · next exc hexc =>
          cases h
          exact .reject hexc
      · cases h
  | advanced g c m =>
      cases o with
      | next => cases h; exact .advance g c m
      | raises exc => cases h; exact .raises exc (.advanced g c m)
      | _ => cases h
  | responded m =>
      cases o with
      | next =>
          simp only [step] at h
          split at h
          · cases h
            exact .cancelled m
          · cases h
            exact .respond m
      | raises exc => cases h; exact .raises exc (.responded m)
      | _ => cases h
  | save p c m =>
      cases o with
      | saves outcomes =>
          simp only [step] at h
          split at h
          · next m' hsave =>
              cases h
              exact .save hsave
          · next m' exc hsave =>
              cases h
              exact .saveRaises hsave
      | _ => cases h
  | finish hd ps m =>
      cases o with
      | next => cases h; exact .finish hd ps m
      | raises exc => cases h; exact .raises exc (.finish hd ps m)
      | _ => cases h
  | handling hd exc m =>
      cases o with
      | next => cases h; exact .handle hd exc m
      | raises exc' => cases h; exact .raises exc' (.handling hd exc m)
      | _ => cases h
  | notConfigured m =>
      cases o with
      | next => cases h; exact .commit (w := .notConfigured m) rfl
      | raises exc => cases h; exact .raises exc (.notConfigured m)
      | _ => cases h
  | invocation m =>
      cases o with
      | next => cases h; exact .commit (w := .invocation m) rfl
      | raises exc => cases h; exact .raises exc (.invocation m)
      | _ => cases h
  | calling m =>
      cases o with
      | next => cases h; exact .commit (w := .calling m) rfl
      | raises exc => cases h; exact .raises exc (.calling m)
      | _ => cases h
  | commit p m =>
      cases o with
      | next => cases h; exact .commit (w := .commit p m) rfl
      | raises exc => cases h; exact .raises exc (.commit p m)
      | _ => cases h
  | finishCommit hd m =>
      cases o with
      | next => cases h; exact .commit (w := .finishCommit hd m) rfl
      | raises exc => cases h; exact .raises exc (.finishCommit hd m)
      | _ => cases h
  | handlerCommit hd exc m =>
      cases o with
      | next => cases h; exact .commit (w := .handlerCommit hd exc m) rfl
      | raises exc' => cases h; exact .raises exc' (.handlerCommit hd exc m)
      | _ => cases h
  | returned | raised => cases h

end Worker

/-! ## The steps of a retry -/

namespace FailedUrl

section

variable (cfg : Config) (now : DateTime) (db : Db)

/-- A step of a retry. -/
inductive Moves : Outcome → FailedUrl → Db → FailedUrl → Prop
  | refuse (o : Outcome) (failureId : ℕ) (exc : Exc) : Moves o (.load failureId) db (.raised exc)
  | load (o : Outcome) {failure : CrawlTaskFailure} {r : RetrySession}
      (hrow : failure ∈ db.failures) (hbegin : beginRetry now db failure = .ok r) :
      Moves o (.load failure.id) db (.begin r)
  | begin (r : RetrySession) :
      Moves .next (.begin r) (r.session.commit db) (.calling r.flushed)
  | notPublished (code : String) (r : RetrySession) :
      Moves .next (.begin r) (r.session.commit db) (.commit (failRetry now code r.flushed))
  | beginRaises (exc : Exc) (r : RetrySession) : Moves (.raises exc) (.begin r) db (.raised exc)
  | accept (o : Outcome) (r : RetrySession) (b : BatchCrawlResponse) :
      Moves o (.calling r) db (.saving r b)
  | fail (o : Outcome) (code : String) (r : RetrySession) :
      Moves o (.calling r) db (.commit (failRetry now code r))
  | save {r r' : RetrySession} {b : BatchCrawlResponse} {m : Session}
      {outcomes : List ArticleSave}
      (hsave : saveRetried cfg db r.base b.articles outcomes = (m, none))
      (hok : succeedRetry now db b { r with base := m } = .ok r') :
      Moves (.saves outcomes) (.saving r b) db (.commit r')
  | saveFails (code : String) (r : RetrySession) (b : BatchCrawlResponse)
      (outcomes : List ArticleSave) :
      Moves (.saves outcomes) (.saving r b) db
        (.commit (failRetry now code
          { r with base := (saveRetried cfg db r.base b.articles outcomes).1 }))
  | violate (exc : Exc) {r : RetrySession} (hv : r.Violates db) :
      Moves .next (.commit r) db (.raised exc)
  | commit {r : RetrySession} (hv : ¬ r.Violates db) :
      Moves .next (.commit r) (r.session.commit db) .returned
  | commitRaises (exc : Exc) (r : RetrySession) : Moves (.raises exc) (.commit r) db (.raised exc)

end

/-- What the response of the provider leads to. -/
theorem moves_of_respond {cfg : Config} {now : DateTime} {o : Outcome} {db : Db}
    {r : RetrySession} {f : FailedUrl} (h : respond cfg now o r = some f) :
    Moves cfg now db o (.calling r) db f := by
  unfold respond at h
  split at h
  · cases h
    exact .fail _ _ r
  · cases h
    exact .fail _ _ r
  · split at h
    · split at h
      · cases h
        exact .accept _ r _
      · cases h
        exact .fail _ _ r
    · cases h
  · cases h

/-- What the save section leads to. -/
theorem moves_save (cfg : Config) (now : DateTime) (db : Db) (r : RetrySession)
    (b : BatchCrawlResponse) (outcomes : List ArticleSave) :
    Moves cfg now db (.saves outcomes) (.saving r b) db (save cfg now db r b outcomes) := by
  have hfails : ∀ code, Moves cfg now db (.saves outcomes) (.saving r b) db
      (.commit (failRetry now code
        { r with base := (saveRetried cfg db r.base b.articles outcomes).1 })) :=
    fun code => .saveFails code r b outcomes
  unfold save
  split
  · next m exc hsave =>
      rw [hsave] at hfails
      exact hfails _
  · next m hsave =>
      rw [hsave] at hfails
      split
      · next r' hok => exact .save hsave hok
      · exact hfails _

/-- Every step of a retry is one of its moves. -/
theorem moves_of_step {cfg : Config} {now : DateTime} {o : Outcome} {db db' : Db}
    {f f' : FailedUrl} (h : f.step cfg now o db = some (db', f')) :
    Moves cfg now db o f db' f' := by
  cases f with
  | load failureId =>
      simp only [step] at h
      split at h
      · cases h
        exact .refuse o failureId _
      · next failure hfind =>
          split at h
          · next r hbegin =>
              cases h
              obtain rfl : failure.id = failureId := by simpa using List.find?_some hfind
              exact .load o (List.mem_of_find?_eq_some hfind) hbegin
          · cases h
            exact .refuse o failureId _
  | begin r =>
      cases o with
      | next =>
          simp only [step] at h
          split at h
          · cases h
            exact .begin r
          · cases h
            exact .notPublished _ r
      | raises exc => cases h; exact .beginRaises exc r
      | _ => cases h
  | calling r =>
      obtain ⟨f, hrespond, heq⟩ := Option.map_eq_some_iff.mp h
      cases heq
      exact moves_of_respond hrespond
  | saving r b =>
      cases o with
      | saves outcomes => cases h; exact moves_save cfg now db r b outcomes
      | _ => cases h
  | commit r =>
      cases o with
      | next =>
          simp only [step] at h
          split at h
          · next hv =>
              cases h
              exact .violate _ hv
          · next hv =>
              cases h
              exact .commit hv
      | raises exc => cases h; exact .commitRaises exc r
      | _ => cases h
  | returned | raised => cases h

end FailedUrl

end Odirag.Crawl
