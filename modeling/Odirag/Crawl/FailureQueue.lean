import Odirag.Crawl.PartialFailure
import Odirag.Foundations.Parties

/-!
# Queueing and delivering the retry of one failed URL

Reference: `backend/app/services/crawl.py`: `queue_failure_retry`, `execute_failed_url`.

Calls that queue a failure and deliveries that execute it interleave at their database
statements. Both check the status of the row in memory and commit a new one by primary key, so
nothing keeps two deliveries of one queueing from both passing the check. What the code relies on
is `Exclusive`: a commit finds the row as its check requires it, also when other calls have
committed in between.
-/

namespace Odirag.Crawl

/-! ## The calls -/

/-- The points of a `queue_failure_retry` call. -/
inductive QueueRetry
  | load (failureId : ℕ)
  /-- `queued` is set in memory; before its commit. -/
  | commit (failure : Held CrawlTaskFailure)
  /-- Before the refresh of the row that is returned. -/
  | refresh (failureId : ℕ)
  | returned
  | raised (exc : Exc)
deriving DecidableEq

namespace QueueRetry

/-- The checks of `queue_failure_retry` and what it assigns. -/
def queue (failure : CrawlTaskFailure) : Except Exc (Held CrawlTaskFailure) :=
  if !failure.retryable then
    .error (.app "CRAWL_FAILURE_NOT_RETRYABLE" "The failed URL is not marked retryable")
  else if failure.status ∈ [FailureStatus.queued, .retrying, .succeeded] then
    .error (.app "CRAWL_FAILURE_ALREADY_HANDLED"
      ("Failed URL is already " ++ failure.status.text))
  else .ok ((Held.fresh failure).assign fun f => { f with status := .queued, nextRetryAt := none })

/-- The next database statement of a `queue_failure_retry` call. -/
def step (o : Outcome) (db : Db) : QueueRetry → Option (Db × QueueRetry)
  | .load failureId =>
      match db.failures.find? (·.id == failureId) with
      | none => some (db, .raised (.app "NOT_FOUND" "CrawlTaskFailure"))
      | some failure =>
          match queue failure with
          | .ok m => some (db, .commit m)
          | .error exc => some (db, .raised exc)
  | .commit m =>
      match o with
      | .next => some ({ db with failures := FailureChange.apply db.failures ⟨some m.loaded, m.current⟩ },
          .refresh m.loaded.id)
      | .raises exc => some (db, .raised exc)
      | _ => none
  | .refresh _ =>
      match o with
      | .next => some (db, .returned)
      | .raises exc => some (db, .raised exc)
      | _ => none
  | .returned => none
  | .raised _ => none

end QueueRetry

/-- A call that works on the failure. -/
inductive FailureCall
  | queue (q : QueueRetry)
  | delivery (f : FailedUrl)
deriving DecidableEq

namespace FailureCall

/-- The next step of a call. -/
def next (cfg : Config) (now : DateTime) (o : Outcome) (db : Db) :
    FailureCall → Option (Db × FailureCall)
  | .queue q => (q.step o db).map fun r => (r.1, .queue r.2)
  | .delivery f => (f.step cfg now o db).map fun r => (r.1, .delivery r.2)

/-- The step commits `queued`. -/
def queues : FailureCall → Outcome → Bool
  | .queue (.commit _), .next => true
  | _, _ => false

/-- The step calls the provider. -/
def runsProvider : FailureCall → Bool
  | .delivery (.calling _) => true
  | _ => false

/-- The step commits `succeeded`. -/
def resolves (db : Db) : FailureCall → Outcome → Bool
  | .delivery (.commit r), .next => r.failure.current.status = .succeeded && !decide (r.Violates db)
  | _, _ => false

end FailureCall

/-- The calls on one failure: `ℕ` of them, so any number. -/
def failureCalls (cfg : Config) : Parties ℕ Db FailureCall (DateTime × Outcome) where
  next _ a := FailureCall.next cfg a.1 a.2

/-- The states of the calls on one failure. -/
abbrev FailureState := Parties.State ℕ Db FailureCall

/-- The trace of a run of calls, newest step first. -/
abbrev FailureTrace := List (FailureState × (ℕ × (DateTime × Outcome)))

/-- Every call is for this failure, and at its beginning. -/
def FreshCalls (failureId : ℕ) (s : FailureState) : Prop :=
  ∀ i, s.loc i = .queue (.load failureId) ∨ s.loc i = .delivery (.load failureId)

/-- The interleavings of the calls on one failure. -/
def failureSystem (cfg : Config) (failureId : ℕ) :
    System FailureState (ℕ × (DateTime × Outcome)) :=
  (failureCalls cfg).system (FreshCalls failureId)

/-! ## What is counted -/

/-- The committed status of the failure. -/
def rowStatus (failureId : ℕ) (db : Db) : Option FailureStatus :=
  (db.failures.find? (·.id == failureId)).map (·.status)

/-- The counters that resolving a failure moves. -/
def CrawlTask.counters (t : CrawlTask) : ℕ × ℕ × ℕ := (t.failedCount, t.acceptedCount, t.rejectedCount)

/-- How often the provider has run since the failure was last queued. -/
def providerRuns (tr : FailureTrace) : ℕ :=
  (tr.takeWhile fun e => !(e.1.loc e.2.1).queues e.2.2.2).countP fun e =>
    (e.1.loc e.2.1).runsProvider

/-- How often a delivery has committed the success of the failure. -/
def resolutions (tr : FailureTrace) : ℕ :=
  tr.countP fun e => (e.1.loc e.2.1).resolves e.1.shared e.2.2.2

/-- How often the counters of the task have changed. -/
def counterChanges (tr : FailureTrace) (s : FailureState) : ℕ :=
  System.changes (fun s : FailureState => s.shared.task.counters) tr s

/-- The committed status that the check of a call requires when its new status is committed: a
delivery begins on a row that is queued or pending, and a call queues no row that is being retried
or has succeeded. -/
def FailureCall.admits (row : Option FailureStatus) : FailureCall → Outcome → Bool
  | .delivery (.begin _), .next => row = some .queued ∨ row = some .pending
  | .queue (.commit _), .next => row ≠ some .retrying ∧ row ≠ some .succeeded
  | _, _ => true

/-- No other commit has overtaken the check on which this step rests. -/
def Exclusive (failureId : ℕ) (s : FailureState) (l : ℕ × (DateTime × Outcome)) : Prop :=
  (s.loc l.1).admits (rowStatus failureId s.shared) l.2.2 = true

instance (failureId : ℕ) (s : FailureState) (l : ℕ × (DateTime × Outcome)) :
    Decidable (Exclusive failureId s l) := inferInstanceAs (Decidable (_ = true))

/-! ## Committing the row -/

/-- Committing a change of the row moves its status as the column semantics says. -/
theorem rowStatus_apply {failureId : ℕ} {rows : List CrawlTaskFailure}
    {loaded current : CrawlTaskFailure} (hid : loaded.id = failureId) :
    ((FailureChange.apply rows ⟨some loaded, current⟩).find? (·.id == failureId)).map (·.status) =
      ((rows.find? (·.id == failureId)).map (·.status)).map
        (column loaded.status current.status) := by
  induction rows with
  | nil => rfl
  | cons row rest ih =>
      simp only [FailureChange.apply, List.map_cons] at ih ⊢
      by_cases hrow : row.id = failureId
      · rw [if_pos (hrow.trans hid.symm)]
        simp [CrawlTaskFailure.save, hrow]
      · rw [if_neg fun h => hrow (h.trans hid), List.find?_cons_of_neg (by simpa using hrow),
          List.find?_cons_of_neg (by simpa using hrow), ih]

/-- The counters that a retry's session would write are the ones it has loaded. -/
def Session.CountersKept (m : Session) : Prop :=
  m.task.current.failedCount = m.task.loaded.failedCount ∧
    m.task.current.acceptedCount = m.task.loaded.acceptedCount ∧
    m.task.current.rejectedCount = m.task.loaded.rejectedCount

namespace Session

theorem countersKept_load (db : Db) : (load db).CountersKept := ⟨rfl, rfl, rfl⟩

theorem countersKept_flushed (m : Session) : m.flushed.CountersKept := ⟨rfl, rfl, rfl⟩

/-- A session that has kept the counters commits none of them. -/
theorem CountersKept.commit {m : Session} (h : m.CountersKept) (db : Db) :
    (m.commit db).task.counters = db.task.counters := by
  obtain ⟨hf, ha, hr⟩ := h
  simp [CrawlTask.counters, Session.commit, CrawlTask.save, hf, ha, hr]

/-- Saving an article keeps the counters. -/
theorem CountersKept.saveCozeArticle {m : Session} (h : m.CountersKept) (cfg : Config) (db : Db)
    (a : BatchArticle) (c r : Bool) : (m.saveCozeArticle cfg db a c r).CountersKept := by
  unfold Session.saveCozeArticle
  dsimp only
  split <;> exact h

end Session

theorem countersKept_saveRetried {m : Session} (h : m.CountersKept) (cfg : Config) (db : Db)
    (articles : List BatchArticle) (outcomes : List ArticleSave) :
    (saveRetried cfg db m articles outcomes).1.CountersKept := by
  induction articles generalizing m outcomes with
  | nil => exact h
  | cons a rest ih =>
      simp only [saveRetried]
      split
      · next c r _ => exact ih (h.saveCozeArticle cfg db a c r) outcomes.tail
      · exact h
      · exact h
      · exact h

/-! ## What a call holds -/

/-- The session of a retry that has committed `retrying` and keeps the counters so far. -/
structure RetrySession.Retries (r : RetrySession) (failureId : ℕ) : Prop where
  id : r.failure.loaded.id = failureId
  status : r.failure.loaded.status = .retrying

/-- What a delivery of this failure holds at each of its points. -/
def FailedUrl.For (failureId : ℕ) : FailedUrl → Prop
  | .load j => j = failureId
  | .begin r => r.failure.loaded.id = failureId ∧ r.failure.current.id = failureId ∧
      r.failure.loaded.status ≠ .retrying ∧ r.failure.current.status = .retrying ∧
      r.base.CountersKept
  | .calling r | .saving r _ => r.Retries failureId ∧ r.base.CountersKept
  | .commit r => r.Retries failureId ∧ (r.failure.current.status = .succeeded ∨
      r.failure.current.status = .failed ∧ r.base.CountersKept)
  | _ => True

/-- What a `queue_failure_retry` call for this failure holds at each of its points. -/
def QueueRetry.For (failureId : ℕ) : QueueRetry → Prop
  | .load j => j = failureId
  | .commit m => m.loaded.id = failureId ∧ m.loaded.status ≠ .queued ∧ m.current.status = .queued
  | _ => True

/-- The delivery has committed `retrying` and not yet its outcome. -/
def FailedUrl.Active : FailedUrl → Prop
  | .calling _ | .saving _ _ | .commit _ => True
  | _ => False

namespace FailureCall

/-- What a call for this failure holds. -/
def For (failureId : ℕ) : FailureCall → Prop
  | .queue q => q.For failureId
  | .delivery f => f.For failureId

/-- The call is a delivery that works on the failure. -/
def Active : FailureCall → Prop
  | .queue _ => False
  | .delivery f => f.Active

end FailureCall

namespace FailedUrl

theorem for_beginRetry {now : DateTime} {db : Db} {failure : CrawlTaskFailure} {r : RetrySession}
    (h : beginRetry now db failure = .ok r) : (FailedUrl.begin r).For failure.id := by
  unfold beginRetry at h
  split at h
  · next hrun =>
      cases h
      refine ⟨rfl, rfl, fun hst => ?_, rfl, Session.countersKept_load db⟩
      have hst : failure.status = .retrying := hst
      rw [hst] at hrun
      exact absurd hrun.1 (by decide)
  · cases h

theorem for_failRetry {failureId : ℕ} {r : RetrySession} (h : r.Retries failureId)
    (hkept : r.base.CountersKept) (now : DateTime) (code : String) :
    (FailedUrl.commit (failRetry now code r)).For failureId :=
  ⟨⟨h.id, h.status⟩, .inr ⟨rfl, hkept⟩⟩

/-- What an attempt that succeeds assigns to the row it holds. -/
theorem failure_succeedRetry {now : DateTime} {db : Db} {b : BatchCrawlResponse}
    {r r' : RetrySession} (hok : succeedRetry now db b r = .ok r') :
    r'.failure = r.failure.assign fun f =>
      { f with status := .succeeded, resolvedAt := some now, nextRetryAt := none } := by
  unfold succeedRetry at hok
  dsimp only at hok
  split at hok
  · split at hok
    · split at hok
      · obtain ⟨t, -, rfl⟩ := except_map_ok hok
        rfl
      · obtain ⟨t, -, rfl⟩ := except_map_ok hok
        rfl
    · cases hok
      rfl
  · cases hok
    rfl

/-- An attempt that succeeds holds its row as succeeded. -/
theorem for_succeedRetry {now : DateTime} {db : Db} {b : BatchCrawlResponse} {failureId : ℕ}
    {r r' : RetrySession} (h : r.Retries failureId) (hok : succeedRetry now db b r = .ok r') :
    (FailedUrl.commit r').For failureId := by
  have hdone := failure_succeedRetry hok
  refine ⟨⟨?_, ?_⟩, .inl ?_⟩
  · rw [hdone]
    exact h.id
  · rw [hdone]
    exact h.status
  · rw [hdone]
    rfl

end FailedUrl

/-! ## What a step can do -/

/-- The step of a call on the failure, as far as the counts of a run depend on it. -/
inductive FailureStep (failureId : ℕ) (db db' : Db) : FailureCall → Outcome → FailureCall → Prop
  /-- A read, a local step, or a call that raises. -/
  | idle {c c' : FailureCall} {o : Outcome} (hdb : db' = db)
      (hq : c.queues o = false) (hp : c.runsProvider = false) (hr : c.resolves db o = false)
      (hactive : c'.Active → c.Active) (hcalling : c'.runsProvider = false) :
      FailureStep failureId db db' c o c'
  | queue {m : Held CrawlTaskFailure} {c' : FailureCall}
      (hrow : rowStatus failureId db' = (rowStatus failureId db).map fun _ => .queued)
      (htask : db'.task = db.task) (hactive : ¬ c'.Active) (hcalling : c'.runsProvider = false) :
      FailureStep failureId db db' (.queue (.commit m)) .next c'
  | begin {r : RetrySession} {c' : FailureCall}
      (hrow : rowStatus failureId db' = (rowStatus failureId db).map fun _ => .retrying)
      (htask : db'.task.counters = db.task.counters) :
      FailureStep failureId db db' (.delivery (.begin r)) .next c'
  | provider {r : RetrySession} {o : Outcome} {c' : FailureCall} (hdb : db' = db)
      (hcalling : c'.runsProvider = false) :
      FailureStep failureId db db' (.delivery (.calling r)) o c'
  /-- The failed attempt is committed. -/
  | failed {r : RetrySession} {c' : FailureCall}
      (hrow : rowStatus failureId db' = (rowStatus failureId db).map fun _ => .failed)
      (htask : db'.task.counters = db.task.counters)
      (hr : FailureCall.resolves db (.delivery (.commit r)) .next = false)
      (hactive : ¬ c'.Active) (hcalling : c'.runsProvider = false) :
      FailureStep failureId db db' (.delivery (.commit r)) .next c'
  /-- The successful attempt is committed. -/
  | succeeded {r : RetrySession} {c' : FailureCall}
      (hrow : rowStatus failureId db' = (rowStatus failureId db).map fun _ => .succeeded)
      (hr : FailureCall.resolves db (.delivery (.commit r)) .next = true)
      (hactive : ¬ c'.Active) (hcalling : c'.runsProvider = false) :
      FailureStep failureId db db' (.delivery (.commit r)) .next c'

/-- The status of the row after the commit of a retry. -/
theorem rowStatus_commit {failureId : ℕ} {r : RetrySession} (hid : r.failure.loaded.id = failureId)
    (db : Db) : rowStatus failureId (r.session.commit db) =
      (rowStatus failureId db).map
        (column r.failure.loaded.status r.failure.current.status) :=
  rowStatus_apply hid

/-- What the commit of `retrying` writes, and what the session holds after it. -/
theorem FailedUrl.committed_begin {failureId : ℕ} {r : RetrySession}
    (h : (FailedUrl.begin r).For failureId) (db : Db) :
    rowStatus failureId (r.session.commit db) = (rowStatus failureId db).map (fun _ => .retrying) ∧
      (r.session.commit db).task.counters = db.task.counters ∧
      r.flushed.Retries failureId ∧ r.flushed.base.CountersKept := by
  obtain ⟨hid, hid', hloaded, hcur, hkept⟩ := h
  refine ⟨?_, hkept.commit (m := r.session) db, ⟨hid', hcur⟩, Session.countersKept_flushed r.base⟩
  rw [rowStatus_commit hid, hcur]
  congr 1
  funext st
  exact if_neg hloaded.symm

/-- A delivery's step keeps what it holds. -/
theorem FailedUrl.For.step {cfg : Config} {now : DateTime} {o : Outcome} {failureId : ℕ}
    {db db' : Db} {f f' : FailedUrl} (hf : f.For failureId)
    (h : f.step cfg now o db = some (db', f')) :
    f'.For failureId ∧ FailureStep failureId db db' (.delivery f) o (.delivery f') := by
  cases moves_of_step h with
  | refuse => exact ⟨trivial, .idle rfl rfl rfl rfl False.elim rfl⟩
  | @load o failure r hrow hbegin =>
      obtain rfl : failure.id = failureId := hf
      exact ⟨for_beginRetry hbegin, .idle rfl rfl rfl rfl False.elim rfl⟩
  | beginRaises | commitRaises => exact ⟨trivial, .idle rfl rfl rfl rfl False.elim rfl⟩
  | begin r =>
      obtain ⟨hrow, htask, hflushed, hkept⟩ := committed_begin hf db
      exact ⟨⟨hflushed, hkept⟩, .begin hrow htask⟩
  | notPublished code r =>
      obtain ⟨hrow, htask, hflushed, hkept⟩ := committed_begin hf db
      exact ⟨for_failRetry hflushed hkept now code, .begin hrow htask⟩
  | accept => exact ⟨hf, .provider rfl rfl⟩
  | fail o code r => exact ⟨for_failRetry hf.1 hf.2 now code, .provider rfl rfl⟩
  | @save r r' b m outcomes hsave hok =>
      exact ⟨for_succeedRetry (r := { r with base := m }) ⟨hf.1.id, hf.1.status⟩ hok,
        .idle rfl rfl rfl rfl (fun _ => trivial) rfl⟩
  | saveFails code r b outcomes =>
      have hkept := countersKept_saveRetried hf.2 cfg db b.articles outcomes
      exact ⟨for_failRetry (r := { r with base := (saveRetried cfg db r.base b.articles outcomes).1 })
        ⟨hf.1.id, hf.1.status⟩ hkept now code, .idle rfl rfl rfl rfl (fun _ => trivial) rfl⟩
  | violate exc hv =>
      exact ⟨trivial, .idle rfl rfl rfl (by simp [FailureCall.resolves, hv]) False.elim rfl⟩
  | @commit r hv =>
      obtain ⟨hr, hdone⟩ := hf
      refine ⟨trivial, ?_⟩
      have hrow := rowStatus_commit hr.id db
      rw [hr.status] at hrow
      rcases hdone with hdone | ⟨hdone, hkept⟩
      · rw [hdone] at hrow
        exact .succeeded hrow (by simp [FailureCall.resolves, hdone, hv]) False.elim rfl
      · rw [hdone] at hrow
        exact .failed hrow (hkept.commit (m := r.session) db)
          (by simp [FailureCall.resolves, hdone]) False.elim rfl

/-- The step of a `queue_failure_retry` call keeps what it holds. -/
theorem QueueRetry.For.step {o : Outcome} {failureId : ℕ} {db db' : Db} {q q' : QueueRetry}
    (hq : q.For failureId) (h : q.step o db = some (db', q')) :
    q'.For failureId ∧ FailureStep failureId db db' (.queue q) o (.queue q') := by
  cases q with
  | load j =>
      obtain rfl : j = failureId := hq
      simp only [QueueRetry.step] at h
      split at h
      · cases h
        exact ⟨trivial, .idle rfl rfl rfl rfl False.elim rfl⟩
      · next failure hfind =>
          have hid : failure.id = j := by simpa using List.find?_some hfind
          split at h
          · next m hm =>
              cases h
              refine ⟨?_, .idle rfl rfl rfl rfl False.elim rfl⟩
              unfold queue at hm
              split at hm
              · cases hm
              · split at hm
                · cases hm
                · next hst =>
                    cases hm
                    -- Only a row with another status is queued.
                    refine ⟨hid, fun hqueued => hst ?_, rfl⟩
                    rw [show failure.status = .queued from hqueued]
                    decide
          · cases h
            exact ⟨trivial, .idle rfl rfl rfl rfl False.elim rfl⟩
  | commit m =>
      obtain ⟨hid, hloaded, hcur⟩ := hq
      cases o with
      | next =>
          cases h
          refine ⟨trivial, .queue ?_ rfl not_false rfl⟩
          rw [rowStatus, rowStatus_apply hid, hcur]
          congr 1
          funext st
          exact if_neg hloaded.symm
      | raises exc => cases h; exact ⟨trivial, .idle rfl rfl rfl rfl False.elim rfl⟩
      | _ => cases h
  | refresh j =>
      cases o with
      | next | raises exc => cases h; exact ⟨trivial, .idle rfl rfl rfl rfl False.elim rfl⟩
      | _ => cases h
  | returned | raised => cases h

/-- A call's step keeps what it holds. -/
theorem FailureCall.For.step {cfg : Config} {now : DateTime} {o : Outcome} {failureId : ℕ}
    {db db' : Db} {c c' : FailureCall} (hc : c.For failureId)
    (h : c.next cfg now o db = some (db', c')) :
    c'.For failureId ∧ FailureStep failureId db db' c o c' := by
  cases c with
  | queue q =>
      obtain ⟨⟨db₁, q'⟩, hq, heq⟩ := Option.map_eq_some_iff.mp h
      cases heq
      exact QueueRetry.For.step hc hq
  | delivery f =>
      obtain ⟨⟨db₁, f'⟩, hf, heq⟩ := Option.map_eq_some_iff.mp h
      cases heq
      exact FailedUrl.For.step hc hf

/-! ## The invariant of a run -/

/-- What holds in a run of exclusive calls: one delivery at a time works on the failure, the
provider has not run since the failure was queued as long as its row says so, and the row of a
resolved failure stays succeeded. -/
structure FailureInv (failureId : ℕ) (tr : FailureTrace) (s : FailureState) : Prop where
  holds : ∀ i, (s.loc i).For failureId
  one : ∀ i j, (s.loc i).Active → (s.loc j).Active → i = j
  retrying : ∀ i, (s.loc i).Active → rowStatus failureId s.shared = some .retrying
  calling : ∀ i, (s.loc i).runsProvider = true → providerRuns tr = 0
  queued : rowStatus failureId s.shared = some .queued ∨ rowStatus failureId s.shared = some .pending →
    providerRuns tr = 0
  runs : providerRuns tr ≤ 1
  resolved : resolutions tr = 0 ∨
    resolutions tr = 1 ∧ rowStatus failureId s.shared = some .succeeded
  changes : counterChanges tr s ≤ resolutions tr

section Counts

variable (tr : FailureTrace) {s s' : FailureState} {i : ℕ} {a : DateTime × Outcome}

theorem providerRuns_queue (h : (s.loc i).queues a.2 = true) :
    providerRuns ((s, (i, a)) :: tr) = 0 := by
  simp [providerRuns, h]

theorem providerRuns_cons (h : (s.loc i).queues a.2 = false) :
    providerRuns ((s, (i, a)) :: tr) =
      providerRuns tr + if (s.loc i).runsProvider then 1 else 0 := by
  simp [providerRuns, h, List.countP_cons]

theorem resolutions_cons : resolutions ((s, (i, a)) :: tr) =
    resolutions tr + if (s.loc i).resolves s.shared a.2 then 1 else 0 := by
  simp [resolutions, List.countP_cons]

theorem counterChanges_keep {l : ℕ × (DateTime × Outcome)}
    (h : s'.shared.task.counters = s.shared.task.counters) :
    counterChanges ((s, l) :: tr) s' = counterChanges tr s :=
  System.changes_cons_of_eq (f := fun s : FailureState => s.shared.task.counters) h

end Counts

/-- A delivery that is about to call the provider works on the failure. -/
theorem FailureCall.active_of_runsProvider {c : FailureCall} (h : c.runsProvider = true) :
    c.Active := by
  unfold FailureCall.runsProvider at h
  split at h
  · trivial
  · cases h

namespace FailureInv

variable {cfg : Config} {failureId : ℕ} {tr : FailureTrace} {s : FailureState}

/-- While the row is not being retried, no delivery works on the failure. -/
theorem not_active (hs : FailureInv failureId tr s)
    (h : rowStatus failureId s.shared ≠ some .retrying) (j : ℕ) : ¬ (s.loc j).Active :=
  fun hj => h (hs.retrying j hj)

/-- A step after which no delivery works on the failure keeps the invariant, if it counts what it
does. -/
theorem quiet (hs : FailureInv failureId tr s) {i : ℕ} {a : DateTime × Outcome} {db' : Db}
    {c' : FailureCall} (hfor : c'.For failureId) (hc' : ¬ c'.Active)
    (hothers : ∀ j, j ≠ i → ¬ (s.loc j).Active)
    (hqueued : rowStatus failureId db' = some .queued ∨ rowStatus failureId db' = some .pending →
      providerRuns ((s, (i, a)) :: tr) = 0)
    (hruns : providerRuns ((s, (i, a)) :: tr) ≤ 1)
    (hresolved : resolutions ((s, (i, a)) :: tr) = 0 ∨
      resolutions ((s, (i, a)) :: tr) = 1 ∧ rowStatus failureId db' = some .succeeded)
    (hchanges : counterChanges ((s, (i, a)) :: tr) ⟨db', Function.update s.loc i c'⟩ ≤
      resolutions ((s, (i, a)) :: tr)) :
    FailureInv failureId ((s, (i, a)) :: tr) ⟨db', Function.update s.loc i c'⟩ := by
  have hnone : ∀ j, ¬ (Function.update s.loc i c' j).Active :=
    (Function.forall_update_iff s.loc fun _ c => ¬ c.Active).mpr ⟨hc', hothers⟩
  exact
    { holds := (Function.forall_update_iff s.loc fun _ c => c.For failureId).mpr
        ⟨hfor, fun j _ => hs.holds j⟩
      one := fun j _ hj => absurd hj (hnone j)
      retrying := fun j hj => absurd hj (hnone j)
      calling := fun j hj => absurd (FailureCall.active_of_runsProvider hj) (hnone j)
      queued := hqueued
      runs := hruns
      resolved := hresolved
      changes := hchanges }

/-- A step that leaves the database alone and starts no work on the failure keeps the invariant: it
counts only if it is the step that calls the provider. -/
theorem still (hs : FailureInv failureId tr s) {i : ℕ} {a : DateTime × Outcome}
    {c' : FailureCall} (hfor : c'.For failureId) (hactive : c'.Active → (s.loc i).Active)
    (hcalling : c'.runsProvider = false) (hq : (s.loc i).queues a.2 = false)
    (hr : (s.loc i).resolves s.shared a.2 = false) :
    FailureInv failureId ((s, (i, a)) :: tr) ⟨s.shared, Function.update s.loc i c'⟩ := by
  have hact : ∀ j, (Function.update s.loc i c' j).Active → (s.loc j).Active :=
    (Function.forall_update_iff s.loc fun j c => c.Active → (s.loc j).Active).mpr
      ⟨hactive, fun _ _ h => h⟩
  have hres : resolutions ((s, (i, a)) :: tr) = resolutions tr := by
    rw [resolutions_cons, hr]
    rfl
  have hcons := providerRuns_cons tr hq
  have hprovider : (s.loc i).runsProvider = true → providerRuns tr = 0 := hs.calling i
  have hruns : (s.loc i).runsProvider = false →
      providerRuns ((s, (i, a)) :: tr) = providerRuns tr := by
    intro hp
    rw [hcons, hp]
    rfl
  refine
    { holds := (Function.forall_update_iff s.loc fun _ c => c.For failureId).mpr
        ⟨hfor, fun j _ => hs.holds j⟩
      one := fun j k hj hk => hs.one j k (hact j hj) (hact k hk)
      retrying := fun j hj => hs.retrying j (hact j hj)
      calling := ?_
      queued := ?_
      runs := ?_
      resolved := by rw [hres]; exact hs.resolved
      changes := ?_ }
  · -- Another delivery is about to call the provider, so the moving one is not.
    refine (Function.forall_update_iff s.loc fun _ c => c.runsProvider = true → _).mpr
      ⟨fun h => ?_, fun j hne hj => ?_⟩
    · rw [hcalling] at h
      cases h
    · rw [hruns]
      · exact hs.calling j hj
      · by_contra hp
        exact hne (hs.one j i (FailureCall.active_of_runsProvider hj)
          (FailureCall.active_of_runsProvider (by simpa using hp)))
  · intro hrow
    rw [hruns]
    · exact hs.queued hrow
    · by_contra hp
      have hretry := hs.retrying i (FailureCall.active_of_runsProvider (by simpa using hp))
      rcases hrow with hrow | hrow <;>
        · rw [hretry] at hrow
          cases hrow
  · rw [hcons]
    split
    · next hp => rw [hprovider hp]
    · exact hs.runs
  · rw [counterChanges_keep tr (by rfl), hres]
    exact hs.changes

/-- A step of an exclusive call keeps the invariant. -/
theorem step (hs : FailureInv failureId tr s) {l : ℕ × (DateTime × Outcome)} {s' : FailureState}
    (hok : Exclusive failureId s l) (h : (failureSystem cfg failureId).step s l s') :
    FailureInv failureId ((s, l) :: tr) s' := by
  obtain ⟨i, now, o⟩ := l
  obtain ⟨db', c', hnext, rfl⟩ := Parties.step_iff.mp h
  obtain ⟨hfor, hstep⟩ := (hs.holds i).step hnext
  clear hnext h
  generalize hc : s.loc i = c at hstep
  have hunchanged : db'.task.counters = s.shared.task.counters →
      resolutions ((s, (i, (now, o))) :: tr) = resolutions tr →
      counterChanges ((s, (i, (now, o))) :: tr) ⟨db', Function.update s.loc i c'⟩ ≤
        resolutions ((s, (i, (now, o))) :: tr) := by
    intro htask hres
    rw [counterChanges_keep tr htask, hres]
    exact hs.changes
  -- While the moving delivery works on the failure, no other does and nothing is resolved.
  have halone : (s.loc i).Active →
      (∀ j, j ≠ i → ¬ (s.loc j).Active) ∧ rowStatus failureId s.shared = some .retrying ∧
        resolutions tr = 0 := by
    intro hi
    have hretry := hs.retrying i hi
    refine ⟨fun j hne hj => hne (hs.one j i hj hi), hretry, hs.resolved.resolve_right ?_⟩
    rintro ⟨-, hdone⟩
    rw [hretry] at hdone
    cases hdone
  cases hstep with
  | idle hdb hq hp hr hactive hcalling =>
      subst hdb
      exact hs.still hfor (by rwa [hc]) hcalling (by rwa [hc]) (by rwa [hc])
  | provider hdb hcalling =>
      subst hdb
      exact hs.still hfor (fun _ => by rw [hc]; trivial) hcalling (by rw [hc]; rfl) (by rw [hc]; rfl)
  | @queue m _ hrow htask hactive hcalling =>
      have hok : rowStatus failureId s.shared ≠ some .retrying ∧
          rowStatus failureId s.shared ≠ some .succeeded := by
        simpa [Exclusive, FailureCall.admits, hc] using hok
      have hruns : providerRuns ((s, (i, (now, .next))) :: tr) = 0 :=
        providerRuns_queue tr (by rw [hc]; rfl)
      have hres : resolutions ((s, (i, (now, .next))) :: tr) = resolutions tr := by
        rw [resolutions_cons, hc]
        rfl
      refine hs.quiet hfor hactive (fun j _ => hs.not_active hok.1 j) (fun _ => hruns)
        (by rw [hruns]; exact Nat.zero_le 1) ?_ (hunchanged (by rw [htask]) hres)
      rw [hres]
      exact .inl (hs.resolved.resolve_right fun h => hok.2 h.2)
  | @begin r _ hrow htask =>
      have hok : rowStatus failureId s.shared = some .queued ∨
          rowStatus failureId s.shared = some .pending := by
        simpa [Exclusive, FailureCall.admits, hc] using hok
      have hidle := hs.not_active (by rcases hok with hok | hok <;> simp [hok])
      have hrow' : rowStatus failureId db' = some .retrying := by
        rw [hrow]
        rcases hok with hok | hok <;> rw [hok] <;> rfl
      have hruns : providerRuns ((s, (i, (now, .next))) :: tr) = 0 := by
        rw [providerRuns_cons tr (by rw [hc]; rfl), hs.queued hok, hc]
        rfl
      have hres : resolutions ((s, (i, (now, .next))) :: tr) = resolutions tr := by
        rw [resolutions_cons, hc]
        rfl
      have hnone : resolutions tr = 0 := by
        refine hs.resolved.resolve_right ?_
        rintro ⟨-, hdone⟩
        rcases hok with hok | hok <;> simp [hok] at hdone
      have hother : ∀ j, (Function.update s.loc i c' j).Active → j = i := by
        refine (Function.forall_update_iff s.loc fun j c => c.Active → j = i).mpr ⟨fun _ => rfl, ?_⟩
        intro j _ hj
        exact absurd hj (hidle j)
      exact
        { holds := (Function.forall_update_iff s.loc fun _ c => c.For failureId).mpr
            ⟨hfor, fun j _ => hs.holds j⟩
          one := fun j k hj hk => (hother j hj).trans (hother k hk).symm
          retrying := fun _ _ => hrow'
          calling := fun _ _ => hruns
          queued := fun _ => hruns
          runs := by rw [hruns]; exact Nat.zero_le 1
          resolved := by rw [hres]; exact .inl hnone
          changes := hunchanged htask hres }
  | @failed r _ hrow htask hr hactive hcalling =>
      obtain ⟨hothers, hretry, hnone⟩ := halone (by rw [hc]; trivial)
      have hrow' : rowStatus failureId db' = some .failed := by rw [hrow, hretry]; rfl
      have hruns : providerRuns ((s, (i, (now, .next))) :: tr) = providerRuns tr := by
        rw [providerRuns_cons tr (by rw [hc]; rfl), hc]
        rfl
      have hres : resolutions ((s, (i, (now, .next))) :: tr) = resolutions tr := by
        rw [resolutions_cons, hc, hr]
        rfl
      refine hs.quiet hfor hactive hothers ?_ (hruns ▸ hs.runs) (.inl (hres.trans hnone))
        (hunchanged htask hres)
      rintro (h | h) <;> simp [hrow'] at h
  | @succeeded r _ hrow hr hactive hcalling =>
      obtain ⟨hothers, hretry, hnone⟩ := halone (by rw [hc]; trivial)
      have hrow' : rowStatus failureId db' = some .succeeded := by rw [hrow, hretry]; rfl
      have hruns : providerRuns ((s, (i, (now, .next))) :: tr) = providerRuns tr := by
        rw [providerRuns_cons tr (by rw [hc]; rfl), hc]
        rfl
      have hres : resolutions ((s, (i, (now, .next))) :: tr) = resolutions tr + 1 := by
        rw [resolutions_cons, hc, hr]
        rfl
      refine hs.quiet hfor hactive hothers ?_ (hruns ▸ hs.runs)
        (.inr ⟨by rw [hres, hnone], hrow'⟩) ?_
      · rintro (h | h) <;> simp [hrow'] at h
      · rw [hres]
        have hbefore := hs.changes
        have hone := System.changes_cons_le (fun s : FailureState => s.shared.task.counters) tr s
          ⟨db', Function.update s.loc i c'⟩ (i, (now, Outcome.next))
        exact hone.trans (Nat.add_le_add_right hbefore 1)

end FailureInv

/-- In every run of exclusive calls on a failure, the provider runs at most once for a queueing,
the failure is resolved at most once, and the counters of its task change at most once. -/
theorem failure_resolved_once {cfg : Config} {failureId : ℕ} {tr : FailureTrace}
    {s : FailureState}
    (h : (failureSystem cfg failureId).Run (fun _ s l _ => Exclusive failureId s l) tr s) :
    providerRuns tr ≤ 1 ∧ resolutions tr ≤ 1 ∧ counterChanges tr s ≤ 1 := by
  have hinv : FailureInv failureId tr s := by
    refine h.invariant (I := FailureInv failureId) (fun s hs => ?_) ?_
    · have hidle : ∀ i, ¬ (s.loc i).Active := by
        intro i
        rcases hs i with hi | hi <;> (rw [hi]; exact not_false)
      exact
        { holds := fun i => by rcases hs i with hi | hi <;> (rw [hi]; rfl)
          one := fun i _ hi => absurd hi (hidle i)
          retrying := fun i hi => absurd hi (hidle i)
          calling := fun _ _ => rfl
          queued := fun _ => rfl
          runs := Nat.zero_le 1
          resolved := .inl rfl
          changes := le_rfl }
    · intro tr s l s' _ hs hok hstep
      exact hs.step hok hstep
  have hres : resolutions tr ≤ 1 := by
    rcases hinv.resolved with h | h <;> omega
  exact ⟨hinv.runs, hres, hinv.changes.trans hres⟩

/-- A partially failed task whose only failure has failed and can be retried. -/
def failedFailure : Db where
  task := { status := .partialFailed, failedCount := 2 }
  failures := [{ url := "https://example.org/a", stage := "detail_fetch"
                 errorCode := "HTTP_TIMEOUT", errorMessage := "timed out", retryable := true
                 status := .failed }]

/-- Calls 0 and 1 queue the failure, the others deliver it. -/
def queueAndDeliver : FailureState where
  shared := failedFailure
  loc i := if i < 2 then .queue (.load 0) else .delivery (.load 0)

theorem freshCalls_queueAndDeliver : FreshCalls 0 queueAndDeliver := by
  intro i
  by_cases hi : i < 2
  · exact .inl (if_pos hi)
  · exact .inr (if_neg hi)

/-- A statement of a call that succeeds. -/
def proceed (i : ℕ) : ℕ × (DateTime × Outcome) := (i, (0, .next))

/-- A delivery from its provider call to its last commit. -/
def deliver (i : ℕ) : List (ℕ × (DateTime × Outcome)) :=
  [(i, (0, .crawled (.batch fixedArticle))), (i, (0, .saves [])), proceed i]

/-- A failure that is queued and delivered twice, one delivery after the other: the second one is
refused. -/
theorem failure_resolved_once_redelivered :
    ∃ tr s, (failureSystem {} 0).Run (fun _ s l _ => Exclusive 0 s l) tr s ∧
      (providerRuns tr ≤ 1 ∧ resolutions tr ≤ 1 ∧ counterChanges tr s ≤ 1) ∧
      resolutions tr = 1 ∧ tr.length = 9 := by
  let sched := [proceed 0, proceed 0, proceed 0, proceed 2, proceed 2] ++ deliver 2 ++ [proceed 3]
  obtain ⟨s, hs⟩ := Option.isSome_iff_exists.mp
    (by decide : ((failureCalls {}).exec queueAndDeliver sched).isSome = true)
  have hok : ∀ e ∈ (failureCalls {}).traceOf queueAndDeliver sched, Exclusive 0 e.1 e.2 := by
    decide
  have hrun : (failureSystem {} 0).Run (fun _ s l _ => Exclusive 0 s l)
      ((failureCalls {}).traceOf queueAndDeliver sched) s :=
    ⟨_, freshCalls_queueAndDeliver, System.exec_path_of hs hok⟩
  exact ⟨_, s, hrun, failure_resolved_once hrun, by decide, by decide⟩

/-- Two deliveries of one queueing both find the row queued, and both call the provider; and a call
that checked the row before a delivery resolved it queues it again, so that it is resolved and
counted twice. -/
theorem failure_resolved_twice :
    (∃ tr s, (failureSystem {} 0).Run System.always tr s ∧ providerRuns tr = 2) ∧
      ∃ tr s, (failureSystem {} 0).Run System.always tr s ∧ counterChanges tr s = 2 := by
  constructor
  · let sched := [proceed 0, proceed 0, proceed 2, proceed 3, proceed 2, proceed 3] ++ deliver 2 ++
      deliver 3
    obtain ⟨s, hs⟩ := Option.isSome_iff_exists.mp
      (by decide : ((failureCalls {}).exec queueAndDeliver sched).isSome = true)
    exact ⟨_, s, ⟨_, freshCalls_queueAndDeliver, System.exec_path hs⟩, by decide⟩
  · let sched := [proceed 0, proceed 1, proceed 0, proceed 2, proceed 2] ++ deliver 2 ++
      [proceed 1, proceed 3, proceed 3] ++ deliver 3
    have hcounts : ((failureCalls {}).exec queueAndDeliver sched).map (fun s =>
        counterChanges ((failureCalls {}).traceOf queueAndDeliver sched) s) = some 2 := by
      decide
    obtain ⟨s, hs, hcounts⟩ := Option.map_eq_some_iff.mp hcounts
    exact ⟨_, s, ⟨_, freshCalls_queueAndDeliver, System.exec_path hs⟩, hcounts⟩

end Odirag.Crawl
