import Odirag.Crawl.StatusSafety
import Mathlib.Data.List.Nodup

/-!
# Resolving a partial failure

Reference: `backend/app/services/crawl.py`: `execute_failed_url`, `_fail_failure_retry`;
`backend/app/repositories/crawl.py`: `count_unresolved_failures`;
`backend/app/database/session.py`: `autoflush=False`.

The retries of a task's failed URLs run one after another, and each may stop at any point. The
query that decides whether the task is resolved is issued before the row's `succeeded` is flushed,
so it always counts that row: a retry never moves the task out of `partial_failed`, also when it
has fixed the last failure (`FixesLast`).
-/

namespace Odirag.Crawl

/-! ## Sequences of retries -/

/-- The committed rows, and the retry that is running or has run last. -/
structure Retries where
  db : Db
  call : FailedUrl
deriving DecidableEq

/-- Start a retry, leaving the last one wherever it is, or make its next step. -/
inductive RetryLabel
  | start (failureId : ℕ)
  | step (now : DateTime) (o : Outcome)
deriving DecidableEq

/-- The next state of a sequence of retries. -/
def retryNext (cfg : Config) (s : Retries) (l : RetryLabel) : Option Retries :=
  match l with
  | .start failureId => some { s with call := .load failureId }
  | .step now o => (s.call.step cfg now o s.db).map fun r => ⟨r.1, r.2⟩

/-- The sequences of retries over the failures of a partially failed task. -/
def retrySystem (cfg : Config) : System Retries RetryLabel :=
  .ofNext (retryNext cfg) fun s => s.db.task.status = .partialFailed ∧
    (s.db.failures.map (·.id)).Nodup ∧ s.call = .returned

/-- A step leaves `partial_failed` exactly when it resolves the last unresolved failure. -/
def ResolvesExactly (db db' : Db) : Prop :=
  db.task.status = .partialFailed →
    (db'.task.status ≠ .partialFailed ↔
      countUnresolvedFailures db.failures ≠ 0 ∧ countUnresolvedFailures db'.failures = 0)

instance (db db' : Db) : Decidable (ResolvesExactly db db') :=
  inferInstanceAs (Decidable (_ → _))

/-- The step commits a successful retry of the only failure that is still unresolved. -/
def FixesLast (s : Retries) (l : RetryLabel) : Prop :=
  ∃ r now, s.call = .commit r ∧ l = .step now .next ∧ ¬ r.Violates s.db ∧
    r.failure.current.status = .succeeded ∧
    ∀ row ∈ s.db.failures, row.status.unresolved = true → row.id = r.failure.loaded.id

/-! ## Committing a failure row -/

/-- Failure rows have distinct ids, so the row under a loaded row's id is the loaded row. -/
theorem eq_of_id {rows : List CrawlTaskFailure} (hnodup : (rows.map (·.id)).Nodup)
    {row row' : CrawlTaskFailure} (h : row ∈ rows) (h' : row' ∈ rows) (hid : row.id = row'.id) :
    row = row' :=
  List.inj_on_of_nodup_map hnodup h h' hid

/-- Committing over the row that was loaded stores the session's row. -/
theorem apply_of_loaded {rows : List CrawlTaskFailure} {loaded current : CrawlTaskFailure}
    (hnodup : (rows.map (·.id)).Nodup) (hmem : loaded ∈ rows) (hid : current.id = loaded.id) :
    FailureChange.apply rows ⟨some loaded, current⟩ =
      rows.map fun row => if row.id = loaded.id then current else row := by
  refine List.map_congr_left fun row hrow => ?_
  split
  · next h =>
      obtain rfl := eq_of_id hnodup hrow hmem h
      exact CrawlTaskFailure.save_of_loaded rfl hid
  · rfl

/-- Replacing one row by another of the same id keeps the ids. -/
theorem map_id_replace {rows : List CrawlTaskFailure} {loaded current : CrawlTaskFailure}
    (hid : current.id = loaded.id) :
    (rows.map fun row => if row.id = loaded.id then current else row).map (·.id) =
      rows.map (·.id) := by
  rw [List.map_map]
  refine List.map_congr_left fun row _ => ?_
  simp only [Function.comp]
  split
  · next h => exact hid.trans h.symm
  · rfl

/-- After the commit of a row, all failures are resolved when that row is and the others were. -/
theorem countUnresolved_replace {rows : List CrawlTaskFailure} {loaded : CrawlTaskFailure}
    (current : CrawlTaskFailure) (hmem : loaded ∈ rows) :
    countUnresolvedFailures (rows.map fun row => if row.id = loaded.id then current else row) = 0 ↔
      current.status.unresolved = false ∧
        ∀ row ∈ rows, row.status.unresolved = true → row.id = loaded.id := by
  simp only [countUnresolvedFailures, List.countP_eq_zero, List.mem_map, forall_exists_index,
    and_imp, forall_apply_eq_imp_iff₂]
  constructor
  · intro h
    refine ⟨by simpa using h loaded hmem, fun row hrow hun => ?_⟩
    by_contra hne
    exact h row hrow (by simpa [hne] using hun)
  · rintro ⟨hcur, hothers⟩ row hrow
    split
    · simp [hcur]
    · next hne => exact fun hun => hne (hothers row hrow hun)

/-- A row that is unresolved is counted. -/
theorem countUnresolved_ne_zero {rows : List CrawlTaskFailure} {row : CrawlTaskFailure}
    (hmem : row ∈ rows) (hun : row.status.unresolved = true) :
    countUnresolvedFailures rows ≠ 0 := by
  intro h
  exact List.countP_eq_zero.mp h row hmem hun

/-! ## What a retry holds -/

/-- The session holds a committed failure row, and has kept the status of the task. -/
structure RetrySession.Holds (r : RetrySession) (db : Db) : Prop where
  loaded : r.failure.loaded ∈ db.failures
  id : r.failure.current.id = r.failure.loaded.id
  kept : r.base.Kept

/-- What the session of a retry holds at each of its points. -/
def FailedUrl.Inv (db : Db) : FailedUrl → Prop
  | .begin r => r.Holds db ∧ r.failure.current.status = .retrying ∧
      r.failure.loaded.status.unresolved = true
  | .calling r | .saving r _ => r.Holds db ∧ r.failure.loaded.status = .retrying
  | .commit r => r.Holds db ∧ r.failure.loaded.status = .retrying ∧
      (r.failure.current.status = .succeeded ∨ r.failure.current.status = .failed)
  | _ => True

/-- The invariant of a sequence of retries: the task stays partially failed. -/
structure Retries.Inv (s : Retries) : Prop where
  nodup : (s.db.failures.map (·.id)).Nodup
  status : s.db.task.status = .partialFailed
  call : s.call.Inv s.db

namespace RetrySession

/-- Committing a session that has kept the status keeps the committed one. -/
theorem Holds.commit_status {r : RetrySession} {db : Db} (h : r.Holds db) :
    (r.session.commit db).task.status = db.task.status := by
  have hkept : r.base.task.current.status = r.base.task.loaded.status := h.kept
  simp [hkept]

/-- The failure rows after the commit of a retry. -/
theorem Holds.commit_failures {r : RetrySession} {db : Db} (h : r.Holds db)
    (hnodup : (db.failures.map (·.id)).Nodup) :
    (r.session.commit db).failures =
      db.failures.map fun row => if row.id = r.failure.loaded.id then r.failure.current else row :=
  apply_of_loaded hnodup h.loaded h.id

/-- After its commit a retry holds the row it has stored. -/
theorem Holds.flushed {r : RetrySession} {db : Db} (h : r.Holds db)
    (hnodup : (db.failures.map (·.id)).Nodup) : r.flushed.Holds (r.session.commit db) := by
  refine ⟨?_, rfl, Session.kept_flushed r.base⟩
  rw [h.commit_failures hnodup]
  exact List.mem_map.mpr ⟨r.failure.loaded, h.loaded, by simp [RetrySession.flushed]⟩

/-- A failed attempt assigns `failed` to the row it holds. -/
theorem Holds.failRetry {r : RetrySession} {db : Db} (h : r.Holds db) (now : DateTime)
    (code : String) : (failRetry now code r).Holds db :=
  ⟨h.loaded, h.id, FailedUrl.kept_failRetry h.kept⟩

/-- Saving the articles of a retry leaves the row that it holds. -/
theorem Holds.saved {r : RetrySession} {db : Db} (h : r.Holds db) (cfg : Config)
    (articles : List BatchArticle) (outcomes : List ArticleSave) :
    RetrySession.Holds { r with base := (saveRetried cfg db r.base articles outcomes).1 } db :=
  ⟨h.loaded, h.id, (FailedUrl.sameStatus_saveRetried cfg db _ articles outcomes).kept h.kept⟩

/-- While a failure is unresolved in the committed rows, a successful attempt keeps the status of
the task. -/
theorem Holds.succeedRetry {r r' : RetrySession} {db : Db} {now : DateTime}
    {b : BatchCrawlResponse} (h : r.Holds db) (hun : countUnresolvedFailures db.failures ≠ 0)
    (hok : succeedRetry now db b r = .ok r') :
    r'.Holds db ∧ r'.failure.loaded = r.failure.loaded ∧
      r'.failure.current.status = .succeeded := by
  simp only [Crawl.succeedRetry, hun, if_false] at hok
  cases hok
  exact ⟨⟨h.loaded, h.id, h.kept.assign rfl⟩, rfl, rfl⟩

end RetrySession

/-! ## One step -/

/-- A step that commits nothing resolves nothing. -/
theorem resolvesExactly_refl (db : Db) : ResolvesExactly db db := fun h => by simp [h]

/-- Committing a retry resolves the task exactly unless its row is resolved by it and was the only
one left. -/
theorem resolvesExactly_commit {r : RetrySession} {db : Db} (h : r.Holds db)
    (hnodup : (db.failures.map (·.id)).Nodup) (hstatus : db.task.status = .partialFailed)
    (hun : r.failure.loaded.status.unresolved = true) :
    ResolvesExactly db (r.session.commit db) ↔
      ¬ (r.failure.current.status.unresolved = false ∧
        ∀ row ∈ db.failures, row.status.unresolved = true → row.id = r.failure.loaded.id) := by
  have hbefore := countUnresolved_ne_zero h.loaded hun
  rw [ResolvesExactly, h.commit_status, h.commit_failures hnodup,
    ← countUnresolved_replace r.failure.current h.loaded]
  simp [hstatus, hbefore]

/-- A commit keeps the ids of the failure rows and the status of the task. -/
theorem Retries.Inv.commit {s : Retries} {r : RetrySession} {call : FailedUrl} (hs : s.Inv)
    (h : r.Holds s.db) (hcall : call.Inv (r.session.commit s.db)) :
    Retries.Inv ⟨r.session.commit s.db, call⟩ := by
  refine ⟨?_, h.commit_status.trans hs.status, hcall⟩
  rw [h.commit_failures hs.nodup, map_id_replace h.id]
  exact hs.nodup

/-- The commit of `retrying` keeps the row held, and resolves nothing. -/
theorem Retries.Inv.begin {db : Db} {r : RetrySession} (hs : Retries.Inv ⟨db, .begin r⟩) :
    (r.flushed.Holds (r.session.commit db) ∧ r.flushed.failure.loaded.status = .retrying) ∧
      ResolvesExactly db (r.session.commit db) := by
  obtain ⟨hnodup, hstatus, hholds, hcur, hun⟩ := hs
  refine ⟨⟨hholds.flushed hnodup, hcur⟩, ?_⟩
  rw [resolvesExactly_commit hholds hnodup hstatus hun, hcur]
  simp [FailureStatus.unresolved]

namespace FailedUrl

/-- An attempt that fails holds its row as failed. -/
theorem inv_failRetry {db : Db} {r : RetrySession}
    (hr : r.Holds db ∧ r.failure.loaded.status = .retrying) (now : DateTime) (code : String) :
    (FailedUrl.commit (failRetry now code r)).Inv db :=
  ⟨hr.1.failRetry now code, hr.2, .inr rfl⟩

/-- An attempt that succeeds holds its row as succeeded. -/
theorem inv_succeedRetry {now : DateTime} {db : Db} {b : BatchCrawlResponse}
    {r r' : RetrySession} (hr : r.Holds db ∧ r.failure.loaded.status = .retrying)
    (hok : succeedRetry now db b r = .ok r') : (FailedUrl.commit r').Inv db := by
  have hun : countUnresolvedFailures db.failures ≠ 0 :=
    countUnresolved_ne_zero hr.1.loaded (by rw [hr.2]; rfl)
  obtain ⟨hholds, hloaded, hdone⟩ := hr.1.succeedRetry hun hok
  refine ⟨hholds, ?_, .inl hdone⟩
  rw [hloaded]
  exact hr.2

end FailedUrl

/-- What `execute_failed_url` holds after its first SELECT. -/
theorem inv_beginRetry {now : DateTime} {db : Db} {failure : CrawlTaskFailure} {r : RetrySession}
    (hmem : failure ∈ db.failures) (h : beginRetry now db failure = .ok r) :
    (FailedUrl.begin r).Inv db := by
  have hkept := FailedUrl.kept_beginRetry h
  unfold beginRetry at h
  split at h
  · next hrun =>
      cases h
      refine ⟨⟨hmem, rfl, hkept⟩, rfl, ?_⟩
      cases hst : failure.status <;> simp_all [FailureStatus.runnable, FailureStatus.unresolved]
  · cases h

/-- Only a commit fixes something. -/
theorem not_fixesLast {s : Retries} {l : RetryLabel} (h : ∀ r, s.call ≠ .commit r) :
    ¬ FixesLast s l := by
  rintro ⟨r, now, hcall, -⟩
  exact h r hcall

/-- A step of a sequence of retries keeps the task partially failed, and resolves it exactly
unless it fixes the last failure. -/
theorem Retries.Inv.step {cfg : Config} {l : RetryLabel} {s s' : Retries} (hs : s.Inv)
    (h : retryNext cfg s l = some s') :
    s'.Inv ∧ (ResolvesExactly s.db s'.db ↔ ¬ FixesLast s l) := by
  obtain ⟨db, call⟩ := s
  have hcall : call.Inv db := hs.call
  -- A step that leaves the rows alone, from a point that is not a successful commit.
  have hidle : ∀ call' : FailedUrl, call'.Inv db → ¬ FixesLast ⟨db, call⟩ l →
      Retries.Inv ⟨db, call'⟩ ∧ (ResolvesExactly db db ↔ ¬ FixesLast ⟨db, call⟩ l) :=
    fun call' hinv hfix =>
      ⟨⟨hs.nodup, hs.status, hinv⟩, iff_of_true (resolvesExactly_refl db) hfix⟩
  cases l with
  | start failureId =>
      cases h
      exact hidle _ trivial (by rintro ⟨r, now, -, h, -⟩; cases h)
  | step now o =>
      obtain ⟨⟨db', call'⟩, hstep, heq⟩ := Option.map_eq_some_iff.mp h
      cases heq
      cases FailedUrl.moves_of_step hstep with
      | refuse => exact hidle _ trivial (not_fixesLast fun r h => by cases h)
      | load o hrow hbegin =>
          exact hidle _ (inv_beginRetry hrow hbegin) (not_fixesLast fun r h => by cases h)
      | begin r =>
          obtain ⟨hheld, hexact⟩ := hs.begin
          exact ⟨hs.commit hcall.1 hheld,
            iff_of_true hexact (not_fixesLast fun r' h => by cases h)⟩
      | notPublished code r =>
          obtain ⟨hheld, hexact⟩ := hs.begin
          exact ⟨hs.commit hcall.1 (FailedUrl.inv_failRetry hheld now code),
            iff_of_true hexact (not_fixesLast fun r' h => by cases h)⟩
      | beginRaises => exact hidle _ trivial (not_fixesLast fun r' h => by cases h)
      | accept => exact hidle _ hcall (not_fixesLast fun r' h => by cases h)
      | fail o code r =>
          exact hidle _ (FailedUrl.inv_failRetry hcall now code)
            (not_fixesLast fun r' h => by cases h)
      | @save r r' b m outcomes hsave hok =>
          have hheld := hcall.1.saved cfg b.articles outcomes
          rw [hsave] at hheld
          exact hidle _ (FailedUrl.inv_succeedRetry (r := { r with base := m }) ⟨hheld, hcall.2⟩ hok)
            (not_fixesLast fun r' h => by cases h)
      | saveFails code r b outcomes =>
          exact hidle _
            (FailedUrl.inv_failRetry ⟨hcall.1.saved cfg b.articles outcomes, hcall.2⟩ now code)
            (not_fixesLast fun r' h => by cases h)
      | violate exc hv =>
          refine hidle _ trivial ?_
          rintro ⟨r', now', h, -, hnv, -⟩
          cases h
          exact hnv hv
      | @commit r hv =>
          obtain ⟨hholds, hloaded, hcur⟩ := hcall
          refine ⟨hs.commit hholds trivial, ?_⟩
          rw [resolvesExactly_commit hholds hs.nodup hs.status (by rw [hloaded]; rfl), not_iff_not]
          constructor
          · rintro ⟨hres, hothers⟩
            refine ⟨r, now, rfl, rfl, hv, hcur.resolve_right ?_, hothers⟩
            intro hfailed
            rw [hfailed] at hres
            cases hres
          · rintro ⟨r', now', h, -, -, hdone, hothers⟩
            cases h
            exact ⟨by rw [hdone]; rfl, hothers⟩
      | commitRaises =>
          refine hidle _ trivial ?_
          rintro ⟨r', now', -, h, -⟩
          cases h

/-- The invariant holds in every sequence of retries. -/
theorem inv_of_run {cfg : Config} {tr : List (Retries × RetryLabel)} {s : Retries}
    (h : (retrySystem cfg).Run System.always tr s) : s.Inv := by
  refine h.invariant (I := fun _ s => s.Inv) (fun s hs => ?_) ?_
  · obtain ⟨hstatus, hnodup, hcall⟩ := hs
    refine ⟨hnodup, hstatus, ?_⟩
    rw [hcall]
    trivial
  · intro _ s l s' _ hs _ hstep
    exact (hs.step hstep).1

/-- A sequence of retries resolves its task exactly if and only if no step of it fixes the last
unresolved failure. -/
theorem resolves_exactly_iff {cfg : Config} {tr : List (Retries × RetryLabel)} {s : Retries}
    (h : (retrySystem cfg).Run System.always tr s) :
    (∀ s₁ l s₂, (s₁, l) ∈ tr → (retrySystem cfg).step s₁ l s₂ → ResolvesExactly s₁.db s₂.db) ↔
      ∀ s₁ l, (s₁, l) ∈ tr → ¬ FixesLast s₁ l := by
  have hat : ∀ s₁ l, (s₁, l) ∈ tr → ∃ s₂, (retrySystem cfg).step s₁ l s₂ ∧
      (ResolvesExactly s₁.db s₂.db ↔ ¬ FixesLast s₁ l) := by
    intro s₁ l hmem
    obtain ⟨later, early, rfl⟩ := List.append_of_mem hmem
    obtain ⟨s₂, hcut⟩ := h.upTo
    obtain ⟨hrun, -, hstep⟩ := hcut.last
    exact ⟨s₂, hstep, ((inv_of_run hrun).step hstep).2⟩
  constructor
  · intro hres s₁ l hmem
    obtain ⟨s₂, hstep, hiff⟩ := hat s₁ l hmem
    exact hiff.mp (hres s₁ l s₂ hmem hstep)
  · intro hfix s₁ l s₂ hmem hstep
    obtain ⟨s₂', hstep', hiff⟩ := hat s₁ l hmem
    obtain rfl : s₂' = s₂ := Option.some.inj (hstep'.symm.trans hstep)
    exact hiff.mpr (hfix s₁ l hmem)

/-- A partially failed task with one retryable failure. -/
def oneFailure : Db where
  task := { status := .partialFailed, failedCount := 1 }
  failures := [{ url := "https://example.org/a", stage := "detail_fetch"
                 errorCode := "HTTP_TIMEOUT", errorMessage := "timed out", retryable := true
                 status := .failed }]

/-- A retry whose provider returns no batch: it fixes nothing, and the task is resolved exactly. -/
theorem resolves_exactly_unresolved :
    ∃ tr s, (retrySystem {}).Run System.always tr s ∧ tr.length = 5 ∧
      ∀ s₁ l s₂, (s₁, l) ∈ tr → (retrySystem {}).step s₁ l s₂ →
        ResolvesExactly s₁.db s₂.db := by
  let s₀ : Retries := ⟨oneFailure, .returned⟩
  let labels : List RetryLabel :=
    [.start 0, .step 0 .next, .step 0 .next, .step 0 .noBatch, .step 0 .next]
  obtain ⟨s, hs⟩ := Option.isSome_iff_exists.mp
    (by decide : (System.exec (retryNext {}) s₀ labels).isSome = true)
  have hrun : (retrySystem {}).Run System.always (System.traceOf (retryNext {}) s₀ labels) s :=
    ⟨s₀, ⟨rfl, by decide, rfl⟩, System.exec_path hs⟩
  refine ⟨_, s, hrun, by decide, (resolves_exactly_iff hrun).mpr fun s₁ l hmem => ?_⟩
  have hfailed : ∀ e ∈ System.traceOf (retryNext {}) s₀ labels, (match e.1.call with
      | .commit r => decide (r.failure.current.status ≠ .succeeded)
      | _ => true) = true := by
    decide
  rintro ⟨r, now, hcall, -, -, hdone, -⟩
  have hnot := hfailed _ hmem
  rw [hcall] at hnot
  exact of_decide_eq_true hnot hdone

/-- The batch that fixes the failure of `oneFailure`. -/
def fixedArticle : BatchCrawlResponse where
  success := true
  taskId := "1:failure:0"
  statistics := { articlesDiscovered := 1, articlesFetched := 1, articlesAccepted := 1 }
  articles := [⟨"https://example.org/a", "html", .accepted, "ok"⟩]
  failedUrls := []
  warnings := []

/-- The retry of the only failure succeeds, and the task stays partially failed. -/
theorem fixed_task_stays_partially_failed :
    ∃ tr s s₁ l s₂, (retrySystem {}).Run System.always tr s ∧ (s₁, l) ∈ tr ∧
      (retrySystem {}).step s₁ l s₂ ∧ ¬ ResolvesExactly s₁.db s₂.db := by
  let s₀ : Retries := ⟨oneFailure, .returned⟩
  let labels : List RetryLabel :=
    [.start 0, .step 0 .next, .step 0 .next, .step 0 (.crawled (.batch fixedArticle)),
      .step 0 (.saves [])]
  have hcheck : ((System.exec (retryNext {}) s₀ labels).bind fun s₁ =>
      (retryNext {} s₁ (.step 0 .next)).map fun s₂ => decide (ResolvesExactly s₁.db s₂.db)) =
      some false := by
    decide
  obtain ⟨s₁, h₁, hcheck⟩ := Option.bind_eq_some_iff.mp hcheck
  obtain ⟨s₂, h₂, hcheck⟩ := Option.map_eq_some_iff.mp hcheck
  have hrun : (retrySystem {}).Run System.always
      ((s₁, .step 0 .next) :: System.traceOf (retryNext {}) s₀ labels) s₂ :=
    ⟨s₀, ⟨rfl, by decide, rfl⟩, .cons (System.exec_path h₁) trivial h₂⟩
  exact ⟨_, s₂, s₁, .step 0 .next, s₂, hrun, List.mem_cons_self, h₂, of_decide_eq_false hcheck⟩

end Odirag.Crawl
