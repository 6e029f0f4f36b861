import Odirag.Crawl.Operations

/-!
# The status of a task follows the state machine

Reference: `backend/app/crawler/state.py`, `backend/app/services/crawl.py`,
`backend/app/repositories/crawl.py`.

Every call checks its transition against the status it has in memory, so what a session holds is
legal with respect to the row it loaded (`Party.Sound`). A commit is legal with respect to the
committed row when that row still has the loaded status (`NoStaleSave`), and nothing in an
ordinary save checks this.
-/

namespace Odirag.Crawl

open CrawlRepository CrawlTaskStateMachine

/-! ## What a session holds -/

namespace Session

/-- The session has not assigned another status. -/
def Kept (m : Session) : Prop := m.task.current.status = m.task.loaded.status

instance (m : Session) : Decidable m.Kept := inferInstanceAs (Decidable (_ = _))

/-- The statuses that sessions assign, apart from a requeue. -/
def assigned : List TaskStatus := [.failed, .partialFailed, .waitingReview, .completed]

/-- The session has kept the status, or assigned one of `assigned` over an edge from the loaded
one. -/
def Legal (m : Session) : Prop :=
  m.Kept ∨ m.task.current.status ∈ m.task.loaded.status.transitions ∧
    m.task.current.status ∈ assigned

theorem Kept.legal {m : Session} (h : m.Kept) : m.Legal := .inl h

@[simp] theorem kept_load (db : Db) : (load db).Kept := rfl
@[simp] theorem kept_refresh (m : Session) (db : Db) : (m.refresh db).Kept := rfl
@[simp] theorem kept_flushed (m : Session) : m.flushed.Kept := rfl

/-- Assigning other attributes keeps the status. -/
theorem Kept.assign {m : Session} (h : m.Kept) {f : CrawlTask → CrawlTask}
    (hf : (f m.task.current).status = m.task.current.status) : (m.assign f).Kept :=
  hf.trans h

/-- A transition that was accepted in memory is legal for a session that had kept the status. -/
theorem Kept.transition {m : Session} (h : m.Kept) {t t' : CrawlTask} {target : TaskStatus}
    {error : Option String} {now : DateTime} (ht : t.status = m.task.current.status)
    (hok : transition t target error now = .ok t') (htarget : target ∈ assigned) :
    (m.assign fun _ => t').Legal := by
  obtain ⟨hmem, rfl⟩ := transition_ok hok
  refine .inr ⟨?_, by simpa using htarget⟩
  simpa [ht.trans h] using hmem

/-- Work that keeps the loaded row and the status in memory keeps the status. -/
theorem SameStatus.kept {m m' : Session} (h : m.SameStatus m') (hm : m.Kept) : m'.Kept :=
  (h.2.trans hm).trans (congrArg CrawlTask.status h.1).symm

/-- What a save section leaves is legal if it started with the loaded status. -/
theorem Concluded.legal {m : Session} {r : Session × Option Exc} (h : Concluded m r)
    (hm : m.Kept) : r.1.Legal := by
  have hloaded : m.task.current.status = r.1.task.loaded.status := by
    rw [h.loaded]
    exact hm
  rcases h.status with hs | ⟨hedge, hfinal⟩
  · exact .inl (hs.trans hloaded)
  · rw [hloaded] at hedge
    refine .inr ⟨hedge, ?_⟩
    simp only [assigned, List.mem_cons] at hfinal ⊢
    exact .inr hfinal

end Session

/-- What the session of a worker holds, between two statements. -/
def Worker.Sound : Worker → Prop
  | .invocation m | .calling m | .save _ _ m => m.Kept
  | .notConfigured m | .commit _ m | .finishCommit _ m | .handlerCommit _ _ m => m.Legal
  | _ => True

/-- What the session of a failed-URL retry holds. -/
def FailedUrl.Sound : FailedUrl → Prop
  | .begin r | .calling r | .saving r _ => r.base.Kept
  | .commit r => r.base.Legal
  | _ => True

/-- What the session of a load-and-save operation holds before its commit. -/
def SaveKind.Sound (m : Session) : SaveKind → Prop
  | .retry =>
      m.task.current.status = .pending ∧ .pending ∈ m.task.loaded.status.transitions
  | .markQueueFailure _ => m.Legal
  | .recoverStaleTasks =>
      m.task.loaded.status ∈ TaskStatus.active ∧
        (m.task.current.status = .failed ∨ m.task.current.status = .pending)

/-- What the session of a party holds. -/
def Party.Sound : Party → Prop
  | .worker w => w.Sound
  | .failedUrl f => f.Sound
  | .save k m => k.Sound m
  | _ => True

namespace Worker

theorem Dispatched.sound {now : DateTime} {m : Session} {w : Worker} (h : Dispatched now m w)
    (hm : m.Kept) : w.Sound := by
  cases h with
  | refused ht hok => exact hm.transition ht hok (by decide)
  | _ => trivial

theorem sound_continueAfter (cfg : Config) (g : Gate) (c : Crawled) {m : Session} (h : m.Kept) :
    (continueAfter cfg g c m).Sound := by
  cases g with
  | cozeCall => exact h.assign rfl
  | localStart | cozeNormalize => trivial
  | _ => exact h

theorem Finished.sound {db : Db} {m : Session} {hd : Handler} {w : Worker}
    (h : Finished db m hd w) : w.Sound := by
  cases h with
  | changed => trivial
  | cancelled ht => exact ((Session.kept_refresh m db).assign ht).legal

theorem kept_handlerSession (hd : Handler) (db : Db) (m : Session) :
    (handlerSession hd db m).Kept := by
  cases hd <;> rfl

theorem Handled.sound {now : DateTime} {db : Db} {m : Session} {hd : Handler} {exc : Exc}
    {w : Worker} (h : Handled now db m hd exc w) : w.Sound := by
  have hkept := kept_handlerSession hd db m
  cases h with
  | failed ht hok => exact hkept.transition (by rw [handlerSession_task]; exact ht) hok (by decide)
  | recorded ht => exact (hkept.assign (by rw [handlerSession_task]; exact ht)).legal
  | _ => trivial

theorem sound_raising (exc : Exc) (w : Worker) : (w.raising exc).Sound := by
  rcases raising_cases exc w with h | ⟨hd, m, h⟩ <;> (rw [h]; trivial)

theorem sound_committed (w : Worker) : w.committed.Sound := by
  cases w with
  | handlerCommit hd => cases hd <;> trivial
  | _ => trivial

/-- A worker's step keeps its session legal. -/
theorem Sound.step {cfg : Config} {now : DateTime} {o : Outcome} {db db' : Db} {w w' : Worker}
    (hw : w.Sound) (h : w.step cfg now o db = some (db', w')) : w'.Sound := by
  cases moves_of_step h with
  | raises exc => exact sound_raising exc w
  | commit => exact sound_committed w
  | load => exact (dispatched_dispatch cfg now _).sound (Session.kept_load db)
  | keep => exact (dispatched_dispatch cfg now _).sound rfl
  | advance g c m => exact sound_continueAfter cfg g c (Session.kept_refresh m db)
  | @save p c m m' outcomes hsave =>
      have hc := Session.concluded_saveCrawled cfg p now db m c outcomes
      rw [hsave] at hc
      exact hc.legal hw
  | finish => exact (finished_finishSelect _ _ db _).sound
  | handle => exact (handled_handle _ _ now db _).sound
  | _ => trivial

end Worker

namespace FailedUrl

theorem kept_beginRetry {now : DateTime} {db : Db} {failure : CrawlTaskFailure} {r : RetrySession}
    (h : beginRetry now db failure = .ok r) : r.base.Kept := by
  unfold beginRetry at h
  split at h
  · cases h
    exact (Session.kept_load db).assign rfl
  · cases h

theorem kept_failRetry {now : DateTime} {code : String} {r : RetrySession} (h : r.base.Kept) :
    (failRetry now code r).base.Kept :=
  h.assign rfl

theorem sameStatus_saveRetried (cfg : Config) (db : Db) (m : Session)
    (articles : List BatchArticle) (outcomes : List ArticleSave) :
    m.SameStatus (saveRetried cfg db m articles outcomes).1 := by
  induction articles generalizing m outcomes with
  | nil => exact .refl m
  | cons a rest ih =>
      simp only [saveRetried]
      split
      · next c r _ =>
          exact (Session.sameStatus_saveCozeArticle cfg db m a c r).trans (ih _ outcomes.tail)
      · exact .refl m
      · exact .refl m
      · exact .refl m

theorem legal_succeedRetry {now : DateTime} {db : Db} {b : BatchCrawlResponse}
    {r r' : RetrySession} (h : r.base.Kept) (hok : succeedRetry now db b r = .ok r') :
    r'.base.Legal := by
  unfold succeedRetry at hok
  dsimp only at hok
  split at hok
  · split at hok
    · split at hok
      · obtain ⟨t, ht, rfl⟩ := except_map_ok hok
        exact (h.assign rfl).transition (by rfl) ht (by decide)
      · obtain ⟨t, ht, rfl⟩ := except_map_ok hok
        exact (h.assign rfl).transition (by rfl) ht (by decide)
    · cases hok
      exact (h.assign rfl).legal
  · cases hok
    exact (h.assign rfl).legal

/-- A retry's step keeps its session legal. -/
theorem Sound.step {cfg : Config} {now : DateTime} {o : Outcome} {db db' : Db} {f f' : FailedUrl}
    (hf : f.Sound) (h : f.step cfg now o db = some (db', f')) : f'.Sound := by
  cases moves_of_step h with
  | load o hrow hbegin => exact kept_beginRetry hbegin
  | begin r => exact Session.kept_flushed r.base
  | notPublished code r => exact (kept_failRetry (Session.kept_flushed r.base)).legal
  | accept => exact hf
  | fail => exact (kept_failRetry hf).legal
  | @save r r' b m outcomes hsave hok =>
      have hsame := (sameStatus_saveRetried cfg db r.base b.articles outcomes).kept hf
      rw [hsave] at hsame
      exact legal_succeedRetry (r := { r with base := m }) hsame hok
  | saveFails code r b outcomes =>
      have hsame := (sameStatus_saveRetried cfg db r.base b.articles outcomes).kept hf
      exact (kept_failRetry (r := { r with base := _ }) hsame).legal
  | _ => trivial

end FailedUrl

/-- What a load-and-save operation assigns is legal with respect to the row it loaded. -/
theorem SaveKind.sound_assign {cfg : Config} {now : DateTime} {db : Db} {k : SaveKind}
    {t : CrawlTask} (h : k.assign cfg now db.task = .ok (some t)) :
    k.Sound ((Session.load db).assign fun _ => t) := by
  cases k with
  | retry =>
      obtain ⟨t', ht, heq⟩ := except_map_ok h
      cases heq
      unfold Crawl.retry at ht
      split at ht
      · next t' hok =>
          cases ht
          obtain ⟨hmem, rfl⟩ := transition_ok hok
          exact ⟨rfl, hmem⟩
      · cases ht
  | markQueueFailure errorType =>
      simp only [assign, Crawl.markQueueFailure] at h
      split at h
      · cases h
      · obtain ⟨t', hok, heq⟩ := except_map_ok h
        cases heq
        obtain ⟨hmem, rfl⟩ := transition_ok hok
        exact .inr ⟨hmem, by simp [Session.assigned]⟩
  | recoverStaleTasks =>
      simp only [assign] at h
      split at h
      · next hstale =>
          cases h
          simp only [isStale, Bool.and_eq_true, decide_eq_true_eq] at hstale
          exact ⟨hstale.1, recoverStaleTask_status _ _ _⟩
      · cases h

/-- A party's step keeps its session legal. -/
theorem Party.Sound.next {cfg : Config} {a : Act} {db db' : Db} {p p' : Party} (hp : p.Sound)
    (h : p.next cfg a db = some (db', p')) : p'.Sound := by
  cases a with
  | step now o =>
      cases p with
      | worker w =>
          simp only [Party.next, Option.map_eq_some_iff, Prod.exists] at h
          obtain ⟨db₁, w', hw, heq⟩ := h
          cases heq
          exact Worker.Sound.step hp hw
      | failedUrl f =>
          simp only [Party.next, Option.map_eq_some_iff, Prod.exists] at h
          obtain ⟨db₁, f', hf, heq⟩ := h
          cases heq
          exact FailedUrl.Sound.step hp hf
      | cancel c =>
          cases o with
          | next =>
              simp only [Party.next, Option.map_eq_some_iff, Prod.exists] at h
              obtain ⟨db₁, c', hc, heq⟩ := h
              cases heq
              trivial
          | _ => cases h
      | load k =>
          cases o with
          | next =>
              simp only [Party.next] at h
              split at h
              · next t hk =>
                  cases h
                  exact SaveKind.sound_assign hk
              · cases h
                trivial
              · cases h
                trivial
          | _ => cases h
      | save k m | markQueued =>
          cases o with
          | next => cases h; trivial
          | _ => cases h
      | review | returned | raised => cases h
  | review now d =>
      cases p with
      | review => cases h; trivial
      | _ => cases h

/-! ## Committed status changes -/

/-- The party is stale-task recovery. -/
def Party.isRecovery : Party → Bool
  | .load .recoverStaleTasks | .save .recoverStaleTasks _ => true
  | _ => false

/-- A change of the committed status that the state machine allows to the party: an edge, no
change, or the recovery of an active task. -/
def LegalChange (p : Party) (s t : TaskStatus) : Prop :=
  TaskStatus.Move s t ∨
    p.isRecovery = true ∧ s ∈ TaskStatus.active ∧ (t = .failed ∨ t = .pending)

instance (p : Party) (s t : TaskStatus) : Decidable (LegalChange p s t) :=
  inferInstanceAs (Decidable (_ ∨ _))

/-- A cancelled task is only left to `pending`. -/
theorem LegalChange.cancelled {p : Party} {t : TaskStatus} (h : LegalChange p .cancelled t) :
    t = .cancelled ∨ t = .pending := by
  rcases h with (rfl | h) | ⟨-, h, -⟩
  · exact .inl rfl
  · exact .inr (by simpa [TaskStatus.transitions] using h)
  · exact absurd h (by decide)

/-- A completed task is never left. -/
theorem LegalChange.completed {p : Party} {t : TaskStatus} (h : LegalChange p .completed t) :
    t = .completed := by
  rcases h with (rfl | h) | ⟨-, h, -⟩
  · rfl
  · exact absurd h (by simp [TaskStatus.transitions])
  · exact absurd h (by decide)

/-- No save overtakes another: a session that commits a new status commits it over the status it
loaded. -/
def NoStaleSave (_ : List (Parties.State ℕ Db Party × (ℕ × Act)))
    (s : Parties.State ℕ Db Party) (l : ℕ × Act) (_ : Parties.State ℕ Db Party) : Prop :=
  ∀ m, (s.loc l.1).commits s.shared l.2 = some m → ¬ m.Kept →
    s.shared.task.status = m.task.loaded.status

/-- What a legal party commits: a legal session, a retry, or a recovery. -/
theorem Party.Sound.commits {db : Db} {a : Act} {p : Party} {m : Session} (hp : p.Sound)
    (h : p.commits db a = some m) :
    m.Legal ∨ p = .save .retry m ∧ SaveKind.retry.Sound m ∨
      p = .save .recoverStaleTasks m ∧ SaveKind.recoverStaleTasks.Sound m := by
  unfold Party.commits at h
  split at h
  · next w now =>
      refine .inl ?_
      cases w with
      | notConfigured | commit | finishCommit | handlerCommit => cases h; exact hp
      | invocation | calling => cases h; exact Session.Kept.legal hp
      | _ => cases h
  · next f now =>
      refine .inl ?_
      cases f with
      | begin r => cases h; exact Session.Kept.legal hp
      | commit r =>
          simp only [FailedUrl.pendingCommit] at h
          split at h
          · cases h
          · cases h
            exact hp
      | _ => cases h
  · next k m' now =>
      cases h
      cases k with
      | retry => exact .inr (.inl ⟨rfl, hp⟩)
      | markQueueFailure errorType => exact .inl hp
      | recoverStaleTasks => exact .inr (.inr ⟨rfl, hp⟩)
  · cases h

/-- In every reachable state, every session is legal with respect to the row it loaded. -/
theorem sound_of_run {cfg : Config}
    {ok : List (Parties.State ℕ Db Party × (ℕ × Act)) → Parties.State ℕ Db Party → ℕ × Act →
      Parties.State ℕ Db Party → Prop}
    {tr : List (Parties.State ℕ Db Party × (ℕ × Act))} {s : Parties.State ℕ Db Party}
    (h : (crawlSystem cfg).Run ok tr s) : ∀ i, (s.loc i).Sound := by
  refine Parties.Outline.holds (fun _ _ p => p.Sound) ⟨?_, ?_, ?_⟩ h
  · intro s hs i
    have hi := hs i
    cases hp : s.loc i with
    | worker w =>
        rw [hp] at hi
        cases w <;> trivial
    | failedUrl f =>
        rw [hp] at hi
        cases f <;> trivial
    | save k m =>
        rw [hp] at hi
        cases hi
    | _ => trivial
  · intro _ s i a s' _ hs hnext
    exact (hs i).next hnext
  · intro _ s i a s' j _ _ hs _
    exact hs j

/-- Committing a legal session over the status it loaded is a legal change. -/
theorem legalChange_commit {db : Db} {a : Act} {p : Party} {m : Session} (hp : p.Sound)
    (h : p.commits db a = some m) (hstale : ¬ m.Kept → db.task.status = m.task.loaded.status) :
    LegalChange p db.task.status (m.commit db).task.status := by
  rw [Session.commit_status]
  rcases column_cases m.task.loaded.status m.task.current.status db.task.status with
    ⟨hcol, -⟩ | ⟨hcol, hne⟩
  · rw [hcol]
    exact .inl .rfl
  · rw [hcol, hstale hne]
    rcases hp.commits h with (hkept | ⟨hedge, -⟩) | ⟨-, hcur, hedge⟩ | ⟨rfl, hact, hcur⟩
    · exact absurd hkept hne
    · exact .inl (.inr hedge)
    · rw [hcur]
      exact .inl (.inr hedge)
    · exact .inr ⟨rfl, hact, hcur⟩

/-- In every run without stale saves, every step changes the committed status along an edge, or
recovers an active task; so a cancelled task is only left to `pending` and a completed one never. -/
theorem status_change_legal {cfg : Config} {tr : List (Parties.State ℕ Db Party × (ℕ × Act))}
    {s₁ s₂ : Parties.State ℕ Db Party} {l : ℕ × Act}
    (h : (crawlSystem cfg).Run NoStaleSave ((s₁, l) :: tr) s₂) :
    LegalChange (s₁.loc l.1) s₁.shared.task.status s₂.shared.task.status ∧
      (s₁.shared.task.status = .cancelled →
        s₂.shared.task.status = .cancelled ∨ s₂.shared.task.status = .pending) ∧
      (s₁.shared.task.status = .completed → s₂.shared.task.status = .completed) := by
  obtain ⟨hearly, hok, hstep⟩ := h.last
  have hsound := sound_of_run hearly l.1
  have hlegal : LegalChange (s₁.loc l.1) s₁.shared.task.status s₂.shared.task.status := by
    rcases Party.next_cases (Parties.next_of_step hstep) with ⟨m, hm, hdb⟩ | ⟨-, hno⟩
    · rw [hdb]
      exact legalChange_commit hsound hm (hok m hm)
    · rcases hno.status with hs | hs
      · rw [hs]
        exact .inl .rfl
      · exact .inl hs.move
  refine ⟨hlegal, fun hs => ?_, fun hs => ?_⟩
  · rw [hs] at hlegal
    exact hlegal.cancelled
  · rw [hs] at hlegal
    exact hlegal.completed

/-- A retry of a failed task, run alone: its save is not stale, and moves the task to `pending`. -/
theorem status_change_legal_retry :
    ∃ s₁ s₂ : Parties.State ℕ Db Party, s₁.shared.task.status = .failed ∧
      s₂.shared.task.status = .pending ∧ LegalChange (s₁.loc 0) .failed .pending := by
  let s₀ : Parties.State ℕ Db Party :=
    ⟨{ task := { status := .failed } }, fun _ => .load .retry⟩
  obtain ⟨s₁, h₁⟩ : ∃ s₁, (calls {}).move s₀ 0 (.step 0 .next) = some s₁ := ⟨_, rfl⟩
  obtain ⟨s₂, h₂⟩ : ∃ s₂, (calls {}).move s₁ 0 (.step 0 .next) = some s₂ := by
    cases h₁
    exact ⟨_, rfl⟩
  have hrun : (crawlSystem {}).Run NoStaleSave [(s₁, (0, .step 0 .next)), (s₀, (0, .step 0 .next))]
      s₂ := by
    refine ⟨s₀, fun _ => trivial, .cons (.cons .nil ?_ h₁) ?_ h₂⟩
    · intro m hm
      cases hm
    · cases h₁
      intro m hm _
      cases hm
      rfl
  have hlegal := (status_change_legal hrun).1
  have hfailed : s₁.shared.task.status = .failed := by
    cases h₁
    rfl
  have hpending : s₂.shared.task.status = .pending := by
    cases h₁
    cases h₂
    rfl
  refine ⟨s₁, s₂, hfailed, hpending, ?_⟩
  rwa [hfailed, hpending] at hlegal

/-- A local worker whose crawl raises comes to the handler of `execute`, which reads the task as running;
the task is cancelled, and the handler then saves `failed` over `cancelled`. -/
theorem cancelled_overwritten_by_failed :
    ∃ tr s₁ l s₂, (crawlSystem {}).Run System.always ((s₁, l) :: tr) s₂ ∧
      ¬ LegalChange (s₁.loc l.1) s₁.shared.task.status s₂.shared.task.status := by
  let s₀ : Parties.State ℕ Db Party :=
    ⟨{ task := { crawlProvider := .localProvider } },
      fun i => if i = 0 then .worker .start else .cancel .load⟩
  let next : Act := .step 0 .next
  let sched : List (ℕ × Act) :=
    [(0, next), (0, next), (0, next), (0, next), (0, .step 0 (.raises (.other "TimeoutError"))),
      (0, next), (0, next), (1, next), (1, next)]
  have hlegal : (((calls {}).exec s₀ sched).bind fun s₁ => ((calls {}).move s₁ 0 next).map
      fun s₂ => decide (LegalChange (s₁.loc 0) s₁.shared.task.status s₂.shared.task.status)) =
      some false := by
    decide
  obtain ⟨s₁, h₁, hlegal⟩ := Option.bind_eq_some_iff.mp hlegal
  obtain ⟨s₂, h₂, hlegal⟩ := Option.map_eq_some_iff.mp hlegal
  have hinit : Fresh s₀ := by
    intro i
    simp only [s₀]
    split <;> trivial
  exact ⟨_, s₁, (0, next), s₂, Parties.exec_run hinit h₁ h₂, of_decide_eq_false hlegal⟩

end Odirag.Crawl
