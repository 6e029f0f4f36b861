import Odirag.Crawl.SaveSection

/-!
# A cancelled worker publishes nothing

Reference: `backend/app/services/crawl.py`: `cancel`, the save gates of the three paths, and
`_finish_cancelled_provider_result`.

`cancel` and the worker compete for the same conditional UPDATE, and `saving_documents` is not a
status that `cancel` accepts. What this needs is that nobody else moves the row to a status that
can be cancelled while a worker is still saving (`NoReopening`): stale-task recovery does so.
-/

namespace Odirag.Crawl

open CrawlRepository

/-- No other session commits a status that can be cancelled while a worker is in its save
section. -/
def NoReopening (_ : List (Parties.State ℕ Db Party × (ℕ × Act)))
    (s : Parties.State ℕ Db Party) (l : ℕ × Act) (_ : Parties.State ℕ Db Party) : Prop :=
  ∀ m, (s.loc l.1).commits s.shared l.2 = some m → ¬ m.Kept →
    m.task.current.status.Cancellable → ∀ j, j ≠ l.1 → ¬ (s.loc j).InSave

/-- While a worker is in its save section, the task cannot be cancelled. -/
def SavingUncancellable (s : Parties.State ℕ Db Party) : Prop :=
  ∀ j, (s.loc j).InSave → ¬ s.shared.task.status.Cancellable

/-- A commit leaves the committed status, or writes the one the session has assigned. -/
theorem commit_status_cases (m : Session) (db : Db) :
    (m.commit db).task.status = db.task.status ∨
      (m.commit db).task.status = m.task.current.status ∧ ¬ m.Kept := by
  rw [Session.commit_status]
  rcases column_cases m.task.loaded.status m.task.current.status db.task.status with
    ⟨hcol, -⟩ | ⟨hcol, hne⟩
  · exact .inl hcol
  · exact .inr ⟨hcol, hne⟩

/-- A step that does not reopen the task keeps every worker in its save section uncancellable. -/
theorem SavingUncancellable.step {cfg : Config}
    {tr : List (Parties.State ℕ Db Party × (ℕ × Act))} {s s' : Parties.State ℕ Db Party}
    {l : ℕ × Act} (hs : SavingUncancellable s) (htidy : ∀ i, (s.loc i).Tidy)
    (hok : NoReopening tr s l s') (hstep : (crawlSystem cfg).step s l s') :
    SavingUncancellable s' := by
  have hnext := Parties.next_of_step hstep
  intro j hj
  by_cases hjl : j = l.1
  · subst hjl
    obtain ⟨w, hw, hent⟩ := ((htidy l.1).next hnext).2 hj
    rcases hent with ⟨hin, hdb⟩ | ⟨g, m, -, -, hsaving⟩
    · rw [hdb]
      refine hs l.1 ?_
      rw [hw]
      exact hin
    · rw [hsaving]
      decide
  · rw [Parties.loc_of_ne hstep hjl] at hj
    rcases Party.next_cases hnext with ⟨m, hm, hdb⟩ | ⟨-, hno⟩
    · rw [hdb]
      rcases commit_status_cases m s.shared with hsame | ⟨hwritten, hnew⟩
      · rw [hsame]
        exact hs j hj
      · rw [hwritten]
        exact fun hcan => hok m hm hnew hcan j hjl hj
    · rcases hno.status with hsame | hupd
      · rw [hsame]
        exact hs j hj
      · exact absurd hupd.cancellable (hs j hj)

/-- In every run in which nobody reopens the task, a worker in its save section cannot be
cancelled. -/
theorem savingUncancellable_of_run {cfg : Config}
    {tr : List (Parties.State ℕ Db Party × (ℕ × Act))} {s : Parties.State ℕ Db Party}
    (h : (crawlSystem cfg).Run NoReopening tr s) : SavingUncancellable s := by
  refine h.invariant (I := fun _ s => SavingUncancellable s) (fun s hs j hj => ?_) ?_
  · exact absurd hj (hs j).not_inSave
  · intro tr s l s' hrun hs hok hstep
    exact hs.step (tidy_of_run hrun) hok hstep

/-! ## After a cancellation -/

/-- The step is a `cancel` whose conditional UPDATE finds the status it expects. -/
def CancelSucceeds (s : Parties.State ℕ Db Party) (l : ℕ × Act) : Prop :=
  ∃ left task allowed, s.loc l.1 = .cancel (.update left task allowed) ∧
    s.shared.task.status = task.status

/-- The row that a `cancel` about to run its UPDATE expects. -/
def Party.cancelling : Party → Option CrawlTask
  | .cancel (.update _ task _) => some task
  | _ => none

theorem cancelSucceeds_iff {s : Parties.State ℕ Db Party} {l : ℕ × Act} :
    CancelSucceeds s l ↔
      (s.loc l.1).cancelling.map (·.status) = some s.shared.task.status := by
  constructor
  · rintro ⟨left, task, allowed, hloc, hstatus⟩
    simp [hloc, Party.cancelling, hstatus]
  · intro h
    obtain ⟨task, hc, hstatus⟩ := Option.map_eq_some_iff.mp h
    unfold Party.cancelling at hc
    split at hc
    · next left task' allowed hloc =>
        cases hc
        exact ⟨left, task, allowed, hloc, hstatus.symm⟩
    · cases hc

/-- The party is a retry or a recovery about to save: what puts the task back in the queue. -/
def Party.requeues : Party → Bool
  | .save .retry _ | .save .recoverStaleTasks _ => true
  | _ => false

/-- The statuses of a task that no worker may claim or continue. -/
def settled : List TaskStatus := [.cancelled, .failed, .partialFailed, .waitingReview, .completed]

/-- The task is settled, and no worker is in its save section. -/
def Settled (s : Parties.State ℕ Db Party) : Prop :=
  s.shared.task.status ∈ settled ∧ ∀ j, ¬ (s.loc j).InSave

/-- What is assigned in memory, a requeue apart, is a settled status. -/
theorem assigned_settled {s : TaskStatus} (h : s ∈ Session.assigned) : s ∈ settled :=
  List.mem_cons_of_mem _ h

/-- A conditional UPDATE of a settled task leaves it settled. -/
theorem StatusUpdate.settled {s t : TaskStatus} (h : StatusUpdate s t)
    (hs : s ∈ Crawl.settled) : t ∈ Crawl.settled := by
  cases h with
  | claim h => rcases h with rfl | rfl <;> exact absurd hs (by decide)
  | advance g => cases g <;> exact absurd hs (by decide)
  | cancel h => decide
  | queue => exact absurd hs (by decide)
  | complete => decide

/-- No stage UPDATE expects a settled task. -/
theorem Gate.expected_not_settled (g : Gate) : g.expected ∉ settled := by
  cases g <;> decide

/-- A step that does not requeue a settled task leaves it settled. -/
theorem Settled.step {cfg : Config} {s s' : Parties.State ℕ Db Party} {l : ℕ × Act}
    (hs : Settled s) (hsound : ∀ i, (s.loc i).Sound) (htidy : ∀ i, (s.loc i).Tidy)
    (hno : (s.loc l.1).requeues = false) (hstep : (crawlSystem cfg).step s l s') :
    Settled s' := by
  have hnext := Parties.next_of_step hstep
  refine ⟨?_, fun j hj => ?_⟩
  · rcases Party.next_cases hnext with ⟨m, hm, hdb⟩ | ⟨-, hnc⟩
    · rw [hdb]
      rcases commit_status_cases m s.shared with hsame | ⟨hwritten, hnew⟩
      · rw [hsame]
        exact hs.1
      · rw [hwritten]
        rcases (hsound l.1).commits hm with (hkept | ⟨-, hassigned⟩) | ⟨hp, -⟩ | ⟨hp, -⟩
        · exact absurd hkept hnew
        · exact assigned_settled hassigned
        · simp [hp, Party.requeues] at hno
        · simp [hp, Party.requeues] at hno
    · rcases hnc.status with hsame | hupd
      · rw [hsame]
        exact hs.1
      · exact hupd.settled hs.1
  · by_cases hjl : j = l.1
    · subst hjl
      obtain ⟨w, hw, hent⟩ := ((htidy l.1).next hnext).2 hj
      rcases hent with ⟨hin, -⟩ | ⟨g, m, -, hexp, -⟩
      · refine hs.2 l.1 ?_
        rw [hw]
        exact hin
      · exact g.expected_not_settled (hexp ▸ hs.1)
    · rw [Parties.loc_of_ne hstep hjl] at hj
      exact hs.2 j hj

/-- A successful `cancel` finds no worker saving and settles the task. -/
theorem settled_of_cancel {cfg : Config} {s s' : Parties.State ℕ Db Party} {l : ℕ × Act}
    (hs : SavingUncancellable s) (hcancel : CancelSucceeds s l)
    (hstep : (crawlSystem cfg).step s l s') : (∀ j, ¬ (s.loc j).InSave) ∧ Settled s' := by
  obtain ⟨left, task, allowed, hloc, hstatus⟩ := hcancel
  have hout : ∀ j, ¬ (s.loc j).InSave := by
    intro j hj
    refine hs j hj ?_
    rw [hstatus]
    exact allowed
  have hnext := Parties.next_of_step hstep
  obtain ⟨i, a⟩ := l
  rw [hloc] at hnext
  cases a with
  | review now d => cases hnext
  | step now o =>
      cases o with
      | next =>
          simp only [calls, Party.next, Cancel.step, cancelTaskIfStatus, hstatus, if_true,
            Option.map_some, Option.some.injEq, Prod.mk.injEq] at hnext
          obtain ⟨hdb, hp⟩ := hnext
          refine ⟨hout, ?_, fun j hj => ?_⟩
          · rw [← hdb]
            exact List.mem_cons_self
          · by_cases hji : j = i
            · subst hji
              rw [← hp] at hj
              exact hj
            · rw [Parties.loc_of_ne hstep hji] at hj
              exact hout j hj
      | _ => cases hnext

/-- A worker outside of its save section publishes no rows, and its step leaves the documents and
the failure rows as they are. -/
theorem publishes_nothing {cfg : Config} {s : Parties.State ℕ Db Party} {l : ℕ × Act} {w : Worker}
    (hw : s.loc l.1 = .worker w) (htidy : (s.loc l.1).Tidy) (hout : ¬ (s.loc l.1).InSave) :
    (∀ m, (s.loc l.1).commits s.shared l.2 = some m → ¬ m.HasRows) ∧
      ∀ s', (crawlSystem cfg).step s l s' →
        s'.shared.documents = s.shared.documents ∧ s'.shared.failures = s.shared.failures := by
  have hrows : ∀ m, (s.loc l.1).commits s.shared l.2 = some m → ¬ m.HasRows := by
    intro m hm hrows
    rw [hw] at hm htidy hout
    exact hout (Worker.Tidy.inSave htidy (Party.commits_worker hm) hrows)
  refine ⟨hrows, fun s' hstep => ?_⟩
  rcases Party.next_cases (Parties.next_of_step hstep) with ⟨m, hm, hdb⟩ | ⟨-, hnc⟩
  · rw [hdb, Session.commit_of_not_hasRows (hrows m hm)]
    exact ⟨rfl, rfl⟩
  · refine ⟨hnc.documents.resolve_right ?_, hnc.failures⟩
    rw [hw]
    exact Party.noConfusion

/-- In every run in which nobody reopens a task that is being saved: when a `cancel` succeeds, no
worker is in its save section, and until a retry or a recovery no worker publishes a document or
a failure row. -/
theorem cancel_effective {cfg : Config} {later early : List (Parties.State ℕ Db Party × (ℕ × Act))}
    {s₁ s : Parties.State ℕ Db Party} {l₁ : ℕ × Act}
    (h : (crawlSystem cfg).Run NoReopening (later ++ (s₁, l₁) :: early) s)
    (hcancel : CancelSucceeds s₁ l₁)
    (hno : ∀ s₂ l₂, (s₂, l₂) ∈ later → (s₂.loc l₂.1).requeues = false) :
    (∀ j, ¬ (s₁.loc j).InSave) ∧
      ∀ s₂ l₂ w, (s₂, l₂) ∈ later → s₂.loc l₂.1 = .worker w →
        (∀ m, (s₂.loc l₂.1).commits s₂.shared l₂.2 = some m → ¬ m.HasRows) ∧
        ∀ s₃, (crawlSystem cfg).step s₂ l₂ s₃ →
          s₃.shared.documents = s₂.shared.documents ∧
            s₃.shared.failures = s₂.shared.failures := by
  obtain ⟨_, hcut⟩ := h.upTo
  have hsaving := savingUncancellable_of_run hcut.last.1
  have hafter := (h.after (I := Settled)
    (fun s₂ _ hstep => (settled_of_cancel hsaving hcancel hstep).2)
    fun tr s l s' hmem hrun hs hstep =>
      hs.step (sound_of_run hrun) (tidy_of_run hrun) (hno s l hmem) hstep).2
  refine ⟨fun j hj => ?_, fun s₂ l₂ w hmem hw => ?_⟩
  · obtain ⟨left, task, allowed, -, hstatus⟩ := hcancel
    exact hsaving j hj (hstatus ▸ allowed)
  · obtain ⟨⟨tr, hrun⟩, hsettled⟩ := hafter s₂ l₂ hmem
    exact publishes_nothing hw (tidy_of_run hrun l₂.1) (hsettled.2 l₂.1)

/-- A batch with one accepted article. -/
def oneArticle : BatchCrawlResponse where
  success := true
  taskId := "1"
  statistics := { articlesDiscovered := 1, articlesFetched := 1, articlesAccepted := 1 }
  articles := [⟨"https://example.org/a", "html", .accepted, "ok"⟩]
  failedUrls := []
  warnings := []

def Party.isWorker : Party → Bool
  | .worker _ => true
  | _ => false

theorem Party.isWorker_spec {p : Party} (h : p.isWorker = true) : ∃ w, p = .worker w := by
  unfold isWorker at h
  split at h
  · next w => exact ⟨w, rfl⟩
  · cases h

/-- A step that commits no status of its own reopens nothing. -/
theorem NoReopening.of_kept {tr : List (Parties.State ℕ Db Party × (ℕ × Act))}
    {s s' : Parties.State ℕ Db Party} {l : ℕ × Act}
    (h : ((s.loc l.1).commits s.shared l.2).all (decide ·.Kept) = true) :
    NoReopening tr s l s' := by
  intro m hm hnot
  rw [hm, Option.all_some, decide_eq_true_eq] at h
  exact absurd h hnot

/-- A task is cancelled while its local crawl is under way: the crawl brings an article, the worker
loses the UPDATE before the save, and what it then commits publishes nothing. -/
theorem cancel_effective_crawling :
    ∃ (s₁ s₄ : Parties.State ℕ Db Party) (m : Session),
      CancelSucceeds s₁ (0, .step 0 .next) ∧ s₁.shared.task.status = .running ∧
      (s₄.loc 1).commits s₄.shared (.step 0 .next) = some m ∧
      (∀ j, ¬ (s₁.loc j).InSave) ∧ ¬ m.HasRows := by
  let s₀ : Parties.State ℕ Db Party :=
    ⟨{ task := { crawlProvider := .localProvider } },
      fun i => if i = 0 then .cancel .load else .worker .start⟩
  let next : Act := .step 0 .next
  let crawled : Act := .step 0 (.crawled (.batch oneArticle))
  -- The worker claims the task and starts the crawl; the call reads the running task.
  let sched : List (ℕ × Act) := [(1, next), (1, next), (1, next), (1, next), (0, next)]
  let keeps (e : Parties.State ℕ Db Party × (ℕ × Act)) : Bool :=
    ((e.1.loc e.2.1).commits e.1.shared e.2.2).all (decide ·.Kept)
  have hinit : Fresh s₀ := by
    intro i
    simp only [s₀]
    split <;> trivial
  have hchecks : (((calls {}).exec s₀ sched).bind fun s₁ => ((calls {}).move s₁ 0 next).bind
      fun s₂ => ((calls {}).move s₂ 1 crawled).bind fun s₃ => ((calls {}).move s₃ 1 next).bind
      fun s₄ => ((calls {}).move s₄ 1 next).map fun _ =>
        ([decide ((s₁.loc 0).cancelling.map (·.status) = some s₁.shared.task.status),
            decide (s₁.shared.task.status = .running), (s₂.loc 1).isWorker, (s₃.loc 1).isWorker,
            (s₄.loc 1).isWorker, ((s₄.loc 1).commits s₄.shared next).isSome],
          ((s₄, (1, next)) :: (s₃, (1, next)) :: (s₂, (1, crawled)) :: (s₁, (0, next)) ::
            (calls {}).traceOf s₀ sched).map keeps)) =
            some (List.replicate 6 true, List.replicate 9 true) := by
    decide
  obtain ⟨s₁, h₁, hchecks⟩ := Option.bind_eq_some_iff.mp hchecks
  obtain ⟨s₂, h₂, hchecks⟩ := Option.bind_eq_some_iff.mp hchecks
  obtain ⟨s₃, h₃, hchecks⟩ := Option.bind_eq_some_iff.mp hchecks
  obtain ⟨s₄, h₄, hchecks⟩ := Option.bind_eq_some_iff.mp hchecks
  obtain ⟨s₅, h₅, hchecks⟩ := Option.map_eq_some_iff.mp hchecks
  obtain ⟨hfacts, hkept⟩ := Prod.mk.inj hchecks
  simp only [List.replicate, List.cons.injEq, decide_eq_true_eq, and_true] at hfacts
  obtain ⟨hcancel, hrunning, hw₂, hw₃, hw₄, hcommits⟩ := hfacts
  have hkeeps : ∀ e ∈ (s₄, (1, next)) :: (s₃, (1, next)) :: (s₂, (1, crawled)) ::
      (s₁, (0, next)) :: (calls {}).traceOf s₀ sched, keeps e = true := by
    intro e he
    exact List.eq_of_mem_replicate (hkept ▸ List.mem_map_of_mem he)
  simp only [List.forall_mem_cons] at hkeeps
  obtain ⟨hkeeps₄, hkeeps₃, hkeeps₂, hkeeps₁, hkeeps₀⟩ := hkeeps
  have hlater : ∀ s l, (s, l) ∈ [(s₄, (1, next)), (s₃, (1, next)), (s₂, (1, crawled))] →
      (s.loc l.1).requeues = false := by
    intro s l hmem
    have hworker : (s.loc l.1).isWorker = true := by
      simp only [List.mem_cons, Prod.mk.injEq, List.not_mem_nil, or_false] at hmem
      rcases hmem with ⟨rfl, rfl⟩ | ⟨rfl, rfl⟩ | ⟨rfl, rfl⟩ <;> assumption
    obtain ⟨w, hw⟩ := Party.isWorker_spec hworker
    rw [hw]
    rfl
  obtain ⟨m, hm⟩ := Option.isSome_iff_exists.mp hcommits
  obtain ⟨w, hw⟩ := Party.isWorker_spec hw₄
  have hearly : (crawlSystem {}).Path NoReopening s₀ ((calls {}).traceOf s₀ sched) s₁ :=
    (System.exec_path_of (C := fun s l => keeps (s, l) = true) h₁ hkeeps₀).mono
      fun _ _ _ _ => NoReopening.of_kept
  have hrun : (crawlSystem {}).Run NoReopening
      ([(s₄, (1, next)), (s₃, (1, next)), (s₂, (1, crawled))] ++
        (s₁, (0, next)) :: (calls {}).traceOf s₀ sched) s₅ := by
    exact ⟨s₀, hinit, .cons (.cons (.cons (.cons hearly (.of_kept hkeeps₁) h₂)
      (.of_kept hkeeps₂) h₃) (.of_kept hkeeps₃) h₄) (.of_kept hkeeps₄) h₅⟩
  have heff := cancel_effective hrun (cancelSucceeds_iff.mpr hcancel) hlater
  exact ⟨s₁, s₄, m, cancelSucceeds_iff.mpr hcancel, hrunning, hm, heff.1,
    (heff.2 s₄ _ w List.mem_cons_self hw).1 m hm⟩

/-- A local worker that saves for longer than the stale limit: recovery puts its task back to
`pending`, a `cancel` succeeds, and the worker then publishes its document. -/
theorem document_published_after_cancel :
    ∃ later early s₁ l₁ s, (crawlSystem {}).Run System.always (later ++ (s₁, l₁) :: early) s ∧
      CancelSucceeds s₁ l₁ ∧
      (∀ s₂ l₂, (s₂, l₂) ∈ later → (s₂.loc l₂.1).requeues = false) ∧
      ∃ s₂ l₂ w m, (s₂, l₂) ∈ later ∧ s₂.loc l₂.1 = .worker w ∧
        (s₂.loc l₂.1).commits s₂.shared l₂.2 = some m ∧ m.HasRows := by
  let s₀ : Parties.State ℕ Db Party :=
    ⟨{ task := { crawlProvider := .localProvider } },
      fun i => if i = 0 then .worker .start else if i = 1 then .load .recoverStaleTasks
        else .cancel .load⟩
  let next : Act := .step 0 .next
  -- The worker saves, recovery takes the task for stale and puts it back, the call cancels it.
  let sched : List (ℕ × Act) :=
    [(0, next), (0, next), (0, next), (0, next), (0, .step 0 (.crawled (.batch oneArticle))),
      (0, next), (0, .step 0 (.saves [])), (1, .step 1801 .next), (1, next), (2, next)]
  have hinit : Fresh s₀ := by
    intro i
    simp only [s₀]
    split
    · trivial
    · split <;> trivial
  -- One evaluation of the run gives all that is asked about its last two steps.
  have hchecks : (((calls {}).exec s₀ sched).bind fun s₁ => ((calls {}).move s₁ 2 next).bind
      fun s₂ => ((calls {}).move s₂ 0 next).map fun _ =>
        (decide ((s₁.loc 2).cancelling.map (·.status) = some s₁.shared.task.status),
          ((s₂.loc 0).commits s₂.shared next).any (decide ·.HasRows), (s₂.loc 0).isWorker)) =
            some (true, true, true) := by
    decide
  obtain ⟨s₁, h₁, hchecks⟩ := Option.bind_eq_some_iff.mp hchecks
  obtain ⟨s₂, h₂, hchecks⟩ := Option.bind_eq_some_iff.mp hchecks
  obtain ⟨s₃, h₃, hchecks⟩ := Option.map_eq_some_iff.mp hchecks
  simp only [Prod.mk.injEq, decide_eq_true_eq, Option.any_eq_true] at hchecks
  obtain ⟨hcancel, ⟨m, hm, hrows⟩, hworker⟩ := hchecks
  obtain ⟨w, hw⟩ := Party.isWorker_spec hworker
  have hrun : (crawlSystem {}).Run System.always
      ([(s₂, (0, next))] ++ (s₁, (2, next)) :: (calls {}).traceOf s₀ sched) s₃ :=
    ⟨s₀, hinit, .cons (.cons (System.exec_path h₁) trivial h₂) trivial h₃⟩
  refine ⟨_, _, s₁, (2, next), s₃, hrun, cancelSucceeds_iff.mpr hcancel, ?_, s₂, (0, next), w, m,
    List.mem_cons_self, hw, hm, hrows⟩
  intro s l hmem
  cases List.mem_singleton.mp hmem
  simp [hw, Party.requeues]

end Odirag.Crawl
