import Odirag.Crawl.SaveSection

/-!
# Attempts at a task

Reference: `backend/app/repositories/crawl.py`: `claim_task`, `advance_task_if_status`;
`backend/app/services/crawl.py`: `execute`, `retry`.

Nothing in the row says which attempt it belongs to: a stage UPDATE compares the status, and a
later attempt goes through the same statuses. A worker whose claim is over (`Superseded`) is
therefore kept out only as long as it never finds the status its next statement acts on
(`Worker.Resumes`), and a later claim does not come while it is saving (`Worker.HasWork`).
-/

namespace Odirag.Crawl

open CrawlRepository

/-! ## Claims -/

/-- The step is a `claim_task` that finds a claimable row. -/
def claimWins (s : Parties.State ℕ Db Party) (l : ℕ × Act) : Bool :=
  match s.loc l.1, l.2 with
  | .worker .start, .step _ .next =>
      s.shared.task.status = .pending ∨ s.shared.task.status = .queued
  | _, _ => false

/-- The workers that have claimed the task, the latest first. -/
def claimants (tr : List (Parties.State ℕ Db Party × (ℕ × Act))) : List ℕ :=
  (tr.filter fun e => claimWins e.1 e.2).map (·.2.1)

/-- The worker has claimed the task, and another one has claimed it since. -/
def Superseded (tr : List (Parties.State ℕ Db Party × (ℕ × Act))) (i : ℕ) : Prop :=
  i ∈ claimants tr ∧ (claimants tr).head? ≠ some i

@[simp] theorem claimants_nil : claimants [] = [] := rfl

theorem claimants_cons_of_claim {tr : List (Parties.State ℕ Db Party × (ℕ × Act))}
    {s : Parties.State ℕ Db Party} {l : ℕ × Act} (h : claimWins s l = true) :
    claimants ((s, l) :: tr) = l.1 :: claimants tr := by
  simp [claimants, h]

theorem claimants_cons_of_not_claim {tr : List (Parties.State ℕ Db Party × (ℕ × Act))}
    {s : Parties.State ℕ Db Party} {l : ℕ × Act} (h : claimWins s l = false) :
    claimants ((s, l) :: tr) = claimants tr := by
  simp [claimants, h]

theorem claimants_append (tr tr' : List (Parties.State ℕ Db Party × (ℕ × Act))) :
    claimants (tr ++ tr') = claimants tr ++ claimants tr' := by
  simp [claimants]

/-- A claim is the step of a worker that has not started. -/
theorem start_of_claim {s : Parties.State ℕ Db Party} {l : ℕ × Act}
    (h : claimWins s l = true) : s.loc l.1 = .worker .start := by
  unfold claimWins at h
  split at h
  · next hloc _ => exact hloc
  · cases h

/-! ## What keeps a superseded worker out -/

/-- Coze is disabled for the task, or its contract has no endpoint. -/
def Config.refuses (cfg : Config) (t : CrawlTask) : Bool :=
  t.crawlProvider = .coze && (cfg.cozeEnabled || !cfg.testEnvironment) &&
    (!cfg.cozeEnabled || !cfg.endpoint (t.providerContract.getD cfg.defaultContract))

namespace Worker

/-- The worker's next statement finds the row in a state that lets it go on: the status its stage
UPDATE expects, one that its handler fails, or a task it has to refuse. -/
def Resumes (cfg : Config) (o : Outcome) (db : Db) : Worker → Prop
  | .claimed row => o = .next ∧ cfg.refuses db.task = true ∨ o = .keep ∧ cfg.refuses row = true
  | .gate g _ => (∃ c, crawlResult cfg g o = some (.ok c)) ∧ db.task.status = g.expected
  | .handling .coze _ _ =>
      o = .next ∧
        db.task.status ∉ [TaskStatus.failed, .cancelled, .completed, .partialFailed]
  | .handling .execute _ _ =>
      o = .next ∧ (db.task.status = .running ∨ db.task.status = .savingDocuments)
  | _ => False

/-- The worker is in its save section, or about to commit a new status. -/
def HasWork (w : Worker) : Prop := w.InSave ∨ ∃ m, w.pendingCommit = some m ∧ ¬ m.Kept

/-- The worker has claimed the task and not ended. -/
def Live : Worker → Prop
  | .start | .refused | .returned | .raised _ => False
  | _ => True

theorem InSave.live {w : Worker} (h : w.InSave) : w.Live := by
  cases w <;> trivial

/-- A worker outside of its save section with nothing to commit has no work. -/
theorem not_hasWork {w : Worker} (hout : ¬ w.InSave) (h : w.pendingCommit = none) :
    ¬ w.HasWork := by
  rintro (hin | ⟨m, hm, -⟩)
  · exact hout hin
  · rw [h] at hm
    cases hm

/-- A worker outside of its save section that has kept the status has no work. -/
theorem not_hasWork_of_kept {w : Worker} {m : Session} (hout : ¬ w.InSave)
    (h : w.pendingCommit = some m) (hm : m.Kept) : ¬ w.HasWork := by
  rintro (hin | ⟨m', hm', hnot⟩)
  · exact hout hin
  · rw [h] at hm'
    cases hm'
    exact hnot hm

/-- A task that is not refused is dispatched to a first stage UPDATE. -/
theorem dispatch_of_not_refuses (cfg : Config) (now : DateTime) (m : Session)
    (h : ¬ cfg.refuses m.task.current = true) : ∃ g, dispatch cfg now m = .gate g m := by
  unfold dispatch
  dsimp only
  split
  · exact ⟨_, rfl⟩
  · split
    · next hcoze =>
        split
        · next hdis =>
            obtain ⟨hcoze, hrun⟩ := hcoze
            simp_all [Config.refuses]
        · split
          · next hend =>
              obtain ⟨hcoze, hrun⟩ := hcoze
              simp_all [Config.refuses]
          · exact ⟨_, rfl⟩
    · exact ⟨_, rfl⟩

/-- What a handler leaves of a worker outside of its save section whose row it does not fail. -/
theorem not_hasWork_handle {cfg : Config} {hd : Handler} {exc : Exc} {now : DateTime} {db : Db}
    {m : Session} (hout : ¬ (Worker.handling hd exc m).InSave)
    (hres : ¬ (Worker.handling hd exc m).Resumes cfg .next db) :
    ¬ (handle hd exc now db m).HasWork := by
  have hin := fun h => hout ((handled_handle hd exc now db m).tidy.2 h)
  cases hd with
  | execute =>
      have hstatus : ¬ (db.task.status = .running ∨ db.task.status = .savingDocuments) :=
        fun h => hres ⟨rfl, h⟩
      refine not_hasWork hin ?_
      simp [handle, hstatus, pendingCommit]
  | localPath => exact not_hasWork hin rfl
  | coze =>
      have hstatus : db.task.status ∈
          [TaskStatus.failed, .cancelled, .completed, .partialFailed] :=
        Decidable.not_not.mp fun h => hres ⟨rfl, h⟩
      by_cases hc : db.task.status = .cancelled
      · refine not_hasWork hin ?_
        simp [handle, hc, pendingCommit]
      · have hhandle : ∃ t : CrawlTask, t.status = db.task.status ∧
            handle .coze exc now db m =
              .handlerCommit .coze exc ((m.refresh db).assign fun _ => t) := by
          simp only [handle, Session.refresh_task, Held.fresh_current, hc, if_false, hstatus,
            if_true]
          refine ⟨_, ?_, rfl⟩
          rfl
        obtain ⟨t, ht, heq⟩ := hhandle
        rw [heq] at hin ⊢
        exact not_hasWork_of_kept hin rfl ht

/-- What `_finish_cancelled_provider_result` leaves of a worker outside of its save section. -/
theorem Finished.not_hasWork {db : Db} {m : Session} {hd : Handler} {w : Worker}
    (h : Finished db m hd w) (hout : ¬ w.InSave) : ¬ w.HasWork := by
  cases h with
  | changed => exact Worker.not_hasWork hout rfl
  | cancelled ht => exact not_hasWork_of_kept hout rfl ht

theorem pendingCommit_raising (exc : Exc) (w : Worker) :
    (w.raising exc).pendingCommit = none := by
  rcases raising_cases exc w with h | ⟨hd, m, h⟩ <;> (rw [h]; rfl)

theorem pendingCommit_committed (w : Worker) : w.committed.pendingCommit = none := by
  cases w with
  | handlerCommit hd => cases hd <;> rfl
  | _ => rfl

/-- A worker without work that its row does not let go on comes to have none. -/
theorem not_hasWork_step {cfg : Config} {now : DateTime} {o : Outcome} {db db' : Db}
    {w w' : Worker} (hsound : w'.Sound) (htidy : w.Tidy) (hw : ¬ w.HasWork)
    (hres : ¬ w.Resumes cfg o db) (h : w.step cfg now o db = some (db', w')) : ¬ w'.HasWork := by
  have hout : ¬ w'.InSave := by
    intro hin
    rcases (htidy.step h).2 hin with ⟨hin, -⟩ | ⟨g, m, rfl, hexp, hsaving⟩
    · exact hw (.inl hin)
    · cases moves_of_step h with
      | win hc hwon => exact hres ⟨⟨_, hc⟩, hexp⟩
      | commit hm => cases hm
      | _ => exact g.expected_ne_saving (hexp ▸ hsaving)
  cases moves_of_step h with
  | raises exc => exact not_hasWork hout (pendingCommit_raising exc w)
  | commit => exact not_hasWork hout (pendingCommit_committed w)
  | load row =>
      obtain ⟨g, hg⟩ := dispatch_of_not_refuses cfg now (Session.load db)
        fun h => hres (.inl ⟨rfl, h⟩)
      rw [hg] at hout ⊢
      exact not_hasWork hout rfl
  | keep row =>
      obtain ⟨g, hg⟩ := dispatch_of_not_refuses cfg now { task := .fresh row }
        fun h => hres (.inr ⟨rfl, h⟩)
      rw [hg] at hout ⊢
      exact not_hasWork hout rfl
  | advance g c m =>
      cases g with
      | cozeCall | cozeRun => exact not_hasWork_of_kept hout rfl hsound
      | legacySave | localSave | cozeSave => exact absurd trivial hout
      | _ => exact not_hasWork hout rfl
  | finish => exact (finished_finishSelect _ _ db _).not_hasWork hout
  | handle => exact not_hasWork_handle (fun hin => hw (.inl hin)) hres
  | save | saveRaises => exact absurd (.inl trivial) hw
  | _ => exact not_hasWork hout rfl

end Worker

/-! ## Attempts do not overlap -/

/-- The step is a stage UPDATE that finds the status it expects. -/
def AdvanceWins (cfg : Config) (s : Parties.State ℕ Db Party) (l : ℕ × Act) : Prop :=
  ∃ g m now o c, s.loc l.1 = .worker (.gate g m) ∧ l.2 = .step now o ∧
    Worker.crawlResult cfg g o = some (.ok c) ∧ s.shared.task.status = g.expected

/-- A superseded worker never finds the row in a state that lets it go on, and the task is not
claimed while a worker that claimed it earlier still has work.

For a worker at a stage UPDATE the first part says that the UPDATE does not succeed. What is
derived from the condition is all that comes later: the worker stays without work, hence commits
no rows and no status, and one worker at most saves. -/
def AttemptsSeparate (cfg : Config) (tr : List (Parties.State ℕ Db Party × (ℕ × Act)))
    (s : Parties.State ℕ Db Party) (l : ℕ × Act) (_ : Parties.State ℕ Db Party) : Prop :=
  (Superseded tr l.1 → ∀ w now o, s.loc l.1 = .worker w → l.2 = .step now o →
    ¬ w.Resumes cfg o s.shared) ∧
  (claimWins s l = true → ∀ j ∈ claimants tr, ∀ w, s.loc j = .worker w → ¬ w.HasWork)

/-- What every run with separate attempts keeps. -/
structure Isolated (tr : List (Parties.State ℕ Db Party × (ℕ × Act)))
    (s : Parties.State ℕ Db Party) : Prop where
  nodup : (claimants tr).Nodup
  started : ∀ i ∈ claimants tr, s.loc i ≠ .worker .start
  live : ∀ i w, s.loc i = .worker w → w.Live → i ∈ claimants tr
  idle : ∀ i w, Superseded tr i → s.loc i = .worker w → ¬ w.HasWork
  saving : ∀ i, (s.loc i).InSave → (claimants tr).head? = some i

/-- A worker that is alive after its step was alive before, or has just claimed the task. -/
theorem Worker.live_step {cfg : Config} {now : DateTime} {o : Outcome} {db db' : Db}
    {w w' : Worker} (hlive : w'.Live) (h : w.step cfg now o db = some (db', w')) :
    w.Live ∨ w = .start ∧ o = .next ∧ (db.task.status = .pending ∨ db.task.status = .queued) := by
  cases moves_of_step h with
  | raises exc => cases w <;> first | exact .inl trivial | exact hlive.elim
  | commit hm => cases w <;> first | exact .inl trivial | cases hm
  | claim hclaim => exact .inr ⟨rfl, rfl, (claimTask_won hclaim).1⟩
  | refuse | refused => exact hlive.elim
  | _ => exact .inl trivial

theorem Worker.Dispatched.ne_start {now : DateTime} {m : Session} {w : Worker}
    (h : Dispatched now m w) : w ≠ .start := by
  cases h <;> exact Worker.noConfusion

theorem Worker.Finished.ne_start {db : Db} {m : Session} {hd : Handler} {w : Worker}
    (h : Finished db m hd w) : w ≠ .start := by
  cases h <;> exact Worker.noConfusion

theorem Worker.Handled.ne_start {now : DateTime} {db : Db} {m : Session} {hd : Handler} {exc : Exc}
    {w : Worker} (h : Handled now db m hd exc w) : w ≠ .start := by
  cases h <;> exact Worker.noConfusion

/-- No worker comes back to its start. -/
theorem Worker.step_ne_start {cfg : Config} {now : DateTime} {o : Outcome} {db db' : Db}
    {w w' : Worker} (h : w.step cfg now o db = some (db', w')) : w' ≠ .start := by
  cases moves_of_step h with
  | raises exc =>
      rcases raising_cases exc w with h | ⟨hd, m, h⟩ <;> (rw [h]; exact Worker.noConfusion)
  | commit =>
      cases w with
      | handlerCommit hd => cases hd <;> exact Worker.noConfusion
      | _ => exact Worker.noConfusion
  | load | keep => exact (dispatched_dispatch cfg now _).ne_start
  | advance g => cases g <;> exact Worker.noConfusion
  | finish => exact (finished_finishSelect _ _ db _).ne_start
  | handle => exact (handled_handle _ _ now db _).ne_start
  | _ => exact Worker.noConfusion

/-- The party that moves is not at the start of `execute` afterwards. -/
theorem loc_ne_start {cfg : Config} {s s' : Parties.State ℕ Db Party} {l : ℕ × Act}
    (hstep : (crawlSystem cfg).step s l s') : s'.loc l.1 ≠ .worker .start := by
  intro hstart
  have hnext := Parties.next_of_step hstep
  rw [hstart] at hnext
  obtain ⟨w, now, o, -, -, hw⟩ := Party.next_worker hnext
  exact Worker.step_ne_start hw rfl

/-- A claim leaves the claiming worker outside of its save section. -/
theorem not_inSave_of_claim {cfg : Config} {s s' : Parties.State ℕ Db Party} {l : ℕ × Act}
    (h : claimWins s l = true) (hstep : (crawlSystem cfg).step s l s') :
    ¬ (s'.loc l.1).InSave := by
  intro hin
  have htidy : (s.loc l.1).Tidy := by
    rw [start_of_claim h]
    trivial
  obtain ⟨w, hw, hent⟩ := (htidy.next (Parties.next_of_step hstep)).2 hin
  rw [start_of_claim h] at hw
  cases hw
  rcases hent with ⟨hin, -⟩ | ⟨g, m, hg, -, -⟩
  · exact hin
  · cases hg

/-- The next claim of a run with separate attempts keeps them isolated. -/
theorem Isolated.claim {cfg : Config} {tr : List (Parties.State ℕ Db Party × (ℕ × Act))}
    {s s' : Parties.State ℕ Db Party} {l : ℕ × Act} (hs : Isolated tr s)
    (hok : AttemptsSeparate cfg tr s l s') (hclaim : claimWins s l = true)
    (hstep : (crawlSystem cfg).step s l s') : Isolated ((s, l) :: tr) s' := by
  have hnew : l.1 ∉ claimants tr := fun hmem => hs.started l.1 hmem (start_of_claim hclaim)
  refine ⟨?_, ?_, ?_, ?_, ?_⟩
  · rw [claimants_cons_of_claim hclaim]
    exact List.nodup_cons.mpr ⟨hnew, hs.nodup⟩
  · intro i hi
    by_cases hil : i = l.1
    · subst hil
      exact loc_ne_start hstep
    · rw [claimants_cons_of_claim hclaim] at hi
      rw [Parties.loc_of_ne hstep hil]
      exact hs.started i (List.mem_of_ne_of_mem hil hi)
  · intro i w hw hlive
    rw [claimants_cons_of_claim hclaim]
    by_cases hil : i = l.1
    · exact hil ▸ List.mem_cons_self
    · rw [Parties.loc_of_ne hstep hil] at hw
      exact List.mem_cons_of_mem _ (hs.live i w hw hlive)
  · intro i w hsup hw
    rw [Superseded, claimants_cons_of_claim hclaim] at hsup
    -- The new claimant is not superseded; the older ones have no work, by the condition on claims.
    have hil : i ≠ l.1 := by
      rintro rfl
      exact hsup.2 rfl
    rw [Parties.loc_of_ne hstep hil] at hw
    exact hok.2 hclaim i (List.mem_of_ne_of_mem hil hsup.1) w hw
  · intro i hin
    have hil : i ≠ l.1 := by
      rintro rfl
      exact not_inSave_of_claim hclaim hstep hin
    rw [Parties.loc_of_ne hstep hil] at hin
    cases hp : s.loc i with
    | worker w =>
        rw [hp] at hin
        exact absurd (.inl hin) (hok.2 hclaim i (hs.live i w hp (Worker.InSave.live hin)) w hp)
    | _ =>
        rw [hp] at hin
        cases hin

/-- Any other step of a run with separate attempts keeps them isolated. -/
theorem Isolated.other {cfg : Config} {tr : List (Parties.State ℕ Db Party × (ℕ × Act))}
    {s s' : Parties.State ℕ Db Party} {l : ℕ × Act} (hs : Isolated tr s)
    (hsound : ∀ i, (s.loc i).Sound) (htidy : ∀ i, (s.loc i).Tidy)
    (hok : AttemptsSeparate cfg tr s l s') (hclaim : claimWins s l = false)
    (hstep : (crawlSystem cfg).step s l s') : Isolated ((s, l) :: tr) s' := by
  have hnext := Parties.next_of_step hstep
  have hcl : claimants ((s, l) :: tr) = claimants tr := claimants_cons_of_not_claim hclaim
  -- Two facts about the party that moves; what the others hold is as before.
  have hlive : ∀ w', s'.loc l.1 = .worker w' → w'.Live → l.1 ∈ claimants tr := by
    intro w' hw' hlive
    rw [hw'] at hnext
    obtain ⟨w, now, o, hw, ha, hwstep⟩ := Party.next_worker hnext
    rcases Worker.live_step hlive hwstep with hlive | ⟨rfl, rfl, hs'⟩
    · exact hs.live l.1 w hw hlive
    · simp [claimWins, hw, ha, hs'] at hclaim
  have hidle : ∀ w', Superseded tr l.1 → s'.loc l.1 = .worker w' → ¬ w'.HasWork := by
    intro w' hsup hw'
    have hsound' := (hsound l.1).next hnext
    rw [hw'] at hnext hsound'
    obtain ⟨w, now, o, hw, ha, hwstep⟩ := Party.next_worker hnext
    have ht := htidy l.1
    rw [hw] at ht
    exact Worker.not_hasWork_step hsound' ht (hs.idle l.1 w hsup hw) (hok.1 hsup w now o hw ha)
      hwstep
  refine ⟨hcl ▸ hs.nodup, ?_, ?_, ?_, ?_⟩
  · intro i hi
    by_cases hil : i = l.1
    · subst hil
      exact loc_ne_start hstep
    · rw [Parties.loc_of_ne hstep hil]
      exact hs.started i (hcl ▸ hi)
  · intro i w hw hlw
    rw [hcl]
    by_cases hil : i = l.1
    · subst hil
      exact hlive w hw hlw
    · rw [Parties.loc_of_ne hstep hil] at hw
      exact hs.live i w hw hlw
  · intro i w hsup hw
    rw [Superseded, hcl] at hsup
    by_cases hil : i = l.1
    · subst hil
      exact hidle w hsup hw
    · rw [Parties.loc_of_ne hstep hil] at hw
      exact hs.idle i w hsup hw
  · intro i hin
    rw [hcl]
    by_cases hil : i = l.1
    · subst hil
      cases hp : s'.loc l.1 with
      | worker w =>
          rw [hp] at hin
          -- A worker that saves is alive, so it has claimed; if another claim came after, it has no
          -- work.
          by_contra hhead
          exact hidle w ⟨hlive w hp (Worker.InSave.live hin), hhead⟩ hp (.inl hin)
      | _ =>
          rw [hp] at hin
          cases hin
    · rw [Parties.loc_of_ne hstep hil] at hin
      exact hs.saving i hin

/-- Attempts are isolated in every run in which they are separate. -/
theorem isolated_of_run {cfg : Config} {tr : List (Parties.State ℕ Db Party × (ℕ × Act))}
    {s : Parties.State ℕ Db Party} (h : (crawlSystem cfg).Run (AttemptsSeparate cfg) tr s) :
    Isolated tr s := by
  refine h.invariant (fun s hs => ⟨by simp, by simp, ?_, ?_, ?_⟩) ?_
  · intro i w hw hlive
    have hstart := hs i
    rw [hw] at hstart
    cases w <;> first | exact hstart.elim | exact hlive.elim
  · intro i w hsup
    exact absurd hsup.1 (by simp)
  · intro i hin
    exact absurd hin (hs i).not_inSave
  · intro tr s l s' hrun hs hok hstep
    cases hclaim : claimWins s l with
    | true => exact hs.claim hok hclaim hstep
    | false => exact hs.other (sound_of_run hrun) (tidy_of_run hrun) hok hclaim hstep

/-- A worker that claimed before a later claim is superseded from then on. -/
theorem superseded_of_claim {later early : List (Parties.State ℕ Db Party × (ℕ × Act))}
    {s₁ : Parties.State ℕ Db Party} {l₁ : ℕ × Act} {i : ℕ}
    (hnodup : (claimants (later ++ (s₁, l₁) :: early)).Nodup) (hclaim : claimWins s₁ l₁ = true)
    (hi : i ∈ claimants early) : Superseded (later ++ (s₁, l₁) :: early) i := by
  rw [claimants_append, claimants_cons_of_claim hclaim] at hnodup
  rw [Superseded, claimants_append, claimants_cons_of_claim hclaim]
  refine ⟨by simp [hi], ?_⟩
  cases hlater : claimants later with
  | nil =>
      rw [hlater] at hnodup
      rintro ⟨⟩
      exact (List.nodup_cons.mp hnodup).1 hi
  | cons j rest =>
      rw [hlater] at hnodup
      rintro ⟨⟩
      exact (List.nodup_cons.mp hnodup).1 (by simp [hi])

/-- In every run with separate attempts: once a later claim has succeeded, the worker of an
earlier claim wins no stage and commits neither rows nor a status; and at most one worker is in
its save section. -/
theorem attempts_isolated {cfg : Config} {tr : List (Parties.State ℕ Db Party × (ℕ × Act))}
    {s : Parties.State ℕ Db Party} (h : (crawlSystem cfg).Run (AttemptsSeparate cfg) tr s) :
    (∀ later s₁ l₁ early, tr = later ++ (s₁, l₁) :: early → claimWins s₁ l₁ = true →
      ∀ i ∈ claimants early, ∀ s₂ a, (s₂, (i, a)) ∈ later →
        ¬ AdvanceWins cfg s₂ (i, a) ∧
          ∀ w m, s₂.loc i = .worker w → (s₂.loc i).commits s₂.shared a = some m →
            ¬ m.HasRows ∧ m.Kept) ∧
      ∀ i j, (s.loc i).InSave → (s.loc j).InSave → i = j := by
  refine ⟨?_, fun i j hi hj => ?_⟩
  · rintro later s₁ l₁ early rfl hclaim i hi s₂ a hmem
    obtain ⟨after, before, rfl⟩ := List.append_of_mem hmem
    rw [List.append_assoc, List.cons_append] at h
    obtain ⟨s₃, hcut⟩ := h.upTo
    obtain ⟨hrun, hok, hstep⟩ := hcut.last
    have hiso := isolated_of_run hrun
    have hsup := superseded_of_claim hiso.nodup hclaim hi
    refine ⟨?_, fun w m hw hm => ?_⟩
    · rintro ⟨g, m, now, o, c, hloc, ha, hc, hstatus⟩
      exact hok.1 hsup _ now o hloc ha ⟨⟨c, hc⟩, hstatus⟩
    · have hidle := hiso.idle i w hsup hw
      have htidy := tidy_of_run hrun i
      rw [hw] at hm htidy
      have hpending := Party.commits_worker hm
      refine ⟨fun hrows => hidle (.inl (Worker.Tidy.inSave htidy hpending hrows)), ?_⟩
      by_contra hnot
      exact hidle (.inr ⟨m, hpending, hnot⟩)
  · have hiso := isolated_of_run h
    exact Option.some.inj ((hiso.saving i hi).symm.trans (hiso.saving j hj))

/-- A worker is lost after its claim, recovery puts the task back in the queue and another worker
claims it; the first one then only raises. -/
theorem attempts_isolated_recovered :
    ∃ s₃ s₄ s₅ : Parties.State ℕ Db Party,
      claimWins s₃ (2, .step 1802 .next) = true ∧
      ¬ AdvanceWins {} s₄ (0, .step 1803 (.raises (.other "TimeoutError"))) ∧
      ∀ i j, (s₅.loc i).InSave → (s₅.loc j).InSave → i = j := by
  let s₀ : Parties.State ℕ Db Party :=
    ⟨{ task := {} }, fun i => if i = 1 then .load .recoverStaleTasks else .worker .start⟩
  have hinit : Fresh s₀ := by
    intro i
    simp only [s₀]
    split <;> trivial
  -- The first worker claims, recovery loads and saves, the second worker claims, the first one
  -- raises.
  obtain ⟨s₁, h₁⟩ : ∃ s₁, (calls {}).move s₀ 0 (.step 0 .next) = some s₁ := ⟨_, rfl⟩
  have hfirst : claimWins s₀ (0, .step 0 .next) = true := by decide
  obtain ⟨s₂, h₂, hrecover⟩ : ∃ s₂, (calls {}).move s₁ 1 (.step 1801 .next) = some s₂ ∧
      s₁.loc 1 = .load .recoverStaleTasks := by
    cases h₁
    exact ⟨_, rfl, rfl⟩
  obtain ⟨s₃, m, h₃, hsave⟩ : ∃ s₃ m, (calls {}).move s₂ 1 (.step 1801 .next) = some s₃ ∧
      s₂.loc 1 = .save .recoverStaleTasks m := by
    cases h₁
    cases h₂
    exact ⟨_, _, rfl, rfl⟩
  obtain ⟨s₄, row, h₄, hsecond, hlost₃⟩ : ∃ s₄ row,
      (calls {}).move s₃ 2 (.step 1802 .next) = some s₄ ∧
      claimWins s₃ (2, .step 1802 .next) = true ∧ s₃.loc 0 = .worker (.claimed row) := by
    cases h₁
    cases h₂
    cases h₃
    exact ⟨_, _, rfl, by decide, rfl⟩
  obtain ⟨s₅, h₅, hlost₄⟩ : ∃ s₅,
      (calls {}).move s₄ 0 (.step 1803 (.raises (.other "TimeoutError"))) = some s₅ ∧
      s₄.loc 0 = .worker (.claimed row) := by
    cases h₁
    cases h₂
    cases h₃
    cases hlost₃
    cases h₄
    exact ⟨_, rfl, rfl⟩
  -- Recovery is no claim, so the first worker is the only claimant when the second one claims.
  have hclaimants : claimants [(s₂, (1, .step 1801 .next)), (s₁, (1, .step 1801 .next)),
      (s₀, (0, .step 0 .next))] = [0] := by
    rw [claimants_cons_of_not_claim (by simp [claimWins, hsave]),
      claimants_cons_of_not_claim (by simp [claimWins, hrecover]), claimants_cons_of_claim hfirst,
      claimants_nil]
  have hrun : (crawlSystem {}).Run (AttemptsSeparate {})
      ([(s₄, (0, .step 1803 (.raises (.other "TimeoutError"))))] ++
        (s₃, (2, .step 1802 .next)) :: [(s₂, (1, .step 1801 .next)), (s₁, (1, .step 1801 .next)),
          (s₀, (0, .step 0 .next))]) s₅ := by
    refine ⟨s₀, hinit,
      .cons (.cons (.cons (.cons (.cons .nil ?_ h₁) ?_ h₂) ?_ h₃) ?_ h₄) ?_ h₅⟩
    · exact ⟨fun hsup => absurd hsup.1 (by simp), by simp⟩
    · exact ⟨by simp [hrecover], by simp [claimWins, hrecover]⟩
    · exact ⟨by simp [hsave], by simp [claimWins, hsave]⟩
    · refine ⟨fun _ w now o hw _ => ?_, fun _ j hj w hw => ?_⟩
      · rw [start_of_claim hsecond] at hw
        cases hw
        exact not_false
      · rw [hclaimants, List.mem_singleton] at hj
        subst hj
        rw [hlost₃] at hw
        cases hw
        exact Worker.not_hasWork not_false rfl
    · refine ⟨fun _ w now o hw ha => ?_, by simp [claimWins, hlost₄]⟩
      rw [hlost₄] at hw
      cases hw
      cases ha
      rintro (⟨h, -⟩ | ⟨h, -⟩) <;> cases h
  have hiso := attempts_isolated hrun
  have hearlier := hiso.1 _ s₃ _ _ rfl hsecond 0 (by rw [hclaimants]; exact List.mem_cons_self) s₄ _
    List.mem_cons_self
  exact ⟨s₃, s₄, s₅, hsecond, hearlier.1, hiso.2⟩

/-- The worker waits for the UPDATE that starts a local crawl. -/
def Party.atLocalStart : Party → Bool
  | .worker (.gate .localStart _) => true
  | _ => false

theorem Party.atLocalStart_spec {p : Party} (h : p.atLocalStart = true) :
    ∃ m, p = .worker (.gate .localStart m) := by
  unfold atLocalStart at h
  split at h
  · next m => exact ⟨m, rfl⟩
  · cases h

/-- A task is cancelled and retried while its worker waits to start the crawl; a second worker
claims it, and the first one then wins its stage UPDATE in the second attempt. -/
theorem stage_won_after_later_claim :
    ∃ later early s₁ l₁ s i, (crawlSystem {}).Run System.always (later ++ (s₁, l₁) :: early) s ∧
      claimWins s₁ l₁ = true ∧ i ∈ claimants early ∧
      ∃ s₂ a, (s₂, (i, a)) ∈ later ∧ AdvanceWins {} s₂ (i, a) := by
  let s₀ : Parties.State ℕ Db Party :=
    ⟨{ task := { crawlProvider := .localProvider } },
      fun i => if i = 1 then .cancel .load else if i = 2 then .load .retry else .worker .start⟩
  let next : Act := .step 0 .next
  let sched : List (ℕ × Act) :=
    [(0, next), (0, next), (1, next), (1, next), (2, next), (2, next)]
  have hinit : Fresh s₀ := by
    intro i
    simp only [s₀]
    split
    · trivial
    · split <;> trivial
  have hchecks : (((calls {}).exec s₀ sched).bind fun s₁ => ((calls {}).move s₁ 3 next).bind
      fun s₂ => ((calls {}).move s₂ 0 next).map fun _ =>
        (claimWins s₁ (3, next), decide (0 ∈ claimants ((calls {}).traceOf s₀ sched)),
          decide (s₂.shared.task.status = .running), (s₂.loc 0).atLocalStart)) =
            some (true, true, true, true) := by
    decide
  obtain ⟨s₁, h₁, hchecks⟩ := Option.bind_eq_some_iff.mp hchecks
  obtain ⟨s₂, h₂, hchecks⟩ := Option.bind_eq_some_iff.mp hchecks
  obtain ⟨s₃, h₃, hchecks⟩ := Option.map_eq_some_iff.mp hchecks
  simp only [Prod.mk.injEq, decide_eq_true_eq] at hchecks
  obtain ⟨hclaim, hearlier, hstatus, hgate⟩ := hchecks
  obtain ⟨m, hm⟩ := Party.atLocalStart_spec hgate
  have hrun : (crawlSystem {}).Run System.always
      ([(s₂, (0, next))] ++ (s₁, (3, next)) :: (calls {}).traceOf s₀ sched) s₃ :=
    ⟨s₀, hinit, .cons (.cons (System.exec_path h₁) trivial h₂) trivial h₃⟩
  exact ⟨_, _, s₁, (3, next), s₃, 0, hrun, hclaim, hearlier, s₂, next, List.mem_cons_self,
    .localStart, m, 0, .next, .nothing, hm, rfl, rfl, hstatus⟩

/-! ## Claims after the end -/

/-- The task is claimed only when every worker that claimed it earlier has ended. -/
def EndedBeforeClaim (tr : List (Parties.State ℕ Db Party × (ℕ × Act)))
    (s : Parties.State ℕ Db Party) (l : ℕ × Act) (_ : Parties.State ℕ Db Party) : Prop :=
  claimWins s l = true → ∀ j ∈ claimants tr, ∀ w, s.loc j = .worker w → ¬ w.Live

theorem Worker.Resumes.live {cfg : Config} {o : Outcome} {db : Db} {w : Worker}
    (h : w.Resumes cfg o db) : w.Live := by
  cases w <;> trivial

theorem Worker.HasWork.live {w : Worker} (h : w.HasWork) : w.Live := by
  rcases h with hin | ⟨m, hm, -⟩
  · exact hin.live
  · cases w <;> trivial

/-- When claims wait for the earlier workers to end, a superseded worker has ended. -/
theorem ended_of_superseded {cfg : Config}
    {tr : List (Parties.State ℕ Db Party × (ℕ × Act))} {s : Parties.State ℕ Db Party}
    (h : (crawlSystem cfg).Run EndedBeforeClaim tr s) :
    ∀ i w, Superseded tr i → s.loc i = .worker w → ¬ w.Live := by
  refine h.invariant (I := fun tr s => ∀ i w, Superseded tr i → s.loc i = .worker w → ¬ w.Live)
    (fun s _ i w hsup => absurd hsup.1 (by simp)) ?_
  intro tr s l s' _ hs hok hstep i w' hsup hw' hlive
  cases hclaim : claimWins s l with
  | true =>
      rw [Superseded, claimants_cons_of_claim hclaim] at hsup
      have hil : i ≠ l.1 := by
        rintro rfl
        exact hsup.2 rfl
      rw [Parties.loc_of_ne hstep hil] at hw'
      exact hok hclaim i (List.mem_of_ne_of_mem hil hsup.1) w' hw' hlive
  | false =>
      rw [Superseded, claimants_cons_of_not_claim hclaim] at hsup
      by_cases hil : i = l.1
      · subst hil
        have hnext := Parties.next_of_step hstep
        rw [hw'] at hnext
        obtain ⟨w, now, o, hw, ha, hwstep⟩ := Party.next_worker hnext
        rcases Worker.live_step hlive hwstep with hlive | ⟨rfl, rfl, hs'⟩
        · exact hs l.1 w hsup hw hlive
        · simp [claimWins, hw, ha, hs'] at hclaim
      · rw [Parties.loc_of_ne hstep hil] at hw'
        exact hs i w' hsup hw' hlive

/-- Attempts are separate, and so isolated, in every run in which the task is claimed only when
every worker that claimed it earlier has ended. -/
theorem separate_of_ended {cfg : Config} {tr : List (Parties.State ℕ Db Party × (ℕ × Act))}
    {s : Parties.State ℕ Db Party} (h : (crawlSystem cfg).Run EndedBeforeClaim tr s) :
    (crawlSystem cfg).Run (AttemptsSeparate cfg) tr s :=
  h.strengthen fun _ _ _ _ hrun hok =>
    ⟨fun hsup w _ _ hw _ hres => ended_of_superseded hrun _ w hsup hw hres.live,
      fun hclaim j hj w hw hwork => hok hclaim j hj w hw hwork.live⟩

end Odirag.Crawl
