import Odirag.Crawl.StatusSafety

/-!
# The save section of a worker

Reference: `backend/app/services/crawl.py`: the save sections of `execute`, `_execute_local` and
`_execute_coze`, and the handlers of `_execute_coze`, which keep what the session has flushed.

A worker is in its save section from the UPDATE that wins `saving_documents` until its session no
longer holds documents or failure rows to publish. Outside of it a worker's session publishes
nothing but the task row.
-/

namespace Odirag.Crawl

open CrawlRepository

namespace Worker

/-- The worker has won `saving_documents`, and its session may still publish rows. -/
def InSave : Worker → Prop
  | .advanced g _ _ => g.opensSave.isSome = true
  | .save _ _ _ | .commit _ _ => True
  | .finish _ _ m | .finishCommit _ m | .handlerCommit _ _ m => m.HasRows
  | .handling .coze _ m => m.HasRows
  | _ => False

/-- Before the save section the session holds no rows. -/
def Tidy : Worker → Prop
  | .notConfigured m | .gate _ m | .advanced _ _ m | .invocation m | .calling m
  | .responded m => ¬ m.HasRows
  | _ => True

/-- A session with rows is committed inside the save section only. -/
theorem Tidy.inSave {w : Worker} {m : Session} (hw : w.Tidy) (h : w.pendingCommit = some m)
    (hrows : m.HasRows) : w.InSave := by
  cases w with
  | notConfigured | invocation | calling => cases h; exact absurd hrows hw
  | commit => trivial
  | finishCommit | handlerCommit => cases h; exact hrows
  | _ => cases h

/-- A dispatched worker is outside of its save section. -/
theorem Dispatched.tidy {now : DateTime} {m : Session} {w : Worker} (h : Dispatched now m w)
    (hm : ¬ m.HasRows) : w.Tidy ∧ ¬ w.InSave := by
  cases h with
  | gate | refused => exact ⟨hm, not_false⟩
  | raised => exact ⟨trivial, not_false⟩

/-- After a won stage the worker is in its save section if the stage opened it. -/
theorem tidy_continueAfter (cfg : Config) (g : Gate) (c : Crawled) {m : Session}
    (h : ¬ m.HasRows) :
    (continueAfter cfg g c m).Tidy ∧
      ((continueAfter cfg g c m).InSave → g.opensSave.isSome = true) := by
  cases g with
  | localStart | cozeRun | cozeNormalize => exact ⟨h, False.elim⟩
  | cozeCall => exact ⟨by simpa [continueAfter, Tidy] using h, False.elim⟩
  | legacySave | localSave | cozeSave => exact ⟨trivial, fun _ => rfl⟩

/-- `_finish_cancelled_provider_result` keeps the rows that the session has flushed. -/
theorem Finished.tidy {db : Db} {m : Session} {hd : Handler} {w : Worker}
    (h : Finished db m hd w) : w.Tidy ∧ (w.InSave → m.HasRows) := by
  cases h with
  | changed =>
      refine ⟨trivial, fun hin => ?_⟩
      cases hd with
      | coze => exact hin
      | _ => cases hin
  | cancelled => exact ⟨trivial, fun hin => hin⟩

/-- A handler publishes rows only if it is one of the Coze path, whose session still holds them. -/
theorem Handled.tidy {now : DateTime} {db : Db} {m : Session} {hd : Handler} {exc : Exc}
    {w : Worker} (h : Handled now db m hd exc w) :
    w.Tidy ∧ (w.InSave → (Worker.handling hd exc m).InSave) := by
  have hrows : ∀ t, ((handlerSession hd db m).assign fun _ => t).HasRows →
      (Worker.handling hd exc m).InSave := by
    intro t hrows
    cases hd with
    | coze => exact hrows
    | _ => exact absurd hrows (Session.not_hasRows_load db)
  cases h with
  | failed | recorded => exact ⟨trivial, hrows _⟩
  | cancelled hcoze =>
      subst hcoze
      exact ⟨trivial, fun hin => hin⟩
  | passed | raised => exact ⟨trivial, False.elim⟩

theorem tidy_handlerRaises (hd : Handler) (exc : Exc) (m : Session) :
    (handlerRaises hd exc m).Tidy ∧ ¬ (handlerRaises hd exc m).InSave := by
  cases hd <;> exact ⟨trivial, not_false⟩

theorem tidy_afterHandler (hd : Handler) (exc : Exc) (m : Session) :
    (afterHandler hd exc m).Tidy ∧ ¬ (afterHandler hd exc m).InSave := by
  cases hd <;> exact ⟨trivial, not_false⟩

/-- An exception that reaches a handler without rows leaves the save section. -/
theorem not_inSave_handling {hd : Handler} {exc : Exc} {m : Session} (h : ¬ m.HasRows) :
    ¬ (Worker.handling hd exc m).InSave := by
  cases hd with
  | coze => exact h
  | _ => exact not_false

/-- A failed commit leaves the save section: its handler rolls back. -/
theorem not_inSave_afterFailedCommit (hd : Handler) (exc : Exc) (m : Session) :
    ¬ (Worker.handling hd.afterFailedCommit exc m).InSave := by
  cases hd <;> exact not_false

/-- An exception leads out of the save section, or to a handler that keeps what the session has
flushed. -/
theorem tidy_raising (exc : Exc) {w : Worker} (hw : w.Tidy) :
    (w.raising exc).Tidy ∧ ((w.raising exc).InSave → w.InSave) := by
  cases w with
  | gate | advanced | calling | responded =>
      exact ⟨trivial, fun hin => absurd hin (not_inSave_handling hw)⟩
  | save | commit => exact ⟨trivial, fun _ => trivial⟩
  | finish hd ps m =>
      refine ⟨trivial, fun hin => ?_⟩
      cases hd with
      | coze => exact hin
      | _ => cases hin
  | finishCommit => exact ⟨trivial, fun hin => absurd hin (not_inSave_afterFailedCommit _ _ _)⟩
  | handling hd _ m | handlerCommit hd _ m =>
      obtain ⟨htidy, hout⟩ := tidy_handlerRaises hd exc m
      exact ⟨htidy, fun hin => absurd hin hout⟩
  | _ => exact ⟨trivial, False.elim⟩

/-- A commit leads out of the save section. -/
theorem tidy_committed (w : Worker) : w.committed.Tidy ∧ ¬ w.committed.InSave := by
  cases w with
  | invocation m | calling m => exact ⟨Session.not_hasRows_flushed m, not_false⟩
  | handlerCommit hd exc m => exact tidy_afterHandler hd exc m.flushed
  | _ => exact ⟨trivial, not_false⟩

/-- How a worker comes to be in its save section: it was there already and has committed nothing,
or it has just won `saving_documents`. -/
def Entered (db db' : Db) (w : Worker) : Prop :=
  w.InSave ∧ db' = db ∨
    ∃ g m, w = .gate g m ∧ db.task.status = g.expected ∧ db'.task.status = .savingDocuments

/-- A worker's step keeps its session tidy, and enters the save section at a stage UPDATE only. -/
theorem Tidy.step {cfg : Config} {now : DateTime} {o : Outcome} {db db' : Db} {w w' : Worker}
    (hw : w.Tidy) (h : w.step cfg now o db = some (db', w')) :
    w'.Tidy ∧ (w'.InSave → Entered db db' w) := by
  -- What a step that commits nothing keeps of the save section.
  have hkeep : ∀ {w' : Worker}, w'.Tidy ∧ (w'.InSave → w.InSave) →
      w'.Tidy ∧ (w'.InSave → Entered db db w) :=
    fun h => ⟨h.1, fun hin => .inl ⟨h.2 hin, rfl⟩⟩
  cases moves_of_step h with
  | raises exc => exact hkeep (tidy_raising exc hw)
  | commit =>
      obtain ⟨htidy, hout⟩ := tidy_committed w
      exact ⟨htidy, fun hin => absurd hin hout⟩
  | claim | refuse | refused => exact ⟨trivial, False.elim⟩
  | load =>
      obtain ⟨htidy, hout⟩ := (dispatched_dispatch cfg now _).tidy (Session.not_hasRows_load db)
      exact ⟨htidy, fun hin => absurd hin hout⟩
  | keep row =>
      obtain ⟨htidy, hout⟩ := (dispatched_dispatch cfg now { task := .fresh row }).tidy
        (by simp [Session.HasRows])
      exact ⟨htidy, fun hin => absurd hin hout⟩
  | @win g m o c db' hc hwon =>
      obtain ⟨hs, ht, -, -⟩ := advance_won hwon
      refine ⟨hw, fun hin => .inr ⟨g, m, rfl, hs, ?_⟩⟩
      rw [ht]
      exact g.opensSave_isSome_iff.mp hin
  | lose => exact ⟨trivial, fun hin => absurd hin hw⟩
  | reject => exact ⟨trivial, fun hin => absurd hin (not_inSave_handling hw)⟩
  | advance g c m => exact hkeep (tidy_continueAfter cfg g c hw)
  | respond => exact ⟨hw, False.elim⟩
  | cancelled => exact ⟨trivial, fun hin => absurd hin hw⟩
  | save | saveRaises => exact hkeep ⟨trivial, fun _ => trivial⟩
  | finish => exact hkeep (finished_finishSelect _ _ db _).tidy
  | handle => exact hkeep (handled_handle _ _ now db _).tidy

end Worker

namespace Party

/-- The party is a worker in its save section. -/
def InSave : Party → Prop
  | .worker w => w.InSave
  | _ => False

/-- The party's session holds no rows outside of a save section. -/
def Tidy : Party → Prop
  | .worker w => w.Tidy
  | _ => True

/-- A call that has not started is not in a save section. -/
theorem AtStart.not_inSave {p : Party} (h : p.AtStart) : ¬ p.InSave := by
  cases p with
  | worker w => cases w <;> first | exact not_false | exact h.elim
  | _ => exact not_false

/-- A party's step keeps its session tidy, and enters a save section at a stage UPDATE only. -/
theorem Tidy.next {cfg : Config} {a : Act} {db db' : Db} {p p' : Party} (hp : p.Tidy)
    (h : p.next cfg a db = some (db', p')) :
    p'.Tidy ∧ (p'.InSave → ∃ w, p = .worker w ∧ w.Entered db db') := by
  cases p' with
  | worker w' =>
      obtain ⟨w, now, o, rfl, rfl, hw⟩ := Party.next_worker h
      obtain ⟨htidy, hin⟩ := Worker.Tidy.step hp hw
      exact ⟨htidy, fun h => ⟨w, rfl, hin h⟩⟩
  | _ => exact ⟨trivial, False.elim⟩

end Party

/-- In every reachable state, sessions outside of a save section hold no rows. -/
theorem tidy_of_run {cfg : Config}
    {ok : List (Parties.State ℕ Db Party × (ℕ × Act)) → Parties.State ℕ Db Party → ℕ × Act →
      Parties.State ℕ Db Party → Prop}
    {tr : List (Parties.State ℕ Db Party × (ℕ × Act))} {s : Parties.State ℕ Db Party}
    (h : (crawlSystem cfg).Run ok tr s) : ∀ i, (s.loc i).Tidy := by
  refine Parties.Outline.holds (fun _ _ p => p.Tidy) ⟨?_, ?_, ?_⟩ h
  · intro s hs i
    have hi := hs i
    cases hp : s.loc i with
    | worker w =>
        rw [hp] at hi
        cases w <;> trivial
    | _ => trivial
  · intro _ s i a s' _ hs hnext
    exact ((hs i).next hnext).1
  · intro _ s i a s' j _ _ hs _
    exact hs j

end Odirag.Crawl
