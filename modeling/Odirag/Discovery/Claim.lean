import Odirag.Discovery.Steps
import Odirag.Foundations.Parties

/-!
# One executor per run

Reference: `SourceDiscoveryService` of `backend/app/services/source_discovery.py`, with
`backend/app/repositories/source_discovery.py`.

Retries, executions and queue failures of one run, interleaved at their reads and commits. An
execution claims the run by a conditional update, but the other two calls, and the exception handler
of an execution whose end is already committed, read the status and write it back later. As long as
none of these commits finds the run running, at most one execution is in progress, and a queue
failure never overwrites it (`one_executor`). Two retries around a claim break the first, a claim
between the two halves of a queue failure breaks the second (`two_executors`).
-/

namespace Odirag.Discovery

open Crawler (NetTools plainTools)

/-- The calls of one run or of its candidates, interleaved. -/
def sessions (ι : Type) (N : NetTools) (settings : Settings) : Parties ι Db Session Act where
  next _ a db l := next N settings a db l

/-- An execution that has claimed the run and has not committed its end. -/
def Session.executing : Session → Bool
  | .claimedRun | .searching _ _ | .looping _ | .storing _ _ _ _ | .processing _ _ _ => true
  | .recounting (.execution _) | .counting (.execution _) _ | .listing _ _ => true
  | .saving (.execution _) _ | .rescuing _ false _ | .failingRun _ false _ => true
  | _ => false

/-- A session that is about to write the status of a run it does not execute. -/
def Session.writesFromOutside : Session → Bool
  | .requeueing _ | .marking _ | .failingRun _ true _ => true
  | _ => false

/-- A retry, an execution or a queue failure. -/
def Session.ofRun : Session → Bool
  | .call .retry | .call .execute | .call (.queueFailure _) => true
  | .requeueing _ | .requeued | .marking _ | .saved (.execution _) => true
  | .rescuing _ _ _ | .failingRun _ _ _ | .returned => true
  | l => l.executing

/-- The calls that the parties make. -/
def CallsOnRun {ι : Type} (s : Parties.State ι Db Session) : Prop :=
  ∀ i, ∃ c, s.loc i = .call c ∧ (s.loc i).ofRun

/-- No commit from outside an execution finds the run running. -/
def FindsNotRunning {ι : Type} (_ : List (Parties.State ι Db Session × (ι × Act)))
    (s : Parties.State ι Db Session) (l : ι × Act) (_ : Parties.State ι Db Session) : Prop :=
  (s.loc l.1).writesFromOutside → l.2 = .go → s.shared.run.status ≠ .running

/-! ## What a step does to the run -/

/-- What a step of a retry, an execution or a queue failure does to the status of the run. -/
inductive RunStep (a : Act) (db db' : Db) (l l' : Session) : Prop
  /-- It claims the run. -/
  | claim (hpending : db.run.status = .pending) (hrunning : db'.run.status = .running)
  /-- It leaves the status alone and starts no execution. -/
  | keep (hstatus : db'.run.status = db.run.status) (hexecuting : l'.executing → l.executing)
  /-- It commits the end of an execution. -/
  | finish (hbefore : l.executing) (hafter : l'.executing = false)
  /-- It writes the status from outside. -/
  | outside (houtside : l.writesFromOutside) (hgo : a = .go) (hafter : l'.executing = false)

variable {N : NetTools} {settings : Settings} {a : Act} {db db' : Db} {l l' : Session}

/-- Processing a candidate leaves the run alone. -/
theorem Processes.run {L : Loop} {id : ℕ} {stage : Stage}
    (h : Processes N settings db L id a stage db' l') : db'.run = db.run ∧ l'.executing := by
  cases h with
  | offline | unread | trial | trialFailing | score | failing => exact ⟨rfl, rfl⟩
  | validate | discover =>
      refine ⟨rfl, ?_⟩
      split <;> rfl

theorem Takes.executing {L : Loop} (h : Takes db L l') : l'.executing := by
  cases h with
  | finished | skip | new | again => rfl

theorem ofRun_of_executing (h : l.executing) : l.ofRun := by
  unfold Session.ofRun
  split <;> first | rfl | exact h

/-- An exception starts no execution. -/
theorem executing_of_raising {error : String} (h : (l.raising error).executing) : l.executing := by
  cases l with
  | searching | looping | storing | processing | listing => rfl
  | recounting p | counting p run | saving p run =>
      cases p with
      | execution L => rfl
      | decision | activation => cases h
  | saved p =>
      cases p with
      | decision | activation | execution => cases h
  | _ => cases h

theorem ofRun_raising (error : String) (h : l.ofRun) : (l.raising error).ofRun := by
  cases l with
  | processing L id stage =>
      cases stage with
      | validate | discover | trial | trialFailing | score | failing => rfl
  | recounting p | counting p run | saving p run | saved p =>
      cases p with
      | execution L => rfl
      | decision | activation => cases h
  | inspecting | flushing => cases h
  | _ => rfl

/-- A step of an execution that goes on. -/
theorem runStep_of_executing (hl : l.executing) (hstatus : db'.run.status = db.run.status)
    (hl' : l'.executing) : l'.ofRun ∧ RunStep a db db' l l' :=
  ⟨ofRun_of_executing hl', .keep hstatus fun _ => hl⟩

/-- A step that leaves the status alone, after which no execution goes on. -/
theorem runStep_of_quiet (hstatus : db'.run.status = db.run.status) (hof : l'.ofRun)
    (hl' : l'.executing = false) : l'.ofRun ∧ RunStep a db db' l l' :=
  ⟨hof, .keep hstatus fun h => absurd h (by simp [hl'])⟩

/-- A step of a retry, an execution or a queue failure stays one, and is one of the four kinds. -/
theorem run_step (hl : l.ofRun) (h : next N settings a db l = some (db', l')) :
    l'.ofRun ∧ RunStep a db db' l l' := by
  cases moves_of_next h with
  | raises error => exact ⟨ofRun_raising error hl, .keep rfl executing_of_raising⟩
  | begin hbegins =>
      cases hbegins with
      | execute hpending => exact ⟨rfl, .claim hpending rfl⟩
      | refused | retry | queueFailure => exact runStep_of_quiet rfl rfl rfl
      | approve | reject | activate => cases hl
  | requeue run | mark run => exact ⟨rfl, .outside rfl rfl rfl⟩
  | requeued => exact runStep_of_quiet rfl rfl rfl
  | execute | search | duplicate | create | reset | conclude => exact runStep_of_executing rfl rfl rfl
  | take htakes => exact runStep_of_executing rfl rfl htakes.executing
  | process hstep =>
      obtain ⟨hrun, hl'⟩ := hstep.run
      exact runStep_of_executing rfl (by rw [hrun]) hl'
  | recount p =>
      cases p with
      | execution L => exact runStep_of_executing rfl rfl rfl
      | decision | activation => cases hl
  | countExecution L run => exact runStep_of_executing rfl rfl rfl
  | save p run =>
      cases p with
      | execution L => exact ⟨rfl, .finish rfl rfl⟩
      | decision | activation => cases hl
  | finish p => exact runStep_of_quiet rfl rfl rfl
  -- A late rescue is one of a call that no longer executes.
  | rescue created late error =>
      cases late with
      | false => exact runStep_of_executing rfl rfl rfl
      | true => exact runStep_of_quiet rfl rfl rfl
  | failRun created late run =>
      cases late with
      | false => exact ⟨rfl, .finish rfl rfl⟩
      | true => exact ⟨rfl, .outside rfl rfl rfl⟩
  | decide | claim | claimed | noColumns | columns | conflict | flush | countDecision
  | countActivation | undo | fail => cases hl

/-! ## Runs -/

section

variable {ι : Type} [DecidableEq ι]

/-- While an execution is in progress the run is running, and there is only one. -/
structure OneExecutor (s : Parties.State ι Db Session) : Prop where
  ofRun : ∀ i, (s.loc i).ofRun
  running : ∀ i, (s.loc i).executing → s.shared.run.status = .running
  unique : ∀ i j, (s.loc i).executing → (s.loc j).executing → i = j

/-- A step that meets the condition keeps the executor the only one. -/
theorem OneExecutor.step {init : Parties.State ι Db Session → Prop}
    {tr : List (Parties.State ι Db Session × (ι × Act))} {s s' : Parties.State ι Db Session}
    {l : ι × Act} (hs : OneExecutor s) (hok : FindsNotRunning tr s l s')
    (h : ((sessions ι N settings).system init).step s l s') : OneExecutor s' := by
  obtain ⟨i, a⟩ := l
  have hloc : ∀ j, j ≠ i → s'.loc j = s.loc j := fun j hj => Parties.loc_of_ne h hj
  obtain ⟨hof, hstep⟩ := run_step (hs.ofRun i) (Parties.next_of_step h)
  have hofRun : ∀ j, (s'.loc j).ofRun := by
    intro j
    by_cases hj : j = i
    · exact hj ▸ hof
    · exact hloc j hj ▸ hs.ofRun j
  -- Whoever executes afterwards and is not the moving party executed before.
  have hold : ∀ j, j ≠ i → (s'.loc j).executing → (s.loc j).executing := fun j hj hex =>
    hloc j hj ▸ hex
  cases hstep with
  | claim hpending hrunning =>
      have hnone : ∀ j, (s.loc j).executing = false := by
        intro j
        by_contra hex
        rw [hs.running j (by simpa using hex)] at hpending
        cases hpending
      have hmover : ∀ j, (s'.loc j).executing → j = i := by
        intro j hex
        by_contra hj
        exact absurd (hold j hj hex) (by simp [hnone j])
      exact ⟨hofRun, fun _ _ => hrunning, fun j k hj hk => (hmover j hj).trans (hmover k hk).symm⟩
  | keep hstatus hexecuting =>
      have hback : ∀ j, (s'.loc j).executing → (s.loc j).executing := by
        intro j hex
        by_cases hj : j = i
        · subst hj
          exact hexecuting hex
        · exact hold j hj hex
      exact ⟨hofRun, fun j hj => hstatus.trans (hs.running j (hback j hj)),
        fun j k hj hk => hs.unique j k (hback j hj) (hback k hk)⟩
  | finish hbefore hafter =>
      have hnone : ∀ j, (s'.loc j).executing = false := by
        intro j
        by_cases hj : j = i
        · exact hj ▸ hafter
        · by_contra hex
          exact hj (hs.unique j i (hold j hj (by simpa using hex)) hbefore)
      exact ⟨hofRun, fun j hj => absurd hj (by simp [hnone j]),
        fun j _ hj => absurd hj (by simp [hnone j])⟩
  | outside houtside hgo hafter =>
      have hnot := hok houtside hgo
      have hnone : ∀ j, (s'.loc j).executing = false := by
        intro j
        by_cases hj : j = i
        · exact hj ▸ hafter
        · by_contra hex
          exact hnot (hs.running j (hold j hj (by simpa using hex)))
      exact ⟨hofRun, fun j hj => absurd hj (by simp [hnone j]),
        fun j _ hj => absurd hj (by simp [hnone j])⟩

theorem oneExecutor_of_run {tr : List (Parties.State ι Db Session × (ι × Act))}
    {s : Parties.State ι Db Session}
    (h : ((sessions ι N settings).system CallsOnRun).Run FindsNotRunning tr s) : OneExecutor s := by
  refine h.invariant (I := fun _ s => OneExecutor s) ?_ ?_
  · intro s hinit
    have hnone : ∀ i, (s.loc i).executing = false := by
      intro i
      obtain ⟨c, hc, -⟩ := hinit i
      rw [hc]
      rfl
    exact ⟨fun i => (hinit i).choose_spec.2, fun i hi => absurd hi (by simp [hnone i]),
      fun i _ hi => absurd hi (by simp [hnone i])⟩
  · intro tr s l s' _ hs hok hstep
    exact hs.step hok hstep

/-- **One executor.** In every interleaving of retries, executions and queue failures in which no
commit from outside an execution finds the run running, at most one execution is in progress at any
time, and whenever a queue failure commits, none is. -/
theorem one_executor {tr : List (Parties.State ι Db Session × (ι × Act))}
    {s : Parties.State ι Db Session}
    (h : ((sessions ι N settings).system CallsOnRun).Run FindsNotRunning tr s) :
    (∀ i j, (s.loc i).executing → (s.loc j).executing → i = j) ∧
      ∀ s₁ i run, (s₁, (i, Act.go)) ∈ tr → s₁.loc i = .marking run →
        ∀ j, (s₁.loc j).executing = false := by
  refine ⟨(oneExecutor_of_run h).unique, fun s₁ i run hmem hloc j => ?_⟩
  obtain ⟨later, early, rfl⟩ := List.append_of_mem hmem
  obtain ⟨s₂, hcut⟩ := h.upTo
  obtain ⟨hbefore, hok, -⟩ := hcut.last
  have hnot : s₁.shared.run.status ≠ .running := hok (by rw [hloc]; rfl) rfl
  by_contra hex
  exact hnot ((oneExecutor_of_run hbefore).running j (by simpa using hex))

end

/-- A retry alone, then an execution: the retry finds the run failed, and the run has one
executor. -/
theorem one_executor_retry :
    ∃ s : Parties.State ℕ Db Session, (s.loc 1).executing ∧
      ∀ i j, (s.loc i).executing → (s.loc j).executing → i = j := by
  let P := sessions ℕ plainTools {}
  let s₀ : Parties.State ℕ Db Session :=
    ⟨{ run := { status := .failed, maxCandidates := 10 } },
      fun i => if i = 0 then .call .retry else .call .execute⟩
  -- The retry reads and saves, then the execution claims.
  obtain ⟨s₁, h₁⟩ : ∃ s₁, P.move s₀ 0 .go = some s₁ := ⟨_, rfl⟩
  obtain ⟨s₂, h₂⟩ : ∃ s₂, P.move s₁ 0 .go = some s₂ := by
    cases h₁
    exact ⟨_, rfl⟩
  obtain ⟨s₃, h₃⟩ : ∃ s₃, P.move s₂ 1 .go = some s₃ := by
    cases h₁
    cases h₂
    exact ⟨_, rfl⟩
  have hinit : CallsOnRun s₀ := by
    intro i
    simp only [s₀]
    split
    · exact ⟨_, rfl, rfl⟩
    · exact ⟨_, rfl, rfl⟩
  have hrun : (P.system CallsOnRun).Run FindsNotRunning [(s₂, (1, .go)), (s₁, (0, .go)), (s₀, (0, .go))]
      s₃ := by
    refine ⟨s₀, hinit, .cons (.cons (.cons .nil nofun h₁) ?_ h₂) ?_ h₃⟩
    · cases h₁
      intro _ _
      nofun
    · cases h₁
      cases h₂
      nofun
  refine ⟨s₃, ?_, (one_executor hrun).1⟩
  cases h₁
  cases h₂
  cases h₃
  rfl

/-- Two retries read the run as failed; it is requeued and claimed, requeued again by the second
retry and claimed again. And a queue failure that has read the run as pending overwrites the status
of an execution that claims it in between. -/
theorem two_executors :
    (∃ tr s, ((sessions ℕ plainTools {}).system CallsOnRun).Run System.always tr s ∧
      ∃ i j, i ≠ j ∧ (s.loc i).executing ∧ (s.loc j).executing) ∧
    ∃ tr s₁ i s₂, ((sessions ℕ plainTools {}).system CallsOnRun).Run System.always
        ((s₁, (i, Act.go)) :: tr) s₂ ∧
      (∃ run, s₁.loc i = .marking run) ∧ (∃ j, (s₁.loc j).executing) ∧
      s₁.shared.run.status = .running ∧ s₂.shared.run.status = .failed := by
  let P := sessions ℕ plainTools {}
  refine ⟨?_, ?_⟩
  · let s₀ : Parties.State ℕ Db Session :=
      ⟨{ run := { status := .failed, maxCandidates := 10 } },
        fun i => if i < 2 then .call .retry else .call .execute⟩
    -- Both retries read, the first one saves and is claimed, then the second one saves over it.
    let sched : List (ℕ × Act) := [(0, .go), (1, .go), (0, .go), (2, .go), (1, .go)]
    have htwo : ((P.exec s₀ sched).bind fun s₁ => (P.move s₁ 3 .go).map fun s₂ =>
        (s₂.loc 2).executing && (s₂.loc 3).executing) = some true := by
      decide
    obtain ⟨s₁, h₁, htwo⟩ := Option.bind_eq_some_iff.mp htwo
    obtain ⟨s₂, h₂, htwo⟩ := Option.map_eq_some_iff.mp htwo
    have hinit : CallsOnRun s₀ := by
      intro i
      simp only [s₀]
      split
      · exact ⟨_, rfl, rfl⟩
      · exact ⟨_, rfl, rfl⟩
    obtain ⟨hleft, hright⟩ := Bool.and_eq_true_iff.mp htwo
    exact ⟨_, s₂, Parties.exec_run (l := (3, .go)) hinit h₁ h₂, 2, 3, by decide, hleft, hright⟩
  · let s₀ : Parties.State ℕ Db Session :=
      ⟨{ run := { maxCandidates := 10 } },
        fun i => if i = 0 then .call (.queueFailure "OperationalError") else .call .execute⟩
    -- The failing call has read the run, an execution claims it, and the failure is saved.
    obtain ⟨s₁, h₁⟩ : ∃ s₁, P.exec s₀ [(0, .go), (1, .go)] = some s₁ := ⟨_, rfl⟩
    obtain ⟨s₂, h₂⟩ : ∃ s₂, P.move s₁ 0 .go = some s₂ := by
      cases h₁
      exact ⟨_, rfl⟩
    have hinit : CallsOnRun s₀ := by
      intro i
      simp only [s₀]
      split
      · exact ⟨_, rfl, rfl⟩
      · exact ⟨_, rfl, rfl⟩
    refine ⟨_, s₁, 0, s₂, Parties.exec_run (l := (0, .go)) hinit h₁ h₂, ?_⟩
    cases h₁
    cases h₂
    exact ⟨⟨_, rfl⟩, ⟨1, rfl⟩, rfl, rfl⟩

end Odirag.Discovery
