import Odirag.Discovery.Approval

/-!
# Histories of calls

Reference: `SourceDiscoveryService` of `backend/app/services/source_discovery.py`, with
`backend/app/repositories/source_discovery.py`.

The calls on one run one after the other, each going through or raising at any of its steps. In such
a history nobody changes the rows behind the back of a call, so that what a session has read is still
stored (`Session.Holds`).
-/

namespace Odirag.Discovery

open Crawler (NetTools)

/-- The start of a call, or what happens at its next step. -/
inductive Event
  | start (c : Call)
  | act (a : Act)

/-- One event; a call starts when the one before is over. -/
def nextEvent (N : NetTools) (settings : Settings) (s : Db × Session) : Event → Option (Db × Session)
  | .start c =>
      match s.2 with
      | .returned => some (s.1, .call c)
      | _ => none
  | .act a => next N settings a s.1 s.2

/-- A run that was just created, and no call. -/
def NewRun (s : Db × Session) : Prop :=
  s.1.candidates = [] ∧ s.1.sources = [] ∧ s.2 = .returned ∧
    (s.1.run.status = .pending ∨ s.1.run.status = .noGap) ∧
    s.1.run.candidateCount = 0 ∧ s.1.run.approvedCount = 0 ∧ s.1.run.activatedCount = 0

/-- The histories of a run. -/
def histories (N : NetTools) (settings : Settings) : System (Db × Session) Event :=
  .ofNext (nextEvent N settings) NewRun

/-! ## What has been read is still stored -/

/-- A candidate that the counts of approved and activated ones leave out. -/
def CandidateStatus.uncounted (status : CandidateStatus) : Prop :=
  status ≠ .approved ∧ status ≠ .activated

/-- The statuses of a candidate that is still to be decided, or to be activated. -/
def CandidateStatus.waits : CandidateStatus → Bool
  | .pendingApproval | .approved | .activating => true
  | _ => false

/-- A run that waits for an approval has a candidate that somebody has still to deal with. -/
def Db.Attended (db : Db) : Prop :=
  db.run.status = .awaitingApproval → ∃ c ∈ db.candidates, c.status.waits

/-- The run as it is about to be saved. -/
def Purpose.result (db : Db) : Purpose → SourceDiscoveryRun
  | .decision _ _ => db.counts db.run
  | .activation _ => { db.counts db.run with status := .activated }
  | .execution L => concluded db L.processed (db.counts db.run)

/-- What a session has read or is about to write. -/
def Session.Holds (db : Db) : Session → Prop
  | .requeueing run =>
      db.run.status = .failed ∧ run.loaded = db.run ∧
        run.current = { db.run with status := .pending, errorMessage := none }
  | .marking run =>
      db.run.status = .pending ∧ run.loaded = db.run ∧
        ∃ message, run.current = { db.run with status := .failed, errorMessage := message }
  | .failingRun _ late run =>
      (late → db.Attended) ∧ run.loaded = db.run ∧
        ∃ message, run.current = { db.run with status := .failed, errorMessage := message }
  | .deciding d previous => ∀ c ∈ db.candidates, d.applies c → c.status = previous
  | .storing _ _ _ (some id) | .processing _ id _ =>
      ∀ c ∈ db.candidates, c.id = id → c.status.uncounted
  | .counting _ run => run = .fresh db.run
  | .listing _ run => run = (Held.fresh db.run).assign db.counts
  | .saving p run => run.loaded = db.run ∧ run.current = p.result db
  | .saved (.execution _) => db.Attended
  | .rescuing _ late _ => late → db.Attended
  | _ => True

variable {N : NetTools} {settings : Settings} {a : Act} {db db' : Db} {l l' : Session}

theorem holds_modify {id : ℕ} {f : SourceCandidate → SourceCandidate}
    (hf : ∀ c ∈ db.candidates, c.id = id → (f c).status.uncounted) :
    ∀ c ∈ (db.modify id f).candidates, c.id = id → c.status.uncounted := by
  intro c' hc' hid'
  obtain ⟨c, hc, hid, rfl⟩ := Db.mem_modify hc' hid'
  exact hf c hc hid

theorem uncounted_validated (response : Homepage) (check : OfficialCheck) (c : SourceCandidate) :
    (validated response check c).status.uncounted := by
  unfold validated
  split <;> exact ⟨nofun, nofun⟩

theorem uncounted_withColumns (columns : List SourceCandidateColumn) (c : SourceCandidate) :
    (withColumns columns c).status.uncounted := by
  unfold withColumns
  split <;> exact ⟨nofun, nofun⟩

theorem uncounted_scored (c : SourceCandidate) : (scored settings c).status.uncounted := by
  unfold scored
  dsimp only
  split <;> exact ⟨nofun, nofun⟩

/-- An exception before the end of an execution is committed. -/
theorem holds_rescuing (created : Bool) (error : String) :
    (Session.rescuing created false error).Holds db := nofun

theorem holds_raised (p : Purpose) (error : String) : (raised p error false).Holds db := by
  cases p with
  | execution L => exact holds_rescuing _ _
  | decision | activation => trivial

/-- The commit at the end of an execution leaves a run that waits for somebody. -/
theorem attended_concluded {processed : ℕ} {run : SourceDiscoveryRun}
    (hrun : db'.run = concluded db processed run) (hrows : db'.candidates = db.candidates) :
    db'.Attended := by
  intro hstatus
  rw [hrun] at hstatus
  unfold concluded at hstatus
  split at hstatus
  · next hpending =>
      obtain ⟨c, hc, hstatus⟩ := List.any_eq_true.mp hpending
      have hstatus : c.status = .pendingApproval := by simpa using hstatus
      exact ⟨c, hrows ▸ hc, by rw [hstatus]; rfl⟩
  · split at hstatus <;> cases hstatus

/-- Processing a candidate changes at most its row, which the counts of approved and activated ones
go on to leave out. -/
theorem Processes.change {L : Loop} {id : ℕ} {stage : Stage}
    (h : Processes N settings db L id a stage db' l') :
    db' = db ∨ ∃ f, db' = db.modify id f ∧
      ∀ c, c.status.uncounted → (f c).status.uncounted := by
  cases h with
  | unread => exact .inl rfl
  | offline | failing => exact .inr ⟨_, rfl, fun c _ => ⟨nofun, nofun⟩⟩
  | validate => exact .inr ⟨_, rfl, fun c _ => uncounted_validated _ _ c⟩
  | discover => exact .inr ⟨_, rfl, fun c _ => uncounted_withColumns _ c⟩
  | trial | trialFailing => exact .inr ⟨_, rfl, fun c hc => hc⟩
  | score => exact .inr ⟨_, rfl, fun c _ => uncounted_scored c⟩

/-- From a stage of the processing an execution goes on to the next stage or the next result. -/
theorem Processes.session {L : Loop} {id : ℕ} {stage : Stage}
    (h : Processes N settings db L id a stage db' l') :
    l' = .looping L ∨ ∃ stage', l' = .processing L id stage' := by
  cases h with
  | offline | score | failing => exact .inl rfl
  | unread | trial | trialFailing => exact .inr ⟨_, rfl⟩
  | validate =>
      split
      · exact .inr ⟨_, rfl⟩
      · exact .inl rfl
  | discover =>
      split
      · exact .inl rfl
      · exact .inr ⟨_, rfl⟩

theorem holds_process {L : Loop} {id : ℕ} {stage : Stage}
    (hk : (Session.processing L id stage).Holds db)
    (h : Processes N settings db L id a stage db' l') : l'.Holds db' := by
  have huncounted : ∀ c ∈ db'.candidates, c.id = id → c.status.uncounted := by
    rcases h.change with rfl | ⟨f, rfl, hf⟩
    · exact hk
    · exact holds_modify fun c hc hid => hf c (hk c hc hid)
  rcases h.session with rfl | ⟨stage', rfl⟩
  · trivial
  · exact huncounted

theorem holds_takes (hids : (db.candidates.map (·.id)).Nodup) {L : Loop} (h : Takes db L l') :
    l'.Holds db := by
  cases h with
  | finished | skip | new => trivial
  | again L' hcreated hit url hfind hstatus =>
      intro c' hc' hid
      rw [List.inj_on_of_nodup_map hids hc' (List.mem_of_find?_eq_some hfind) hid]
      constructor <;> intro heq <;> simp [heq] at hstatus

theorem holds_begins (hids : (db.candidates.map (·.id)).Nodup) {c : Call}
    (h : Begins db c db' l') : l'.Holds db' := by
  have hrow : ∀ {id : ℕ} {c c' : SourceCandidate}, db.candidate? id = some c →
      c' ∈ db.candidates → c'.id = id → c' = c := by
    intro id c c' hfind hc' hid
    obtain ⟨hc, hcid⟩ := Db.candidate?_some hfind
    exact List.inj_on_of_nodup_map hids hc' hc (hid.trans hcid.symm)
  cases h with
  | refused | execute | activate => trivial
  | retry hfailed => exact ⟨hfailed, rfl, rfl⟩
  | queueFailure errorType hpending => exact ⟨hpending, rfl, _, rfl⟩
  | approve id reviewer hfind =>
      intro c' hc' happlies
      rw [hrow hfind hc' (applies_approve_iff.mp happlies).1]
  | reject id reviewer reason hfind =>
      intro c' hc' happlies
      rw [hrow hfind hc' (applies_reject_iff.mp happlies).1]

theorem Session.Holds.raising (error : String) (hk : l.Holds db) : (l.raising error).Holds db := by
  cases l with
  | processing L id stage =>
      cases stage with
      | validate | discover | trial | trialFailing | score => exact hk
      | failing => exact holds_rescuing _ _
  | searching | looping | storing | listing => exact holds_rescuing _ _
  | recounting p | counting p run | saving p run => exact holds_raised p error
  | saved p =>
      cases p with
      | execution L => exact fun _ => hk
      | decision | activation => trivial
  | _ => trivial

/-- What a session holds after its own step. -/
theorem holds_step (hids : (db.candidates.map (·.id)).Nodup) (hk : l.Holds db)
    (h : next N settings a db l = some (db', l')) : l'.Holds db' := by
  cases moves_of_next h with
  | raises error => exact hk.raising error
  | begin hbegins => exact holds_begins hids hbegins
  | take htakes => exact holds_takes hids htakes
  | create L hit url id hfresh =>
      intro c hc hid
      rcases List.mem_append.mp hc with hold | hnew
      · exact absurd hid (by simpa using List.find?_eq_none.mp hfresh c hold)
      · rw [List.mem_singleton.mp hnew]
        exact ⟨nofun, nofun⟩
  | reset L hit url id => exact holds_modify fun c _ _ => ⟨nofun, nofun⟩
  | process hstep => exact holds_process hk hstep
  | recount p => rfl
  | countDecision | countActivation | conclude =>
      cases hk
      exact ⟨rfl, rfl⟩
  | countExecution =>
      cases hk
      rfl
  | save p run =>
      obtain ⟨hloaded, hcurrent⟩ := hk
      cases p with
      | execution L => exact attended_concluded ((Db.saveRun_fresh hloaded).trans hcurrent) rfl
      | decision | activation => trivial
  | rescue created late error => exact ⟨hk, rfl, _, rfl⟩
  | decide | claim | undo => split <;> trivial
  | requeue | requeued | mark | execute | search | duplicate | claimed | noColumns | columns
  | conflict | flush | finish | fail | failRun => trivial

/-- Only a retry, an execution or a queue failure comes to execute the run. -/
theorem ofRun_of_executing_step (hex : l'.executing)
    (h : next N settings a db l = some (db', l')) : l.ofRun := by
  cases moves_of_next h with
  | raises error => exact ofRun_of_executing (executing_of_raising hex)
  | begin hbegins =>
      cases hbegins with
      | execute | retry | queueFailure => rfl
      | refused | approve | reject | activate => cases hex
  | recount p | save p run =>
      cases p with
      | execution L => rfl
      | decision | activation => cases hex
  | decide | claim | undo => split at hex <;> cases hex
  | claimed | noColumns | columns | conflict | flush | countDecision | countActivation | finish
  | fail => cases hex
  | requeue | requeued | mark | execute | search | take | duplicate | create | reset | process
  | countExecution | conclude | rescue | failRun => rfl

/-- The run stays running while it is executed. -/
theorem running_step (hl : l.executing → db.run.status = .running)
    (h : next N settings a db l = some (db', l')) (hex : l'.executing) :
    db'.run.status = .running := by
  obtain ⟨-, hstep⟩ := run_step (ofRun_of_executing_step hex h) h
  cases hstep with
  | claim hpending hrunning => exact hrunning
  | keep hstatus hexecuting => exact hstatus.trans (hl (hexecuting hex))
  | finish hbefore hafter => exact absurd hex (by simp [hafter])
  | outside houtside hgo hafter => exact absurd hex (by simp [hafter])

/-- No candidate is ever deleted. -/
theorem present_rows (hrows : Rows settings db db' l l') {c : SourceCandidate}
    (hc : c ∈ db.candidates) : ∃ c' ∈ db'.candidates, c'.id = c.id := by
  cases hrows with
  | keep hrows => exact ⟨c, hrows ▸ hc, rfl⟩
  | update p f hrows hid hgate hmay =>
      rw [hrows]
      refine ⟨_, Db.mem_update.mpr ⟨c, hc, rfl⟩, ?_⟩
      split
      · exact hid c
      · rfl
  | create c₁ hrows hfresh hgate hcreated =>
      rw [hrows]
      exact ⟨c, List.mem_append_left _ hc, rfl⟩

/-! ## Histories -/

/-- What holds at every moment of a history. -/
structure Settled (settings : Settings) (s : Db × Session) : Prop where
  ids : (s.1.candidates.map (·.id)).Nodup
  gate : ∀ c ∈ s.1.candidates, c.Gate settings
  knows : s.2.Knows s.1
  present : ∀ id, s.2.owns = some id → ∃ c ∈ s.1.candidates, c.id = id
  running : s.2.executing → s.1.run.status = .running
  holds : s.2.Holds s.1

theorem settled_step {s s' : Db × Session} {e : Event} (hs : Settled settings s)
    (h : (histories N settings).step s e s') : Settled settings s' := by
  obtain ⟨db, l⟩ := s
  cases e with
  | start c =>
      cases l
      all_goals cases h
      exact ⟨hs.ids, hs.gate, trivial, nofun, nofun, trivial⟩
  | act a =>
      have hnext : next N settings a db l = some s' := h
      have hrows := rows_step hs.knows hnext
      refine ⟨ids_rows hrows hs.ids, gate_rows hrows hs.gate,
        knows_step hs.ids hs.gate hs.knows hnext, fun id howns => ?_,
        running_step hs.running hnext, holds_step hs.ids hs.holds hnext⟩
      obtain ⟨c, hc, rfl⟩ : ∃ c ∈ db.candidates, c.id = id := by
        rcases owns_step hnext howns with hbefore | ⟨c, hc, hid, -⟩
        · exact hs.present id hbefore
        · exact ⟨c, hc, hid⟩
      exact present_rows hrows hc

theorem settled_of_history {tr : List ((Db × Session) × Event)} {s : Db × Session}
    (h : (histories N settings).Run System.always tr s) : Settled settings s := by
  refine h.invariant (I := fun _ s => Settled settings s) ?_ ?_
  · rintro ⟨db, l⟩ ⟨hcandidates, -, rfl, -⟩
    have hnone : db.candidates = [] := hcandidates
    exact ⟨by simp [hnone], by simp [hnone], trivial, nofun, nofun, trivial⟩
  · intro tr s e s' _ hs _ hstep
    exact settled_step hs hstep

/-! ## Examples -/

/-- A call that goes through in some steps. -/
def through (c : Call) (steps : ℕ) : List Event :=
  .start c :: List.replicate steps (.act .go)

/-- An execution stores a candidate for an official site and scores it high enough. -/
def siteFound (site : Text × ℕ) : List Act :=
  [.go, .store site.2,
    .homepage (.ok { url := site.1, statusCode := 200, text := str "official" }),
    .columns [{ key := str "notices", label := str "Notices", url := site.1 }],
    .trial [some 400], .go]

/-- An execution that finds official sites, the candidate with id `k` at the `k`-th URL. -/
def findsSites (sites : List Text) : List Event :=
  let hits : List Hit := sites.map fun site =>
    { homepage := some site, domain := site, name := site }
  let acts : List Act :=
    [.go, .go, .search hits] ++ sites.zipIdx.flatMap siteFound ++ List.replicate 6 .go
  .start .execute :: acts.map .act

/-- Whether the call is over. -/
def Session.over : Session → Bool
  | .returned => true
  | _ => false

theorem returned_of_over (h : l.over) : l = .returned := by
  cases l
  all_goals first | rfl | cases h

/-- The events that lead from a new run to a state are a history. -/
theorem history_of_exec {s₀ s : Db × Session} {events : List Event} (h₀ : NewRun s₀)
    (h : System.exec (nextEvent N settings) s₀ events = some s) :
    (histories N settings).Run System.always
      (System.traceOf (nextEvent N settings) s₀ events) s :=
  ⟨s₀, h₀, System.exec_path h⟩

/-- A run that was just created. -/
def newRun : Db × Session := ({ run := { maxCandidates := 10 } }, .returned)

theorem newRun_new : NewRun newRun := ⟨rfl, rfl, rfl, .inl rfl, rfl, rfl, rfl⟩

end Odirag.Discovery
