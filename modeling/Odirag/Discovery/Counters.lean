import Odirag.Discovery.History

/-!
# The counters of a run

Reference: `SourceDiscoveryService` of `backend/app/services/source_discovery.py`, with
`backend/app/repositories/source_discovery.py`.

A run stores how many candidates it has and how many of them are approved and activated. The counters
are computed anew when a decision, an activation or an execution ends, in a commit of their own or, in
an activation, from the rows as they are before that commit; what is not counted again is off by the
`drift` of the session. So the counters are exact between the calls of a history exactly if no call
ends while they are off (`countersExact_iff`): no activation comes to its end at all.
-/

namespace Odirag.Discovery

open Crawler (NetTools plainTools)

/-- The candidates that `approved_count` counts. -/
def countsApproved (c : SourceCandidate) : Bool := c.status = .approved || c.status = .activated

/-- The candidates that `activated_count` counts. -/
def countsActivated (c : SourceCandidate) : Bool := c.status = .activated

/-- The counters are those of the rows. -/
def Db.CountersExact (db : Db) : Prop :=
  db.run.candidateCount = db.candidates.length ∧
    db.run.approvedCount = db.rowcount countsApproved ∧
    db.run.activatedCount = db.rowcount countsActivated

/-- How far the rows are ahead of the counters. -/
structure Drift where
  created : Bool := false
  approved : ℤ := 0
  activated : ℤ := 0
deriving DecidableEq

/-- The rows are ahead of the counters by a drift. -/
structure Db.Off (db : Db) (d : Drift) : Prop where
  candidates : if d.created then db.run.candidateCount < db.candidates.length
    else db.run.candidateCount = db.candidates.length
  approved : (db.rowcount countsApproved : ℤ) = db.run.approvedCount + d.approved
  activated : (db.rowcount countsActivated : ℤ) = db.run.activatedCount + d.activated

/-- What a decision adds to the approved candidates. -/
def Decision.shift (previous : CandidateStatus) : Decision → ℤ
  | .approve _ _ => 1
  | .reject _ _ _ => if previous = .approved then -1 else 0

/-- The drift of a call that counts anew, from its first commit on. -/
def Purpose.drift : Purpose → Drift
  | .decision d previous => { approved := d.shift previous }
  | .activation _ => { approved := -1 }
  | .execution L => { created := L.created }

/-- The drift of a claimed activation that has to be undone. -/
def undoDrift (late : Bool) : Drift :=
  if late then { approved := 1, activated := 1 } else { approved := -1 }

/-- How far the rows are ahead of the counters during a call. -/
def Session.drift : Session → Drift
  | .looping L | .storing L _ _ _ | .processing L _ _ | .listing L _ => { created := L.created }
  | .claimed _ | .inspecting _ | .flushing _ => { approved := -1 }
  | .recounting p | .counting p _ | .saving p _ => p.drift
  | .saved (.activation _) => undoDrift true
  | .undoing _ _ late | .failing _ _ late => undoDrift late
  | .rescuing created false _ | .failingRun created false _ => { created := created }
  | _ => {}

/-- An exception while the counts are refreshed or saved ends a decision. -/
def Purpose.mayRaise : Purpose → Bool
  | .decision d previous => d.shift previous = 0
  | _ => true

/-- A step that does not end a call while the counters are off: no decision raises between its two
commits unless it changes no count, no execution that has stored a candidate fails after it, and no
activation ends, except that one which raises after its last commit is marked as failed. -/
def keepsCounters (l : Session) : Event → Bool
  | .act .go =>
      match l with
      | .saved (.activation _) => false
      | .failing _ _ late => late
      | .failingRun created false _ => !created
      | _ => true
  | .act (.fail _) =>
      match l with
      | .recounting p | .counting p _ | .saving p _ => p.mayRaise
      | .claimed _ | .undoing _ _ _ | .failing _ _ _ => false
      | .rescuing created false _ | .failingRun created false _ => !created
      | _ => true
  | _ => true

/-! ## Drifts -/

variable {N : NetTools} {settings : Settings} {a : Act} {db db' : Db} {l l' : Session}

theorem off_none_iff : db.Off {} ↔ db.CountersExact := by
  constructor
  · rintro ⟨hcandidates, happroved, hactivated⟩
    simp only [Bool.false_eq_true, if_false] at hcandidates
    dsimp only at happroved hactivated
    exact ⟨hcandidates, by omega, by omega⟩
  · rintro ⟨hcandidates, happroved, hactivated⟩
    exact ⟨by simpa using hcandidates, by simp [happroved], by simp [hactivated]⟩

/-- The drift is determined. -/
theorem Db.Off.unique {d d' : Drift} (h : db.Off d) (h' : db.Off d') : d = d' := by
  obtain ⟨created, approved, activated⟩ := d
  obtain ⟨created', approved', activated'⟩ := d'
  have happroved : approved = approved' := by
    have := h.approved
    have := h'.approved
    dsimp only at *
    omega
  have hactivated : activated = activated' := by
    have := h.activated
    have := h'.activated
    dsimp only at *
    omega
  have hcreated : created = created' := by
    have hlt := h.candidates
    have hlt' := h'.candidates
    cases created <;> cases created' <;> simp at hlt hlt' ⊢ <;> omega
  rw [happroved, hactivated, hcreated]

/-- The counters of a run, without the rest of it. -/
def SourceDiscoveryRun.SameCounters (run run' : SourceDiscoveryRun) : Prop :=
  run'.candidateCount = run.candidateCount ∧ run'.approvedCount = run.approvedCount ∧
    run'.activatedCount = run.activatedCount

theorem Db.Off.of_sameCounters {d : Drift} (h : db.Off d) (hrows : db'.candidates = db.candidates)
    (hrun : db.run.SameCounters db'.run) : db'.Off d := by
  obtain ⟨hcandidates, happroved, hactivated⟩ := hrun
  have hcount : ∀ p, db'.rowcount p = db.rowcount p := by
    intro p
    unfold Db.rowcount
    rw [hrows]
  exact ⟨by rw [hcandidates, hrows]; exact h.candidates, by rw [hcount, happroved]; exact h.approved,
    by rw [hcount, hactivated]; exact h.activated⟩

/-- Saving a run with the same counters. -/
theorem Db.Off.of_saveRun {d : Drift} (h : db.Off d) {run : Held SourceDiscoveryRun}
    (hloaded : run.loaded = db.run) (hcurrent : db.run.SameCounters run.current) :
    (db.saveRun run).Off d :=
  h.of_sameCounters rfl (by rwa [Db.saveRun_fresh hloaded])

/-- The drift after a row has changed its status. -/
def Drift.moved (d : Drift) (before after : CandidateStatus) : Drift :=
  { d with
    approved := d.approved
      + (if after = .approved ∨ after = .activated then 1 else 0)
      - (if before = .approved ∨ before = .activated then 1 else 0)
    activated := d.activated
      + (if after = .activated then 1 else 0) - (if before = .activated then 1 else 0) }

/-- The change of the one row that meets a condition. -/
theorem Db.Off.update {d : Drift} (h : db.Off d) (before after : CandidateStatus)
    {p : SourceCandidate → Bool} {f : SourceCandidate → SourceCandidate}
    (hone : db.rowcount p = 1)
    (hchange : ∀ c ∈ db.candidates, p c → c.status = before ∧ (f c).status = after) :
    (db.update p f).Off (d.moved before after) := by
  have happroved : (db.update p f).rowcount countsApproved
        + (if before = .approved || before = .activated then db.rowcount p else 0)
      = db.rowcount countsApproved
        + (if after = .approved || after = .activated then db.rowcount p else 0) := by
    refine Db.rowcount_update fun c hc hpc => ?_
    obtain ⟨hbefore, hafter⟩ := hchange c hc hpc
    simp [countsApproved, hbefore, hafter]
  have hactivated : (db.update p f).rowcount countsActivated
        + (if decide (before = .activated) then db.rowcount p else 0)
      = db.rowcount countsActivated
        + (if decide (after = .activated) then db.rowcount p else 0) := by
    refine Db.rowcount_update fun c hc hpc => ?_
    obtain ⟨hbefore, hafter⟩ := hchange c hc hpc
    simp [countsActivated, hbefore, hafter]
  have hbeforeApproved := h.approved
  have hbeforeActivated := h.activated
  rw [hone] at happroved hactivated
  simp only [Bool.or_eq_true, decide_eq_true_eq] at happroved hactivated
  refine ⟨?_, ?_, ?_⟩
  · have hlength : (db.update p f).candidates.length = db.candidates.length := List.length_map _
    simpa [hlength, Drift.moved] using h.candidates
  · simp only [Db.update_run, Drift.moved]
    split_ifs at happroved ⊢ <;> omega
  · simp only [Db.update_run, Drift.moved]
    split_ifs at hactivated ⊢ <;> omega

/-! ## One step -/

/-- The counters after a step are off by the drift of the session exactly if that is the drift of
the rows. -/
theorem off_iff {d : Drift} {keeps : Prop} (h : db'.Off d) (hiff : l'.drift = d ↔ keeps) :
    db'.Off l'.drift ↔ keeps :=
  ⟨fun h' => hiff.mp (h'.unique h), fun hk => hiff.mpr hk ▸ h⟩

/-- The counters are exact after they were counted anew. -/
theorem off_counts {run : SourceDiscoveryRun} (hrows : db'.candidates = db.candidates)
    (hrun : (db.counts run).SameCounters db'.run) : db'.Off {} := by
  obtain ⟨hcandidates, happroved, hactivated⟩ := hrun
  have hcount : ∀ p, db'.rowcount p = db.rowcount p := by
    intro p
    unfold Db.rowcount
    rw [hrows]
  refine off_none_iff.mpr ⟨?_, ?_, ?_⟩
  · rw [hcandidates, hrows]
    rfl
  · rw [happroved, hcount]
    rfl
  · rw [hactivated, hcount]
    rfl

theorem sameCounters_concluded (processed : ℕ) (run : SourceDiscoveryRun) :
    run.SameCounters (concluded db processed run) := by
  unfold concluded
  repeat' split
  all_goals exact ⟨rfl, rfl, rfl⟩

/-- The commit of a call that has counted anew. -/
theorem off_saving {p : Purpose} {run : Held SourceDiscoveryRun}
    (hs : Settled settings (db, .saving p run)) :
    (commit p run db).Off (Session.saved p).drift := by
  obtain ⟨hloaded, hcurrent⟩ := hs.holds
  have hrun : (db.saveRun run).run = p.result db := (Db.saveRun_fresh hloaded).trans hcurrent
  cases p with
  | decision d previous =>
      have hcounters : (db.counts db.run).SameCounters (db.saveRun run).run := by
        rw [hrun]
        exact ⟨rfl, rfl, rfl⟩
      exact off_counts rfl hcounters
  | execution L =>
      have hcounters : (db.counts db.run).SameCounters (db.saveRun run).run := by
        rw [hrun]
        exact sameCounters_concluded _ _
      exact off_counts rfl hcounters
  | activation source =>
      obtain ⟨c, hc, hid⟩ := hs.present source.candidateId rfl
      have hsaved : (db.saveRun run).Off {} := by
        have hcounters : (db.counts db.run).SameCounters (db.saveRun run).run := by
          rw [hrun]
          exact ⟨rfl, rfl, rfl⟩
        exact off_counts rfl hcounters
      have hone : (db.saveRun run).rowcount (fun c => c.id = source.candidateId) = 1 :=
        hid ▸ @Db.rowcount_id (db.saveRun run) hs.ids c hc
      have hactivated := hsaved.update (f := activated db.sources.length) .activating .activated hone
        fun c hc hp => ⟨hs.knows.1 c hc (by simpa using hp), rfl⟩
      exact hactivated.of_sameCounters rfl ⟨rfl, rfl, rfl⟩

/-- The update of a decision. -/
theorem off_deciding {d : Decision} {previous : CandidateStatus}
    (hs : Settled settings (db, .deciding d previous)) (hoff : db.Off {}) :
    (db.update d.applies d.change).Off
      (if db.rowcount d.applies = 1 then (Purpose.decision d previous).drift else {}) := by
  split
  · next hone =>
      obtain ⟨c, hc, happlies⟩ := List.countP_pos_iff.mp (hone ▸ Nat.one_pos)
      have hprevious : c.status = previous := hs.holds c hc happlies
      cases d with
      | approve id reviewer =>
          exact hoff.update .pendingApproval .approved hone
            fun c _ happlies => ⟨(applies_approve_iff.mp happlies).2, rfl⟩
      | reject id reviewer reason =>
          have hupdated := hoff.update (f := (Decision.reject id reviewer reason).change) previous
            .rejected hone fun c hc happlies => ⟨hs.holds c hc happlies, rfl⟩
          have hdrift : Drift.moved {} previous .rejected
              = (Purpose.decision (.reject id reviewer reason) previous).drift := by
            rcases (applies_reject_iff.mp happlies).2 with hstatus | hstatus
            · rw [← hprevious, hstatus]
              rfl
            · rw [← hprevious, hstatus]
              rfl
          exact hdrift ▸ hupdated
  · next hne =>
      have hrows : (db.update d.applies d.change).candidates = db.candidates := by
        cases d with
        | approve id reviewer =>
            exact Db.update_of_rowcount_ne hs.ids id (fun c h => (applies_approve_iff.mp h).1) hne _
        | reject id reviewer reason =>
            exact Db.update_of_rowcount_ne hs.ids id (fun c h => (applies_reject_iff.mp h).1) hne _
      exact hoff.of_sameCounters hrows ⟨rfl, rfl, rfl⟩

/-- The claim of an activation. -/
theorem off_claiming {id : ℕ} (hids : (db.candidates.map (·.id)).Nodup) (hoff : db.Off {}) :
    (db.update (claimable id) activating).Off
      (if db.rowcount (claimable id) = 1 then { approved := -1 } else {}) := by
  split
  · next hone =>
      exact hoff.update .approved .activating hone
        fun c _ hclaim => ⟨(claimable_iff.mp hclaim).2, rfl⟩
  · next hne =>
      exact hoff.of_sameCounters
        (Db.update_of_rowcount_ne hids id (fun c h => (claimable_iff.mp h).1) hne _) ⟨rfl, rfl, rfl⟩

/-- A claimed candidate is marked as failed: what the claim has taken off stays off, and an
activation that was committed is taken back. -/
theorem off_failing {id : ℕ} {reason : String} {late : Bool}
    (hs : Settled settings (db, .failing id reason late)) (hoff : db.Off (undoDrift late)) :
    (db.modify id (activationFailed reason)).Off (if late then {} else { approved := -1 }) := by
  obtain ⟨c, hc, rfl⟩ := hs.present id rfl
  have hone := Db.rowcount_id hs.ids hc
  cases late with
  | false =>
      exact hoff.update (f := activationFailed reason) .activating .failed hone
        fun c' hc' hp => ⟨hs.knows c' hc' (by simpa using hp), rfl⟩
  | true =>
      exact hoff.update (f := activationFailed reason) .activated .failed hone
        fun c' hc' hp => ⟨hs.knows c' hc' (by simpa using hp), rfl⟩

/-- A change of a row that is not counted, before and after. -/
theorem off_uncounted {d : Drift} (hoff : db.Off d) {id : ℕ}
    {f : SourceCandidate → SourceCandidate}
    (hf : ∀ c ∈ db.candidates, c.id = id → c.status.uncounted ∧ (f c).status.uncounted) :
    (db.modify id f).Off d := by
  have hcount : ∀ q : SourceCandidate → Bool, (∀ c, c.status.uncounted → q c = false) →
      (db.modify id f).rowcount q = db.rowcount q := by
    intro q hq
    refine Db.rowcount_update_same fun c hc hp => ?_
    obtain ⟨hbefore, hafter⟩ := hf c hc (by simpa using hp)
    rw [hq c hbefore, hq (f c) hafter]
  refine ⟨?_, ?_, ?_⟩
  · have hlength : (db.modify id f).candidates.length = db.candidates.length := List.length_map _
    rw [hlength]
    exact hoff.candidates
  · rw [hcount countsApproved fun c hc => by simp [countsApproved, hc.1, hc.2]]
    exact hoff.approved
  · rw [hcount countsActivated fun c hc => by simp [countsActivated, hc.2]]
    exact hoff.activated

/-- A new candidate. -/
theorem off_created {created : Bool} (hoff : db.Off { created := created }) {c : SourceCandidate}
    (hrows : db'.candidates = db.candidates ++ [c]) (hrun : db'.run = db.run)
    (hc : c.status.uncounted) : db'.Off { created := true } := by
  have hcount : ∀ q : SourceCandidate → Bool, q c = false → db'.rowcount q = db.rowcount q := by
    intro q hq
    unfold Db.rowcount
    rw [hrows, List.countP_append, List.countP_singleton, hq]
    rfl
  have hle : db.run.candidateCount ≤ db.candidates.length := by
    have hcandidates := hoff.candidates
    cases created <;> simp at hcandidates <;> omega
  refine ⟨?_, ?_, ?_⟩
  · rw [hrun, hrows, List.length_append]
    exact Nat.lt_succ_of_le hle
  · rw [hrun, hcount countsApproved (by simp [countsApproved, hc.1, hc.2])]
    exact hoff.approved
  · rw [hrun, hcount countsActivated (by simp [countsActivated, hc.2])]
    exact hoff.activated

theorem Takes.drift {L : Loop} (h : Takes db L l') : l'.drift = { created := L.created } := by
  cases h with
  | finished => rfl
  | skip L' hcreated | new L' hcreated | again L' hcreated =>
      rw [← hcreated]
      rfl

/-- Processing a candidate changes no count. -/
theorem off_process {L : Loop} {id : ℕ} {stage : Stage}
    (hs : Settled settings (db, .processing L id stage)) (hoff : db.Off { created := L.created })
    (h : Processes N settings db L id a stage db' l') :
    db'.Off { created := L.created } ∧ l'.drift = { created := L.created } := by
  constructor
  · rcases h.change with rfl | ⟨f, rfl, hf⟩
    · exact hoff
    · exact off_uncounted hoff fun c hc hid => ⟨hs.holds c hc hid, hf c (hs.holds c hc hid)⟩
  · rcases h.session with rfl | ⟨stage', rfl⟩
    all_goals rfl

theorem drift_ne_claimed : ({} : Drift) ≠ { approved := -1 } := by decide

theorem drift_ne_undoDrift (late : Bool) : ({} : Drift) ≠ undoDrift late := by
  cases late <;> decide

theorem drift_eq_created {created : Bool} : ({} : Drift) = { created := created } ↔ (!created) := by
  cases created <;> decide

/-- An exception before the counts are saved. -/
theorem drift_raised (p : Purpose) (error : String) :
    (raised p error false).drift = p.drift ↔ p.mayRaise = true := by
  cases p with
  | decision d previous =>
      change ({} : Drift) = { approved := d.shift previous } ↔ decide (d.shift previous = 0) = true
      simp [eq_comm]
  | activation source => exact iff_of_true rfl rfl
  | execution L => exact iff_of_true rfl rfl

/-- An exception keeps the drift of a call unless it ends the call too early. -/
theorem drift_raising (l : Session) (error : String) :
    (l.raising error).drift = l.drift ↔ keepsCounters l (.act (.fail error)) = true := by
  cases l with
  | processing L id stage =>
      cases stage with
      | validate | discover | trial | trialFailing | score | failing => exact iff_of_true rfl rfl
  | recounting p | counting p run | saving p run => exact drift_raised p error
  | saved p =>
      cases p with
      | decision | activation | execution => exact iff_of_true rfl rfl
  | claimed id => exact iff_of_false drift_ne_claimed nofun
  | undoing id reason late | failing id reason late =>
      exact iff_of_false (drift_ne_undoDrift late) nofun
  | rescuing created late error | failingRun created late run =>
      cases late with
      | false => exact drift_eq_created
      | true => exact iff_of_true rfl rfl
  | _ => exact iff_of_true rfl rfl

/-- A step of a call whose counters are off by its drift leaves them off by the drift of the call
again, exactly if it is none of those that end a call too early. -/
theorem off_step (hs : Settled settings (db, l)) (hoff : db.Off l.drift)
    (h : next N settings a db l = some (db', l')) :
    db'.Off l'.drift ↔ keepsCounters l (.act a) = true := by
  cases moves_of_next h with
  | raises error => exact off_iff hoff (drift_raising l error)
  | begin hbegins =>
      cases hbegins with
      | refused | retry | execute | queueFailure | approve | reject | activate =>
          exact off_iff (hoff.of_sameCounters rfl ⟨rfl, rfl, rfl⟩) (iff_of_true rfl rfl)
  | requeue run =>
      obtain ⟨-, hloaded, hcurrent⟩ := hs.holds
      exact off_iff (hoff.of_saveRun hloaded (by rw [hcurrent]; exact ⟨rfl, rfl, rfl⟩))
        (iff_of_true rfl rfl)
  | mark run =>
      obtain ⟨-, hloaded, message, hcurrent⟩ := hs.holds
      exact off_iff (hoff.of_saveRun hloaded (by rw [hcurrent]; exact ⟨rfl, rfl, rfl⟩))
        (iff_of_true rfl rfl)
  | failRun created late run =>
      obtain ⟨-, hloaded, message, hcurrent⟩ := hs.holds
      have hsaved := hoff.of_saveRun hloaded (by rw [hcurrent]; exact ⟨rfl, rfl, rfl⟩)
      cases late with
      | false => exact off_iff hsaved drift_eq_created
      | true => exact off_iff hsaved (iff_of_true rfl rfl)
  | take htakes => exact off_iff hoff (iff_of_true htakes.drift rfl)
  | create => exact off_iff (off_created hoff rfl rfl ⟨nofun, nofun⟩) (iff_of_true rfl rfl)
  | reset =>
      exact off_iff (off_uncounted hoff fun c hc hid => ⟨hs.holds c hc hid, nofun, nofun⟩)
        (iff_of_true rfl rfl)
  | process hstep =>
      obtain ⟨hoff', hdrift⟩ := off_process hs hoff hstep
      exact off_iff hoff' (iff_of_true hdrift (by cases a <;> rfl))
  | decide d previous =>
      refine off_iff (off_deciding hs hoff) (iff_of_true ?_ rfl)
      split <;> rfl
  | claim id =>
      refine off_iff (off_claiming hs.ids hoff) (iff_of_true ?_ rfl)
      split <;> rfl
  -- From here on a run is saved with the counts, or a call ends without having saved it.
  | save p run => exact off_iff (off_saving hs) (iff_of_true rfl rfl)
  | finish p =>
      cases p with
      | activation source => exact off_iff hoff (iff_of_false (drift_ne_undoDrift true) nofun)
      | decision | execution => exact off_iff hoff (iff_of_true rfl rfl)
  | undo id reason late =>
      obtain ⟨c, hc, hid⟩ := hs.present id rfl
      have hfound : (db.candidate? id).isSome := List.find?_isSome.mpr ⟨c, hc, by simpa using hid⟩
      rw [if_pos hfound]
      exact off_iff hoff (iff_of_true rfl rfl)
  | fail id reason late =>
      refine off_iff (off_failing hs hoff) ?_
      cases late with
      | true => exact iff_of_true rfl rfl
      | false => exact iff_of_false drift_ne_claimed nofun
  | rescue created late error =>
      cases late with
      | false | true => exact off_iff hoff (iff_of_true rfl rfl)
  | requeued | execute | search | duplicate | claimed | noColumns | columns | conflict | flush
  | recount | countDecision | countActivation | countExecution | conclude =>
      exact off_iff hoff (iff_of_true rfl rfl)

/-- An exception that does not keep the counters ends the call. -/
theorem returned_of_raising {l : Session} {error : String}
    (h : keepsCounters l (.act (.fail error)) = false) : l.raising error = .returned := by
  cases l with
  | recounting p | counting p run | saving p run =>
      cases p with
      | decision d previous => rfl
      | activation | execution => cases h
  | claimed | undoing | failing | rescuing | failingRun => rfl
  | _ => cases h

/-- The other steps end the call. -/
theorem returned_of_not_keepsCounters (h : next N settings a db l = some (db', l'))
    (hkeeps : keepsCounters l (.act a) = false) : l' = .returned := by
  cases moves_of_next h with
  | raises error => exact returned_of_raising hkeeps
  | finish | fail | failRun => rfl
  | process hstep => cases a <;> cases hkeeps
  | _ => cases hkeeps

/-! ## Histories -/

theorem off_event {s s' : Db × Session} {e : Event} (hs : Settled settings s)
    (hoff : s.1.Off s.2.drift) (h : (histories N settings).step s e s') :
    (s'.1.Off s'.2.drift ↔ keepsCounters s.2 e = true) ∧
      (keepsCounters s.2 e = true ∨ s'.2 = .returned) := by
  obtain ⟨db, l⟩ := s
  obtain ⟨db', l'⟩ := s'
  cases e with
  | start c =>
      cases l
      all_goals cases h
      exact ⟨iff_of_true hoff rfl, .inl rfl⟩
  | act a =>
      refine ⟨off_step hs hoff h, ?_⟩
      by_cases hkeeps : keepsCounters l (.act a) = true
      · exact .inl hkeeps
      · exact .inr (returned_of_not_keepsCounters h (by simpa using hkeeps))

theorem off_newRun {s : Db × Session} (h : NewRun s) : s.1.Off s.2.drift := by
  obtain ⟨db, l⟩ := s
  obtain ⟨hcandidates, -, rfl, -, hcandidate, happroved, hactivated⟩ := h
  dsimp only at *
  refine off_none_iff.mpr ⟨by rw [hcandidate, hcandidates]; rfl, ?_, ?_⟩
  · rw [happroved, Db.rowcount, hcandidates]
    rfl
  · rw [hactivated, Db.rowcount, hcandidates]
    rfl

/-- **Exact counters.** After every completed call of a history the counters of the run are those of
its candidates, exactly if no step of the history ends a call while they are off. -/
theorem countersExact_iff {tr : List ((Db × Session) × Event)} {s : Db × Session}
    (h : (histories N settings).Run System.always tr s) :
    (∀ tr' s', System.Position s tr tr' s' → s'.2 = .returned → s'.1.CountersExact) ↔
      ∀ s₁ e, (s₁, e) ∈ tr → keepsCounters s₁.2 e = true := by
  have hexact : ∀ s' : Db × Session, s'.2 = .returned →
      (s'.1.Off s'.2.drift ↔ s'.1.CountersExact) := by
    intro s' hreturned
    rw [hreturned]
    exact off_none_iff
  have hevery := h.everywhere_iff (I := fun _ s => s.1.Off s.2.drift)
    (C := fun s e => keepsCounters s.2 e = true) (fun s hnew => off_newRun hnew)
    fun tr s e s' hrun hbefore hstep => (off_event (settled_of_history hrun) hbefore hstep).1
  refine ⟨fun hobs => hevery.mp ?_, fun hall tr' s' hpos hreturned =>
    (hexact s' hreturned).mp (hevery.mpr hall tr' s' hpos)⟩
  refine h.everywhere_of_landing (I := fun s => s.1.Off s.2.drift) (O := fun s => s.2 = .returned)
    (fun s hnew => off_newRun hnew) ?_
    fun tr' s' hpos hreturned => (hexact s' hreturned).mpr (hobs tr' s' hpos hreturned)
  intro tr s e s' hrun hstep hbefore
  obtain ⟨hiff, hkeeps⟩ := off_event (settled_of_history hrun) hbefore hstep
  exact hkeeps.imp_left hiff.mpr

instance (db : Db) : Decidable db.CountersExact :=
  inferInstanceAs (Decidable (_ ∧ _ ∧ _))

/-- Two sites are found, one is approved and one rejected. -/
theorem countersExact_iff_decided :
    ∃ s : Db × Session, s.1.run.candidateCount = 2 ∧ s.1.run.approvedCount = 1 ∧
      s.1.CountersExact := by
  let events : List Event :=
    findsSites (strs ["https://a.gov.cn/", "https://b.gov.cn/"])
      ++ through (.approve 0 "admin") 6 ++ through (.reject 1 "admin" "duplicate") 6
  have hend : ((System.exec (nextEvent plainTools {}) newRun events).map fun s =>
      s.2.over && s.1.run.candidateCount = 2 && s.1.run.approvedCount = 1) = some true := by
    decide +kernel
  have hkeeps : ∀ e ∈ System.traceOf (nextEvent plainTools {}) newRun events,
      keepsCounters e.1.2 e.2 = true := by
    decide +kernel
  obtain ⟨s, hs, hend⟩ := Option.map_eq_some_iff.mp hend
  obtain ⟨⟨hover, hcandidates⟩, happroved⟩ := by simpa using hend
  exact ⟨s, hcandidates, happroved,
    (countersExact_iff (history_of_exec newRun_new hs)).mpr (fun s₁ e he => hkeeps (s₁, e) he)
      _ _ .last (returned_of_over hover)⟩

/-- One candidate is approved and activated, every step goes through: afterwards the run counts no
approved and no activated candidate. -/
theorem activation_not_counted :
    ∃ tr s, (histories plainTools {}).Run System.always tr s ∧ s.2 = .returned ∧
      (∃ c ∈ s.1.candidates, c.status = .activated) ∧ s.1.run.approvedCount = 0 ∧
      s.1.run.activatedCount = 0 ∧ ¬ s.1.CountersExact := by
  let events : List Event :=
    findsSites (strs ["https://a.gov.cn/"]) ++ through (.approve 0 "admin") 6
      ++ through (.activate 0) 9
  have hend : ((System.exec (nextEvent plainTools {}) newRun events).map fun s =>
      s.2.over && (s.1.candidates.any fun c => c.status = .activated) && s.1.run.approvedCount = 0
        && s.1.run.activatedCount = 0 && !decide s.1.CountersExact) = some true := by
    decide +kernel
  obtain ⟨s, hs, hend⟩ := Option.map_eq_some_iff.mp hend
  obtain ⟨⟨⟨⟨hover, hactivated⟩, happrovedCount⟩, hactivatedCount⟩, hexact⟩ := by simpa using hend
  exact ⟨_, s, history_of_exec newRun_new hs, returned_of_over hover, hactivated, happrovedCount,
    hactivatedCount, hexact⟩

end Odirag.Discovery
