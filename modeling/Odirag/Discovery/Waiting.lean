import Odirag.Discovery.History

/-!
# Waiting for somebody

Reference: `SourceDiscoveryService` of `backend/app/services/source_discovery.py`, with
`backend/app/repositories/source_discovery.py`.

A run waits for an approval as long as one of its candidates is to be decided or to be activated. The
end of an execution sees to that, and a successful activation ends the wait; but neither a rejection
nor a failed activation looks at the candidates that remain, and when it takes the last one away the
run waits for nobody, from then on for ever. So a history leaves its run attended exactly if no
rejection and no failed activation takes the last candidate away (`attended_iff`).
-/

namespace Odirag.Discovery

open Crawler (NetTools plainTools)

/-- The candidates that a step rejects or marks as failed. -/
def dropped (l : Session) : Event → Option (SourceCandidate → Bool)
  | .act .go =>
      match l with
      | .deciding (.reject id reviewer reason) _ => some (Decision.reject id reviewer reason).applies
      | .failing id _ _ => some fun c => c.id = id
      | _ => none
  | _ => none

/-- A step that rejects a candidate or marks it as failed while the run waits for an approval leaves
another candidate that somebody has still to deal with. -/
def LeavesSomebody (s : Db × Session) (e : Event) : Prop :=
  ∀ p ∈ dropped s.2 e, s.1.run.status = .awaitingApproval →
    ∃ c ∈ s.1.candidates, c.status.waits ∧ p c = false

theorem leavesSomebody_of_none {s : Db × Session} {e : Event} (h : dropped s.2 e = none) :
    LeavesSomebody s e := by
  intro p hp
  rw [h] at hp
  cases hp

theorem leavesSomebody_iff {s : Db × Session} {e : Event} {p : SourceCandidate → Bool}
    (h : dropped s.2 e = some p) :
    LeavesSomebody s e ↔ (s.1.run.status = .awaitingApproval →
      ∃ c ∈ s.1.candidates, c.status.waits ∧ p c = false) := by
  unfold LeavesSomebody
  rw [h]
  exact ⟨fun hall => hall p rfl, fun hp q hq => by cases hq; exact hp⟩

/-! ## One step -/

variable {N : NetTools} {settings : Settings} {a : Act} {db db' : Db} {l l' : Session}

/-- A run that does not wait is attended. -/
theorem attended_of_status {status : RunStatus} (h : db.run.status = status)
    (hne : status ≠ .awaitingApproval) : db.Attended := fun hstatus => absurd (h ▸ hstatus) hne

/-- What one step does to a run: it is attended afterwards exactly if it was before and the step
leaves somebody. -/
def KeepsAttended (db db' : Db) (leaves : Prop) : Prop := db'.Attended ↔ db.Attended ∧ leaves

/-- A step that changes neither the status of the run nor its candidates. -/
theorem keepsAttended_same {leaves : Prop} (hstatus : db'.run.status = db.run.status)
    (hrows : db'.candidates = db.candidates) (hleaves : leaves) : KeepsAttended db db' leaves := by
  unfold KeepsAttended Db.Attended
  rw [hstatus, hrows]
  exact (and_iff_left hleaves).symm

/-- A step before and after which the run is attended. -/
theorem keepsAttended_both {leaves : Prop} (h : db.Attended) (h' : db'.Attended)
    (hleaves : leaves) : KeepsAttended db db' leaves := iff_of_true h' ⟨h, hleaves⟩

/-- A change of a row that waits, to one that waits. -/
theorem keepsAttended_update {leaves : Prop} {p : SourceCandidate → Bool}
    {f : SourceCandidate → SourceCandidate} (hp : ∀ c ∈ db.candidates, p c → c.status.waits)
    (hf : ∀ c, (f c).status.waits) (hleaves : leaves) :
    KeepsAttended db (db.update p f) leaves := by
  refine ⟨fun h => ⟨fun hstatus => ?_, hleaves⟩, fun ⟨h, _⟩ hstatus => ?_⟩
  · obtain ⟨c', hc', hwaits⟩ := h hstatus
    obtain ⟨c, hc, rfl⟩ := Db.mem_update.mp hc'
    by_cases hpc : p c
    · exact ⟨c, hc, hp c hc hpc⟩
    · exact ⟨c, hc, by simpa [hpc] using hwaits⟩
  · obtain ⟨c, hc, hwaits⟩ := h hstatus
    refine ⟨_, Db.mem_update.mpr ⟨c, hc, rfl⟩, ?_⟩
    split
    · exact hf c
    · exact hwaits

/-- A change of rows to ones that nobody waits for: somebody is left among the others. -/
theorem keepsAttended_drop {leaves : Prop} {p : SourceCandidate → Bool}
    {f : SourceCandidate → SourceCandidate} (hf : ∀ c, (f c).status.waits = false)
    (hleaves : leaves ↔ (db.run.status = .awaitingApproval →
      ∃ c ∈ db.candidates, c.status.waits ∧ p c = false)) :
    KeepsAttended db (db.update p f) leaves := by
  refine ⟨fun h => ?_, fun ⟨_, h⟩ hstatus => ?_⟩
  · have hleft : db.run.status = .awaitingApproval →
        ∃ c ∈ db.candidates, c.status.waits ∧ p c = false := by
      intro hstatus
      obtain ⟨c', hc', hwaits⟩ := h hstatus
      obtain ⟨c, hc, rfl⟩ := Db.mem_update.mp hc'
      by_cases hpc : p c
      · simp [hpc, hf c] at hwaits
      · exact ⟨c, hc, by simpa [hpc] using hwaits, by simpa using hpc⟩
    refine ⟨fun hstatus => ?_, hleaves.mpr hleft⟩
    obtain ⟨c, hc, hwaits, -⟩ := hleft hstatus
    exact ⟨c, hc, hwaits⟩
  · obtain ⟨c, hc, hwaits, hpc⟩ := hleaves.mp h hstatus
    exact ⟨c, Db.mem_update.mpr ⟨c, hc, by simp [hpc]⟩, hwaits⟩

/-- While a run is executed, it is attended. -/
theorem keepsAttended_executing (hs : Settled settings (db, l)) (hs' : Settled settings (db', l'))
    (hl : l.executing) (hl' : l'.executing) {leaves : Prop} (hleaves : leaves) :
    KeepsAttended db db' leaves :=
  keepsAttended_both (attended_of_status (hs.running hl) nofun)
    (attended_of_status (hs'.running hl') nofun) hleaves

/-- Saving the run ends the wait or keeps its status. -/
theorem attended_saving {p : Purpose} {run : Held SourceDiscoveryRun} {leaves : Prop}
    (hs : Settled settings (db, .saving p run))
    (hs' : Settled settings (commit p run db, .saved p)) (hleaves : leaves) :
    KeepsAttended db (commit p run db) leaves := by
  obtain ⟨hloaded, hcurrent⟩ := hs.holds
  have hrun : (db.saveRun run).run = p.result db := (Db.saveRun_fresh hloaded).trans hcurrent
  cases p with
  | decision d previous =>
      have hstatus : (db.saveRun run).run.status = db.run.status := by
        rw [hrun]
        rfl
      exact keepsAttended_same hstatus rfl hleaves
  | activation source =>
      obtain ⟨c, hc, hid⟩ := hs.present source.candidateId rfl
      have hstatus : c.status = .activating := hs.knows.1 c hc hid
      have hactivated : (db.saveRun run).run.status = .activated := by
        rw [hrun]
        rfl
      exact keepsAttended_both (fun _ => ⟨c, hc, by rw [hstatus]; rfl⟩)
        (attended_of_status hactivated nofun) hleaves
  | execution L =>
      exact keepsAttended_both (attended_of_status (hs.running rfl) nofun) hs'.holds hleaves

/-- Saving a run that waited for nobody, with a status in which it does not wait. -/
theorem keepsAttended_saveRun {run : Held SourceDiscoveryRun} {leaves : Prop}
    (hbefore : db.Attended) (hloaded : run.loaded = db.run)
    (hstatus : run.current.status ≠ .awaitingApproval) (hleaves : leaves) :
    KeepsAttended db (db.saveRun run) leaves :=
  keepsAttended_both hbefore
    (attended_of_status (congrArg SourceDiscoveryRun.status (Db.saveRun_fresh hloaded)) hstatus)
    hleaves

/-- A step keeps a run attended exactly if it leaves somebody, and never makes up for one that did
not. -/
theorem attended_step (hs : Settled settings (db, l)) (hs' : Settled settings (db', l'))
    (h : next N settings a db l = some (db', l')) :
    KeepsAttended db db' (LeavesSomebody (db, l) (.act a)) := by
  cases moves_of_next h with
  | begin hbegins =>
      cases hbegins with
      | execute hpending =>
          exact keepsAttended_both (attended_of_status hpending nofun)
            (attended_of_status rfl nofun) (leavesSomebody_of_none rfl)
      | refused | retry | queueFailure | approve | reject | activate =>
          exact keepsAttended_same rfl rfl (leavesSomebody_of_none rfl)
  | requeue run =>
      obtain ⟨hfailed, hloaded, hcurrent⟩ := hs.holds
      exact keepsAttended_saveRun (attended_of_status hfailed nofun) hloaded
        (by rw [hcurrent]; nofun) (leavesSomebody_of_none rfl)
  | mark run =>
      obtain ⟨hpending, hloaded, message, hcurrent⟩ := hs.holds
      exact keepsAttended_saveRun (attended_of_status hpending nofun) hloaded
        (by rw [hcurrent]; nofun) (leavesSomebody_of_none rfl)
  | failRun created late run =>
      obtain ⟨hlate, hloaded, message, hcurrent⟩ := hs.holds
      -- A failure that comes late has found the run attended; before, the run is still running.
      have hbefore : db.Attended := by
        cases late with
        | true => exact hlate rfl
        | false => exact attended_of_status (hs.running rfl) nofun
      exact keepsAttended_saveRun hbefore hloaded (by rw [hcurrent]; nofun)
        (leavesSomebody_of_none rfl)
  | create | reset => exact keepsAttended_executing hs hs' rfl rfl (leavesSomebody_of_none rfl)
  | process hstep =>
      exact keepsAttended_executing hs hs' rfl hstep.run.2
        (leavesSomebody_of_none (by cases a <;> rfl))
  | decide d previous =>
      cases d with
      | approve id reviewer =>
          refine keepsAttended_update ?_ (fun _ => rfl) (leavesSomebody_of_none rfl)
          intro c _ happlies
          rw [(applies_approve_iff.mp happlies).2]
          rfl
      | reject id reviewer reason => exact keepsAttended_drop (fun _ => rfl) (leavesSomebody_iff rfl)
  | claim id =>
      refine keepsAttended_update ?_ (fun _ => rfl) (leavesSomebody_of_none rfl)
      intro c _ hclaim
      rw [(claimable_iff.mp hclaim).2]
      rfl
  | save p run => exact attended_saving hs hs' (leavesSomebody_of_none rfl)
  | fail id reason late => exact keepsAttended_drop (fun _ => rfl) (leavesSomebody_iff rfl)
  | raises | requeued | execute | search | take | duplicate | claimed | noColumns | columns
  | conflict | flush | recount | countDecision | countActivation | countExecution | conclude
  | finish | undo | rescue => exact keepsAttended_same rfl rfl (leavesSomebody_of_none rfl)

/-! ## Histories -/

theorem attended_event {s s' : Db × Session} {e : Event} (hs : Settled settings s)
    (h : (histories N settings).step s e s') :
    KeepsAttended s.1 s'.1 (LeavesSomebody s e) := by
  have hs' := settled_step hs h
  obtain ⟨db, l⟩ := s
  cases e with
  | start c =>
      cases l
      all_goals cases h
      exact keepsAttended_same rfl rfl (leavesSomebody_of_none rfl)
  | act a => exact attended_step hs hs' h

/-- **Waiting for nobody.** After every completed call of a history the run waits for an approval
only if a candidate is still to be decided or to be activated, exactly if every rejection and every
failed activation of the history that finds the run waiting leaves such a candidate. -/
theorem attended_iff {tr : List ((Db × Session) × Event)} {s : Db × Session}
    (h : (histories N settings).Run System.always tr s) (hend : s.2 = .returned) :
    (∀ tr' s', System.Position s tr tr' s' → s'.2 = .returned → s'.1.Attended) ↔
      ∀ s₁ e, (s₁, e) ∈ tr → LeavesSomebody s₁ e := by
  have hevery := h.everywhere_iff (I := fun _ s => s.1.Attended) (C := LeavesSomebody)
    (fun s hnew => by
      obtain ⟨-, -, -, hstatus, -⟩ := hnew
      rcases hstatus with hstatus | hstatus
      · exact attended_of_status hstatus nofun
      · exact attended_of_status hstatus nofun)
    fun tr s e s' hrun hbefore hstep =>
      (attended_event (settled_of_history hrun) hstep).trans (and_iff_right hbefore)
  refine ⟨fun hobs => hevery.mp ?_, fun hall tr' s' hpos _ => hevery.mpr hall tr' s' hpos⟩
  exact h.everywhere_of_observed (I := fun s => s.1.Attended) (O := fun s => s.2 = .returned) hend
    (fun tr s e s' hrun hstep _ hafter =>
      ((attended_event (settled_of_history hrun) hstep).mp hafter).1) hobs

instance (db : Db) : Decidable db.Attended :=
  inferInstanceAs (Decidable (db.run.status = .awaitingApproval →
    ∃ c ∈ db.candidates, c.status.waits))

instance (s : Db × Session) (e : Event) : Decidable (LeavesSomebody s e) :=
  inferInstanceAs (Decidable (∀ p ∈ dropped s.2 e, s.1.run.status = .awaitingApproval →
    ∃ c ∈ s.1.candidates, c.status.waits ∧ p c = false))

/-- Two sites are found and one is rejected: somebody is left to deal with the other one. -/
theorem attended_iff_rejected :
    ∃ s : Db × Session, s.1.run.status = .awaitingApproval ∧
      (∃ c ∈ s.1.candidates, c.status = .rejected) ∧ s.1.Attended := by
  let events : List Event :=
    findsSites (strs ["https://a.gov.cn/", "https://b.gov.cn/"])
      ++ through (.reject 0 "admin" "duplicate") 6
  have hend : ((System.exec (nextEvent plainTools {}) newRun events).map fun s =>
      s.2.over && s.1.run.status = .awaitingApproval &&
        s.1.candidates.any fun c => c.status = .rejected) = some true := by
    decide +kernel
  have hleaves : ∀ e ∈ System.traceOf (nextEvent plainTools {}) newRun events,
      LeavesSomebody e.1 e.2 := by
    decide +kernel
  obtain ⟨s, hs, hend⟩ := Option.map_eq_some_iff.mp hend
  obtain ⟨⟨hover, hstatus⟩, hrejected⟩ := by simpa using hend
  have hreturned := returned_of_over hover
  exact ⟨s, hstatus, hrejected,
    (attended_iff (history_of_exec newRun_new hs) hreturned).mpr (fun s₁ e he => hleaves (s₁, e) he)
      _ _ .last hreturned⟩

/-- The only candidate of a run is rejected, and the run keeps waiting for an approval; likewise when
its activation fails. -/
theorem waits_for_nobody :
    (∃ tr s, (histories plainTools {}).Run System.always tr s ∧ s.2 = .returned ∧
      (∃ c ∈ s.1.candidates, c.status = .rejected) ∧ ¬ s.1.Attended) ∧
    ∃ tr s, (histories plainTools {}).Run System.always tr s ∧ s.2 = .returned ∧
      (∃ c ∈ s.1.candidates, c.status = .failed) ∧ ¬ s.1.Attended := by
  have hrun : ∀ (events : List Event) (status : CandidateStatus),
      ((System.exec (nextEvent plainTools {}) newRun events).map fun s =>
        s.2.over && (s.1.candidates.any fun c => c.status = status) && !decide s.1.Attended)
          = some true →
      ∃ tr s, (histories plainTools {}).Run System.always tr s ∧ s.2 = .returned ∧
        (∃ c ∈ s.1.candidates, c.status = status) ∧ ¬ s.1.Attended := by
    intro events status hend
    obtain ⟨s, hs, hend⟩ := Option.map_eq_some_iff.mp hend
    obtain ⟨⟨hover, hstatus⟩, hattended⟩ := by simpa using hend
    exact ⟨_, s, history_of_exec newRun_new hs, returned_of_over hover, hstatus, hattended⟩
  let found := findsSites (strs ["https://a.gov.cn/"])
  constructor
  · exact hrun (found ++ through (.reject 0 "admin" "duplicate") 6) .rejected (by decide +kernel)
  · exact hrun (found ++ through (.approve 0 "admin") 6 ++ through (.activate 0) 3
      ++ [.act (.fail "OperationalError"), .act .go, .act .go]) .failed (by decide +kernel)

end Odirag.Discovery
