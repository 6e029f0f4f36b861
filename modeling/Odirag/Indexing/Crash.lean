import Odirag.Indexing.Call
import Odirag.Foundations.Journal
import Odirag.Foundations.Run

/-!
# Crash consistency of indexing

Reference: `IndexingService.index_document` of `backend/app/services/indexing.py`.

The calls of one document follow each other; between them its row and its attachments change in
any way. The lineage rows are the journal of the vector points: whatever a failed call leaves in
the vector store is found again through them.
-/

namespace Odirag.Indexing

open Documents

/-! ## The points of a call -/

/-- The rows and the points at a place of a call on its own. Between calls they are journalled; from
the upsert to the commit the points may include those of the new rows. -/
def Call.Tracked (ix : Indexer) (db : IndexDb) : Call → Prop
  | replacing job | addingLineage job _ | committing job _ =>
      idsOf db.chunks ⊆ db.lineage ∧ db.store ⊆ db.lineage ∪ job.currentIds ix ∧
        job.currentIds ix ⊆ db.store
  | compensating job =>
      idsOf db.chunks ⊆ db.lineage ∧ db.store ⊆ db.lineage ∪ job.currentIds ix
  | selectingOrphans job =>
      Journalled (idsOf db.chunks) db.store db.lineage ∧ job.currentIds ix ⊆ db.store
  | deleting job stale =>
      Journalled (idsOf db.chunks) db.store db.lineage ∧ job.currentIds ix ⊆ db.store ∧
        db.lineage \ job.currentIds ix ⊆ stale ∧ Disjoint stale (job.currentIds ix)
  | markingChunks job | finishing job _ | returned job =>
      Journalled (idsOf db.chunks) db.store db.lineage ∧ db.store = job.currentIds ix
  | start | loaded _ | drafted _ _ | marking _ | embedding _ | ensuring _ _ | upserting _
  | failing | raised => Journalled (idsOf db.chunks) db.store db.lineage

/-- The handler takes over a journalled state, or one that its compensation makes journalled. -/
theorem Call.tracked_handle {ix : Indexer} {db : IndexDb} {job : Job}
    (hexisting : job.existingIds = idsOf db.chunks) (hrows : idsOf db.chunks ⊆ db.lineage)
    (hpoints : db.store ⊆ db.lineage ∪ job.currentIds ix) :
    (handle ix job).Tracked ix db := by
  unfold handle
  split
  · next hnew =>
      rw [Job.newOnlyIds, hexisting] at hnew
      exact Journalled.of_covered hrows hpoints hnew
  · exact ⟨hrows, hpoints⟩

/-- The stale points are not current, and they are all the others that are journalled. -/
theorem Job.staleIds_spec (ix : Indexer) (job : Job) (db : IndexDb) :
    db.lineage \ job.currentIds ix ⊆ job.staleIds ix db ∧
      Disjoint (job.staleIds ix db) (job.currentIds ix) :=
  ⟨Finset.subset_union_right,
    Finset.disjoint_union_left.mpr ⟨Finset.sdiff_disjoint, Finset.sdiff_disjoint⟩⟩

/-- A step that goes well keeps track. -/
theorem Call.Tracked.step_ok {ix : Indexer} {db : IndexDb} {c c' : Call} (ht : c.Tracked ix db)
    (ha : c.Alone ix db) (h : c.next ix .ok db = some c') :
    c'.Tracked ix (c.effect ix .ok db) := by
  cases c with
  | start | loaded document | ensuring job vectors =>
      cases h
      split
      · exact ht
      · exact ht
  | drafted document drafts | marking job | addingLineage job r | failing =>
      cases h
      exact ht
  | upserting job =>
      cases h
      have hjournal : Journalled (idsOf db.chunks) db.store db.lineage := ht
      exact ⟨hjournal.rows, hjournal.put subset_rfl, Finset.subset_union_right⟩
  | replacing job =>
      cases h
      unfold effect
      dsimp only
      split
      · exact ht
      · exact ht
  | committing job r =>
      obtain ⟨hrows, hpoints, hput⟩ := ht
      cases r with
      | none =>
          -- The rows were current already.
          cases h
          refine ⟨⟨hrows, hpoints.trans (Finset.union_subset subset_rfl ?_)⟩, hput⟩
          rw [← ha.2]
          exact hrows
      | some r =>
          cases h
          obtain ⟨hexisting, hdeleted, hids⟩ := ha
          unfold effect
          dsimp only
          split
          · exact tracked_handle hexisting hrows hpoints
          · have hlineage : (db.replace r).lineage = db.lineage ∪ job.currentIds ix := by
              rw [IndexDb.replace, hids]
            refine ⟨?_, hput⟩
            rw [idsOf_replace hdeleted hids, hlineage]
            exact Journalled.commit hpoints
  | selectingOrphans job =>
      cases h
      obtain ⟨hjournal, hput⟩ := ht
      obtain ⟨hall, hdisjoint⟩ := job.staleIds_spec ix db
      split
      · next hempty =>
          refine ⟨hjournal, ?_⟩
          have hcurrent : idsOf db.chunks = job.currentIds ix := ha
          rw [hcurrent] at hjournal
          have hstore := hjournal.sweep_all hput hall hdisjoint
          rwa [hempty, Finset.sdiff_empty] at hstore
      · exact ⟨hjournal, hput, hall, hdisjoint⟩
  | deleting job stale =>
      cases h
      obtain ⟨hjournal, hput, hall, hdisjoint⟩ := ht
      refine ⟨hjournal.sweep stale, ?_⟩
      have hcurrent : idsOf db.chunks = job.currentIds ix := ha
      rw [hcurrent] at hjournal
      exact hjournal.sweep_all hput hall hdisjoint
  | markingChunks job =>
      cases h
      exact ht
  | finishing job keys =>
      cases h
      obtain ⟨hjournal, hstore⟩ := ht
      have hsame := db.idsOf_setVectorStatus .indexed keys
      exact ⟨⟨hsame.subset.trans hjournal.rows, hjournal.points⟩, hstore⟩
  | compensating job =>
      cases h
      have hdone := Journalled.compensate ht.1 ht.2
      have hexisting : job.existingIds = idsOf db.chunks := ha
      rw [← hexisting] at hdone
      simp only [effect, IndexDb.delete, Tracked, Job.newOnlyIds]
      rw [← hexisting]
      exact hdone
  | embedding job | returned job | raised => cases h

/-- An exception keeps track, except in the compensation. -/
theorem Call.Tracked.step_fails {ix : Indexer} {db : IndexDb} {c c' : Call} (ht : c.Tracked ix db)
    (ha : c.Alone ix db) (hcomp : ∀ job, c ≠ compensating job)
    (h : c.next ix .fails db = some c') : c'.Tracked ix (c.effect ix .fails db) := by
  have heffect : c.effect ix .fails db = db := by
    cases c with
    | committing job r => cases r <;> rfl
    | _ => rfl
  rw [heffect]
  cases c with
  | start | loaded _ | drafted _ _ | marking _ | embedding _ | ensuring _ _ | failing =>
      cases h
      exact ht
  | upserting job =>
      cases h
      have hjournal : Journalled (idsOf db.chunks) db.store db.lineage := ht
      exact tracked_handle ha hjournal.rows (hjournal.points.trans Finset.subset_union_left)
  | replacing job =>
      cases h
      exact tracked_handle ha ht.1 ht.2.1
  | addingLineage job r =>
      cases h
      exact tracked_handle ha.1 ht.1 ht.2.1
  | committing job r =>
      cases r with
      | none =>
          cases h
          exact tracked_handle ha.1 ht.1 ht.2.1
      | some r =>
          cases h
          exact tracked_handle ha.1 ht.1 ht.2.1
  | selectingOrphans job | deleting job _ | markingChunks job | finishing job _ =>
      -- The rows have been switched, so nothing is taken back.
      cases h
      exact ht.1
  | compensating job => exact absurd rfl (hcomp job)
  | returned job | raised => cases h

/-- One step keeps track, if a compensation succeeds. -/
theorem Call.Tracked.step {ix : Indexer} {o : Outcome} {db : IndexDb} {c c' : Call}
    (ht : c.Tracked ix db) (ha : c.Alone ix db) (hcomp : ∀ job, c = compensating job → o = .ok)
    (h : c.next ix o db = some c') : c'.Tracked ix (c.effect ix o db) := by
  cases o with
  | ok => exact ht.step_ok ha h
  | fails =>
      refine ht.step_fails ha (fun job hc => ?_) h
      cases hcomp job hc
  | embedded dimensions =>
      cases c with
      | embedding job =>
          cases h
          split
          · exact ht
          · exact ht
      | committing job r => cases r <;> cases h
      | _ => cases h
  | partially ids =>
      cases c with
      | upserting job =>
          -- Part of the points are there, and the handler takes over.
          cases h
          have hjournal : Journalled (idsOf db.chunks) db.store db.lineage := ht
          exact tracked_handle ha hjournal.rows (hjournal.put Finset.inter_subset_left)
      | deleting job stale =>
          cases h
          exact ht.1.sweep _
      | compensating job => cases hcomp job rfl
      | committing job r => cases r <;> cases h
      | _ => cases h

/-- A call that keeps track takes no point of a committed row away. -/
theorem Call.Tracked.backed {ix : Indexer} {o : Outcome} {db : IndexDb} {c : Call}
    (ht : c.Tracked ix db) (ha : c.Alone ix db) (hbacked : idsOf db.chunks ⊆ db.store) :
    idsOf (c.effect ix o db).chunks ⊆ (c.effect ix o db).store := by
  have hdeletes : Disjoint (c.deletes ix o) (idsOf db.chunks) := by
    have hsweep : ∀ job stale, c = deleting job stale → Disjoint stale (idsOf db.chunks) := by
      rintro job stale rfl
      have hcurrent : idsOf db.chunks = job.currentIds ix := ha
      rw [hcurrent]
      exact ht.2.2.2
    have hback : ∀ job, c = compensating job → Disjoint (job.newOnlyIds ix) (idsOf db.chunks) := by
      rintro job rfl
      have hexisting : job.existingIds = idsOf db.chunks := ha
      rw [← hexisting]
      exact Finset.sdiff_disjoint
    unfold deletes
    split
    · exact hsweep _ _ rfl
    · exact (hsweep _ _ rfl).mono_left Finset.inter_subset_left
    · exact hback _ rfl
    · exact (hback _ rfl).mono_left Finset.inter_subset_left
    · exact Finset.disjoint_empty_left _
  have hstore : idsOf db.chunks ⊆ (c.effect ix o db).store := by
    rw [effect_store]
    exact Finset.subset_sdiff.mpr ⟨hbacked.trans Finset.subset_union_left, hdeletes.symm⟩
  rcases effect_rows ix o db c with ⟨hchunks, -, -⟩ | ⟨job, r, rfl, rfl, -, heq⟩ |
    ⟨job, keys, rfl, rfl, heq⟩
  · rw [hchunks]
    exact hstore
  · -- The new rows have their points.
    obtain ⟨-, hdeleted, hids⟩ := ha
    rw [heq, idsOf_replace hdeleted hids]
    exact ht.2.2
  · rw [heq] at hstore ⊢
    exact (db.idsOf_setVectorStatus .indexed keys).subset.trans hstore

/-! ## Histories of a document -/

/-- A document with the call that works on it, or the last one that did. -/
structure Indexed where
  db : IndexDb
  call : Call

/-- What happens to a document: a call starts, the document changes between calls, the call takes
a step. -/
inductive Event
  | begin
  | change (document : Document) (attachments : List Attachment)
  | step (o : Outcome)

/-- One event. -/
def Indexed.next (ix : Indexer) (s : Indexed) (e : Event) : Option Indexed :=
  match e with
  | .begin => if s.call.finished then some { s with call := .start } else none
  | .change document attachments =>
      if s.call.finished then
        some { s with db := { s.db with document, attachments } }
      else none
  | .step o => (s.call.step ix o s.db).map fun r => ⟨r.1, r.2⟩

/-- The histories of a document that has not been indexed yet. -/
def indexHistory (ix : Indexer) : System Indexed Event :=
  .ofNext (Indexed.next ix) fun s =>
    s.db.chunks = [] ∧ s.db.lineage = ∅ ∧ s.db.store = ∅ ∧ s.call = .raised

/-- The compensating deletion succeeds. -/
def CompensationSucceeds : List (Indexed × Event) → Indexed → Event → Indexed → Prop :=
  fun _ s e _ => ∀ job, s.call = .compensating job → e = .step .ok

/-- A finished call leaves the journalled state that the next one starts from. -/
theorem Call.Tracked.journalled {ix : Indexer} {db : IndexDb} {c : Call} (h : c.Tracked ix db)
    (hfinished : c.finished = true) : Journalled (idsOf db.chunks) db.store db.lineage := by
  cases c with
  | returned job => exact h.1
  | raised => exact h
  | _ => cases hfinished

/-- What holds at every place of every history. -/
theorem tracked_of_run {ix : Indexer} {tr : List (Indexed × Event)} {s : Indexed}
    (h : (indexHistory ix).Run CompensationSucceeds tr s) :
    s.call.Alone ix s.db ∧ s.call.Tracked ix s.db ∧ idsOf s.db.chunks ⊆ s.db.store := by
  refine h.invariant (I := fun _ s =>
    s.call.Alone ix s.db ∧ s.call.Tracked ix s.db ∧ idsOf s.db.chunks ⊆ s.db.store) ?_ ?_
  -- A history begins without rows, points and lineage.
  · rintro ⟨db, c⟩ ⟨hchunks, hlineage, hstore, hcall⟩
    dsimp only at hchunks hlineage hstore hcall ⊢
    rw [hcall, hchunks, hstore]
    refine ⟨trivial, ?_, Finset.empty_subset _⟩
    simp only [Call.Tracked]
    rw [hchunks, hstore, hlineage]
    exact ⟨Finset.empty_subset _, Finset.empty_subset _⟩
  · rintro tr ⟨db, c⟩ e s' _ ⟨ha, ht, hbacked⟩ hcomp hstep
    have hnext : Indexed.next ix ⟨db, c⟩ e = some s' := hstep
    cases e with
    | begin =>
        simp only [Indexed.next] at hnext
        split at hnext
        · next hfinished =>
            cases hnext
            exact ⟨trivial, ht.journalled hfinished, hbacked⟩
        · cases hnext
    | change document attachments =>
        simp only [Indexed.next] at hnext
        split at hnext
        · next hfinished =>
            cases hnext
            cases c with
            | returned job => exact ⟨ha, ht, hbacked⟩
            | raised => exact ⟨ha, ht, hbacked⟩
            | _ => cases hfinished
        · cases hnext
    | step o =>
        obtain ⟨⟨db', c'⟩, hcall, rfl⟩ := Option.map_eq_some_iff.mp hnext
        obtain ⟨hc, rfl⟩ := Call.step_eq_some.mp hcall
        refine ⟨ha.step hc, ht.step ha (fun job hjob => ?_) hc, ht.backed ha hbacked⟩
        -- The condition on the run: the compensation does not fail.
        cases hcomp job hjob
        rfl

/-- After every call the committed rows have their points, and after every successful call the
points are exactly the committed rows and exactly the returned ids. -/
theorem crash_consistent {ix : Indexer} {tr : List (Indexed × Event)} {s : Indexed}
    (h : (indexHistory ix).Run CompensationSucceeds tr s) :
    (s.call.finished = true → idsOf s.db.chunks ⊆ s.db.store) ∧
      ∀ job, s.call = .returned job →
        s.db.store = idsOf s.db.chunks ∧ s.db.store = job.currentIds ix := by
  obtain ⟨ha, ht, hbacked⟩ := tracked_of_run h
  refine ⟨fun _ => hbacked, fun job hjob => ?_⟩
  rw [hjob] at ha ht
  have hcurrent : idsOf s.db.chunks = job.currentIds ix := ha
  rw [hcurrent]
  exact ⟨ht.2, ht.2⟩

/-- The events of a call that goes well. -/
def successfulCall (vectors : List ℕ) : List Event :=
  [.begin, .step .ok, .step .ok, .step .ok, .step .ok, .step (.embedded vectors), .step .ok,
    .step .ok, .step .ok, .step .ok, .step .ok, .step .ok, .step .ok, .step .ok]

def Call.hasReturned : Call → Bool
  | .returned _ => true
  | _ => false

theorem Call.hasReturned_iff {c : Call} : c.hasReturned = true ↔ ∃ job, c = .returned job := by
  cases c with
  | returned job => exact iff_of_true rfl ⟨job, rfl⟩
  | _ => simp [hasReturned]

/-- A compensation at this event succeeds. -/
def Call.compensated : Call → Event → Bool
  | .compensating _, .step .ok => true
  | .compensating _, _ => false
  | _, _ => true

theorem Call.compensated_spec {job : Job} {e : Event}
    (h : (Call.compensating job).compensated e = true) : e = .step .ok := by
  unfold compensated at h
  split at h
  · rfl
  · cases h
  · next hnot _ => exact absurd rfl (hnot job)

/-- A call that fails after part of its upsert, then one that succeeds. -/
theorem crash_consistent_retry :
    ∃ tr s job, (indexHistory wholeText).Run CompensationSucceeds tr s ∧
      s.call = .returned job ∧ s.db.store = idsOf s.db.chunks ∧
      s.db.store = job.currentIds wholeText := by
  let s₀ : Indexed := ⟨{ document := approvedDocument }, .raised⟩
  let events : List Event :=
    [.begin, .step .ok, .step .ok, .step .ok, .step .ok, .step (.embedded [2]), .step .ok,
      .step (.partially ∅), .step .ok, .step .ok] ++ successfulCall [2]
  let next := Indexed.next wholeText
  obtain ⟨s, hs⟩ := Option.isSome_iff_exists.mp
    (by decide : (System.exec next s₀ events).isSome = true)
  have hreturns : (System.exec next s₀ events).map (fun s => s.call.hasReturned) = some true := by
    decide
  have hsucceeds : ∀ e ∈ System.traceOf next s₀ events, e.1.call.compensated e.2 = true := by
    decide
  have hrun : (indexHistory wholeText).Run CompensationSucceeds
      (System.traceOf next s₀ events) s := by
    refine ⟨s₀, ⟨rfl, rfl, rfl, rfl⟩, System.exec_path_of hs ?_⟩
    rintro ⟨s₁, e⟩ hmem job hjob
    have hat := hsucceeds _ hmem
    dsimp only at hjob hat
    rw [hjob] at hat
    exact Call.compensated_spec hat
  rw [hs] at hreturns
  obtain ⟨job, hjob⟩ := Call.hasReturned_iff.mp (Option.some.inj hreturns)
  exact ⟨_, s, job, hrun, hjob, (crash_consistent hrun).2 job hjob⟩

end Odirag.Indexing
