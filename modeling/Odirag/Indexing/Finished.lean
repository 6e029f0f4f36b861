import Odirag.Indexing.Call
import Odirag.Foundations.Run

/-!
# A call from its start to its end

Reference: `IndexingService.index_document` of `backend/app/services/indexing.py`.

What a call that no one disturbs does to the row it has started on, however it ends: it changes
nothing of the document but the index status, it adds only points that the document produces, and
it leaves the status `indexed` only over rows that the document produces.
-/

namespace Odirag.Indexing

open Documents

/-- `index_document`, whose statements and calls of other services end as `outcomes` says; `none`
if this does not lead to its end. -/
def IndexDb.indexDocument (ix : Indexer) (outcomes : List Outcome) (db : IndexDb) :
    Option (IndexDb × Call) :=
  (System.exec (fun (s : IndexDb × Call) o => s.2.step ix o s.1) (db, .start) outcomes).filter
    (·.2.finished)

/-- An indexed document has only rows that it produces. -/
def RowsCurrent (ix : Indexer) (db : IndexDb) : Prop :=
  db.document.indexStatus = .indexed → ∀ id ∈ idsOf db.chunks, ix.Produces db.document id

/-- What a call that started on `db₀` has read. -/
def Call.Reads (ix : Indexer) (db₀ : IndexDb) : Call → Prop
  | start | failing | raised => True
  | loaded document => db₀.document.finalStatus = .approved ∧ document = db₀.document
  | drafted document drafts =>
      db₀.document.finalStatus = .approved ∧ document = db₀.document ∧
        drafts = ix.drafts db₀.document db₀.attachments
  | marking job | embedding job | ensuring job _ | upserting job | replacing job
  | addingLineage job _ | committing job _ | selectingOrphans job | deleting job _
  | markingChunks job | finishing job _ | compensating job | returned job =>
      db₀.document.finalStatus = .approved ∧ job.document = db₀.document ∧
        job.drafts = ix.drafts db₀.document db₀.attachments

/-- The index status at a place of a call that started on `db₀`: before the first commit the row
and its chunks are as they were, and then the document is not indexed until the call returns. -/
def Call.Marked (db₀ db : IndexDb) : Call → Prop
  | start | loaded _ | drafted _ _ | marking _ =>
      db.document = db₀.document ∧ db.chunks = db₀.chunks
  | returned _ => True
  | raised =>
      db.document.indexStatus = .indexed →
        db.document = db₀.document ∧ db.chunks = db₀.chunks
  | _ => db.document.indexStatus ≠ .indexed

/-- A call at work, and what has become of the row it has started on. -/
structure Call.Follows (ix : Indexer) (db₀ db : IndexDb) (c : Call) : Prop where
  reads : c.Reads ix db₀
  alone : c.Alone ix db
  marked : c.Marked db₀ db
  attachments : db.attachments = db₀.attachments
  document : ∃ status, db.document = { db₀.document with indexStatus := status }
  points : ∀ id ∈ db.store, id ∈ db₀.store ∨
    db₀.document.finalStatus = .approved ∧ ix.Produces db₀.document id

namespace Call

variable {ix : Indexer} {db₀ db : IndexDb}

/-- The ids of a call that has read the document are the ids that the document produces. -/
theorem produces_of_mem_currentIds {job : Job} {id : PointId}
    (hdocument : job.document = db₀.document)
    (hdrafts : job.drafts = ix.drafts db₀.document db₀.attachments)
    (h : id ∈ job.currentIds ix) : ix.Produces db₀.document id := by
  refine ⟨db₀.attachments, ?_⟩
  have hmem : id ∈ (job.chunks ix).map (·.chunkId) := List.mem_toFinset.mp h
  have hchunks : job.chunks ix = ix.chunks db₀.document db₀.attachments := by
    unfold Job.chunks Indexer.chunks
    rw [hdocument, hdrafts]
  rwa [hchunks] at hmem

theorem reads_handle {job : Job} (happroved : db₀.document.finalStatus = .approved)
    (hdocument : job.document = db₀.document)
    (hdrafts : job.drafts = ix.drafts db₀.document db₀.attachments) :
    (handle ix job).Reads ix db₀ := by
  unfold handle
  split
  · trivial
  · exact ⟨happroved, hdocument, hdrafts⟩

theorem marked_handle {job : Job} (h : db.document.indexStatus ≠ .indexed) :
    (handle ix job).Marked db₀ db := by
  unfold handle
  split
  · exact h
  · exact h

/-- A step reads the row and the attachments as they were at the start. -/
theorem Reads.step {o : Outcome} {c c' : Call} (hr : c.Reads ix db₀) (hm : c.Marked db₀ db)
    (hattachments : db.attachments = db₀.attachments) (h : c.next ix o db = some c') :
    c'.Reads ix db₀ := by
  cases o with
  | ok =>
      cases c with
      | start =>
          cases h
          split
          · next happroved =>
              rw [hm.1] at happroved
              exact ⟨happroved, hm.1⟩
          · trivial
      | loaded document =>
          cases h
          -- The drafts are made from the attachments, and no step changes those.
          obtain ⟨happroved, rfl⟩ := hr
          rw [hattachments]
          split
          · trivial
          · exact ⟨happroved, rfl, rfl⟩
      | ensuring job vectors | replacing job | selectingOrphans job =>
          cases h
          split
          · exact hr
          · first | exact hr | trivial
      | committing job r =>
          cases r with
          | none =>
              cases h
              exact hr
          | some r =>
              cases h
              split
              -- The replacement is refused, and the handler still holds the document it was given.
              · exact reads_handle hr.1 hr.2.1 hr.2.2
              · exact hr
      | compensating job | failing =>
          cases h
          trivial
      | embedding job | returned job | raised => cases h
      | _ =>
          cases h
          exact hr
  | embedded dimensions =>
      cases c with
      | embedding job =>
          cases h
          split
          · trivial
          · exact hr
      | committing job r => cases r <;> cases h
      | _ => cases h
  | fails =>
      cases c with
      | upserting job | replacing job | addingLineage job _ =>
          cases h
          exact reads_handle hr.1 hr.2.1 hr.2.2
      | committing job r =>
          cases r <;> cases h <;> exact reads_handle hr.1 hr.2.1 hr.2.2
      | returned job | raised => cases h
      | _ =>
          cases h
          trivial
  | partially ids =>
      cases c with
      | upserting job =>
          cases h
          exact reads_handle hr.1 hr.2.1 hr.2.2
      | committing job r => cases r <;> cases h
      | deleting job _ | compensating job =>
          cases h
          trivial
      | _ => cases h

/-- A step writes the index status only in its own transactions. -/
theorem Marked.step {o : Outcome} {c c' : Call} (hm : c.Marked db₀ db)
    (h : c.next ix o db = some c') : c'.Marked db₀ (c.effect ix o db) := by
  cases o with
  | ok =>
      cases c with
      | start | loaded document =>
          cases h
          split
          · first | exact hm | exact fun _ => hm
          · first | exact hm | exact fun _ => hm
      | marking job | failing =>
          -- The status `indexing` or `failed` is written.
          cases h
          exact fun hindexed => by cases hindexed
      | ensuring job vectors | selectingOrphans job =>
          cases h
          split
          · exact hm
          · exact hm
      | replacing job =>
          cases h
          unfold effect
          dsimp only
          split
          · exact hm
          · exact hm
      | committing job r =>
          cases r with
          | none =>
              cases h
              exact hm
          | some r =>
              cases h
              unfold effect
              dsimp only
              split
              · exact marked_handle hm
              · exact hm
      | finishing job keys =>
          cases h
          trivial
      | embedding job | returned job | raised => cases h
      | _ =>
          cases h
          exact hm
  | embedded dimensions =>
      cases c with
      | embedding job =>
          cases h
          split
          · exact hm
          · exact hm
      | committing job r => cases r <;> cases h
      | _ => cases h
  | fails =>
      cases c with
      | start | loaded _ | drafted _ _ | marking _ =>
          cases h
          exact fun _ => hm
      | failing =>
          cases h
          exact fun hindexed => absurd hindexed hm
      | upserting job | replacing job | addingLineage job _ =>
          cases h
          exact marked_handle hm
      | committing job r =>
          cases r <;> cases h <;> exact marked_handle hm
      | returned job | raised => cases h
      | _ =>
          cases h
          exact hm
  | partially ids =>
      cases c with
      | upserting job =>
          cases h
          exact marked_handle hm
      | committing job r => cases r <;> cases h
      | deleting job _ | compensating job =>
          cases h
          exact hm
      | _ => cases h

/-- No step changes the attachments. -/
theorem effect_attachments (ix : Indexer) (o : Outcome) (db : IndexDb) (c : Call) :
    (c.effect ix o db).attachments = db.attachments := by
  unfold effect
  split
  · rfl
  · rfl
  · rfl
  · split <;> rfl
  · split <;> rfl
  · rfl
  · rfl
  · rfl
  · rfl
  · rfl
  · rfl
  · rfl

/-- The points that a step of a call adds are ones that the document produces. -/
theorem Reads.upserts {o : Outcome} {c : Call} (hr : c.Reads ix db₀) :
    ∀ id ∈ c.upserts ix o,
      db₀.document.finalStatus = .approved ∧ ix.Produces db₀.document id := by
  intro id hid
  unfold Call.upserts at hid
  split at hid
  · exact ⟨hr.1, produces_of_mem_currentIds hr.2.1 hr.2.2 hid⟩
  · exact ⟨hr.1, produces_of_mem_currentIds hr.2.1 hr.2.2 (Finset.mem_inter.mp hid).1⟩
  · cases hid

/-- One step of a call at work. -/
theorem Follows.step {o : Outcome} {c c' : Call} (hf : c.Follows ix db₀ db)
    (h : c.next ix o db = some c') : c'.Follows ix db₀ (c.effect ix o db) where
  reads := hf.reads.step hf.marked hf.attachments h
  alone := hf.alone.step h
  marked := hf.marked.step h
  attachments := (effect_attachments ix o db c).trans hf.attachments
  document := by
    obtain ⟨status, hdocument⟩ := hf.document
    rcases effect_rows ix o db c with ⟨-, -, hsame | ⟨status', -, hstatus⟩⟩ |
      ⟨job, r, -, -, -, heq⟩ | ⟨job, keys, -, -, heq⟩
    · exact ⟨status, hsame.trans hdocument⟩
    · refine ⟨status', ?_⟩
      rw [hstatus, hdocument]
    · refine ⟨status, ?_⟩
      rw [heq]
      exact hdocument
    · refine ⟨.indexed, ?_⟩
      rw [heq, IndexDb.setIndexStatus, IndexDb.setVectorStatus, hdocument]
  points := by
    intro id hid
    rw [effect_store] at hid
    rcases Finset.mem_union.mp (Finset.mem_sdiff.mp hid).1 with hstored | hupserted
    · exact hf.points id hstored
    · exact .inr (hf.reads.upserts id hupserted)

/-- A call that has not started yet. -/
theorem follows_start (ix : Indexer) (db : IndexDb) : start.Follows ix db db where
  reads := trivial
  alone := trivial
  marked := ⟨rfl, rfl⟩
  attachments := rfl
  document := ⟨db.document.indexStatus, rfl⟩
  points := fun _ hid => .inl hid

/-- However a call ends, an indexed document has only rows that it produces, if that was so before. -/
theorem Follows.rowsCurrent {c : Call} (hf : c.Follows ix db₀ db) (hfinished : c.finished = true)
    (h₀ : RowsCurrent ix db₀) : RowsCurrent ix db := by
  intro hindexed id hid
  cases c with
  | returned job =>
      have hcurrent : idsOf db.chunks = job.currentIds ix := hf.alone
      obtain ⟨-, hdocument, hdrafts⟩ := hf.reads
      rw [hcurrent] at hid
      obtain ⟨status, hsame⟩ := hf.document
      rw [hsame]
      exact produces_of_mem_currentIds hdocument hdrafts hid
  | raised =>
      obtain ⟨hdocument, hchunks⟩ := hf.marked hindexed
      rw [hdocument] at hindexed ⊢
      rw [hchunks] at hid
      exact h₀ hindexed id hid
  | _ => cases hfinished

end Call

/-- What `index_document` has done when it is over. -/
theorem IndexDb.indexDocument_follows {ix : Indexer} {outcomes : List Outcome} {db₀ db : IndexDb}
    {c : Call} (h : db₀.indexDocument ix outcomes = some (db, c)) :
    c.finished = true ∧ c.Follows ix db₀ db := by
  obtain ⟨hexec, hfinished⟩ := Option.filter_eq_some_iff.mp h
  refine ⟨hfinished, ?_⟩
  refine System.exec_invariant (I := fun s => s.2.Follows ix db₀ s.1) hexec ?_ ?_
  · exact Call.follows_start ix db₀
  · rintro ⟨db₁, c₁⟩ o ⟨db₂, c₂⟩ hf hstep
    obtain ⟨hnext, rfl⟩ := Call.step_eq_some.mp hstep
    exact hf.step hnext

end Odirag.Indexing
