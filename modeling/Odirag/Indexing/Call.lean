import Odirag.Indexing.Chunks
import Mathlib.Data.Finset.SDiff
import Mathlib.Data.Finset.Lattice.Basic

/-!
# One call of `index_document`

Reference: `IndexingService.index_document` of `backend/app/services/indexing.py`, with
`replace_chunks`, `add_lineages`, `orphaned_vector_point_ids` and the status updates of
`backend/app/repositories/indexing.py`.

A call is a machine over the committed rows of its document and the document's points in the
vector store. One step is one statement, commit or call of the vector store, and `Outcome` says
how it ends. What a transaction has not committed yet is part of the call, so a rollback is the
loss of the call's point.
-/

namespace Odirag.Indexing

open Documents

/-- A `chunks` row with its primary key. -/
structure ChunkRow where
  key : ℕ
  chunk : Chunk
deriving DecidableEq

/-- The rows of one document, and its points in the vector store. `lineage` are the vector point
ids of its lineage rows, `nextKey` is the sequence of the primary keys. -/
structure IndexDb where
  document : Document
  attachments : List Attachment := []
  chunks : List ChunkRow := []
  lineage : Finset PointId := ∅
  nextKey : ℕ := 0
  store : Finset PointId := ∅

/-- The chunk ids of some rows. -/
def idsOf (rows : List ChunkRow) : Finset PointId :=
  (rows.map (·.chunk.chunkId)).toFinset

theorem mem_idsOf {rows : List ChunkRow} {id : PointId} :
    id ∈ idsOf rows ↔ ∃ row ∈ rows, row.chunk.chunkId = id := by
  simp [idsOf]

namespace IndexDb

/-- `list_document_chunks`: the rows in the order of their indexes. -/
def listDocumentChunks (db : IndexDb) : List Chunk :=
  (db.chunks.insertionSort fun a b => a.chunk.chunkIndex ≤ b.chunk.chunkIndex).map (·.chunk)

/-- `set_document_index_status`. -/
def setIndexStatus (status : IndexStatus) (db : IndexDb) : IndexDb :=
  { db with document := { db.document with indexStatus := status } }

/-- `set_chunk_vector_status` for the rows with the given keys. -/
def setVectorStatus (status : VectorStatus) (keys : Finset ℕ) (db : IndexDb) : IndexDb :=
  { db with
    chunks := db.chunks.map fun row =>
      if row.key ∈ keys then { row with chunk := { row.chunk with vectorStatus := status } }
      else row }

/-- The keys of the rows that a statement sees. -/
def keys (db : IndexDb) : Finset ℕ := (db.chunks.map (·.key)).toFinset

/-- `VectorStore.upsert`. -/
def upsert (ids : Finset PointId) (db : IndexDb) : IndexDb := { db with store := db.store ∪ ids }

/-- `VectorStore.delete`. -/
def delete (ids : Finset PointId) (db : IndexDb) : IndexDb := { db with store := db.store \ ids }

@[simp] theorem idsOf_setVectorStatus (status : VectorStatus) (keys : Finset ℕ) (db : IndexDb) :
    idsOf (db.setVectorStatus status keys).chunks = idsOf db.chunks := by
  unfold idsOf setVectorStatus
  rw [List.map_map]
  congr 1
  refine List.map_congr_left fun row _ => ?_
  dsimp only [Function.comp_apply]
  split <;> rfl

/-- The ids that `list_document_chunks` returns are the ids of the rows. -/
theorem toFinset_listDocumentChunks (db : IndexDb) :
    (db.listDocumentChunks.map (·.chunkId)).toFinset = idsOf db.chunks := by
  unfold listDocumentChunks idsOf
  rw [List.map_map]
  ext id
  simp [List.mem_insertionSort]

end IndexDb

/-! ## The work of a call -/

/-- What a call has read before it starts to write: the document, its drafts and its chunks. -/
structure Job where
  document : Document
  drafts : List SourceDraft
  existing : List Chunk
deriving DecidableEq

/-- The rows that `replace_chunks` deletes and inserts, until the commit. -/
structure Replacement where
  deleted : Finset ℕ
  rows : List ChunkRow
deriving DecidableEq

namespace Job

variable (ix : Indexer)

/-- `chunks`. -/
def chunks (job : Job) : List Chunk := job.drafts.map (ix.makeChunk job.document)

/-- `current_ids`. -/
def currentIds (job : Job) : Finset PointId := ((job.chunks ix).map (·.chunkId)).toFinset

/-- `existing_ids`. -/
def existingIds (job : Job) : Finset PointId := (job.existing.map (·.chunkId)).toFinset

/-- `new_only_ids`. -/
def newOnlyIds (job : Job) : Finset PointId := job.currentIds ix \ job.existingIds

/-- `replace_chunks` deletes the rows that it sees and inserts the new ones. -/
def replacement (job : Job) (db : IndexDb) : Replacement where
  deleted := db.keys
  rows := (job.chunks ix).zipIdx.map fun c => ⟨db.nextKey + c.2, c.1⟩

/-- `stale_ids`. -/
def staleIds (job : Job) (db : IndexDb) : Finset PointId :=
  (job.existingIds \ job.currentIds ix) ∪ (db.lineage \ job.currentIds ix)

/-- The ids of the inserted rows. -/
theorem idsOf_replacement (job : Job) (db : IndexDb) :
    idsOf (job.replacement ix db).rows = job.currentIds ix := by
  unfold idsOf replacement currentIds
  have hmap : ((job.chunks ix).zipIdx.map fun c => (⟨db.nextKey + c.2, c.1⟩ : ChunkRow)).map
      (·.chunk.chunkId) = (job.chunks ix).map (·.chunkId) := by
    rw [List.map_map]
    conv_rhs => rw [← List.zipIdx_map_fst 0 (job.chunks ix), List.map_map]
    rfl
  rw [hmap]

/-- Every id of the call carries the version it has read. -/
theorem version_of_mem_currentIds {ix : Indexer} {job : Job} {id : PointId}
    (h : id ∈ job.currentIds ix) : id.version = job.document.version := by
  simp only [currentIds, chunks, List.map_map, List.mem_toFinset, List.mem_map,
    Function.comp_apply] at h
  obtain ⟨draft, -, rfl⟩ := h
  rfl

/-- Rows that need no replacement have the current ids. -/
theorem currentIds_of_not_replaceRequired {ix : Indexer} {job : Job}
    (h : Indexer.replaceRequired job.existing (job.chunks ix) = false) :
    job.existingIds = job.currentIds ix := by
  unfold existingIds currentIds
  rw [Indexer.ids_of_not_replaceRequired h]

end Job

/-- Rows that a unique constraint keeps from being committed together. -/
def conflicts (kept rows : List ChunkRow) : Bool :=
  kept.any fun k => rows.any fun r =>
    k.chunk.chunkId == r.chunk.chunkId || k.chunk.chunkIndex == r.chunk.chunkIndex

/-- The rows that a replacement leaves. -/
def IndexDb.keptBy (r : Replacement) (db : IndexDb) : List ChunkRow :=
  db.chunks.filter fun row => row.key ∉ r.deleted

/-- All rows that a statement sees are deleted by their keys. -/
theorem IndexDb.keptBy_keys {db : IndexDb} {r : Replacement} (h : r.deleted = db.keys) :
    db.keptBy r = [] := by
  refine List.filter_eq_nil_iff.mpr fun row hrow => ?_
  rw [h]
  simpa [IndexDb.keys] using ⟨row, hrow, rfl⟩

/-- The commit of a replacement and of its lineage rows. -/
def IndexDb.replace (r : Replacement) (db : IndexDb) : IndexDb :=
  { db with chunks := db.keptBy r ++ r.rows, lineage := db.lineage ∪ idsOf r.rows }

/-! ## The machine -/

/-- How a statement, a commit or a call of another service ends. -/
inductive Outcome
  | ok
  /-- The embedding provider returns vectors of these lengths. -/
  | embedded (dimensions : List ℕ)
  /-- An exception; the rows are as before. -/
  | fails
  /-- The vector store raises after it has treated the points with these ids. -/
  | partially (ids : Finset PointId)

/-- A call, by the statement it executes next. -/
inductive Call
  | start
  /-- Before `list_indexable_attachments`. -/
  | loaded (document : Document)
  /-- Before `list_document_chunks`. -/
  | drafted (document : Document) (drafts : List SourceDraft)
  /-- Before the commit of the status `indexing`. -/
  | marking (job : Job)
  | embedding (job : Job)
  | ensuring (job : Job) (vectors : ℕ)
  | upserting (job : Job)
  | replacing (job : Job)
  | addingLineage (job : Job) (r : Replacement)
  /-- Before the commit that switches the rows. -/
  | committing (job : Job) (r : Option Replacement)
  | selectingOrphans (job : Job)
  | deleting (job : Job) (stale : Finset PointId)
  | markingChunks (job : Job)
  /-- Before the commit of the status `indexed`. -/
  | finishing (job : Job) (keys : Finset ℕ)
  /-- In the handler, after the rollback, with points to take back. -/
  | compensating (job : Job)
  /-- In the handler, before the commit of the status `failed`. -/
  | failing
  | returned (job : Job)
  | raised
deriving DecidableEq

namespace Call

/-- The handler once `new_only_ids` has been computed and before the rows are switched. -/
def handle (ix : Indexer) (job : Job) : Call :=
  if job.newOnlyIds ix = ∅ then failing else compensating job

/-- The call is over. -/
def finished : Call → Bool
  | returned _ | raised => true
  | _ => false

/-- What a step does to the rows and the points. -/
def effect (ix : Indexer) (o : Outcome) (db : IndexDb) (c : Call) : IndexDb :=
  match c, o with
  | marking _, .ok => db.setIndexStatus .indexing
  | upserting job, .ok => db.upsert (job.currentIds ix)
  | upserting job, .partially ids => db.upsert (job.currentIds ix ∩ ids)
  | replacing job, .ok =>
      if Indexer.replaceRequired job.existing (job.chunks ix) then
        { db with nextKey := db.nextKey + job.drafts.length }
      else db
  | committing _ (some r), .ok =>
      if conflicts (db.keptBy r) r.rows then db else db.replace r
  | deleting _ stale, .ok => db.delete stale
  | deleting _ stale, .partially ids => db.delete (stale ∩ ids)
  | finishing _ keys, .ok => (db.setVectorStatus .indexed keys).setIndexStatus .indexed
  | compensating job, .ok => db.delete (job.newOnlyIds ix)
  | compensating job, .partially ids => db.delete (job.newOnlyIds ix ∩ ids)
  | failing, .ok => db.setIndexStatus .failed
  | _, _ => db

/-- Where a step leads. -/
def next (ix : Indexer) (o : Outcome) (db : IndexDb) (c : Call) : Option Call :=
  match c, o with
  | start, .ok =>
      some (if db.document.finalStatus = .approved then loaded db.document else raised)
  | loaded document, .ok =>
      let drafts := ix.drafts document db.attachments
      some (if drafts = [] then raised else drafted document drafts)
  | drafted document drafts, .ok => some (marking ⟨document, drafts, db.listDocumentChunks⟩)
  | marking job, .ok => some (embedding job)
  | embedding job, .embedded dimensions =>
      some (if dimensions.any (· != ix.dimensions) then failing else ensuring job dimensions.length)
  -- `zip(chunks, vectors, strict=True)` comes before `new_only_ids`.
  | ensuring job vectors, .ok =>
      some (if vectors = job.drafts.length then upserting job else failing)
  | upserting job, .ok => some (replacing job)
  | replacing job, .ok =>
      some (if Indexer.replaceRequired job.existing (job.chunks ix)
        then addingLineage job (job.replacement ix db) else committing job none)
  | addingLineage job r, .ok => some (committing job (some r))
  | committing job none, .ok => some (selectingOrphans job)
  | committing job (some r), .ok =>
      some (if conflicts (db.keptBy r) r.rows then handle ix job else selectingOrphans job)
  | selectingOrphans job, .ok =>
      some (if job.staleIds ix db = ∅ then markingChunks job else deleting job (job.staleIds ix db))
  | deleting job _, .ok => some (markingChunks job)
  | markingChunks job, .ok => some (finishing job db.keys)
  | finishing job _, .ok => some (returned job)
  -- A failed compensation is logged, and the handler goes on.
  | compensating _, .ok | compensating _, .partially _ | compensating _, .fails => some failing
  | failing, .ok | failing, .fails => some raised
  | start, .fails | loaded _, .fails | drafted _ _, .fails | marking _, .fails => some raised
  | embedding _, .fails | ensuring _ _, .fails => some failing
  | upserting job, .fails | upserting job, .partially _ | replacing job, .fails
  | addingLineage job _, .fails | committing job _, .fails => some (handle ix job)
  | selectingOrphans _, .fails | deleting _ _, .fails | deleting _ _, .partially _
  | markingChunks _, .fails | finishing _ _, .fails => some failing
  | _, _ => none

/-- One step of a call. -/
def step (ix : Indexer) (o : Outcome) (db : IndexDb) (c : Call) : Option (IndexDb × Call) :=
  (c.next ix o db).map (c.effect ix o db, ·)

theorem step_eq_some {ix : Indexer} {o : Outcome} {db db' : IndexDb} {c c' : Call} :
    c.step ix o db = some (db', c') ↔ c.next ix o db = some c' ∧ db' = c.effect ix o db := by
  simp [step, eq_comm, and_comm]

/-- An exception leads to the end of the call or into its handler. -/
theorem next_of_exception {ix : Indexer} {o : Outcome} {db : IndexDb} {c c' : Call}
    (h : c.next ix o db = some c') (hok : o ≠ .ok) (hembedded : ∀ dimensions, o ≠ .embedded dimensions) :
    c' = raised ∨ c' = failing ∨ ∃ job, c' = handle ix job := by
  cases o with
  | ok => exact absurd rfl hok
  | embedded dimensions => exact absurd rfl (hembedded dimensions)
  | fails =>
      cases c with
      | start | loaded _ | drafted _ _ | marking _ | failing =>
          cases h
          exact .inl rfl
      | upserting job | replacing job | addingLineage job _ =>
          cases h
          exact .inr (.inr ⟨job, rfl⟩)
      | committing job r =>
          cases r <;> cases h <;> exact .inr (.inr ⟨job, rfl⟩)
      | returned _ | raised => cases h
      | _ =>
          cases h
          exact .inr (.inl rfl)
  | partially ids =>
      cases c with
      | upserting job =>
          cases h
          exact .inr (.inr ⟨job, rfl⟩)
      | deleting job _ | compensating job =>
          cases h
          exact .inr (.inl rfl)
      | committing job r => cases r <;> cases h
      | _ => cases h

/-! ## What a step leaves alone -/

/-- The points that a step puts into the vector store. -/
def upserts (ix : Indexer) (o : Outcome) (c : Call) : Finset PointId :=
  match c, o with
  | upserting job, .ok => job.currentIds ix
  | upserting job, .partially ids => job.currentIds ix ∩ ids
  | _, _ => ∅

/-- The points that a step takes out of the vector store. -/
def deletes (ix : Indexer) (o : Outcome) (c : Call) : Finset PointId :=
  match c, o with
  | deleting _ stale, .ok => stale
  | deleting _ stale, .partially ids => stale ∩ ids
  | compensating job, .ok => job.newOnlyIds ix
  | compensating job, .partially ids => job.newOnlyIds ix ∩ ids
  | _, _ => ∅

/-- The points that a call has put into the vector store for rows it has yet to commit. -/
def inFlight (ix : Indexer) (c : Call) : Finset PointId :=
  match c with
  | replacing job | addingLineage job _ | committing job _ => job.currentIds ix
  | _ => ∅

section Effect

variable (ix : Indexer) (o : Outcome) (db : IndexDb) (c : Call)

theorem effect_store :
    (c.effect ix o db).store = (db.store ∪ c.upserts ix o) \ c.deletes ix o := by
  unfold effect
  split
  · simp [upserts, deletes, IndexDb.setIndexStatus]
  · simp [upserts, deletes, IndexDb.upsert]
  · simp [upserts, deletes, IndexDb.upsert]
  · split <;> simp [upserts, deletes]
  · split <;> simp [upserts, deletes, IndexDb.replace]
  · simp [upserts, deletes, IndexDb.delete]
  · simp [upserts, deletes, IndexDb.delete]
  · simp [upserts, deletes, IndexDb.setVectorStatus, IndexDb.setIndexStatus]
  · simp [upserts, deletes, IndexDb.delete]
  · simp [upserts, deletes, IndexDb.delete]
  · simp [upserts, deletes, IndexDb.setIndexStatus]
  · next hm hu hp _ _ hd hdp _ hc hcp _ =>
      have hupserts : c.upserts ix o = ∅ := by
        unfold upserts
        split
        · exact absurd rfl (hu _ rfl)
        · exact absurd rfl (hp _ _ rfl)
        · rfl
      have hdeletes : c.deletes ix o = ∅ := by
        unfold deletes
        split
        · exact absurd rfl (hd _ _ rfl)
        · exact absurd rfl (hdp _ _ _ rfl)
        · exact absurd rfl (hc _ rfl)
        · exact absurd rfl (hcp _ _ rfl)
        · rfl
      simp [hupserts, hdeletes]

/-- The rows of a step: only the commit that switches them and the commit that marks them indexed
touch the chunks, and only the former touches the lineage. -/
theorem effect_rows :
    ((c.effect ix o db).chunks = db.chunks ∧ (c.effect ix o db).lineage = db.lineage ∧
        ((c.effect ix o db).document = db.document ∨
          ∃ status, status ≠ .indexed ∧
            (c.effect ix o db).document = { db.document with indexStatus := status })) ∨
      (∃ job r, c = committing job (some r) ∧ o = .ok ∧
        conflicts (db.keptBy r) r.rows = false ∧ c.effect ix o db = db.replace r) ∨
      (∃ job keys, c = finishing job keys ∧ o = .ok ∧
        c.effect ix o db = (db.setVectorStatus .indexed keys).setIndexStatus .indexed) := by
  unfold effect
  split
  · exact .inl ⟨rfl, rfl, .inr ⟨.indexing, by simp, rfl⟩⟩
  · exact .inl ⟨rfl, rfl, .inl rfl⟩
  · exact .inl ⟨rfl, rfl, .inl rfl⟩
  · split
    · exact .inl ⟨rfl, rfl, .inl rfl⟩
    · exact .inl ⟨rfl, rfl, .inl rfl⟩
  · next job r =>
      split
      · exact .inl ⟨rfl, rfl, .inl rfl⟩
      · next hfree => exact .inr (.inl ⟨job, r, rfl, rfl, by simpa using hfree, rfl⟩)
  · exact .inl ⟨rfl, rfl, .inl rfl⟩
  · exact .inl ⟨rfl, rfl, .inl rfl⟩
  · next job keys => exact .inr (.inr ⟨job, keys, rfl, rfl, rfl⟩)
  · exact .inl ⟨rfl, rfl, .inl rfl⟩
  · exact .inl ⟨rfl, rfl, .inl rfl⟩
  · exact .inl ⟨rfl, rfl, .inr ⟨.failed, by simp, rfl⟩⟩
  · exact .inl ⟨rfl, rfl, .inl rfl⟩

end Effect

/-! ## A call on its own -/

/-- The rows at a place of a call, if no one else writes them: up to its commit they are the ones
that the call has found, and from then on the ones it has made. -/
def Alone (ix : Indexer) (db : IndexDb) : Call → Prop
  | marking job | embedding job | ensuring job _ | upserting job | replacing job
  | compensating job => job.existingIds = idsOf db.chunks
  | addingLineage job r | committing job (some r) =>
      job.existingIds = idsOf db.chunks ∧ r.deleted = db.keys ∧ idsOf r.rows = job.currentIds ix
  | committing job none =>
      job.existingIds = idsOf db.chunks ∧ idsOf db.chunks = job.currentIds ix
  | selectingOrphans job | deleting job _ | markingChunks job | finishing job _ | returned job =>
      idsOf db.chunks = job.currentIds ix
  | start | loaded _ | drafted _ _ | failing | raised => True

/-- The handler leaves the rows. -/
theorem alone_handle {ix : Indexer} {db : IndexDb} {job : Job}
    (h : job.existingIds = idsOf db.chunks) : (handle ix job).Alone ix db := by
  unfold handle
  split
  · trivial
  · exact h

/-- The rows after the commit of a replacement that has deleted all of them. -/
theorem idsOf_replace {ix : Indexer} {db : IndexDb} {job : Job} {r : Replacement}
    (hdeleted : r.deleted = db.keys) (hids : idsOf r.rows = job.currentIds ix) :
    idsOf (db.replace r).chunks = job.currentIds ix := by
  rw [IndexDb.replace, IndexDb.keptBy_keys hdeleted]
  exact hids

/-- A step that goes well. -/
theorem Alone.step_ok {ix : Indexer} {db : IndexDb} {c c' : Call} (ha : c.Alone ix db)
    (h : c.next ix .ok db = some c') : c'.Alone ix (c.effect ix .ok db) := by
  cases c with
  | start | loaded document =>
      cases h
      split <;> trivial
  | drafted document drafts =>
      cases h
      exact db.toFinset_listDocumentChunks
  | marking job | upserting job =>
      cases h
      exact ha
  | ensuring job vectors =>
      cases h
      split
      · exact ha
      · trivial
  | replacing job =>
      cases h
      unfold effect
      dsimp only
      split
      · exact ⟨ha, rfl, job.idsOf_replacement ix db⟩
      · next hkept =>
          have hsame := Job.currentIds_of_not_replaceRequired (by simpa using hkept)
          exact ⟨ha, ha.symm.trans hsame⟩
  | addingLineage job r =>
      cases h
      exact ha
  | committing job r =>
      cases r with
      | none =>
          -- The rows were current already.
          cases h
          exact ha.2
      | some r =>
          cases h
          obtain ⟨hexisting, hdeleted, hids⟩ := ha
          unfold effect
          dsimp only
          split
          · exact alone_handle hexisting
          · exact idsOf_replace hdeleted hids
  | selectingOrphans job =>
      cases h
      split
      · exact ha
      · exact ha
  | deleting job stale | markingChunks job =>
      cases h
      exact ha
  | finishing job keys =>
      cases h
      exact (db.idsOf_setVectorStatus .indexed keys).trans ha
  | compensating job | failing =>
      cases h
      trivial
  | embedding job | returned job | raised => cases h

/-- One step of a call on its own. -/
theorem Alone.step {ix : Indexer} {o : Outcome} {db : IndexDb} {c c' : Call} (ha : c.Alone ix db)
    (h : c.next ix o db = some c') : c'.Alone ix (c.effect ix o db) := by
  cases o with
  | ok => exact ha.step_ok h
  | embedded dimensions =>
      cases c with
      | embedding job =>
          cases h
          split
          · trivial
          · exact ha
      | committing job r => cases r <;> cases h
      | _ => cases h
  | fails =>
      cases c with
      | upserting job | replacing job =>
          cases h
          exact alone_handle ha
      | addingLineage job r =>
          cases h
          exact alone_handle ha.1
      | committing job r =>
          cases r <;> cases h <;> exact alone_handle ha.1
      | returned job | raised => cases h
      | _ =>
          cases h
          trivial
  | partially ids =>
      cases c with
      | upserting job =>
          cases h
          exact alone_handle ha
      | committing job r => cases r <;> cases h
      | deleting job stale | compensating job =>
          cases h
          trivial
      | _ => cases h

end Call

/-! ## A small instance -/

/-- An indexer as it treats the text "text": one chunk, and its digest. -/
def wholeText : Indexer where
  chunk text := if text = "" then [] else [⟨text, [], none, text.length⟩]
  sha256 _ := "982d9e3eb996f559e633f4d194def3761d909f5a3b647d1a851fead67c32c9d1"
  dimensions := 2
  providerName := "provider"
  modelName := "model"

/-- A document that can be indexed. -/
def approvedDocument : Document where
  finalStatus := .approved
  documentId := "doc-1"
  content := "text"

/-- The outcomes of a call that goes well, up to the commit of the status `indexed`. -/
def goodOutcomes : List Outcome :=
  [.ok, .ok, .ok, .ok, .embedded [2], .ok, .ok, .ok, .ok, .ok, .ok, .ok]

end Odirag.Indexing
