import Odirag.Indexing.Call
import Odirag.Documents.Versioning
import Odirag.Foundations.Parties

/-!
# Concurrent indexing of one document

Reference: `IndexingService.index_document` of `backend/app/services/indexing.py`,
`_refresh_coze_document` of `backend/app/services/crawl.py`, and
`backend/app/services/versioning.py`.

Any number of calls of `index_document` work on one document, next to an updater that loads the
document, rewrites it and commits the columns it has changed, again and again. The parties are
`some i` for call `i` and `none` for the updater.
-/

namespace Odirag.Indexing

open Documents

/-- A content or metadata update. -/
inductive Update
  | refresh (isLocal : Bool) (sourceRegion : Option String) (article : Article)
  | parsed (text : String) (updates : MetadataUpdates)
  | metadata (updates : MetadataUpdates)

namespace Update

/-- The row that the update assigns; `none` if it is rolled back. -/
def apply (T : TextTools) (u : Update) (document : Document) : Option Document :=
  match u with
  | refresh isLocal sourceRegion article => some (document.refresh T isLocal sourceRegion article)
  | parsed text updates => (document.applyParsedUpdate T text updates).map (·.1)
  | metadata updates => (document.applyMetadataUpdate T updates).map (·.1)

/-- The rows that the update marks stale itself. -/
def staleKeys (T : TextTools) (u : Update) (db : IndexDb) : Finset ℕ :=
  match u with
  | refresh _ sourceRegion article =>
      if db.document.changedFields T sourceRegion article = [] then ∅ else db.keys
  | _ => ∅

/-- An update leaves the version and the index status alone, or it starts a new version and assigns
the status `stale`. -/
theorem apply_version {T : TextTools} {u : Update} {document document' : Document}
    (h : u.apply T document = some document') :
    (document'.version = document.version ∧ document'.indexStatus = document.indexStatus) ∨
      (document'.version = document.version + 1 ∧ document'.indexStatus = .stale) := by
  cases u with
  | refresh isLocal sourceRegion article =>
      cases h
      rcases Document.refresh_cases T isLocal sourceRegion article document with
        ⟨-, -, heq⟩ | ⟨-, -, -, -, hversion, hstatus, -⟩ | ⟨-, -, -, -, hversion, hstatus, -⟩ |
          ⟨-, -, hversion, hstatus, -⟩
      · rw [heq]
        exact .inl ⟨rfl, rfl⟩
      · exact .inl ⟨hversion, hstatus⟩
      · exact .inl ⟨hversion, hstatus⟩
      · exact .inr ⟨hversion, hstatus⟩
  | parsed text updates =>
      obtain ⟨⟨d, r⟩, hupdate, rfl⟩ := Option.map_eq_some_iff.mp h
      rcases Document.applyParsedUpdate_cases hupdate with
        ⟨-, rfl, -⟩ | ⟨-, -, -, hversion, hstatus, -, -⟩
      · exact .inl ⟨rfl, rfl⟩
      · exact .inr ⟨hversion, hstatus⟩
  | metadata updates =>
      obtain ⟨⟨d, r⟩, hupdate, rfl⟩ := Option.map_eq_some_iff.mp h
      rcases Document.applyMetadataUpdate_cases hupdate with
        ⟨-, rfl, -⟩ | ⟨-, -, hversion, hstatus, -, -⟩
      · exact .inl ⟨rfl, rfl⟩
      · exact .inr ⟨hversion, hstatus⟩

end Update

/-! ## The parties -/

/-- The local state of a party. -/
inductive Party
  | call (c : Call)
  /-- The updater has no update open. -/
  | idle
  /-- The updater has loaded and assigned the row, and marked the chunks with these keys. -/
  | updating (m : Held Document) (stale : Finset ℕ)

/-- The choices of a step. -/
inductive Act
  | call (o : Outcome)
  | load (u : Update)
  | commit
  | rollback

/-- The commit of an update. -/
def IndexDb.commitUpdate (m : Held Document) (stale : Finset ℕ) (db : IndexDb) : IndexDb :=
  { db.setVectorStatus .stale stale with document := Document.save m db.document }

/-- The next step of a party. -/
def Party.next (ix : Indexer) (T : TextTools) (a : Act) (db : IndexDb) (p : Party) :
    Option (IndexDb × Party) :=
  match p, a with
  | .call c, .call o => (c.step ix o db).map fun r => (r.1, .call r.2)
  | .idle, .load u =>
      some (db, match u.apply T db.document with
        | some document => .updating ⟨db.document, document⟩ (u.staleKeys T db)
        | none => .idle)
  | .updating m stale, .commit => some (db.commitUpdate m stale, .idle)
  | .updating _ _, .rollback => some (db, .idle)
  | _, _ => none

/-- Calls of `index_document` and an updater. -/
def indexers (κ : Type*) (ix : Indexer) (T : TextTools) : Parties (Option κ) IndexDb Party Act where
  next _ := Party.next ix T

/-- Every committed row has its point in the vector store, and if the document counts as indexed
its rows were derived from its version. -/
structure Consistent (db : IndexDb) : Prop where
  points : idsOf db.chunks ⊆ db.store
  version : db.document.indexStatus = .indexed →
    ∀ id ∈ idsOf db.chunks, id.version = db.document.version

/-- The initial states: a consistent document, no call started and no update open. -/
def NotStarted {κ : Type*} (s : Parties.State (Option κ) IndexDb Party) : Prop :=
  Consistent s.shared ∧ s.loc none = .idle ∧ ∀ i, s.loc (some i) = .call .start

/-- The interleavings. -/
def indexSystem (κ : Type*) [DecidableEq κ] (ix : Indexer) (T : TextTools) :
    System (Parties.State (Option κ) IndexDb Party) (Option κ × Act) :=
  (indexers κ ix T).system NotStarted

/-! ## The condition -/

/-- The step takes no point away that a committed row needs, or a row that another call has yet to
commit. -/
def SparesPoints {κ : Type*} (ix : Indexer) (s : Parties.State (Option κ) IndexDb Party) (i : κ)
    (o : Outcome) (c : Call) : Prop :=
  Disjoint (c.deletes ix o) (idsOf s.shared.chunks) ∧
    ∀ j c', j ≠ i → s.loc (some j) = .call c' → Disjoint (c.deletes ix o) (c'.inFlight ix)

/-- A call that switches the rows or marks the document indexed has read the current version. -/
def CurrentVersion (o : Outcome) (db : IndexDb) (c : Call) : Prop :=
  match c, o with
  | .committing job (some _), .ok | .finishing job _, .ok =>
      job.document.version = db.document.version
  | _, _ => True

/-- An update that starts a version and has found the document stale, so that it will not write the
status, does not meet the status `indexed`. -/
def KeepsStale (db : IndexDb) (m : Held Document) : Prop :=
  m.loaded.indexStatus = .stale → m.current.version ≠ m.loaded.version →
    db.document.indexStatus ≠ .indexed

/-- The condition of a step. -/
def Undisturbed {κ : Type*} (ix : Indexer) (s : Parties.State (Option κ) IndexDb Party)
    (l : Option κ × Act) : Prop :=
  match l.1, l.2 with
  | some i, .call o =>
      ∀ c, s.loc (some i) = .call c → SparesPoints ix s i o c ∧ CurrentVersion o s.shared c
  | none, .commit => ∀ m stale, s.loc none = .updating m stale → KeepsStale s.shared m
  | _, _ => True

/-! ## What a call knows of the version -/

/-- Since a call has read version `v`, the rows are old ones or of version `v`, as long as `v` is
the version of the document. -/
def Since (db : IndexDb) (v : ℕ) (old : ℕ → PointId → Prop) : Prop :=
  v ≤ db.document.version ∧
    (db.document.version = v →
      ∀ row ∈ db.chunks, old row.key row.chunk.chunkId ∨ row.chunk.chunkId.version = v)

/-- The rows that the call has found. -/
def Job.Existing (job : Job) : ℕ → PointId → Prop := fun _ id => id ∈ job.existingIds

/-- The rows that the commit of the call deletes. -/
def Replacement.Deletes (r : Replacement) : ℕ → PointId → Prop := fun key _ => key ∈ r.deleted

/-- No row is an old one. -/
def NoRow : ℕ → PointId → Prop := fun _ _ => False

/-- What may happen to the rows: old ones stay, and new ones are of the current version. -/
structure Advances (db db' : IndexDb) : Prop where
  version : db.document.version ≤ db'.document.version
  rows : db'.document.version = db.document.version → ∀ row' ∈ db'.chunks,
    (∃ row ∈ db.chunks, row.key = row'.key ∧ row.chunk.chunkId = row'.chunk.chunkId) ∨
      row'.chunk.chunkId.version = db.document.version

theorem Since.advance {db db' : IndexDb} {v : ℕ} {old : ℕ → PointId → Prop}
    (h : Since db v old) (hadv : Advances db db') : Since db' v old := by
  refine ⟨h.1.trans hadv.version, fun heq row' hrow' => ?_⟩
  have hsame : db.document.version = v := le_antisymm (heq ▸ hadv.version) h.1
  rcases hadv.rows (heq.trans hsame.symm) row' hrow' with ⟨row, hrow, hkey, hid⟩ | hversion
  · rw [← hkey, ← hid]
    exact h.2 hsame row hrow
  · exact .inr (hversion.trans hsame)

/-- The version facts of a call: what it has read is at most the current version; between its read
of the chunks and its commit the rows are the ones it has seen or current; afterwards they are
current. -/
def Call.Fresh (ix : Indexer) (db : IndexDb) : Call → Prop
  | loaded document | drafted document _ => document.version ≤ db.document.version
  | marking job | embedding job | ensuring job _ | upserting job | replacing job =>
      Since db job.document.version job.Existing
  | addingLineage job r | committing job (some r) =>
      idsOf r.rows = job.currentIds ix ∧ Since db job.document.version r.Deletes
  | committing job none | selectingOrphans job | deleting job _ | markingChunks job
  | finishing job _ => Since db job.document.version NoRow
  | _ => True

/-- The assertion of a party. -/
def Party.Sound (ix : Indexer) (db : IndexDb) : Party → Prop
  | call c => c.inFlight ix ⊆ db.store ∧ c.Fresh ix db
  | idle => True
  | updating m _ => m.loaded.version = db.document.version ∧
      ((m.current.version = m.loaded.version ∧ m.current.indexStatus = m.loaded.indexStatus) ∨
        (m.current.version = m.loaded.version + 1 ∧ m.current.indexStatus = .stale))

theorem Call.Fresh.advance {ix : Indexer} {db db' : IndexDb} {c : Call} (h : c.Fresh ix db)
    (hadv : Advances db db') : c.Fresh ix db' := by
  cases c with
  | loaded document => exact le_trans h hadv.version
  | drafted document drafts => exact le_trans h hadv.version
  | marking job | embedding job | ensuring job _ | upserting job | replacing job =>
      have hsince : Since db job.document.version job.Existing := h
      exact hsince.advance hadv
  | addingLineage job r => exact ⟨h.1, h.2.advance hadv⟩
  | committing job r =>
      cases r with
      | none =>
          have hsince : Since db job.document.version NoRow := h
          exact hsince.advance hadv
      | some r => exact ⟨h.1, h.2.advance hadv⟩
  | selectingOrphans job | deleting job _ | markingChunks job | finishing job _ =>
      have hsince : Since db job.document.version NoRow := h
      exact hsince.advance hadv
  | _ => trivial

/-! ## Steps -/

/-- Rows that keep their keys and ids advance. -/
theorem Advances.of_rows {db db' : IndexDb}
    (hversion : db.document.version ≤ db'.document.version)
    (hrows : ∀ row' ∈ db'.chunks,
      ∃ row ∈ db.chunks, row.key = row'.key ∧ row.chunk.chunkId = row'.chunk.chunkId) :
    Advances db db' :=
  ⟨hversion, fun _ row' hrow' => .inl (hrows row' hrow')⟩

/-- A change of the vector status keeps the keys and the ids. -/
theorem IndexDb.rows_setVectorStatus {status : VectorStatus} {keys : Finset ℕ} {db : IndexDb}
    {row' : ChunkRow} (h : row' ∈ (db.setVectorStatus status keys).chunks) :
    ∃ row ∈ db.chunks, row.key = row'.key ∧ row.chunk.chunkId = row'.chunk.chunkId := by
  obtain ⟨row, hrow, rfl⟩ := List.mem_map.mp h
  refine ⟨row, hrow, ?_⟩
  split
  · exact ⟨rfl, rfl⟩
  · exact ⟨rfl, rfl⟩

/-- A step of a call keeps the version of the document. -/
theorem Call.effect_version (ix : Indexer) (o : Outcome) (db : IndexDb) (c : Call) :
    (c.effect ix o db).document.version = db.document.version := by
  rcases effect_rows ix o db c with ⟨-, -, heq | ⟨status, -, heq⟩⟩ | ⟨_, _, -, -, -, heq⟩ |
    ⟨_, _, -, -, heq⟩
  · rw [heq]
  · rw [heq]
  · rw [heq]
    rfl
  · rw [heq]
    rfl

/-- A step of a call advances, if it switches the rows at the version it has read. -/
theorem Call.effect_advances {ix : Indexer} {o : Outcome} {db : IndexDb} {c : Call}
    (hfresh : c.Fresh ix db) (hcurrent : CurrentVersion o db c) :
    Advances db (c.effect ix o db) := by
  have hversion := (c.effect_version ix o db).ge
  rcases effect_rows ix o db c with ⟨hchunks, -, -⟩ | ⟨job, r, rfl, rfl, -, heq⟩ |
    ⟨job, keys, rfl, rfl, heq⟩
  · refine .of_rows hversion fun row hrow => ⟨row, ?_, rfl, rfl⟩
    rwa [hchunks] at hrow
  · refine ⟨hversion, fun _ row hrow => ?_⟩
    rw [heq] at hrow
    rcases List.mem_append.mp hrow with hkept | hnew
    · exact .inl ⟨row, List.mem_of_mem_filter hkept, rfl, rfl⟩
    · refine .inr ?_
      have hmem : row.chunk.chunkId ∈ job.currentIds ix :=
        hfresh.1 ▸ mem_idsOf.mpr ⟨row, hnew, rfl⟩
      exact (Job.version_of_mem_currentIds hmem).trans hcurrent
  · refine .of_rows hversion fun row hrow => ?_
    rw [heq] at hrow
    exact IndexDb.rows_setVectorStatus hrow

/-- The version that the commit of an update stores. -/
theorem IndexDb.commitUpdate_version {ix : Indexer} {m : Held Document} {stale : Finset ℕ}
    {db : IndexDb} (h : (Party.updating m stale).Sound ix db) :
    (db.commitUpdate m stale).document.version = m.current.version := by
  have hsave : (db.commitUpdate m stale).document.version =
      column m.loaded.version m.current.version db.document.version := rfl
  rw [hsave, h.1, column_fresh]

/-- The commit of an update advances. -/
theorem IndexDb.commitUpdate_advances {ix : Indexer} {m : Held Document} {stale : Finset ℕ}
    {db : IndexDb} (h : (Party.updating m stale).Sound ix db) :
    Advances db (db.commitUpdate m stale) := by
  refine .of_rows ?_ fun row hrow => IndexDb.rows_setVectorStatus hrow
  rw [commitUpdate_version h]
  obtain ⟨hloaded, ⟨hversion, -⟩ | ⟨hversion, -⟩⟩ := h <;> omega

/-- The handler knows nothing of the version. -/
theorem Call.fresh_handle (ix : Indexer) (db : IndexDb) (job : Job) :
    (handle ix job).Fresh ix db := by
  unfold handle
  split <;> trivial

/-- A call keeps its own version facts through a step that goes well. -/
theorem Call.Fresh.step_ok {ix : Indexer} {db : IndexDb} {c c' : Call} (h : c.Fresh ix db)
    (hcurrent : CurrentVersion .ok db c) (hnext : c.next ix .ok db = some c') :
    c'.Fresh ix (c.effect ix .ok db) := by
  -- What the facts of `c` say about the rows after the step.
  have hafter := h.advance (effect_advances h hcurrent)
  cases c with
  | start =>
      cases hnext
      split
      · exact le_rfl
      · trivial
  | loaded document =>
      cases hnext
      split
      · trivial
      · exact h
  | drafted document drafts =>
      -- The rows are the existing ones.
      cases hnext
      refine ⟨h, fun _ row hrow => .inl ?_⟩
      have hids := db.toFinset_listDocumentChunks
      change row.chunk.chunkId ∈ (db.listDocumentChunks.map (·.chunkId)).toFinset
      rw [hids]
      exact mem_idsOf.mpr ⟨row, hrow, rfl⟩
  | marking job =>
      cases hnext
      exact hafter
  | embedding job => cases hnext
  | ensuring job vectors =>
      cases hnext
      split
      · exact h
      · trivial
  | upserting job =>
      cases hnext
      exact hafter
  | replacing job =>
      cases hnext
      split
      · -- The statement deletes every row that it sees.
        next hreplace =>
        refine ⟨job.idsOf_replacement ix db, hafter.1, fun _ row hrow => .inl ?_⟩
        simp only [effect, hreplace, if_true] at hrow
        change row.key ∈ db.keys
        simp only [IndexDb.keys, List.mem_toFinset, List.mem_map]
        exact ⟨row, hrow, rfl⟩
      · -- Existing ids are current ids, which carry the version that was read.
        next hkept =>
        refine ⟨hafter.1, fun heq row hrow => .inr ?_⟩
        rcases hafter.2 heq row hrow with hmem | hversion
        · have hids := Job.currentIds_of_not_replaceRequired (by simpa using hkept)
          have hmem : row.chunk.chunkId ∈ job.existingIds := hmem
          rw [hids] at hmem
          exact Job.version_of_mem_currentIds hmem
        · exact hversion
  | addingLineage job r =>
      cases hnext
      exact hafter
  | committing job r =>
      cases r with
      | none =>
          cases hnext
          exact hafter
      | some r =>
          cases hnext
          split
          · exact fresh_handle ix _ job
          · -- What was kept came after the deletion, and is of the version that was read.
            next hfree =>
            obtain ⟨hids, hold⟩ := h
            simp only [effect, hfree]
            refine ⟨hold.1, fun heq row hrow => .inr ?_⟩
            rcases List.mem_append.mp hrow with hkept | hnew
            · obtain ⟨hmem, hkey⟩ := List.mem_filter.mp hkept
              refine (hold.2 heq row hmem).resolve_left fun hdeleted => ?_
              exact of_decide_eq_true hkey hdeleted
            · have hmem : row.chunk.chunkId ∈ job.currentIds ix :=
                hids ▸ mem_idsOf.mpr ⟨row, hnew, rfl⟩
              exact Job.version_of_mem_currentIds hmem
  | selectingOrphans job =>
      cases hnext
      split
      · exact h
      · exact h
  | deleting job stale =>
      cases hnext
      exact hafter
  | markingChunks job =>
      cases hnext
      exact h
  | finishing job keys =>
      cases hnext
      trivial
  | compensating job =>
      cases hnext
      trivial
  | failing =>
      cases hnext
      trivial
  | returned job => cases hnext
  | raised => cases hnext

/-- A call keeps its own version facts. -/
theorem Call.Fresh.step {ix : Indexer} {o : Outcome} {db : IndexDb} {c c' : Call}
    (h : c.Fresh ix db) (hcurrent : CurrentVersion o db c) (hnext : c.next ix o db = some c') :
    c'.Fresh ix (c.effect ix o db) := by
  cases o with
  | ok => exact h.step_ok hcurrent hnext
  | embedded dimensions =>
      cases c with
      | embedding job =>
          cases hnext
          split
          · trivial
          · exact h
      | committing job r => cases r <;> cases hnext
      | _ => cases hnext
  | fails | partially _ =>
      rcases next_of_exception hnext (by simp) (by simp) with rfl | rfl | ⟨job, rfl⟩
      · trivial
      · trivial
      · exact fresh_handle ix _ job

/-- The handler has no rows to commit. -/
theorem Call.inFlight_handle (ix : Indexer) (job : Job) : (handle ix job).inFlight ix = ∅ := by
  unfold handle
  split <;> rfl

/-- The rows that a call has yet to commit have their points in the store. -/
theorem Call.inFlight_step {ix : Indexer} {o : Outcome} {db : IndexDb} {c c' : Call}
    (h : c.inFlight ix ⊆ db.store) (hnext : c.next ix o db = some c') :
    c'.inFlight ix ⊆ (c.effect ix o db).store := by
  -- Most calls have nothing in flight after their step.
  have hidle : c'.inFlight ix = ∅ → c'.inFlight ix ⊆ (c.effect ix o db).store :=
    fun hempty => hempty ▸ Finset.empty_subset _
  cases o with
  | ok =>
      cases c with
      | upserting job =>
          cases hnext
          exact Finset.subset_union_right
      | replacing job =>
          cases hnext
          unfold effect
          dsimp only
          split
          · exact h
          · exact h
      | addingLineage job r =>
          cases hnext
          exact h
      | committing job r =>
          refine hidle ?_
          cases r with
          | none =>
              cases hnext
              rfl
          | some r =>
              cases hnext
              split
              · exact inFlight_handle ix job
              · rfl
      | start | loaded _ | ensuring _ _ | selectingOrphans _ =>
          cases hnext
          refine hidle ?_
          split <;> rfl
      | embedding _ | returned _ | raised => cases hnext
      | _ =>
          cases hnext
          exact hidle rfl
  | embedded dimensions =>
      cases c with
      | embedding job =>
          cases hnext
          refine hidle ?_
          split <;> rfl
      | committing job r => cases r <;> cases hnext
      | _ => cases hnext
  | fails | partially _ =>
      rcases next_of_exception hnext (by simp) (by simp) with rfl | rfl | ⟨job, rfl⟩
      · exact hidle rfl
      · exact hidle rfl
      · exact hidle (inFlight_handle ix job)

/-- A step of another call spares the points of the rows that this call has yet to commit. -/
theorem Call.inFlight_other {ix : Indexer} {o : Outcome} {db : IndexDb} {c other : Call}
    (h : other.inFlight ix ⊆ db.store) (hspares : Disjoint (c.deletes ix o) (other.inFlight ix)) :
    other.inFlight ix ⊆ (c.effect ix o db).store := by
  rw [effect_store]
  exact Finset.subset_sdiff.mpr ⟨h.trans Finset.subset_union_left, hspares.symm⟩

/-! ## The outline -/

section Outline

variable {κ : Type*} {ix : Indexer} {T : TextTools}

/-- The steps of the parties. -/
theorem Party.next_cases {a : Act} {db db' : IndexDb} {p p' : Party}
    (h : p.next ix T a db = some (db', p')) :
    (∃ c c' o, p = .call c ∧ p' = .call c' ∧ a = .call o ∧ c.next ix o db = some c' ∧
        db' = c.effect ix o db) ∨
      (∃ u, p = .idle ∧ a = .load u ∧ db' = db ∧
        (p' = .idle ∨ ∃ document, u.apply T db.document = some document ∧
          p' = .updating ⟨db.document, document⟩ (u.staleKeys T db))) ∨
      (∃ m stale, p = .updating m stale ∧ a = .commit ∧ p' = .idle ∧
        db' = db.commitUpdate m stale) ∨
      (∃ m stale, p = .updating m stale ∧ a = .rollback ∧ p' = .idle ∧ db' = db) := by
  unfold Party.next at h
  split at h
  · next c o =>
      obtain ⟨⟨db₁, c'⟩, hstep, heq⟩ := Option.map_eq_some_iff.mp h
      cases heq
      obtain ⟨hnext, rfl⟩ := Call.step_eq_some.mp hstep
      exact .inl ⟨c, c', o, rfl, rfl, rfl, hnext, rfl⟩
  · next u =>
      cases h
      refine .inr (.inl ⟨u, rfl, rfl, rfl, ?_⟩)
      split
      · next document hu => exact .inr ⟨document, hu, rfl⟩
      · exact .inl rfl
  · next m stale =>
      cases h
      exact .inr (.inr (.inl ⟨m, stale, rfl, rfl, rfl, rfl⟩))
  · next m stale =>
      cases h
      exact .inr (.inr (.inr ⟨m, stale, rfl, rfl, rfl, rfl⟩))
  · cases h

/-- Which states a party can be in. -/
def Party.Role : Option κ → Party → Prop
  | some _, .call _ | none, .idle | none, .updating _ _ => True
  | _, _ => False

/-- What the outline asserts of a party. -/
def Asserts (ix : Indexer) (i : Option κ) (db : IndexDb) (p : Party) : Prop :=
  Party.Role i p ∧ p.Sound ix db

/-- A party keeps its assertion if the rows advance and the points of the rows it has yet to commit
stay, and for the updater if the version stays. -/
theorem Asserts.other {i : Option κ} {db db' : IndexDb} {p : Party} (h : Asserts ix i db p)
    (hadv : Advances db db')
    (hpoints : ∀ c, p = .call c → c.inFlight ix ⊆ db.store → c.inFlight ix ⊆ db'.store)
    (hversion : i = none → db'.document.version = db.document.version) : Asserts ix i db' p := by
  obtain ⟨hrole, hsound⟩ := h
  refine ⟨hrole, ?_⟩
  cases p with
  | call c => exact ⟨hpoints c rfl hsound.1, hsound.2.advance hadv⟩
  | idle => trivial
  | updating m stale =>
      cases i with
      | some i => cases hrole
      | none => exact ⟨hsound.1.trans (hversion rfl).symm, hsound.2⟩

variable [DecidableEq κ]

/-- The outline of the calls and the updater. -/
theorem indexers_outline (κ : Type*) [DecidableEq κ] (ix : Indexer) (T : TextTools) :
    Parties.Outline (indexers κ ix T) NotStarted (fun _ s l _ => Undisturbed ix s l)
      (Asserts ix) where
  start s hs i := by
    obtain ⟨-, hnone, hsome⟩ := hs
    cases i with
    | none =>
        rw [hnone]
        exact ⟨trivial, trivial⟩
    | some i =>
        rw [hsome i]
        exact ⟨trivial, Finset.empty_subset _, trivial⟩
  own _ s i a s' hok hs hnext := by
    obtain ⟨hrole, hsound⟩ := hs i
    rcases Party.next_cases hnext with ⟨c, c', o, hp, hp', rfl, hc, hdb⟩ |
      ⟨u, hp, rfl, hdb, hidle | ⟨document, hu, hp'⟩⟩ | ⟨m, stale, hp, rfl, hp', -⟩ |
        ⟨m, stale, hp, rfl, hp', -⟩
    · rw [hp] at hrole hsound
      cases i with
      | none => cases hrole
      | some i =>
          obtain ⟨-, hcurrent⟩ := hok c hp
          rw [hp', hdb]
          exact ⟨trivial, Call.inFlight_step hsound.1 hc, hsound.2.step hcurrent hc⟩
    · rw [hp] at hrole
      rw [hidle]
      exact ⟨hrole, trivial⟩
    · rw [hp] at hrole
      rw [hp', hdb]
      refine ⟨?_, rfl, Update.apply_version hu⟩
      cases i with
      | none => trivial
      | some i => cases hrole
    · rw [hp] at hrole
      rw [hp']
      cases i with
      | none => exact ⟨trivial, trivial⟩
      | some i => cases hrole
    · rw [hp] at hrole
      rw [hp']
      cases i with
      | none => exact ⟨trivial, trivial⟩
      | some i => cases hrole
  other _ s i a s' j hne hok hs hnext := by
    obtain ⟨hrole, hsound⟩ := hs i
    rcases Party.next_cases hnext with ⟨c, c', o, hp, -, rfl, -, hdb⟩ |
      ⟨u, -, rfl, hdb, -⟩ | ⟨m, stale, hp, rfl, -, hdb⟩ | ⟨m, stale, -, rfl, -, hdb⟩
    · rw [hp] at hrole hsound
      cases i with
      | none => cases hrole
      | some i =>
          obtain ⟨hspares, hcurrent⟩ := hok c hp
          rw [hdb]
          refine (hs j).other (Call.effect_advances hsound.2 hcurrent) (fun other hother hin => ?_)
            fun _ => Call.effect_version ix o s.shared c
          cases j with
          | none =>
              have hr := (hs none).1
              rw [hother] at hr
              cases hr
          | some j =>
              exact Call.inFlight_other hin (hspares.2 j other (fun h => hne (h ▸ rfl)) hother)
    · rw [hdb]
      exact hs j
    · -- The updater commits: the calls keep what they have put into the store.
      rw [hp] at hrole hsound
      rw [hdb]
      refine (hs j).other (IndexDb.commitUpdate_advances hsound) (fun _ _ hin => hin) ?_
      rintro rfl
      cases i with
      | none => exact absurd rfl hne
      | some i => cases hrole
    · rw [hdb]
      exact hs j

/-! ## Consistency -/

/-- A step of a call keeps the document consistent under the condition. -/
theorem Consistent.effect {o : Outcome} {db : IndexDb} {c : Call} (h : Consistent db)
    (hsound : (Party.call c).Sound ix db) (hspares : Disjoint (c.deletes ix o) (idsOf db.chunks))
    (hcurrent : CurrentVersion o db c) : Consistent (c.effect ix o db) := by
  have hstore : idsOf db.chunks ⊆ (c.effect ix o db).store := by
    rw [Call.effect_store]
    exact Finset.subset_sdiff.mpr ⟨h.points.trans Finset.subset_union_left, hspares.symm⟩
  obtain ⟨hin, hfresh⟩ := hsound
  rcases Call.effect_rows ix o db c with ⟨hchunks, -, hdocument⟩ | ⟨job, r, rfl, rfl, -, heq⟩ |
    ⟨job, keys, rfl, rfl, heq⟩
  · refine ⟨hchunks ▸ hstore, fun hindexed => ?_⟩
    rw [hchunks]
    rcases hdocument with hsame | ⟨status, hne, hstatus⟩
    · rw [hsame] at hindexed ⊢
      exact h.version hindexed
    · rw [hstatus] at hindexed
      exact absurd hindexed hne
  · -- The new rows have their points and carry the current version.
    have hids : ∀ id, id ∈ idsOf (db.replace r).chunks → id ∈ idsOf db.chunks ∨
        id ∈ job.currentIds ix := by
      intro id hid
      obtain ⟨row, hrow, rfl⟩ := mem_idsOf.mp hid
      rcases List.mem_append.mp hrow with hkept | hnew
      · exact .inl (mem_idsOf.mpr ⟨row, List.mem_of_mem_filter hkept, rfl⟩)
      · exact .inr (hfresh.1 ▸ mem_idsOf.mpr ⟨row, hnew, rfl⟩)
    rw [heq]
    refine ⟨fun id hid => (hids id hid).elim (fun hmem => h.points hmem) fun hmem => hin hmem, ?_⟩
    intro hindexed id hid
    rcases hids id hid with hmem | hmem
    · exact h.version hindexed id hmem
    · exact (Job.version_of_mem_currentIds hmem).trans hcurrent
  · -- The call marks the document indexed: its rows are of the version that it has read.
    rw [heq]
    have hsame := db.idsOf_setVectorStatus .indexed keys
    rw [heq] at hstore
    refine ⟨hsame.subset.trans hstore, fun _ id hid => ?_⟩
    obtain ⟨row, hrow, rfl⟩ := mem_idsOf.mp (hsame.subset hid)
    have hversion := (hfresh.2 hcurrent.symm row hrow).resolve_left id
    exact hversion.trans hcurrent

/-- The commit of an update keeps the document consistent under the condition. -/
theorem Consistent.commitUpdate {db : IndexDb} {m : Held Document} {stale : Finset ℕ}
    (h : Consistent db) (hsound : (Party.updating m stale).Sound ix db) (hstale : KeepsStale db m) :
    Consistent (db.commitUpdate m stale) := by
  have hsame := db.idsOf_setVectorStatus .stale stale
  refine ⟨hsame.subset.trans h.points, fun hindexed id hid => ?_⟩
  have hid := hsame.subset hid
  rw [IndexDb.commitUpdate_version hsound]
  have hstatus : (db.commitUpdate m stale).document.indexStatus =
      column m.loaded.indexStatus m.current.indexStatus db.document.indexStatus := rfl
  rw [hstatus] at hindexed
  obtain ⟨hloaded, ⟨hversion, hsame⟩ | ⟨hversion, hassigned⟩⟩ := hsound
  · rw [hsame, column_unchanged] at hindexed
    rw [hversion, hloaded]
    exact h.version hindexed id hid
  · -- A new version: the status `stale` is written, or it was there and has not been replaced.
    rw [hassigned] at hindexed
    rcases column_cases m.loaded.indexStatus .stale db.document.indexStatus with
      ⟨hcol, hwas⟩ | ⟨hcol, -⟩
    · rw [hcol] at hindexed
      exact absurd hindexed (hstale hwas.symm (by omega))
    · rw [hcol] at hindexed
      cases hindexed

/-- In every run whose steps are undisturbed, every committed row has its point in the vector
store, and the rows of an indexed document were derived from its current version. -/
theorem indexing_consistent {tr : List (Parties.State (Option κ) IndexDb Party × (Option κ × Act))}
    {s : Parties.State (Option κ) IndexDb Party}
    (h : (indexSystem κ ix T).Run (fun _ s l _ => Undisturbed ix s l) tr s) :
    Consistent s.shared := by
  refine h.invariant (I := fun _ s => Consistent s.shared) (fun s hs => hs.1) ?_
  rintro tr s ⟨i, a⟩ s' hrun hconsistent hok hstep
  obtain ⟨hrole, hsound⟩ := (indexers_outline κ ix T).holds _ hrun i
  rcases Party.next_cases (Parties.next_of_step hstep) with ⟨c, c', o, hp, -, rfl, -, hdb⟩ |
    ⟨u, -, rfl, hdb, -⟩ | ⟨m, stale, hp, rfl, -, hdb⟩ | ⟨m, stale, -, rfl, -, hdb⟩
  · rw [hp] at hrole hsound
    cases i with
    | none => cases hrole
    | some i =>
        obtain ⟨hspares, hcurrent⟩ := hok c hp
        rw [hdb]
        exact hconsistent.effect hsound hspares.1 hcurrent
  · rw [hdb]
    exact hconsistent
  · rw [hp] at hrole hsound
    cases i with
    | some i => cases hrole
    | none =>
        rw [hdb]
        exact hconsistent.commitUpdate hsound (hok m stale hp)
  · rw [hdb]
    exact hconsistent

end Outline

/-- Text functions that treat the text "text" as the real ones do. -/
def plainTools : TextTools where
  sha256 := wholeText.sha256
  cleanText text := text

/-- The initial state of two calls. -/
def twoCalls : Parties.State (Option Bool) IndexDb Party where
  shared := { document := approvedDocument }
  loc
    | none => .idle
    | some _ => .call .start

theorem notStarted_twoCalls : NotStarted twoCalls :=
  ⟨⟨Finset.empty_subset _, fun h => by cases h⟩, rfl, fun _ => rfl⟩

/-- A step that deletes nothing and works on the current version, or an update that overwrites the
status, as a Boolean. -/
def calm (s : Parties.State (Option Bool) IndexDb Party) (l : Option Bool × Act) : Bool :=
  match l.1, l.2 with
  | some i, .call o =>
      match s.loc (some i) with
      | .call c => decide (c.deletes wholeText o = ∅) && match c, o with
          | .committing job (some _), .ok | .finishing job _, .ok =>
              job.document.version == s.shared.document.version
          | _, _ => true
      | _ => true
  | none, .commit =>
      match s.loc none with
      | .updating m _ => decide (m.loaded.indexStatus ≠ .stale)
      | _ => true
  | _, _ => true

theorem undisturbed_of_calm {s : Parties.State (Option Bool) IndexDb Party} {l : Option Bool × Act}
    (h : calm s l = true) : Undisturbed wholeText s l := by
  unfold Undisturbed
  split
  · next i o hi ho =>
      intro c hc
      simp only [calm, hi, ho, hc, Bool.and_eq_true, decide_eq_true_eq] at h
      obtain ⟨hdeletes, hversion⟩ := h
      refine ⟨⟨?_, fun _ _ _ _ => ?_⟩, ?_⟩
      · rw [hdeletes]
        exact Finset.disjoint_empty_left _
      · rw [hdeletes]
        exact Finset.disjoint_empty_left _
      · unfold CurrentVersion
        split
        · simpa using hversion
        · simpa using hversion
        · trivial
  · next hi ho =>
      intro m stale hm
      simp only [calm, hi, ho, hm, decide_eq_true_eq] at h
      exact fun hwas => absurd hwas h
  · trivial

/-- One call fails and another one indexes the document while an update is under way and rolled
back. -/
theorem indexing_consistent_overlapping :
    ∃ tr s, (indexSystem Bool wholeText plainTools).Run
        (fun _ s l _ => Undisturbed wholeText s l) tr s ∧
      s.shared.document.indexStatus = .indexed ∧ Consistent s.shared := by
  let sched : List (Option Bool × Act) :=
    (some false, .call .ok) :: (some false, .call .ok) ::
      (none, .load (.metadata [("title", some "New title")])) ::
      (goodOutcomes ++ [Outcome.ok]).map (some true, .call ·) ++
      [(some false, .call .fails), (none, .rollback)]
  let P := indexers Bool wholeText plainTools
  obtain ⟨s, hs⟩ := Option.isSome_iff_exists.mp
    (by decide : (P.exec twoCalls sched).isSome = true)
  have hcalm : ∀ e ∈ P.traceOf twoCalls sched, calm e.1 e.2 = true := by decide
  have hindexed : (P.exec twoCalls sched).map (·.shared.document.indexStatus) = some .indexed := by
    decide
  rw [hs] at hindexed
  have hrun : (indexSystem Bool wholeText plainTools).Run
      (fun _ s l _ => Undisturbed wholeText s l) (P.traceOf twoCalls sched) s :=
    ⟨twoCalls, notStarted_twoCalls,
      System.exec_path_of (C := Undisturbed wholeText) hs
        fun e he => undisturbed_of_calm (hcalm e he)⟩
  exact ⟨_, s, hrun, Option.some.inj hindexed, indexing_consistent hrun⟩

/-- The document counts as indexed, every call is over, no update is open, and the rows are not all
of the document's version. -/
def mislabelled (s : Parties.State (Option Bool) IndexDb Party) : Bool :=
  decide (s.shared.document.indexStatus = .indexed) &&
    (match s.loc (some false), s.loc (some true), s.loc none with
      | .call c, .call c', .idle => c.finished && c'.finished
      | _, _, _ => false) &&
    !decide (∀ id ∈ idsOf s.shared.chunks, id.version = s.shared.document.version)

/-- An update between the commit of the rows and the commit of the status: the document counts as
indexed, with rows of its former version. -/
theorem former_version_marked_indexed :
    ∃ tr s, (indexSystem Bool wholeText plainTools).Run System.always tr s ∧
      (∀ i, ∃ c, s.loc (some i) = .call c ∧ c.finished = true) ∧ s.loc none = .idle ∧
      s.shared.document.indexStatus = .indexed ∧
      ¬ ∀ id ∈ idsOf s.shared.chunks, id.version = s.shared.document.version := by
  let sched : List (Option Bool × Act) :=
    (some false, .call .fails) :: goodOutcomes.map (some true, .call ·) ++
      [(none, .load (.metadata [("title", some "New title")])), (none, .commit),
        (some true, .call .ok)]
  let P := indexers Bool wholeText plainTools
  obtain ⟨s, hs⟩ := Option.isSome_iff_exists.mp
    (by decide : (P.exec twoCalls sched).isSome = true)
  have hcheck : (P.exec twoCalls sched).map mislabelled = some true := by decide
  rw [hs] at hcheck
  have hend : mislabelled s = true := Option.some.inj hcheck
  simp only [mislabelled, Bool.and_eq_true, decide_eq_true_eq, Bool.not_eq_true',
    decide_eq_false_iff_not] at hend
  obtain ⟨⟨hindexed, hover⟩, hversion⟩ := hend
  refine ⟨_, s, ⟨twoCalls, notStarted_twoCalls, System.exec_path hs⟩, ?_, ?_, hindexed, hversion⟩
  · split at hover
    · next c c' hc hc' _ =>
        obtain ⟨hf, hf'⟩ := Bool.and_eq_true_iff.mp hover
        rintro (_ | _)
        · exact ⟨c, hc, hf⟩
        · exact ⟨c', hc', hf'⟩
    · cases hover
  · split at hover
    · next hidle => exact hidle
    · cases hover

end Odirag.Indexing
