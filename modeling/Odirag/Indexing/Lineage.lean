import Odirag.Indexing.Call
import Odirag.Documents.History

/-!
# The version that a citation is traced to

Reference: `citation_lineage` of `backend/app/repositories/observability.py`;
`ensure_document_lineage` of `backend/app/repositories/crawl.py`; `replace_chunks` and
`latest_crawl_task_id` of `backend/app/repositories/indexing.py`; the lineage rows that
`versioning.py`, `crawl.py` and `indexing.py` of `backend/app/services` add.

The lineage rows of a document are listed in the order of their creation. The row of an indexed
chunk names the chunk, every other row names none and counts for all chunks, so a chunk is traced
to its own row only as long as no row behind it names a version.

A version row is identified by its number. The vector statuses of chunks are not read here.
-/

namespace Odirag.Indexing

open Documents

/-- A `data_lineage` row of a document. -/
structure DataLineage where
  crawlTaskId : Option ℕ := none
  documentVersionId : Option ℕ := none
  chunkId : Option ℕ := none
deriving DecidableEq, Repr

/-- A document with its chunk rows and its lineage rows, oldest first. -/
structure LineageDb where
  document : Document
  chunks : List ChunkRow := []
  nextKey : ℕ := 0
  lineage : List DataLineage := []

/-! ## Queries and writes -/

/-- `version_id` of `citation_lineage`: the newest version among the rows that name the chunk or
none. -/
def citedVersionId (lineage : List DataLineage) (key : ℕ) : Option ℕ :=
  lineage.reverse.findSome? fun row =>
    if row.chunkId = none ∨ row.chunkId = some key then row.documentVersionId else none

/-- The version row that `citation_lineage` returns for a chunk. -/
def LineageDb.citationLineage (db : LineageDb) (chunk : ChunkRow) : Option DocumentVersion :=
  (citedVersionId db.lineage chunk.key).bind fun version =>
    db.document.versions.find? (·.version == version)

/-- `latest_crawl_task_id`. -/
def latestCrawlTaskId (lineage : List DataLineage) : Option ℕ :=
  lineage.reverse.findSome? (·.crawlTaskId)

/-- Write a version into the oldest row of a crawl task, if a version is given. -/
def repoint (task : ℕ) (version : Option ℕ) : List DataLineage → List DataLineage
  | [] => []
  | row :: rows =>
      if row.crawlTaskId = some task then
        { row with documentVersionId := version.or row.documentVersionId } :: rows
      else row :: repoint task version rows

/-- `ensure_document_lineage`. -/
def ensureDocumentLineage (task : ℕ) (version : Option ℕ) (lineage : List DataLineage) :
    List DataLineage :=
  if lineage.any (·.crawlTaskId == some task) then repoint task version lineage
  else lineage ++ [{ crawlTaskId := some task, documentVersionId := version }]

/-- The update of `replace_chunks`: rows of deleted chunks name no chunk. -/
def clearChunks (keys : List ℕ) (lineage : List DataLineage) : List DataLineage :=
  lineage.map fun row =>
    if row.chunkId.any (· ∈ keys) then { row with chunkId := none } else row

namespace LineageDb

/-- `list_document_chunks`. -/
def listDocumentChunks (db : LineageDb) : List Chunk :=
  (db.chunks.insertionSort fun a b => a.chunk.chunkIndex ≤ b.chunk.chunkIndex).map (·.chunk)

/-- A versioned update with its lineage row; nothing if it was rolled back. -/
def updated (task : Option ℕ) (update : Option (Document × VersioningResult)) (db : LineageDb) :
    LineageDb :=
  match update with
  | none => db
  | some (document, r) =>
      { db with
        document
        lineage := if r.changed then
            db.lineage ++ [{ crawlTaskId := task, documentVersionId := some document.version }]
          else db.lineage }

/-- The rows of `index_document` that replaces the chunks. -/
def replaceChunks (T : TextTools) (desired : List Chunk) (db : LineageDb) : LineageDb :=
  let document := db.document.ensureDocumentVersion T
  let lineage := clearChunks (db.chunks.map (·.key)) db.lineage
  let rows := desired.zipIdx.map fun c => (⟨db.nextKey + c.2, c.1⟩ : ChunkRow)
  { document
    chunks := rows
    nextKey := db.nextKey + desired.length
    lineage := lineage ++ rows.map fun row =>
      { crawlTaskId := latestCrawlTaskId lineage
        documentVersionId := some document.version
        chunkId := some row.key } }

/-- `index_document`: whether its commit is reached, and the index status that it leaves. -/
def indexDocument (ix : Indexer) (T : TextTools) (attachments : List Attachment) (commits : Bool)
    (status : IndexStatus) (db : LineageDb) : LineageDb :=
  let desired := ix.chunks db.document attachments
  if db.document.finalStatus ≠ .approved ∨ desired = [] then db
  else
    let db := if commits && Indexer.replaceRequired db.listDocumentChunks desired then
        db.replaceChunks T desired
      else db
    { db with document := { db.document with indexStatus := status } }

end LineageDb

/-- An operation on a document. -/
inductive LineageOp
  | refresh (task : ℕ) (isLocal : Bool) (sourceRegion : Option String) (article : Article)
  | applyParsedUpdate (task : Option ℕ) (text : String) (updates : MetadataUpdates)
  | applyMetadataUpdate (updates : MetadataUpdates)
  | review (rule : FilterDecision) (llm : LlmOutcome)
  | manualDecision (decision : ManualDecision)
  | indexDocument (attachments : List Attachment) (commits : Bool) (status : IndexStatus)

namespace LineageOp

/-- The committed rows after the operation. -/
def apply (ix : Indexer) (T : TextTools) (op : LineageOp) (db : LineageDb) : LineageDb :=
  match op with
  | .refresh task isLocal sourceRegion article =>
      let document := db.document.refresh T isLocal sourceRegion article
      let version :=
        if db.document.changedFields T sourceRegion article = [] then none
        else some document.version
      { db with document, lineage := ensureDocumentLineage task version db.lineage }
  | .applyParsedUpdate task text updates =>
      db.updated task (db.document.applyParsedUpdate T text updates)
  | .applyMetadataUpdate updates => db.updated none (db.document.applyMetadataUpdate T updates)
  | .review rule llm => { db with document := (ReviewService.run rule llm db.document).document }
  | .manualDecision decision =>
      { db with document := (ReviewService.manualDecision decision db.document).current }
  | .indexDocument attachments commits status => db.indexDocument ix T attachments commits status

/-- The operation stores a new version: a field differs, and the database does not refuse it. -/
def AddsVersion (T : TextTools) (document : Document) : LineageOp → Prop
  | .refresh _ _ sourceRegion article => document.changedFields T sourceRegion article ≠ []
  | .applyParsedUpdate _ text updates =>
      document.contentHash ≠ some (T.contentHash (T.cleanText text)) ∧
        (document.setMetadata updates.updatable).metadata .title ≠ none
  | .applyMetadataUpdate updates =>
      document.differing updates.updatable ≠ [] ∧
        (document.setMetadata (document.differing updates.updatable)).metadata .title ≠ none
  | _ => False

/-- A lineage row of the task is older than the rows of the stored chunks. -/
def RowBeforeChunks (task : ℕ) (db : LineageDb) : Prop :=
  ∃ before row after, db.lineage = before ++ row :: after ∧ row.crawlTaskId = some task ∧
    ∀ chunk ∈ db.chunks, ∃ own ∈ after, own.chunkId = some chunk.key

/-- The condition of an operation: while chunks are stored, a new version comes only from a crawl
task that has a lineage row older than theirs. -/
def KeepsLineage (T : TextTools) (db : LineageDb) (op : LineageOp) : Prop :=
  op.AddsVersion T db.document → db.chunks ≠ [] →
    match op with
    | .refresh task _ _ _ => RowBeforeChunks task db
    | _ => False

end LineageOp

/-- The histories of a crawled document, which has the lineage row of its crawl task. -/
def lineageSystem (ix : Indexer) (T : TextTools) : System LineageDb LineageOp :=
  .ofNext (fun db op => some (op.apply ix T db)) fun db =>
    Inserted T db.document ∧ db.chunks = [] ∧
      ∃ task, db.lineage = [{ crawlTaskId := some task }]

/-- Each stored chunk is traced to the version it was produced from. -/
def CitesIndexed (db : LineageDb) : Prop :=
  ∀ chunk ∈ db.chunks, ∃ version, db.citationLineage chunk = some version ∧
    version.version = chunk.chunk.chunkId.version

/-! ## Where the rows of the chunks stand -/

/-- The lineage row of an indexed chunk. -/
def chunkRow (task : Option ℕ) (version : ℕ) (chunk : ChunkRow) : DataLineage where
  crawlTaskId := task
  documentVersionId := some version
  chunkId := some chunk.key

/-- The rows of the stored chunks stand together, with the version that the chunks were produced
from; the rows around them name no chunk, and a version behind them is newer. -/
structure Traced (db : LineageDb) (before after : List DataLineage) (task : Option ℕ)
    (version : ℕ) : Prop where
  lineage : db.lineage = before ++ db.chunks.map (chunkRow task version) ++ after
  produced : ∀ chunk ∈ db.chunks, chunk.chunk.chunkId.version = version
  le : version ≤ db.document.version
  stored : db.chunks ≠ [] → ∃ row ∈ db.document.versions, row.version = version
  before_unnamed : ∀ row ∈ before, row.chunkId = none
  after_unnamed : ∀ row ∈ after, row.chunkId = none
  later : ∀ row ∈ after, ∀ w, row.documentVersionId = some w → version < w
  task_mem : ∀ t, task = some t → ∃ row ∈ before, row.crawlTaskId = some t

theorem citedVersionId_append (early late : List DataLineage) (key : ℕ) :
    citedVersionId (early ++ late) key =
      (citedVersionId late key).or (citedVersionId early key) := by
  unfold citedVersionId
  rw [List.reverse_append, List.findSome?_append]

/-- Rows without a version do not count. -/
theorem citedVersionId_of_none {rows : List DataLineage} (key : ℕ)
    (h : ∀ row ∈ rows, row.documentVersionId = none) : citedVersionId rows key = none := by
  unfold citedVersionId
  rw [List.findSome?_eq_none_iff]
  intro row hrow
  split
  · exact h row (List.mem_reverse.mp hrow)
  · rfl

/-- A cited version is the version of a row. -/
theorem mem_of_citedVersionId {rows : List DataLineage} {key w : ℕ}
    (h : citedVersionId rows key = some w) : ∃ row ∈ rows, row.documentVersionId = some w := by
  obtain ⟨row, hrow, hversion⟩ := List.exists_of_findSome?_eq_some h
  refine ⟨row, List.mem_reverse.mp hrow, ?_⟩
  split at hversion
  · exact hversion
  · cases hversion

/-- A row that names no chunk and has a version counts for every chunk. -/
theorem citedVersionId_ne_none {rows : List DataLineage} (key : ℕ) {row : DataLineage}
    (hrow : row ∈ rows) (hunnamed : row.chunkId = none ∨ row.chunkId = some key)
    (hversion : row.documentVersionId ≠ none) : citedVersionId rows key ≠ none := by
  intro hnone
  unfold citedVersionId at hnone
  rw [List.findSome?_eq_none_iff] at hnone
  have hnot := hnone row (List.mem_reverse.mpr hrow)
  rw [if_pos hunnamed] at hnot
  exact hversion hnot

/-- Among the rows of the chunks, a chunk is traced to their version. -/
theorem citedVersionId_chunkRows {chunks : List ChunkRow} (task : Option ℕ) (version : ℕ)
    {chunk : ChunkRow} (h : chunk ∈ chunks) :
    citedVersionId (chunks.map (chunkRow task version)) chunk.key = some version := by
  cases hcited : citedVersionId (chunks.map (chunkRow task version)) chunk.key with
  | none =>
      exact absurd hcited (citedVersionId_ne_none chunk.key (List.mem_map_of_mem h) (.inr rfl)
        (Option.some_ne_none version))
  | some w =>
      obtain ⟨row, hrow, hversion⟩ := mem_of_citedVersionId hcited
      obtain ⟨other, -, rfl⟩ := List.mem_map.mp hrow
      exact hversion.symm

namespace Traced

variable {db : LineageDb} {before after : List DataLineage} {task : Option ℕ} {version : ℕ}

/-- The chunks are traced to their version exactly if no row behind theirs has a version. -/
theorem citesIndexed_iff (h : Traced db before after task version) :
    CitesIndexed db ↔ (db.chunks ≠ [] → ∀ row ∈ after, row.documentVersionId = none) := by
  have hcited : ∀ chunk ∈ db.chunks, citedVersionId db.lineage chunk.key =
      (citedVersionId after chunk.key).or (some version) := by
    intro chunk hchunk
    rw [h.lineage, citedVersionId_append, citedVersionId_append,
      citedVersionId_chunkRows task version hchunk, Option.some_or]
  constructor
  · intro hcites hne row hrow
    by_contra hversion
    obtain ⟨chunk, hchunk⟩ := List.exists_mem_of_ne_nil db.chunks hne
    obtain ⟨cited, hlineage, heq⟩ := hcites chunk hchunk
    obtain ⟨w, hw⟩ := Option.ne_none_iff_exists'.mp
      (citedVersionId_ne_none chunk.key hrow (.inl (h.after_unnamed row hrow)) hversion)
    unfold LineageDb.citationLineage at hlineage
    rw [hcited chunk hchunk, hw, Option.some_or, Option.bind_some] at hlineage
    -- The version found behind the rows of the chunks is newer.
    have hfound : cited.version = w := by simpa using List.find?_some hlineage
    obtain ⟨newer, hnewer, hnewerVersion⟩ := mem_of_citedVersionId hw
    have hlt := h.later newer hnewer w hnewerVersion
    have hproduced := h.produced chunk hchunk
    omega
  · intro hnone chunk hchunk
    have hne : db.chunks ≠ [] := List.ne_nil_of_mem hchunk
    unfold LineageDb.citationLineage
    rw [hcited chunk hchunk, citedVersionId_of_none chunk.key (hnone hne), Option.none_or,
      Option.bind_some]
    obtain ⟨row, hrow, hversion⟩ := h.stored hne
    have hfind : (db.document.versions.find? (·.version == version)).isSome := by
      rw [List.find?_isSome]
      exact ⟨row, hrow, by simpa using hversion⟩
    obtain ⟨cited, hcitedRow⟩ := Option.isSome_iff_exists.mp hfind
    refine ⟨cited, hcitedRow, ?_⟩
    rw [h.produced chunk hchunk]
    simpa using List.find?_some hcitedRow

/-- Another document row, whose history continues the one before. -/
theorem setDocument (h : Traced db before after task version) {document : Document}
    (hversion : db.document.version ≤ document.version)
    (hversions : db.document.versions <+: document.versions) :
    Traced { db with document } before after task version where
  lineage := h.lineage
  produced := h.produced
  le := h.le.trans hversion
  stored := fun hne => by
    obtain ⟨row, hrow, heq⟩ := h.stored hne
    exact ⟨row, hversions.subset hrow, heq⟩
  before_unnamed := h.before_unnamed
  after_unnamed := h.after_unnamed
  later := h.later
  task_mem := h.task_mem

/-- Another lineage row at the end, that names no chunk. -/
theorem append (h : Traced db before after task version) {row : DataLineage}
    (hunnamed : row.chunkId = none) (hlater : ∀ w, row.documentVersionId = some w → version < w) :
    Traced { db with lineage := db.lineage ++ [row] } before (after ++ [row]) task version where
  lineage := by rw [h.lineage, List.append_assoc]
  produced := h.produced
  le := h.le
  stored := h.stored
  before_unnamed := h.before_unnamed
  after_unnamed := by
    intro r hr
    rcases List.mem_append.mp hr with hr | hr
    · exact h.after_unnamed r hr
    · rwa [List.mem_singleton.mp hr]
  later := by
    intro r hr
    rcases List.mem_append.mp hr with hr | hr
    · exact h.later r hr
    · rwa [List.mem_singleton.mp hr]
  task_mem := h.task_mem

end Traced

/-! ## Pointing a row at a version -/

section Repoint

variable {task : ℕ} {version : Option ℕ}

/-- The first row of the task stands in front. -/
theorem repoint_append_of_mem {rows : List DataLineage} (rest : List DataLineage)
    (h : ∃ row ∈ rows, row.crawlTaskId = some task) :
    repoint task version (rows ++ rest) = repoint task version rows ++ rest := by
  induction rows with
  | nil => simp at h
  | cons row rows ih =>
      by_cases hrow : row.crawlTaskId = some task
      · simp [repoint, hrow]
      · have hrest : ∃ row ∈ rows, row.crawlTaskId = some task := by simpa [hrow] using h
        simp [repoint, hrow, ih hrest]

/-- No row in front is of the task. -/
theorem repoint_append_of_not_mem {rows : List DataLineage} (rest : List DataLineage)
    (h : ∀ row ∈ rows, row.crawlTaskId ≠ some task) :
    repoint task version (rows ++ rest) = rows ++ repoint task version rest := by
  induction rows with
  | nil => rfl
  | cons row rows ih =>
      have hrow : row.crawlTaskId ≠ some task := h row List.mem_cons_self
      have hrest : ∀ row ∈ rows, row.crawlTaskId ≠ some task :=
        fun r hr => h r (List.mem_cons_of_mem _ hr)
      simp [repoint, hrow, ih hrest]

/-- Without a version nothing is written. -/
theorem repoint_none (rows : List DataLineage) : repoint task none rows = rows := by
  induction rows with
  | nil => rfl
  | cons row rows ih =>
      unfold repoint
      split
      · rw [Option.none_or]
      · rw [ih]

/-- A row afterwards is a row before, but for its version. -/
theorem mem_repoint {rows : List DataLineage} {row : DataLineage}
    (h : row ∈ repoint task version rows) : ∃ old ∈ rows, row.crawlTaskId = old.crawlTaskId ∧
      row.chunkId = old.chunkId ∧
      (row.documentVersionId = old.documentVersionId ∨ row.documentVersionId = version) := by
  induction rows with
  | nil => cases h
  | cons first rows ih =>
      unfold repoint at h
      split at h
      · rcases List.mem_cons.mp h with rfl | hmem
        · refine ⟨first, List.mem_cons_self, rfl, rfl, ?_⟩
          cases version with
          | none => exact .inl (Option.none_or ..)
          | some w => exact .inr rfl
        · exact ⟨row, List.mem_cons_of_mem _ hmem, rfl, rfl, .inl rfl⟩
      · rcases List.mem_cons.mp h with rfl | hmem
        · exact ⟨row, List.mem_cons_self, rfl, rfl, .inl rfl⟩
        · obtain ⟨old, hold, hsame⟩ := ih hmem
          exact ⟨old, List.mem_cons_of_mem _ hold, hsame⟩

/-- A given version is written. -/
theorem exists_mem_repoint {rows : List DataLineage} {w : ℕ}
    (h : ∃ row ∈ rows, row.crawlTaskId = some task) :
    ∃ row ∈ repoint task (some w) rows, row.documentVersionId = some w := by
  induction rows with
  | nil => simp at h
  | cons first rows ih =>
      unfold repoint
      split
      · exact ⟨_, List.mem_cons_self, rfl⟩
      · next hfirst =>
          have hrest : ∃ row ∈ rows, row.crawlTaskId = some task := by simpa [hfirst] using h
          obtain ⟨row, hrow, hversion⟩ := ih hrest
          exact ⟨row, List.mem_cons_of_mem _ hrow, hversion⟩

/-- The tasks of the rows stay. -/
theorem exists_task_repoint {rows : List DataLineage} {t : ℕ}
    (h : ∃ row ∈ rows, row.crawlTaskId = some t) :
    ∃ row ∈ repoint task version rows, row.crawlTaskId = some t := by
  induction rows with
  | nil => simp at h
  | cons first rows ih =>
      obtain ⟨row, hrow, htask⟩ := h
      unfold repoint
      rcases List.mem_cons.mp hrow with rfl | hmem
      · split
        · exact ⟨_, List.mem_cons_self, htask⟩
        · exact ⟨row, List.mem_cons_self, htask⟩
      · split
        · exact ⟨row, List.mem_cons_of_mem _ hmem, htask⟩
        · obtain ⟨new, hnew, hnewTask⟩ := ih ⟨row, hmem, htask⟩
          exact ⟨new, List.mem_cons_of_mem _ hnew, hnewTask⟩

end Repoint

namespace Traced

variable {db : LineageDb} {before after : List DataLineage} {task : Option ℕ} {version : ℕ}

/-- A row in front of the chunks' rows is pointed at another version. -/
theorem repoint_before (h : Traced db before after task version) {t : ℕ} {w : Option ℕ}
    (ht : ∃ row ∈ before, row.crawlTaskId = some t) :
    Traced { db with lineage := repoint t w db.lineage } (repoint t w before) after task version
    where
  lineage := by rw [h.lineage, List.append_assoc, repoint_append_of_mem _ ht, List.append_assoc]
  produced := h.produced
  le := h.le
  stored := h.stored
  before_unnamed := by
    intro row hrow
    obtain ⟨old, hold, -, hchunk, -⟩ := mem_repoint hrow
    rw [hchunk]
    exact h.before_unnamed old hold
  after_unnamed := h.after_unnamed
  later := h.later
  task_mem := fun t' ht' => exists_task_repoint (h.task_mem t' ht')

/-- A row behind the chunks' rows is pointed at a newer version. -/
theorem repoint_after (h : Traced db before after task version) {t : ℕ} {w : Option ℕ}
    (ht : ∀ row ∈ before, row.crawlTaskId ≠ some t) (hw : ∀ v, w = some v → version < v) :
    Traced { db with lineage := repoint t w db.lineage } before (repoint t w after) task version
    where
  lineage := by
    -- The rows of the chunks carry a task that has a row in front of them.
    have hfront : ∀ row ∈ before ++ db.chunks.map (chunkRow task version),
        row.crawlTaskId ≠ some t := by
      intro row hrow
      rcases List.mem_append.mp hrow with hrow | hrow
      · exact ht row hrow
      · obtain ⟨chunk, -, rfl⟩ := List.mem_map.mp hrow
        intro htask
        obtain ⟨row, hrow, hrowTask⟩ := h.task_mem t htask
        exact ht row hrow hrowTask
    rw [h.lineage, repoint_append_of_not_mem _ hfront]
  produced := h.produced
  le := h.le
  stored := h.stored
  before_unnamed := h.before_unnamed
  after_unnamed := by
    intro row hrow
    obtain ⟨old, hold, -, hchunk, -⟩ := mem_repoint hrow
    rw [hchunk]
    exact h.after_unnamed old hold
  later := by
    intro row hrow v hv
    obtain ⟨old, hold, -, -, hversion | hversion⟩ := mem_repoint hrow
    · exact h.later old hold v (hversion ▸ hv)
    · exact hw v (hversion ▸ hv)
  task_mem := h.task_mem

/-- New chunks have their rows at the end. -/
theorem replaceChunks (h : Traced db before after task version) {ix : Indexer} {T : TextTools}
    {attachments : List Attachment} :
    Traced (db.replaceChunks T (ix.chunks db.document attachments))
      (clearChunks (db.chunks.map (·.key)) db.lineage) []
      (latestCrawlTaskId (clearChunks (db.chunks.map (·.key)) db.lineage)) db.document.version := by
  have hversion : (db.document.ensureDocumentVersion T).version = db.document.version := by
    unfold Document.ensureDocumentVersion
    split <;> rfl
  refine ⟨?_, ?_, ?_, ?_, ?_, by simp, by simp, ?_⟩
  · simp [LineageDb.replaceChunks, chunkRow, hversion]
  · intro chunk hchunk
    obtain ⟨c, hc, rfl⟩ := List.mem_map.mp hchunk
    exact Indexer.version_of_mem_chunks (List.fst_mem_of_mem_zipIdx hc)
  · exact hversion.ge
  · intro _
    change ∃ row ∈ (db.document.ensureDocumentVersion T).versions, _
    unfold Document.ensureDocumentVersion
    split
    · next hstored =>
        obtain ⟨row, hrow, heq⟩ := List.any_eq_true.mp hstored
        exact ⟨row, hrow, by simpa using heq⟩
    · exact ⟨_, List.mem_append_right _ (List.mem_singleton_self _), rfl⟩
  · -- Only the rows of the deleted chunks named one.
    intro row hrow
    obtain ⟨old, hold, rfl⟩ := List.mem_map.mp hrow
    rw [h.lineage, List.append_assoc] at hold
    split
    · rfl
    · next hkept =>
        rcases List.mem_append.mp hold with hold | hold
        · exact h.before_unnamed old hold
        · rcases List.mem_append.mp hold with hold | hold
          · obtain ⟨chunk, hchunk, rfl⟩ := List.mem_map.mp hold
            refine absurd ?_ hkept
            simpa [chunkRow] using ⟨chunk, hchunk, rfl⟩
          · exact h.after_unnamed old hold
  · intro t ht
    obtain ⟨row, hrow, htask⟩ := List.exists_of_findSome?_eq_some ht
    exact ⟨row, List.mem_reverse.mp hrow, htask⟩

end Traced

/-! ## What an operation does to the citations -/

/-- No row behind the rows of stored chunks has a version. -/
def Cited (chunks : List ChunkRow) (after : List DataLineage) : Prop :=
  chunks ≠ [] → ∀ row ∈ after, row.documentVersionId = none

/-- A row with a version behind them misleads every stored chunk. -/
theorem cited_iff_of_mem {chunks : List ChunkRow} {after : List DataLineage} {row : DataLineage}
    {w : ℕ} (hrow : row ∈ after) (hversion : row.documentVersionId = some w) :
    Cited chunks after ↔ chunks = [] := by
  constructor
  · intro hcited
    by_contra hne
    have hnone := hcited hne row hrow
    rw [hversion] at hnone
    cases hnone
  · exact fun hnil hne => absurd hnil hne

/-- The rows after an operation are traced; and if the chunks were cited right before it, they are
now exactly under a condition. -/
def Traces (db : LineageDb) (good P : Prop) : Prop :=
  ∃ before after task version, Traced db before after task version ∧
    (good → (Cited db.chunks after ↔ P))

section Steps

variable {db : LineageDb} {before after : List DataLineage} {task : Option ℕ} {version : ℕ}

/-- A lineage row of a crawl task is older than the rows of the chunks if it stands in front. -/
theorem rowBeforeChunks_iff (h : Traced db before after task version) (hne : db.chunks ≠ [])
    (t : ℕ) : LineageOp.RowBeforeChunks t db ↔ ∃ row ∈ before, row.crawlTaskId = some t := by
  constructor
  · rintro ⟨front, row, back, hlineage, htask, hback⟩
    obtain ⟨chunk, hchunk⟩ := List.exists_mem_of_ne_nil db.chunks hne
    obtain ⟨own, hown, hnamed⟩ := hback chunk hchunk
    -- The row that names the chunk is not behind the chunks' rows.
    have hnot : ¬ back ⊆ after := by
      intro hsubset
      have hunnamed := h.after_unnamed own (hsubset hown)
      rw [hnamed] at hunnamed
      cases hunnamed
    rw [h.lineage] at hlineage
    rcases List.append_eq_append_iff.mp hlineage with ⟨rest, -, hafter⟩ | ⟨rest, hfront, hrest⟩
    · refine absurd (fun r hr => ?_) hnot
      rw [hafter]
      exact List.mem_append_right _ (List.mem_cons_of_mem _ hr)
    · cases rest with
      | nil =>
          refine absurd (fun r hr => ?_) hnot
          rw [List.nil_append] at hrest
          rw [← hrest]
          exact List.mem_cons_of_mem _ hr
      | cons first rest =>
          obtain ⟨rfl, -⟩ := List.cons.inj hrest
          have hmem : row ∈ before ++ db.chunks.map (chunkRow task version) := by
            rw [hfront]
            exact List.mem_append_right _ List.mem_cons_self
          rcases List.mem_append.mp hmem with hmem | hmem
          · exact ⟨row, hmem, htask⟩
          · obtain ⟨c, -, rfl⟩ := List.mem_map.mp hmem
            exact h.task_mem t htask
  · rintro ⟨row, hrow, htask⟩
    obtain ⟨front, back, rfl⟩ := List.append_of_mem hrow
    refine ⟨front, row, back ++ db.chunks.map (chunkRow task version) ++ after, ?_, htask, ?_⟩
    · rw [h.lineage]
      simp
    · intro chunk hchunk
      refine ⟨chunkRow task version chunk, ?_, rfl⟩
      simp only [List.mem_append, List.mem_map]
      exact .inl (.inr ⟨chunk, hchunk, rfl⟩)

/-- An operation that leaves chunks and lineage rows alone. -/
theorem traces_setDocument (h : Traced db before after task version) {document : Document}
    (hversion : db.document.version ≤ document.version)
    (hversions : db.document.versions <+: document.versions) {P : Prop} (hP : P) :
    Traces { db with document } (Cited db.chunks after) P :=
  ⟨before, after, task, version, h.setDocument hversion hversions,
    fun hcited => iff_of_true hcited hP⟩

/-- A lineage row with a newer version misleads every stored chunk. -/
theorem traces_append (h : Traced db before after task version) (t : Option ℕ) {w : ℕ}
    (hw : version < w) :
    Traces { db with lineage := db.lineage ++ [{ crawlTaskId := t, documentVersionId := some w }] }
      (Cited db.chunks after) (db.chunks = []) := by
  refine ⟨before, _, task, version, h.append rfl ?_, fun _ => ?_⟩
  · intro v hv
    cases hv
    exact hw
  · exact cited_iff_of_mem (List.mem_append_right _ (List.mem_singleton_self _)) rfl

/-- `ensure_document_lineage` without a version. -/
theorem traces_ensure_none (h : Traced db before after task version) (t : ℕ) {P : Prop} (hP : P) :
    Traces { db with lineage := ensureDocumentLineage t none db.lineage } (Cited db.chunks after)
      P := by
  unfold ensureDocumentLineage
  split
  · rw [repoint_none]
    exact ⟨before, after, task, version, h, fun hcited => iff_of_true hcited hP⟩
  · refine ⟨before, _, task, version, h.append rfl (fun v hv => by cases hv), fun hcited => ?_⟩
    refine iff_of_true (fun hne row hrow => ?_) hP
    rcases List.mem_append.mp hrow with hrow | hrow
    · exact hcited hne row hrow
    · rw [List.mem_singleton.mp hrow]

/-- `ensure_document_lineage` with a newer version: the chunks are still traced to theirs exactly
if the task has a row in front of their rows. -/
theorem traces_ensure_some (h : Traced db before after task version) (t : ℕ) {w : ℕ}
    (hw : version < w) :
    Traces { db with lineage := ensureDocumentLineage t (some w) db.lineage }
      (Cited db.chunks after) (db.chunks ≠ [] → LineageOp.RowBeforeChunks t db) := by
  have hkeeps : (¬ ∃ row ∈ before, row.crawlTaskId = some t) →
      ((db.chunks ≠ [] → LineageOp.RowBeforeChunks t db) ↔ db.chunks = []) := by
    intro hno
    constructor
    · intro hbefore
      by_contra hne
      exact hno ((rowBeforeChunks_iff h hne t).mp (hbefore hne))
    · exact fun hnil hne => absurd hnil hne
  unfold ensureDocumentLineage
  split
  · next hany =>
      by_cases hbefore : ∃ row ∈ before, row.crawlTaskId = some t
      · refine ⟨_, after, task, version, h.repoint_before hbefore,
          fun hcited => iff_of_true hcited ?_⟩
        exact fun hne => (rowBeforeChunks_iff h hne t).mpr hbefore
      · have hnot : ∀ row ∈ before, row.crawlTaskId ≠ some t :=
          fun row hrow htask => hbefore ⟨row, hrow, htask⟩
        refine ⟨before, _, task, version, h.repoint_after hnot ?_, fun _ => ?_⟩
        · intro v hv
          cases hv
          exact hw
        · rw [hkeeps hbefore]
          -- The row of the task stands behind the rows of the chunks.
          obtain ⟨row, hrow, htask⟩ := List.any_eq_true.mp hany
          have hafter : ∃ row ∈ after, row.crawlTaskId = some t := by
            rw [h.lineage, List.append_assoc] at hrow
            simp only [List.mem_append, List.mem_map] at hrow
            rcases hrow with hrow | ⟨c, -, rfl⟩ | hrow
            · exact absurd (by simpa using htask) (hnot row hrow)
            · exact absurd (h.task_mem t (by simpa [chunkRow] using htask)) hbefore
            · exact ⟨row, hrow, by simpa using htask⟩
          obtain ⟨pointed, hpointed, hversion⟩ := exists_mem_repoint (w := w) hafter
          exact cited_iff_of_mem hpointed hversion
  · next hany =>
      have hno : ¬ ∃ row ∈ before, row.crawlTaskId = some t := by
        rintro ⟨row, hrow, htask⟩
        refine hany (List.any_eq_true.mpr ⟨row, ?_, by simpa using htask⟩)
        rw [h.lineage, List.append_assoc]
        exact List.mem_append_left _ hrow
      obtain ⟨before', after', task', version', htraced, hiff⟩ := traces_append h (some t) hw
      exact ⟨before', after', task', version', htraced,
        fun hcited => (hiff hcited).trans (hkeeps hno).symm⟩

/-- When `apply_parsed_update` stores a new version. -/
theorem addsVersion_applyParsedUpdate_iff {T : TextTools} {document : Document} (t : Option ℕ)
    (text : String) (updates : MetadataUpdates) :
    (LineageOp.applyParsedUpdate t text updates).AddsVersion T document ↔
      ∃ r, document.applyParsedUpdate T text updates = some r ∧ r.2.changed = true := by
  unfold LineageOp.AddsVersion Document.applyParsedUpdate Document.flushUpdate Document.setMetadata
  dsimp only
  by_cases hhash : document.contentHash = some (T.contentHash (T.cleanText text))
  · simp [hhash]
  · by_cases htitle : updates.updatable.foldl (fun m u => Function.update m u.1 u.2)
        document.metadata .title = none
    · simp [hhash, htitle]
    · simp [hhash, htitle]

/-- When `apply_metadata_update` stores a new version. -/
theorem addsVersion_applyMetadataUpdate_iff {T : TextTools} {document : Document}
    (updates : MetadataUpdates) :
    (LineageOp.applyMetadataUpdate updates).AddsVersion T document ↔
      ∃ r, document.applyMetadataUpdate T updates = some r ∧ r.2.changed = true := by
  unfold LineageOp.AddsVersion Document.applyMetadataUpdate Document.flushUpdate
    Document.setMetadata
  dsimp only
  by_cases hdiffering : document.differing updates.updatable = []
  · simp [hdiffering]
  · by_cases htitle : (document.differing updates.updatable).foldl
        (fun m u => Function.update m u.1 u.2) document.metadata .title = none
    · simp [hdiffering, htitle]
    · simp [hdiffering, htitle]

/-- A versioned update: it misleads every stored chunk exactly if it is stored as a new version. -/
theorem traces_updated (h : Traced db before after task version) (t : Option ℕ) {T : TextTools}
    {op : VersionOp} {update : Option (Document × VersioningResult)}
    (hchange : VersionChange T db.document (db.document.committed update) op) {adds : Prop}
    (hadds : adds ↔ ∃ r, update = some r ∧ r.2.changed = true)
    (hversion : ∀ r, update = some r → r.2.changed = true →
      r.1.version = db.document.version + 1) :
    Traces (db.updated t update) (Cited db.chunks after) (adds → db.chunks ≠ [] → False) := by
  have hextends := hchange.extends
  cases update with
  | none =>
      have hno : ¬ adds := by simp [hadds]
      exact ⟨before, after, task, version, h,
        fun hcited => iff_of_true hcited fun ha => absurd ha hno⟩
  | some r =>
      obtain ⟨document, r⟩ := r
      cases hchanged : r.changed with
      | false =>
          -- The row is stored again, but as no new version.
          have hno : ¬ adds := by simp [hadds, hchanged]
          have hupdated : db.updated t (some (document, r)) = { db with document } := by
            simp [LineageDb.updated, hchanged]
          rw [hupdated]
          exact traces_setDocument h hextends.2 hextends.1 fun ha => absurd ha hno
      | true =>
          have hyes : adds := hadds.mpr ⟨_, rfl, hchanged⟩
          have hnext : document.version = db.document.version + 1 := hversion _ rfl hchanged
          have hle := h.le
          have hupdated : db.updated t (some (document, r)) =
              { ({ db with document } : LineageDb) with
                lineage := db.lineage ++
                  [{ crawlTaskId := t, documentVersionId := some document.version }] } := by
            simp [LineageDb.updated, hchanged]
          rw [hupdated]
          -- The new version is above the one the chunks were made from, which makes them citations
          -- of an old one.
          have hlt : version < document.version := by omega
          obtain ⟨before', after', task', version', htraced, hiff⟩ :=
            traces_append (h.setDocument hextends.2 hextends.1) t hlt
          refine ⟨before', after', task', version', htraced, fun hcited => (hiff hcited).trans ?_⟩
          constructor
          · exact fun hnil _ hne => hne hnil
          · intro himp
            by_contra hne
            exact himp hyes hne

/-- `index_document` traces what it stores. -/
theorem traces_indexDocument (h : Traced db before after task version) (ix : Indexer) (T : TextTools)
    (attachments : List Attachment) (commits : Bool) (status : IndexStatus) {P : Prop} (hP : P) :
    Traces (db.indexDocument ix T attachments commits status) (Cited db.chunks after) P := by
  unfold LineageDb.indexDocument
  dsimp only
  split
  · exact ⟨before, after, task, version, h, fun hcited => iff_of_true hcited hP⟩
  · split
    · have hreplaced : Traced (db.replaceChunks T (ix.chunks db.document attachments)) _ [] _ _ :=
        h.replaceChunks
      refine ⟨_, [], _, _, hreplaced.setDocument le_rfl List.prefix_rfl,
        fun _ => iff_of_true ?_ hP⟩
      exact fun _ row hrow => absurd hrow List.not_mem_nil
    · exact ⟨before, after, task, version, h.setDocument le_rfl List.prefix_rfl,
        fun hcited => iff_of_true hcited hP⟩

/-- One operation keeps the citations right exactly if it meets the condition. -/
theorem LineageOp.traces (h : Traced db before after task version) (ix : Indexer) (T : TextTools)
    (op : LineageOp) :
    Traces (op.apply ix T db) (Cited db.chunks after) (op.KeepsLineage T db) := by
  cases op with
  | refresh t isLocal sourceRegion article =>
      have hextends := (versionChange_refresh T db.document isLocal sourceRegion article).extends
      have hrow := h.setDocument hextends.2 hextends.1
      -- A version is appended exactly if a field has changed.
      by_cases hchanged : db.document.changedFields T sourceRegion article = []
      · have hkeeps : (LineageOp.refresh t isLocal sourceRegion article).KeepsLineage T db :=
          fun hadds => absurd hchanged hadds
        have htraces := traces_ensure_none hrow t hkeeps
        simpa [LineageOp.apply, hchanged] using htraces
      · have hle := h.le
        have hversion : (db.document.refresh T isLocal sourceRegion article).version =
            db.document.version + 1 := by
          rcases Document.refresh_cases T isLocal sourceRegion article db.document with
            ⟨hnil, -⟩ | ⟨hnil, -⟩ | ⟨hnil, -⟩ | ⟨-, -, hversion, -⟩
          · exact absurd hnil hchanged
          · exact absurd hnil hchanged
          · exact absurd hnil hchanged
          · exact hversion
        have hlt : version < (db.document.refresh T isLocal sourceRegion article).version := by
          omega
        obtain ⟨before', after', task', version', htraced, hiff⟩ :=
          traces_ensure_some hrow t hlt
        refine ⟨before', after', task', version', ?_, ?_⟩
        · simpa [LineageOp.apply, hchanged] using htraced
        · exact fun hcited => (hiff hcited).trans
            ⟨fun hbefore _ hne => hbefore hne, fun hkeeps hne => hkeeps hchanged hne⟩
  | applyParsedUpdate t text updates =>
      refine traces_updated h t
        (versionChange_applyParsedUpdate T db.document text updates) ?_ ?_
      · exact addsVersion_applyParsedUpdate_iff t text updates
      · intro r hupdate hchanged
        obtain ⟨document, r⟩ := r
        rcases Document.applyParsedUpdate_cases hupdate with
          ⟨-, -, hsame⟩ | ⟨-, -, -, hversion, -⟩
        · rw [hsame] at hchanged
          cases hchanged
        · exact hversion
  | applyMetadataUpdate updates =>
      refine traces_updated h none
        (versionChange_applyMetadataUpdate T db.document updates) ?_ ?_
      · exact addsVersion_applyMetadataUpdate_iff updates
      · intro r hupdate hchanged
        obtain ⟨document, r⟩ := r
        rcases Document.applyMetadataUpdate_cases hupdate with ⟨-, -, hsame⟩ | ⟨-, -, hversion, -⟩
        · rw [hsame] at hchanged
          cases hchanged
        · exact hversion
  | review rule llm =>
      -- The rest appends no version, so that it has nothing to keep.
      have hextends := ((VersionOp.review rule llm).versionChange T db.document).extends
      exact traces_setDocument h hextends.2 hextends.1 fun hadds => False.elim hadds
  | manualDecision decision =>
      have hextends := ((VersionOp.manualDecision decision).versionChange T db.document).extends
      exact traces_setDocument h hextends.2 hextends.1 fun hadds => False.elim hadds
  | indexDocument attachments commits status =>
      exact traces_indexDocument h ix T attachments commits status fun hadds => False.elim hadds

end Steps

/-! ## Histories -/

/-- In every history the rows of the stored chunks stand together. -/
theorem traced_run {ix : Indexer} {T : TextTools} {tr : List (LineageDb × LineageOp)}
    {db : LineageDb} (h : (lineageSystem ix T).Run System.always tr db) :
    ∃ before after task version, Traced db before after task version := by
  refine h.invariant (I := fun _ db => ∃ before after task version,
    Traced db before after task version) ?_ ?_
  · rintro db ⟨hinserted, hchunks, task, hlineage⟩
    refine ⟨[{ crawlTaskId := some task }], [], none, 0, ?_⟩
    constructor <;> simp [hchunks, hlineage]
  · rintro tr db op _ - ⟨before, after, task, version, htraced⟩ - ⟨rfl⟩
    obtain ⟨before', after', task', version', htraced', -⟩ := op.traces htraced ix T
    exact ⟨before', after', task', version', htraced'⟩

/-- In a history of a crawled document, every stored chunk is everywhere traced to the version it
was produced from if and only if, while chunks are stored, a new version comes only from a crawl
task with a lineage row older than theirs. -/
theorem citation_lineage_indexed_iff {ix : Indexer} {T : TextTools}
    {tr : List (LineageDb × LineageOp)} {db : LineageDb}
    (h : (lineageSystem ix T).Run System.always tr db) :
    (∀ tr' db', System.Position db tr tr' db' → CitesIndexed db') ↔
      ∀ db' op, (db', op) ∈ tr → op.KeepsLineage T db' := by
  refine h.everywhere_iff (I := fun _ db => CitesIndexed db) ?_ ?_
  · rintro db ⟨-, hchunks, -⟩ chunk hchunk
    rw [hchunks] at hchunk
    cases hchunk
  · rintro tr' db' op _ hrun hcites ⟨rfl⟩
    obtain ⟨before, after, task, version, htraced⟩ := traced_run hrun
    obtain ⟨before', after', task', version', htraced', hiff⟩ := op.traces htraced ix T
    rw [htraced'.citesIndexed_iff]
    exact hiff (htraced.citesIndexed_iff.mp hcites)

/-- An indexer that makes one chunk of a text. -/
def sampleLineageIndexer : Indexer where
  chunk text := [⟨text, [], none, text.length⟩]
  sha256 text := text
  dimensions := 1
  providerName := "p"
  modelName := "m"

/-- The sample document as crawl task 1 inserts it. -/
def sampleLineageDb : LineageDb where
  document := sampleArticle.create sampleTools false none "doc-1"
  lineage := [{ crawlTaskId := some 1 }]

theorem sampleLineageDb_init :
    (lineageSystem sampleLineageIndexer sampleTools).init sampleLineageDb :=
  ⟨.article false none "doc-1" sampleArticle, rfl, 1, rfl⟩

/-- Approved, indexed, and refreshed by the task that inserted the document. -/
theorem citation_lineage_indexed_refreshed :
    ∃ tr db, (lineageSystem sampleLineageIndexer sampleTools).Run System.always tr db ∧
      db.chunks.length = 1 ∧ db.document.version = 2 ∧ CitesIndexed db := by
  let ops : List LineageOp := [.manualDecision .approve, .indexDocument [] true .indexed,
    .refresh 1 false none sampleRevision]
  let next := fun (db : LineageDb) (op : LineageOp) =>
    some (op.apply sampleLineageIndexer sampleTools db)
  obtain ⟨db, hdb⟩ := Option.isSome_iff_exists.mp
    (by decide : (System.exec next sampleLineageDb ops).isSome = true)
  have hrun : (lineageSystem sampleLineageIndexer sampleTools).Run System.always
      (System.traceOf next sampleLineageDb ops) db :=
    ⟨_, sampleLineageDb_init, System.exec_path hdb⟩
  have hcheck : (System.exec next sampleLineageDb ops).map (fun db =>
      (db.chunks.length, db.document.version)) = some (1, 2) := by
    decide +kernel
  rw [hdb] at hcheck
  obtain ⟨hchunks, hversion⟩ := Prod.mk.inj (Option.some.inj hcheck)
  refine ⟨_, db, hrun, hchunks, hversion,
    (citation_lineage_indexed_iff hrun).mpr ?_ _ _ .last⟩
  intro db' op hmem
  simp only [System.traceOf, next, ops, List.nil_append, List.cons_append, List.mem_cons,
    List.not_mem_nil, or_false, Prod.mk.injEq] at hmem
  rcases hmem with ⟨rfl, rfl⟩ | ⟨-, rfl⟩ | ⟨-, rfl⟩
  · intro _ _
    -- The row of the insertion stands in front of the row of the chunk.
    have hlineage : ((LineageOp.indexDocument [] true .indexed).apply sampleLineageIndexer
        sampleTools ((LineageOp.manualDecision .approve).apply sampleLineageIndexer sampleTools
          sampleLineageDb)).lineage = [⟨some 1, none, none⟩, ⟨some 1, some 1, some 0⟩] := by
      decide +kernel
    have hkeys : ((LineageOp.indexDocument [] true .indexed).apply sampleLineageIndexer
        sampleTools ((LineageOp.manualDecision .approve).apply sampleLineageIndexer sampleTools
          sampleLineageDb)).chunks.map (·.key) = [0] := by
      decide +kernel
    refine ⟨[], ⟨some 1, none, none⟩, [⟨some 1, some 1, some 0⟩], hlineage, rfl, ?_⟩
    intro chunk hchunk
    have hkey : chunk.key ∈ [0] := by
      rw [← hkeys]
      exact List.mem_map_of_mem hchunk
    rw [List.mem_singleton.mp hkey]
    exact ⟨_, List.mem_singleton_self _, rfl⟩
  · exact fun hadds => False.elim hadds
  · exact fun hadds => False.elim hadds

/-- An operator edits the region of an indexed document: the chunks of version 1 are traced to
version 2. -/
theorem metadata_update_misleads_citation :
    ∃ tr db, (lineageSystem sampleLineageIndexer sampleTools).Run System.always tr db ∧
      ¬ CitesIndexed db := by
  let ops : List LineageOp := [.manualDecision .approve, .indexDocument [] true .indexed,
    .applyMetadataUpdate [("region", some "Sichuan")]]
  let next := fun (db : LineageDb) (op : LineageOp) =>
    some (op.apply sampleLineageIndexer sampleTools db)
  obtain ⟨db, hdb⟩ := Option.isSome_iff_exists.mp
    (by decide : (System.exec next sampleLineageDb ops).isSome = true)
  have hcheck : (System.exec next sampleLineageDb ops).map (fun db => db.chunks.any fun chunk =>
      (db.citationLineage chunk).map (·.version) != some chunk.chunk.chunkId.version) =
        some true := by
    decide +kernel
  rw [hdb] at hcheck
  obtain ⟨chunk, hchunk, hother⟩ := List.any_eq_true.mp (Option.some.inj hcheck)
  refine ⟨_, db, ⟨_, sampleLineageDb_init, System.exec_path hdb⟩, fun hcites => ?_⟩
  obtain ⟨version, hversion, heq⟩ := hcites chunk hchunk
  rw [hversion, Option.map_some, heq] at hother
  simp at hother

end Odirag.Indexing
