import Odirag.Indexing.Finished
import Odirag.Documents.Versioning
import Odirag.Documents.Review

/-!
# What retrieval can return

Reference: `backend/app/services/document_index.py`, `list_indexed_chunks` and
`vector_point_ids_for_document` of `backend/app/repositories/indexing.py`, and the routes of
`backend/app/api/routes/documents.py` with the services they call.

Retrieval reads the vector store and the BM25 index and does not look at the documents. An
operation that changes what may be returned has to take the points away and to rebuild the index.
The document ids are unique, so the points of the vector store fall apart by document.
-/

namespace Odirag.Retrieval

open Documents Indexing

/-- The documents with their rows and points, and the entries of the BM25 index by document. -/
structure Site (δ : Type*) where
  present : δ → Bool
  db : δ → IndexDb
  bm25 : δ → Finset PointId

/-- `vector_point_ids_for_document`. -/
def vectorPointIds (db : IndexDb) : Finset PointId := idsOf db.chunks ∪ db.lineage

/-- What `invalidate_document_retrieval` leaves of the points and the rows. -/
def invalidated (db : IndexDb) : IndexDb :=
  (db.delete (vectorPointIds db)).setVectorStatus .stale db.keys

namespace Site

variable {δ : Type*}

/-- `list_indexed_chunks`, for one document. -/
def listIndexedChunks (site : Site δ) (d : δ) : Finset PointId :=
  let document := (site.db d).document
  if site.present d = true ∧ document.finalStatus = .approved ∧ document.indexStatus = .indexed then
    idsOf ((site.db d).chunks.filter (·.chunk.vectorStatus = .indexed))
  else ∅

/-- `rebuild_runtime_bm25`. -/
def rebuild (site : Site δ) : Site δ := { site with bm25 := site.listIndexedChunks }

variable [DecidableEq δ]

/-- Write the rows and points of one document. -/
def write (d : δ) (present : Bool) (db : IndexDb) (site : Site δ) : Site δ :=
  { site with
    present := Function.update site.present d present
    db := Function.update site.db d db }

/-- `invalidate_document_retrieval`, after the row has been written. -/
def invalidate (d : δ) (db : IndexDb) (site : Site δ) : Site δ :=
  (site.write d true (invalidated db)).rebuild

/-- The routes of `update_document` and `reparse_document`, after their versioned update. -/
def updated (d : δ) (update : Option (Document × VersioningResult)) (site : Site δ) :
    Option (Site δ) :=
  update.map fun r =>
    let db := { site.db d with document := r.1 }
    if r.2.changed then site.invalidate d db else site.write d true db

/-- `delete_document`: with the document go its chunks and its lineage rows. -/
def delete (d : δ) (site : Site δ) : Site δ :=
  let db := site.db d
  (site.write d false { db.delete (vectorPointIds db) with chunks := [], lineage := ∅ }).rebuild

end Site

/-- An operation on a document. -/
inductive Operation
  /-- `reindex_document`, with the attachments that the document has by then. -/
  | index (attachments : List Attachment) (outcomes : List Outcome)
  | updateMetadata (updates : MetadataUpdates)
  | reparse (text : String) (updates : MetadataUpdates)
  /-- A crawl finds the document's URL again. -/
  | refresh (isLocal : Bool) (sourceRegion : Option String) (article : Article)
  | review (rule : FilterDecision) (llm : LlmOutcome)
  | manualDecision (decision : ManualDecision)
  | delete

section Operations

variable {δ : Type*} [DecidableEq δ] (ix : Indexer) (T : TextTools)

/-- The row after a refresh, which marks the chunks stale if it has changed a field. -/
def refreshed (isLocal : Bool) (sourceRegion : Option String) (article : Article) (db : IndexDb) :
    IndexDb :=
  { (if db.document.changedFields T sourceRegion article = [] then db
      else db.setVectorStatus .stale db.keys) with
    document := db.document.refresh T isLocal sourceRegion article }

/-- One operation on an existing document; `none` if the request is refused. -/
def Site.next (site : Site δ) (l : δ × Operation) : Option (Site δ) :=
  let d := l.1
  let db := site.db d
  if site.present d = false then none
  else
    match l.2 with
    | .index attachments outcomes =>
        (({ db with attachments } : IndexDb).indexDocument ix outcomes).map fun r =>
          match r.2 with
          | .returned _ => (site.write d true r.1).rebuild
          -- The exception reaches the route before the rebuild.
          | _ => site.write d true r.1
    | .updateMetadata updates => site.updated d (db.document.applyMetadataUpdate T updates)
    | .reparse text updates => site.updated d (db.document.applyParsedUpdate T text updates)
    | .refresh isLocal sourceRegion article =>
        some (site.write d true (refreshed T isLocal sourceRegion article db))
    | .review rule llm =>
        some (site.write d true { db with document := (ReviewService.run rule llm db.document).document })
    | .manualDecision decision =>
        some (site.write d true
          { db with document := (ReviewService.manualDecision decision db.document).current })
    | .delete => some (site.delete d)

/-- The histories of a site on which nothing has been indexed yet. -/
def documentOperations : System (Site δ) (δ × Operation) :=
  .ofNext (Site.next ix T) fun site =>
    ∀ d, (site.db d).chunks = [] ∧ (site.db d).store = ∅ ∧ site.bm25 d = ∅

end Operations

/-! ## Eligibility -/

section Eligible

variable {δ : Type*}

/-- What the vector store or the BM25 index can return for a document. -/
def Site.retrievable (site : Site δ) (d : δ) : Finset PointId := (site.db d).store ∪ site.bm25 d

/-- The chunk belongs to an approved document, whose version and content it was produced from. -/
structure Site.Current (ix : Indexer) (site : Site δ) (d : δ) (id : PointId) : Prop where
  present : site.present d = true
  approved : (site.db d).document.finalStatus = .approved
  produced : ix.Produces (site.db d).document id

/-- Every chunk that can be returned is current. -/
def Eligible (ix : Indexer) (site : Site δ) : Prop :=
  ∀ d, ∀ id ∈ site.retrievable d, site.Current ix d id

/-- The condition of an operation. As long as retrieval has entries of the document, only
operations that keep its approval and its fields may go without an invalidation; and the chunk and
lineage rows have to name every point that an invalidation is to delete. -/
def Site.KeepsEligible (T : TextTools) (site : Site δ) (l : δ × Operation) : Prop :=
  let db := site.db l.1
  match l.2 with
  | .index _ _ => True
  | .updateMetadata updates =>
      db.document.differing updates.updatable ≠ [] → db.store ⊆ vectorPointIds db
  | .reparse text _ =>
      db.document.contentHash ≠ some (T.contentHash (T.cleanText text)) →
        db.store ⊆ vectorPointIds db
  | .refresh isLocal sourceRegion article =>
      site.retrievable l.1 ≠ ∅ → db.document.changedFields T sourceRegion article = [] ∧
        (db.document.reviewChanged isLocal article = false ∨
          db.document.manualReviewStatus.isDecision = true)
  | .review rule llm =>
      site.retrievable l.1 ≠ ∅ → rule ≠ .reject ∧ ∃ r, llm = .reviewed r ∧
        ((∃ e, ReviewService.validateExtractedFields db.document r = .error e) ∨
          (r.decision = .approve ∧ rule ≠ .review))
  | .manualDecision decision => site.retrievable l.1 ≠ ∅ → decision = .approve
  | .delete => db.store ⊆ vectorPointIds db

/-! ## Writing one document -/

section Write

variable {ix : Indexer} [DecidableEq δ] {site : Site δ} {d : δ} {b : Bool} {db : IndexDb}

@[simp] theorem Site.write_db_self : (site.write d b db).db d = db := Function.update_self ..

@[simp] theorem Site.write_present_self : (site.write d b db).present d = b :=
  Function.update_self ..

theorem Site.write_db_ne {e : δ} (h : e ≠ d) : (site.write d b db).db e = site.db e :=
  Function.update_of_ne h ..

theorem Site.write_present_ne {e : δ} (h : e ≠ d) : (site.write d b db).present e = site.present e :=
  Function.update_of_ne h ..

/-- A write touches the chunks of one document only. -/
theorem Site.current_write_ne {e : δ} {id : PointId} (h : e ≠ d) :
    (site.write d b db).Current ix e id ↔ site.Current ix e id := by
  constructor
  · rintro ⟨hpresent, happroved, hproduced⟩
    rw [write_present_ne h] at hpresent
    rw [write_db_ne h] at happroved hproduced
    exact ⟨hpresent, happroved, hproduced⟩
  · rintro ⟨hpresent, happroved, hproduced⟩
    refine ⟨?_, ?_, ?_⟩
    · rwa [write_present_ne h]
    · rwa [write_db_ne h]
    · rwa [write_db_ne h]

/-- After a write the site is eligible if what is retrievable of the document is current. -/
theorem eligible_write (hI : Eligible ix site) :
    Eligible ix (site.write d b db) ↔
      ∀ id ∈ db.store ∪ site.bm25 d, (site.write d b db).Current ix d id := by
  constructor
  · intro h id hid
    refine h d id ?_
    rwa [Site.retrievable, Site.write_db_self]
  · intro h e id hid
    by_cases he : e = d
    · subst he
      rw [Site.retrievable, Site.write_db_self] at hid
      exact h id hid
    · rw [Site.current_write_ne he]
      rw [Site.retrievable, Site.write_db_ne he] at hid
      exact hI e id hid

omit [DecidableEq δ] in
/-- What a rebuild puts into the BM25 index is current. -/
theorem Site.current_of_mem_listIndexedChunks {id : PointId}
    (hJ : RowsCurrent ix (site.db d)) (h : id ∈ site.listIndexedChunks d) :
    site.Current ix d id := by
  unfold Site.listIndexedChunks at h
  dsimp only at h
  split at h
  · next hdocument =>
      obtain ⟨hpresent, happroved, hindexed⟩ := hdocument
      obtain ⟨row, hrow, rfl⟩ := mem_idsOf.mp h
      refine ⟨hpresent, happroved, hJ hindexed _ ?_⟩
      exact mem_idsOf.mpr ⟨row, List.mem_of_mem_filter hrow, rfl⟩
  · cases h

omit [DecidableEq δ] in
/-- A rebuild leaves the vector store to decide. -/
theorem eligible_rebuild (hJ : ∀ e, RowsCurrent ix (site.db e)) :
    Eligible ix site.rebuild ↔ ∀ e, ∀ id ∈ (site.db e).store, site.Current ix e id := by
  constructor
  · intro h e id hid
    obtain ⟨hpresent, happroved, hproduced⟩ := h e id (Finset.mem_union_left _ hid)
    exact ⟨hpresent, happroved, hproduced⟩
  · intro h e id hid
    have hcurrent : site.Current ix e id := by
      rcases Finset.mem_union.mp hid with hstore | hentry
      · exact h e id hstore
      · exact Site.current_of_mem_listIndexedChunks (hJ e) hentry
    exact ⟨hcurrent.present, hcurrent.approved, hcurrent.produced⟩

theorem rowsCurrent_write (hJ : ∀ e, RowsCurrent ix (site.db e)) (h : RowsCurrent ix db) (e : δ) :
    RowsCurrent ix ((site.write d b db).db e) := by
  by_cases he : e = d
  · subst he
    rwa [Site.write_db_self]
  · rw [Site.write_db_ne he]
    exact hJ e

/-- After a write and a rebuild the site is eligible if the points of the document are current. -/
theorem eligible_write_rebuild (hI : Eligible ix site) (hJ : ∀ e, RowsCurrent ix (site.db e))
    (hdb : RowsCurrent ix db) :
    Eligible ix (site.write d b db).rebuild ↔
      ∀ id ∈ db.store, (site.write d b db).Current ix d id := by
  rw [eligible_rebuild (rowsCurrent_write hJ hdb)]
  constructor
  · intro h id hid
    refine h d id ?_
    rwa [Site.write_db_self]
  · intro h e id hid
    by_cases he : e = d
    · subst he
      rw [Site.write_db_self] at hid
      exact h id hid
    · rw [Site.current_write_ne he]
      rw [Site.write_db_ne he] at hid
      exact hI e id (Finset.mem_union_left _ hid)

/-- A write that keeps the points, the version and the content keeps the site eligible exactly if
the document is still approved, or nothing of it is retrievable. -/
theorem eligible_write_same (hI : Eligible ix site) (hstore : db.store = (site.db d).store)
    (hid : db.document.documentId = (site.db d).document.documentId)
    (hversion : db.document.version = (site.db d).document.version)
    (hcontent : db.document.content = (site.db d).document.content) :
    Eligible ix (site.write d true db) ↔
      (site.retrievable d ≠ ∅ → db.document.finalStatus = .approved) := by
  rw [eligible_write hI, hstore]
  constructor
  · intro h hne
    obtain ⟨id, hmem⟩ := Finset.nonempty_iff_ne_empty.mpr hne
    have happroved := (h id hmem).approved
    rwa [Site.write_db_self] at happroved
  · intro h id hmem
    have happroved := h (Finset.ne_empty_of_mem hmem)
    refine ⟨Site.write_present_self, ?_, ?_⟩
    · rwa [Site.write_db_self]
    · rw [Site.write_db_self]
      exact (hI d id hmem).produced.congr ix hid hversion hcontent

/-- A write that starts a version and keeps the points keeps the site eligible only if nothing of
the document is retrievable. -/
theorem eligible_write_bumped (hI : Eligible ix site) (hstore : db.store = (site.db d).store)
    (hversion : db.document.version = (site.db d).document.version + 1) :
    Eligible ix (site.write d b db) ↔ site.retrievable d = ∅ := by
  rw [eligible_write hI, hstore]
  constructor
  · intro h
    refine Finset.eq_empty_of_forall_notMem fun id hmem => ?_
    have hold := (hI d id hmem).produced.version
    have hnew := (h id hmem).produced.version
    rw [Site.write_db_self, hversion] at hnew
    omega
  · intro h id hmem
    have hnone : id ∈ site.retrievable d := hmem
    rw [h] at hnone
    cases hnone

/-- Once a document has changed, its points have to go: an operation that deletes some points and
rebuilds the index keeps the site eligible exactly if these are all. -/
theorem eligible_cleared {ids : Finset PointId} (hI : Eligible ix site)
    (hJ : ∀ e, RowsCurrent ix (site.db e)) (hdb : RowsCurrent ix db)
    (hstore : db.store = (site.db d).store \ ids)
    (hgone : ∀ id, site.Current ix d id → ¬ (site.write d b db).Current ix d id) :
    Eligible ix (site.write d b db).rebuild ↔ (site.db d).store ⊆ ids := by
  rw [eligible_write_rebuild hI hJ hdb, hstore]
  constructor
  · intro h id hmem
    by_contra hkept
    have hbefore := hI d id (Finset.mem_union_left _ hmem)
    exact hgone id hbefore (h id (Finset.mem_sdiff.mpr ⟨hmem, hkept⟩))
  · intro h id hmem
    obtain ⟨hin, hout⟩ := Finset.mem_sdiff.mp hmem
    exact absurd (h hin) hout

end Write

end Eligible

/-! ## The operations -/

section Steps

variable {δ : Type*} [DecidableEq δ] {ix : Indexer} {T : TextTools} {site site' : Site δ} {d : δ}

/-- What a versioned update does: nothing, or it starts a version and makes the document stale. -/
def Versioned (document : Document) (changes : Prop) (r : Document × VersioningResult) : Prop :=
  (¬ changes ∧ r.1 = document ∧ r.2.changed = false) ∨
    (changes ∧ r.1.version = document.version + 1 ∧ r.1.indexStatus = .stale ∧ r.2.changed = true)

theorem versioned_metadata {document : Document} {updates : MetadataUpdates}
    {r : Document × VersioningResult} (h : document.applyMetadataUpdate T updates = some r) :
    Versioned document (document.differing updates.updatable ≠ []) r := by
  rcases Document.applyMetadataUpdate_cases h with
    ⟨hsame, hdocument, hchanged⟩ | ⟨hdiffers, -, hversion, hstatus, -, hchanged⟩
  · exact .inl ⟨fun hne => hne hsame, hdocument, hchanged⟩
  · exact .inr ⟨hdiffers, hversion, hstatus, hchanged⟩

theorem versioned_parsed {document : Document} {text : String} {updates : MetadataUpdates}
    {r : Document × VersioningResult} (h : document.applyParsedUpdate T text updates = some r) :
    Versioned document (document.contentHash ≠ some (T.contentHash (T.cleanText text))) r := by
  rcases Document.applyParsedUpdate_cases h with
    ⟨hsame, hdocument, hchanged⟩ | ⟨hdiffers, -, -, hversion, hstatus, -, hchanged⟩
  · exact .inl ⟨fun hne => hne hsame, hdocument, hchanged⟩
  · exact .inr ⟨hdiffers, hversion, hstatus, hchanged⟩

/-- A stale document has no rows to answer for. -/
theorem rowsCurrent_of_stale {db : IndexDb} (h : db.document.indexStatus = .stale) :
    RowsCurrent ix db := by
  intro hindexed
  rw [h] at hindexed
  cases hindexed

/-- The rows stay current if the row keeps its ids, its text and its index status. -/
theorem rowsCurrent_congr {db db' : IndexDb} (h : RowsCurrent ix db)
    (hids : idsOf db'.chunks = idsOf db.chunks)
    (hid : db'.document.documentId = db.document.documentId)
    (hversion : db'.document.version = db.document.version)
    (hcontent : db'.document.content = db.document.content)
    (hstatus : db'.document.indexStatus = db.document.indexStatus) : RowsCurrent ix db' := by
  intro hindexed id hmem
  rw [hstatus] at hindexed
  rw [hids] at hmem
  exact (h hindexed id hmem).congr ix hid hversion hcontent

/-- A refresh keeps the rows current, or it makes the document stale. -/
theorem rowsCurrent_refreshed {isLocal : Bool} {sourceRegion : Option String} {article : Article}
    {db : IndexDb} (h : RowsCurrent ix db) :
    RowsCurrent ix (refreshed T isLocal sourceRegion article db) := by
  have hids : idsOf (refreshed T isLocal sourceRegion article db).chunks = idsOf db.chunks := by
    unfold refreshed
    split
    · rfl
    · exact IndexDb.idsOf_setVectorStatus ..
  have hid : (refreshed T isLocal sourceRegion article db).document.documentId =
      db.document.documentId := Document.refresh_documentId ..
  rcases Document.refresh_cases T isLocal sourceRegion article db.document with
    ⟨-, -, heq⟩ | ⟨-, -, -, hcontent, hversion, hstatus, -⟩ |
      ⟨-, -, -, hcontent, hversion, hstatus, -⟩ | ⟨-, -, -, hstatus, -⟩
  · exact rowsCurrent_congr h hids hid (heq ▸ rfl) (heq ▸ rfl) (heq ▸ rfl)
  · exact rowsCurrent_congr h hids hid hversion hcontent hstatus
  · exact rowsCurrent_congr h hids hid hversion hcontent hstatus
  · exact rowsCurrent_of_stale hstatus

/-- A versioned update keeps the rows current, or it makes the document stale. -/
theorem rowsCurrent_updated {changes : Prop} {update : Option (Document × VersioningResult)}
    (hJ : ∀ e, RowsCurrent ix (site.db e))
    (hupdate : ∀ r, update = some r → Versioned (site.db d).document changes r)
    (h : site.updated d update = some site') : ∀ e, RowsCurrent ix (site'.db e) := by
  obtain ⟨⟨document, r⟩, hr, rfl⟩ := Option.map_eq_some_iff.mp h
  have hversioned := hupdate _ hr
  unfold Versioned at hversioned
  dsimp only at hversioned ⊢
  rcases hversioned with ⟨-, rfl, hchanged⟩ | ⟨-, -, hstatus, hchanged⟩
  · rw [if_neg (by simp [hchanged])]
    exact rowsCurrent_write hJ (hJ d)
  · rw [if_pos hchanged]
    have hdb : RowsCurrent ix (invalidated { site.db d with document := document }) :=
      rowsCurrent_of_stale hstatus
    exact rowsCurrent_write (b := true) hJ hdb

/-- Every operation keeps the rows of the indexed documents current. -/
theorem rowsCurrent_next {op : Operation} (hJ : ∀ e, RowsCurrent ix (site.db e))
    (h : site.next ix T (d, op) = some site') : ∀ e, RowsCurrent ix (site'.db e) := by
  unfold Site.next at h
  dsimp only at h
  split at h
  · cases h
  · cases op with
    | index attachments outcomes =>
        obtain ⟨⟨db, c⟩, hcall, rfl⟩ := Option.map_eq_some_iff.mp h
        obtain ⟨hfinished, hf⟩ := IndexDb.indexDocument_follows hcall
        have hdb : RowsCurrent ix db := hf.rowsCurrent hfinished (hJ d)
        dsimp only
        split
        · exact rowsCurrent_write (b := true) hJ hdb
        · exact rowsCurrent_write hJ hdb
    | updateMetadata updates => exact rowsCurrent_updated hJ (fun r hr => versioned_metadata hr) h
    | reparse text updates => exact rowsCurrent_updated hJ (fun r hr => versioned_parsed hr) h
    | refresh isLocal sourceRegion article =>
        cases h
        exact rowsCurrent_write hJ (rowsCurrent_refreshed (hJ d))
    | review rule llm =>
        cases h
        have htext := (ReviewService.run_cases rule llm (site.db d).document).1
        exact rowsCurrent_write hJ (rowsCurrent_congr (hJ d) rfl
          (ReviewService.run_documentId rule llm _) htext.version htext.content htext.indexStatus)
    | manualDecision decision =>
        cases h
        exact rowsCurrent_write hJ (rowsCurrent_congr (hJ d) rfl rfl rfl rfl rfl)
    | delete =>
        cases h
        exact rowsCurrent_write (b := false) hJ fun _ id hid => by cases hid

/-- In every history the rows of the indexed documents are current. -/
theorem rowsCurrent_of_run {tr : List (Site δ × (δ × Operation))} {site : Site δ}
    (h : (documentOperations ix T).Run System.always tr site) :
    ∀ d, RowsCurrent ix (site.db d) := by
  refine h.invariant (I := fun _ site => ∀ d, RowsCurrent ix (site.db d)) ?_ ?_
  · intro site hsite d _ id hid
    rw [(hsite d).1] at hid
    cases hid
  · rintro tr site ⟨d, op⟩ site' - hJ - hstep
    exact rowsCurrent_next hJ hstep

/-! ## Eligibility after an operation -/

omit [DecidableEq δ] in
/-- What is retrievable of a document of an eligible site is of an approved one. -/
theorem Eligible.approved (hI : Eligible ix site) (hne : site.retrievable d ≠ ∅) :
    (site.db d).document.finalStatus = .approved := by
  obtain ⟨id, hmem⟩ := Finset.nonempty_iff_ne_empty.mpr hne
  exact (hI d id hmem).approved

/-- A route with a versioned update keeps the site eligible exactly if the rows name every point of
a document that it changes. -/
theorem eligible_updated {changes : Prop} {update : Option (Document × VersioningResult)}
    (hI : Eligible ix site) (hJ : ∀ e, RowsCurrent ix (site.db e))
    (hupdate : ∀ r, update = some r → Versioned (site.db d).document changes r)
    (h : site.updated d update = some site') :
    Eligible ix site' ↔ (changes → (site.db d).store ⊆ vectorPointIds (site.db d)) := by
  obtain ⟨⟨document, r⟩, hr, rfl⟩ := Option.map_eq_some_iff.mp h
  have hversioned := hupdate _ hr
  unfold Versioned at hversioned
  dsimp only at hversioned ⊢
  rcases hversioned with ⟨hsame, rfl, hchanged⟩ | ⟨hchanges, hversion, hstatus, hchanged⟩
  · rw [if_neg (by simp [hchanged])]
    refine iff_of_true ?_ fun hchanges => absurd hchanges hsame
    rw [eligible_write_same hI rfl rfl rfl rfl]
    exact hI.approved
  · rw [if_pos hchanged]
    have hdb : RowsCurrent ix (invalidated { site.db d with document := document }) :=
      rowsCurrent_of_stale hstatus
    rw [Site.invalidate, eligible_cleared hI hJ hdb rfl]
    · exact ⟨fun hall _ => hall, fun hall => hall hchanges⟩
    · -- The points carry the version that the update has left behind.
      intro id hbefore hafter
      have hold := hbefore.produced.version
      have hnew := hafter.produced.version
      rw [Site.write_db_self] at hnew
      have hbumped : id.version = (site.db d).document.version + 1 := hnew.trans hversion
      omega

/-- `index_document`, with its rebuild if it succeeds, keeps the site eligible. -/
theorem eligible_index {attachments : List Attachment} {outcomes : List Outcome} {db : IndexDb}
    {c : Call} (hI : Eligible ix site) (hJ : ∀ e, RowsCurrent ix (site.db e))
    (hpresent : site.present d = true)
    (h : ({ site.db d with attachments } : IndexDb).indexDocument ix outcomes = some (db, c)) :
    Eligible ix (site.write d true db) ∧ Eligible ix (site.write d true db).rebuild := by
  obtain ⟨hfinished, hf⟩ := IndexDb.indexDocument_follows h
  have hdb : RowsCurrent ix db := hf.rowsCurrent hfinished (hJ d)
  obtain ⟨status, hdocument⟩ := hf.document
  -- What was current stays current, and what the call adds is.
  have hkeeps : ∀ id, site.Current ix d id → (site.write d true db).Current ix d id := by
    rintro id ⟨-, happroved, hproduced⟩
    refine ⟨Site.write_present_self, ?_, ?_⟩
    · rw [Site.write_db_self, hdocument]
      exact happroved
    · rw [Site.write_db_self, hdocument]
      exact hproduced.congr ix rfl rfl rfl
  have hpoints : ∀ id ∈ db.store, (site.write d true db).Current ix d id := by
    intro id hid
    rcases hf.points id hid with hbefore | ⟨happroved, hproduced⟩
    · exact hkeeps id (hI d id (Finset.mem_union_left _ hbefore))
    · exact hkeeps id ⟨hpresent, happroved, hproduced⟩
  refine ⟨(eligible_write hI).mpr fun id hid => ?_, (eligible_write_rebuild hI hJ hdb).mpr hpoints⟩
  rcases Finset.mem_union.mp hid with hstore | hentry
  · exact hpoints id hstore
  · exact hkeeps id (hI d id (Finset.mem_union_right _ hentry))

/-- A crawl that finds the document again keeps the site eligible exactly if it changes no field and
leaves the approval, or nothing of the document is retrievable. -/
theorem eligible_refresh {isLocal : Bool} {sourceRegion : Option String} {article : Article}
    (hI : Eligible ix site) :
    Eligible ix (site.write d true (refreshed T isLocal sourceRegion article (site.db d))) ↔
      site.KeepsEligible T (d, .refresh isLocal sourceRegion article) := by
  have hstore : (refreshed T isLocal sourceRegion article (site.db d)).store = (site.db d).store := by
    unfold refreshed
    split <;> rfl
  have hid : (refreshed T isLocal sourceRegion article (site.db d)).document.documentId =
      (site.db d).document.documentId := Document.refresh_documentId ..
  unfold Site.KeepsEligible
  dsimp only
  rcases Document.refresh_cases T isLocal sourceRegion article (site.db d).document with
    ⟨hsame, hreview, heq⟩ | ⟨hsame, hreview, hmanual, hcontent, hversion, -, hfinal⟩ |
      ⟨hsame, hreview, hmanual, hcontent, hversion, -, hfinal⟩ | ⟨hchanged, -, hversion, -, -⟩
  · rw [eligible_write_same hI hstore hid (heq ▸ rfl) (heq ▸ rfl)]
    refine iff_of_true (fun hne => ?_) fun _ => ⟨hsame, .inl hreview⟩
    change (Document.refresh T isLocal sourceRegion article (site.db d).document).finalStatus = _
    rw [heq]
    exact hI.approved hne
  · rw [eligible_write_same hI hstore hid hversion hcontent]
    exact iff_of_true (fun hne => hfinal.trans (hI.approved hne)) fun _ => ⟨hsame, .inr hmanual⟩
  · -- The decision of the crawl takes the approval away.
    rw [eligible_write_same hI hstore hid hversion hcontent]
    have hnot : (refreshed T isLocal sourceRegion article (site.db d)).document.finalStatus ≠
        .approved := fun h => article.decision.finalStatus_ne_approved (hfinal.symm.trans h)
    rw [hreview, hmanual]
    simp [hnot]
  · rw [eligible_write_bumped hI hstore hversion]
    simp [hchanged]

/-- A decision that keeps the text keeps the site eligible exactly if the document is approved
afterwards, or nothing of it is retrievable. -/
theorem eligible_decided {document : Document} (hI : Eligible ix site)
    (htext : (site.db d).document.SameText document)
    (hid : document.documentId = (site.db d).document.documentId) :
    Eligible ix (site.write d true { site.db d with document := document }) ↔
      (site.retrievable d ≠ ∅ → document.finalStatus = .approved) :=
  eligible_write_same hI rfl hid htext.version htext.content

/-- One operation keeps the site eligible exactly if it meets its condition. -/
theorem eligible_next {op : Operation} (hI : Eligible ix site)
    (hJ : ∀ e, RowsCurrent ix (site.db e)) (h : site.next ix T (d, op) = some site') :
    Eligible ix site' ↔ site.KeepsEligible T (d, op) := by
  unfold Site.next at h
  dsimp only at h
  split at h
  · cases h
  · next hpresent =>
      rw [Bool.not_eq_false] at hpresent
      cases op with
      | index attachments outcomes =>
          obtain ⟨⟨db, c⟩, hcall, rfl⟩ := Option.map_eq_some_iff.mp h
          obtain ⟨hwritten, hrebuilt⟩ := eligible_index hI hJ hpresent hcall
          dsimp only
          split
          · exact iff_of_true hrebuilt trivial
          · exact iff_of_true hwritten trivial
      | updateMetadata updates => exact eligible_updated hI hJ (fun r hr => versioned_metadata hr) h
      | reparse text updates => exact eligible_updated hI hJ (fun r hr => versioned_parsed hr) h
      | refresh isLocal sourceRegion article =>
          cases h
          exact eligible_refresh hI
      | review rule llm =>
          cases h
          have htext := (ReviewService.run_cases rule llm (site.db d).document).1
          rw [eligible_decided hI htext (ReviewService.run_documentId rule llm _)]
          exact forall_congr' fun hne =>
            @ReviewService.finalStatus_run_iff rule llm _ .approve (hI.approved hne)
      | manualDecision decision =>
          cases h
          have htext : (site.db d).document.SameText
              (ReviewService.manualDecision decision (site.db d).document).current :=
            ⟨rfl, rfl, rfl, rfl⟩
          rw [eligible_decided hI htext rfl]
          refine forall_congr' fun hne => ?_
          cases decision with
          | approve => exact iff_of_true rfl rfl
          | reject => exact iff_of_false (fun h => by cases h) fun h => by cases h
      | delete =>
          cases h
          have hdb : RowsCurrent ix { (site.db d).delete (vectorPointIds (site.db d)) with
              chunks := [], lineage := ∅ } := fun _ id hid => by cases hid
          rw [Site.delete, eligible_cleared hI hJ hdb rfl]
          · rfl
          · -- The document is gone.
            intro id _ hafter
            have hgone := hafter.present
            rw [Site.write_present_self] at hgone
            cases hgone

/-- In a history, retrieval returns everywhere only chunks of approved documents in their current
version and content if and only if every operation meets its condition. -/
theorem retrieval_eligible_iff {tr : List (Site δ × (δ × Operation))} {site : Site δ}
    (h : (documentOperations ix T).Run System.always tr site) :
    (∀ tr' site', System.Position site tr tr' site' → Eligible ix site') ↔
      ∀ site' l, (site', l) ∈ tr → site'.KeepsEligible T l := by
  refine h.everywhere_iff (I := fun _ site => Eligible ix site) (fun site hsite d id hid => ?_) ?_
  · obtain ⟨-, hstore, hentries⟩ := hsite d
    rw [Site.retrievable, hstore, hentries] at hid
    cases hid
  · rintro tr' site₁ ⟨d, op⟩ site₂ hrun hI hstep
    exact eligible_next hI (rowsCurrent_of_run hrun) hstep

end Steps

/-! ## Two histories -/

/-- The digests of the texts that the histories below hash, as far as they tell them apart. -/
def digests : TextTools where
  sha256 := wholeText.sha256
  cleanText text := text

/-- One approved document. -/
def oneDocument : Site Unit where
  present _ := true
  db _ := { document := approvedDocument }
  bm25 _ := ∅

theorem documentOperations_init_oneDocument :
    (documentOperations wholeText digests).init oneDocument :=
  fun _ => ⟨rfl, rfl, rfl⟩

/-- A document is indexed and gets a new title, which takes its points away. -/
theorem retrieval_eligible_updated :
    ∃ tr site, (documentOperations wholeText digests).Run System.always tr site ∧
      tr.length = 2 ∧ (site.db ()).document.version = 2 ∧ Eligible wholeText site := by
  let ops : List (Unit × Operation) :=
    [((), .index [] (goodOutcomes ++ [Outcome.ok])),
      ((), .updateMetadata [("title", some "New title")])]
  let next := @Site.next Unit _ wholeText digests
  obtain ⟨site, hsite⟩ := Option.isSome_iff_exists.mp
    (by decide : (System.exec next oneDocument ops).isSome = true)
  have hrun : (documentOperations wholeText digests).Run System.always
      (System.traceOf next oneDocument ops) site :=
    ⟨oneDocument, documentOperations_init_oneDocument, System.exec_path hsite⟩
  have hlength : (System.traceOf next oneDocument ops).length = 2 := by decide
  have hversion : (System.exec next oneDocument ops).map
      (fun site => (site.db ()).document.version) = some 2 := by decide
  have hkeeps : ∀ e ∈ System.traceOf next oneDocument ops, (match e.2.2 with
      | .index _ _ => true
      | .updateMetadata _ => decide ((e.1.db ()).store ⊆ vectorPointIds (e.1.db ()))
      | _ => false) = true := by decide
  rw [hsite] at hversion
  refine ⟨_, site, hrun, hlength, Option.some.inj hversion, ?_⟩
  refine (retrieval_eligible_iff hrun).mpr (fun site' l hmem => ?_) _ _ .last
  obtain ⟨d, op⟩ := l
  have hop := hkeeps _ hmem
  cases op with
  | index attachments outcomes => trivial
  | updateMetadata updates => exact fun _ => of_decide_eq_true hop
  | _ => cases hop

/-- A rejected document whose points are still in the vector store and in the BM25 index. -/
theorem rejected_document_retrievable :
    ∃ tr, ∃ site : Site Unit,
      (documentOperations wholeText digests).Run System.always tr site ∧
        ¬ Eligible wholeText site := by
  let ops : List (Unit × Operation) :=
    [((), .index [] (goodOutcomes ++ [Outcome.ok])), ((), .manualDecision .reject)]
  let next := @Site.next Unit _ wholeText digests
  obtain ⟨site, hsite⟩ := Option.isSome_iff_exists.mp
    (by decide : (System.exec next oneDocument ops).isSome = true)
  have hcheck : (System.exec next oneDocument ops).map (fun site =>
      decide ((site.db ()).store ≠ ∅ ∧ (site.db ()).document.finalStatus ≠ .approved)) =
        some true := by
    decide
  rw [hsite] at hcheck
  obtain ⟨hne, hrejected⟩ := of_decide_eq_true (Option.some.inj hcheck)
  refine ⟨_, site, ⟨oneDocument, documentOperations_init_oneDocument, System.exec_path hsite⟩,
    fun h => ?_⟩
  obtain ⟨id, hid⟩ := Finset.nonempty_iff_ne_empty.mpr hne
  exact hrejected (h () id (Finset.mem_union_left _ hid)).approved

end Odirag.Retrieval
