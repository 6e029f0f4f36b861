import Odirag.Documents.Approval

/-!
# The version history of a document

Reference: `ensure_document_version` of `backend/app/repositories/indexing.py`, the versioned
updates of `backend/app/services/versioning.py` and `backend/app/services/crawl.py`, and the
unique constraint of `document_versions` in `backend/app/models/document.py`.

An operation keeps the version rows, adds the row of the next version, or adds the missing row of
the current one. `VersionChange` says this once; that the history has no gap and that its last row
is the document are both read off it.
-/

namespace Odirag.Documents

/-! ## Inserted documents -/

/-- What a crawl adapter finds (`CrawledDocument`), with its parsed date. -/
structure CrawledDocument where
  url : String
  title : String
  text : String
  rawHtml : Option String := none
  publishDate : Option String := none
deriving DecidableEq, Repr

/-- The document that `CrawlService.execute` inserts for it. -/
def CrawledDocument.create (T : TextTools) (region city : Option String) (documentId : String)
    (crawled : CrawledDocument) : Document where
  documentId
  sourceUrl := crawled.url
  metadata
    | .title => some crawled.title
    | .publishDate => crawled.publishDate
    | .region => region
    | .city => city
    | .language => some (detectLanguage crawled.text)
    | _ => none
  content := crawled.text
  rawContent := crawled.rawHtml
  contentHash := some (T.sha256 crawled.text)
  wordCount := crawled.text.length

/-- A document as a crawl inserts it. -/
inductive Inserted (T : TextTools) : Document → Prop
  | article (isLocal : Bool) (sourceRegion : Option String) (documentId : String)
      (article : Article) : Inserted T (article.create T isLocal sourceRegion documentId)
  | crawled (region city : Option String) (documentId : String) (crawled : CrawledDocument) :
      Inserted T (crawled.create T region city documentId)

namespace Inserted

variable {T : TextTools} {document : Document}

theorem version_eq_one (h : Inserted T document) : document.version = 1 := by
  cases h <;> rfl

theorem versions_eq_nil (h : Inserted T document) : document.versions = [] := by
  cases h <;> rfl


end Inserted

/-! ## Operations -/

namespace Document

/-- `IndexRepository.ensure_document_version`. -/
def ensureDocumentVersion (T : TextTools) (document : Document) : Document :=
  if document.versions.any fun row => row.version == document.version then document
  else { document with versions := document.versions ++ [document.documentVersion T []] }

/-- A versioned update that is stored has a title. -/
theorem title_of_flushUpdate {document : Document} {changedFields : List String}
    {r : Document × VersioningResult} (h : document.flushUpdate changedFields = some r) :
    r.1.metadata .title ≠ none := by
  unfold flushUpdate at h
  split at h
  · cases h
  · next htitle =>
      cases h
      exact htitle

/-- A transaction that breaks the unique constraint of `document_versions` is rolled back. -/
def commitVersions (stored document : Document) : Document :=
  if (document.versions.map (·.version)).Nodup then document else stored

end Document

/-- A service operation on a document. -/
inductive VersionOp
  | refresh (isLocal : Bool) (sourceRegion : Option String) (article : Article)
  | applyParsedUpdate (text : String) (updates : MetadataUpdates)
  | applyMetadataUpdate (updates : MetadataUpdates)
  | review (rule : FilterDecision) (llm : LlmOutcome)
  | manualDecision (decision : ManualDecision)
  | ensureDocumentVersion

namespace VersionOp

/-- The row with its version rows that the operation is about to commit. -/
def run (T : TextTools) (op : VersionOp) (document : Document) : Document :=
  match op with
  | .refresh isLocal sourceRegion article => document.refresh T isLocal sourceRegion article
  | .applyParsedUpdate text updates =>
      document.committed (document.applyParsedUpdate T text updates)
  | .applyMetadataUpdate updates => document.committed (document.applyMetadataUpdate T updates)
  | .review rule llm => (ReviewService.run rule llm document).document
  | .manualDecision decision => (ReviewService.manualDecision decision document).current
  | .ensureDocumentVersion => document.ensureDocumentVersion T

/-- The committed row after the operation. -/
def apply (T : TextTools) (op : VersionOp) (document : Document) : Document :=
  document.commitVersions (op.run T document)

end VersionOp

/-- The histories of a crawled document. -/
def versionSystem (T : TextTools) : System Document VersionOp :=
  .ofNext (fun document op => some (op.apply T document)) (Inserted T)

/-! ## What an operation does to the history -/

/-- `VersioningService._snapshot` or `CrawlService._document_version`. -/
def Snapshots (T : TextTools) (snap : Document → List String → DocumentVersion) : Prop :=
  snap = Document.snapshot T ∨ snap = Document.documentVersion T

theorem Snapshots.version {T : TextTools} {snap : Document → List String → DocumentVersion}
    (h : Snapshots T snap) (document : Document) (changes : List String) :
    (snap document changes).version = document.version := by
  rcases h with rfl | rfl <;> rfl

/-- The stored hash is the digest of the content, by one of the two formulas. -/
def HashOf (T : TextTools) (document : Document) : Prop :=
  document.contentHash = some (T.sha256 document.content) ∨
    document.contentHash = some (T.contentHash document.content)

/-- What holds of the text columns of a crawled document at any time. -/
structure TextColumns (T : TextTools) (document : Document) : Prop where
  hash : HashOf T document
  wordCount : document.wordCount = document.content.length
  title : document.metadata .title ≠ none

/-- What an operation can do to the version, its rows and the versioned columns. -/
inductive VersionChange (T : TextTools) (document document' : Document) : VersionOp → Prop
  /-- Nothing. -/
  | kept {op : VersionOp} (htext : document.SameText document')
      (hwords : document'.wordCount = document.wordCount)
      (hversions : document'.versions = document.versions)
      (hmetadata : document'.metadata = document.metadata) : VersionChange T document document' op
  /-- Another document type, without a new version. -/
  | retyped {rule : FilterDecision} {llm : LlmOutcome} (htext : document.SameText document')
      (hwords : document'.wordCount = document.wordCount)
      (hversions : document'.versions = document.versions)
      (hmetadata : ∀ f, f ≠ .documentType → document'.metadata f = document.metadata f) :
      VersionChange T document document' (.review rule llm)
  /-- A new version with its row, after a row of the state before if there was none. -/
  | next {op : VersionOp} (snap : Document → List String → DocumentVersion) (changes : List String)
      (hsnap : Snapshots T snap) (hversion : document'.version = document.version + 1)
      (hversions : document'.versions =
        document.versionsBefore snap ++ [snap document' changes])
      (htext : TextColumns T document → TextColumns T document') :
      VersionChange T document document' op
  /-- The missing row of the current version; the rest of the document stays. -/
  | ensured {op : VersionOp} (hmissing : ∀ row ∈ document.versions, row.version ≠ document.version)
      (hdocument : document' =
        { document with versions := document.versions ++ [document.documentVersion T []] }) :
      VersionChange T document document' op

/-- No row is lost, and the version does not go back. -/
theorem VersionChange.extends {T : TextTools} {document document' : Document} {op : VersionOp}
    (h : VersionChange T document document' op) :
    document.versions <+: document'.versions ∧ document.version ≤ document'.version := by
  cases h with
  | kept htext hwords hversions => exact ⟨by rw [hversions], htext.version.ge⟩
  | retyped htext hwords hversions => exact ⟨by rw [hversions], htext.version.ge⟩
  | next snap changes hsnap hversion hversions htext =>
      refine ⟨?_, by omega⟩
      rw [hversions]
      unfold Document.versionsBefore
      split
      · next hempty =>
          rw [List.length_eq_zero_iff.mp hempty]
          exact List.nil_prefix
      · exact List.prefix_append _ _
  | ensured hmissing hdocument =>
      subst hdocument
      exact ⟨List.prefix_append _ _, le_rfl⟩

section Changes

variable (T : TextTools) (document : Document)

/-- The effect of `_refresh_coze_document` on the history. -/
theorem versionChange_refresh (isLocal : Bool) (sourceRegion : Option String) (article : Article) :
    VersionChange T document (document.refresh T isLocal sourceRegion article)
      (.refresh isLocal sourceRegion article) := by
  unfold Document.refresh
  dsimp only
  by_cases hchanged : document.changedFields T sourceRegion article = []
  · simp only [hchanged, true_and, if_true, not_true_eq_false, ne_eq, false_or]
    split
    · exact .kept .rfl rfl rfl rfl
    · split <;> exact .kept ⟨rfl, rfl, rfl, rfl⟩ rfl rfl rfl
  · simp only [hchanged, false_and, if_false, not_false_eq_true, true_or, if_true, ne_eq]
    exact .next (Document.documentVersion T) _ (.inr rfl) rfl rfl fun _ =>
      ⟨.inl rfl, rfl, Option.some_ne_none _⟩

/-- The effect of `apply_parsed_update` on the history. -/
theorem versionChange_applyParsedUpdate (text : String) (updates : MetadataUpdates) :
    VersionChange T document (document.committed (document.applyParsedUpdate T text updates))
      (.applyParsedUpdate text updates) := by
  cases hupdate : document.applyParsedUpdate T text updates with
  | none => exact .kept .rfl rfl rfl rfl
  | some r =>
      unfold Document.applyParsedUpdate at hupdate
      dsimp only at hupdate
      split at hupdate
      · cases hupdate
        exact .kept .rfl rfl rfl rfl
      · have htitle := Document.title_of_flushUpdate hupdate
        obtain ⟨hdocument, -⟩ := Document.flushUpdate_some hupdate
        have hcommitted : document.committed (some r) = r.1 := rfl
        rw [hcommitted, hdocument]
        rw [hdocument] at htitle
        exact .next (Document.snapshot T) _ (.inl rfl) rfl rfl fun _ => ⟨.inr rfl, rfl, htitle⟩

/-- The effect of `apply_metadata_update` on the history. -/
theorem versionChange_applyMetadataUpdate (updates : MetadataUpdates) :
    VersionChange T document (document.committed (document.applyMetadataUpdate T updates))
      (.applyMetadataUpdate updates) := by
  cases hupdate : document.applyMetadataUpdate T updates with
  | none => exact .kept .rfl rfl rfl rfl
  | some r =>
      unfold Document.applyMetadataUpdate at hupdate
      dsimp only at hupdate
      split at hupdate
      · cases hupdate
        exact .kept .rfl rfl rfl rfl
      · have htitle := Document.title_of_flushUpdate hupdate
        obtain ⟨hdocument, -⟩ := Document.flushUpdate_some hupdate
        have hcommitted : document.committed (some r) = r.1 := rfl
        rw [hcommitted, hdocument]
        rw [hdocument] at htitle
        exact .next (Document.snapshot T) _ (.inl rfl) rfl rfl fun h => ⟨h.hash, h.wordCount, htitle⟩

/-- The effect of a review on the history and on the metadata: only a model's review whose fields
pass their check stores a document type. -/
theorem review_effect (rule : FilterDecision) (llm : LlmOutcome) :
    let document' := (ReviewService.run rule llm document).document
    document'.versions = document.versions ∧
      ((document'.metadata = document.metadata ∧
          ∀ r, rule ≠ .reject → llm = .reviewed r →
            ∀ fields, ReviewService.validateExtractedFields document r ≠ .ok fields) ∨
        ∃ r fields, rule ≠ .reject ∧ llm = .reviewed r ∧
          ReviewService.validateExtractedFields document r = .ok fields ∧
          document'.metadata = Function.update document.metadata .documentType
            (orElse r.documentType (document.metadata .documentType))) := by
  intro document'
  -- A rejection and a missing model end the review before any field is stored.
  by_cases hrule : rule = .reject
  · have hrun : document' =
        { (ReviewService.ruleReview rule document).current with finalStatus := .rejected } := by
      simp [document', ReviewService.run, hrule, ReviewService.Ending.document]
    rw [hrun]
    exact ⟨rfl, .inl ⟨rfl, fun r hne => absurd hrule hne⟩⟩
  · cases llm with
    | unavailable =>
        have hrun : document' = { (ReviewService.ruleReview rule document).current with
            llmReviewStatus := .unavailable, finalStatus := .pendingLlm } := by
          simp [document', ReviewService.run, hrule, ReviewService.Ending.document]
        rw [hrun]
        exact ⟨rfl, .inl ⟨rfl, fun r _ hllm => by cases hllm⟩⟩
    | reviewed r =>
        have hsame : ReviewService.validateExtractedFields
            (ReviewService.ruleReview rule document).current r =
              ReviewService.validateExtractedFields document r := rfl
        cases hfields : ReviewService.validateExtractedFields document r with
        -- A field that fails its check ends the review too, with the rule review alone.
        | error e =>
            have hrun : document' = (ReviewService.ruleReview rule document).current := by
              simp [document', ReviewService.run, hrule, hsame, hfields,
                ReviewService.Ending.document]
            rw [hrun]
            refine ⟨rfl, .inl ⟨rfl, fun r' _ hllm fields hok => ?_⟩⟩
            cases hllm
            rw [hfields] at hok
            cases hok
        | ok fields =>
            have hrun : document' = (ReviewService.llmReview rule r
                (ReviewService.ruleReview rule document)).current := by
              simp [document', ReviewService.run, hrule, hsame, hfields,
                ReviewService.Ending.document]
            rw [hrun]
            exact ⟨rfl, .inr ⟨r, fields, hrule, rfl, hfields, rfl⟩⟩

/-- A review leaves the word count alone. -/
theorem wordCount_review (rule : FilterDecision) (llm : LlmOutcome) :
    (ReviewService.run rule llm document).document.wordCount = document.wordCount := by
  unfold ReviewService.run
  dsimp only
  split
  · rfl
  · split
    · rfl
    · split <;> rfl

/-- The effect of `ensure_document_version` on the history. -/
theorem versionChange_ensureDocumentVersion :
    VersionChange T document (document.ensureDocumentVersion T) .ensureDocumentVersion := by
  unfold Document.ensureDocumentVersion
  split
  · exact .kept .rfl rfl rfl rfl
  · next hmissing =>
      refine .ensured (fun row hrow heq => hmissing ?_) rfl
      exact List.any_eq_true.mpr ⟨row, hrow, by simpa using heq⟩

/-- Every operation changes the history in one of these ways. -/
theorem VersionOp.versionChange (op : VersionOp) :
    VersionChange T document (op.run T document) op := by
  cases op with
  | refresh isLocal sourceRegion article =>
      exact versionChange_refresh T document isLocal sourceRegion article
  | applyParsedUpdate text updates => exact versionChange_applyParsedUpdate T document text updates
  | applyMetadataUpdate updates => exact versionChange_applyMetadataUpdate T document updates
  | review rule llm =>
      have htext := (ReviewService.run_cases rule llm document).1
      obtain ⟨hversions, ⟨hmetadata, -⟩ | ⟨r, fields, -, -, -, hmetadata⟩⟩ :=
        review_effect document rule llm
      · exact .kept htext (wordCount_review document rule llm) hversions hmetadata
      · refine .retyped htext (wordCount_review document rule llm) hversions fun f hf => ?_
        show (ReviewService.run rule llm document).document.metadata f = document.metadata f
        rw [hmetadata, Function.update_of_ne hf]
  | manualDecision decision => exact .kept ⟨rfl, rfl, rfl, rfl⟩ rfl rfl rfl
  | ensureDocumentVersion => exact versionChange_ensureDocumentVersion T document

end Changes

/-! ## No gap -/

/-- The rows are none, while the version is 1, or carry the numbers up to the version. -/
inductive GapFree (document : Document) : Prop
  | none (hversion : document.version = 1) (hversions : document.versions = [])
  | upTo (hpositive : 0 < document.version)
      (hversions : document.versions.map (·.version) = List.range' 1 document.version)

namespace GapFree

variable {T : TextTools} {document document' : Document}

/-- No two rows carry the same number. -/
theorem nodup (h : GapFree document) : (document.versions.map (·.version)).Nodup := by
  cases h with
  | none _ hversions =>
      rw [hversions]
      exact List.nodup_nil
  | upTo hpositive hversions =>
      rw [hversions]
      exact List.nodup_range'

/-- The rows that an update starts from are numbered up to the version. -/
theorem versionsBefore (h : GapFree document) {snap : Document → List String → DocumentVersion}
    (hsnap : Snapshots T snap) :
    (document.versionsBefore snap).map (·.version) = List.range' 1 document.version := by
  unfold Document.versionsBefore
  cases h with
  | none hversion hversions =>
      rw [hversions, hversion]
      simp [hsnap.version, hversion]
  | upTo hpositive hversions =>
      have hnonempty : document.versions.length ≠ 0 := by
        have hlength := congrArg List.length hversions
        rw [List.length_map, List.length_range'] at hlength
        omega
      rw [if_neg hnonempty]
      exact hversions

/-- The same version and the same rows leave no gap. -/
theorem congr (h : GapFree document) (hversion : document'.version = document.version)
    (hversions : document'.versions = document.versions) : GapFree document' := by
  cases h with
  | none hone hnil => exact .none (hversion.trans hone) (hversions.trans hnil)
  | upTo hpositive hupTo =>
      refine .upTo (by omega) ?_
      rw [hversions, hversion]
      exact hupTo

/-- A change of the history leaves no gap. -/
theorem change (h : GapFree document) {op : VersionOp}
    (hchange : VersionChange T document document' op) : GapFree document' := by
  cases hchange with
  | kept htext hwords hversions => exact h.congr htext.version hversions
  | retyped htext hwords hversions => exact h.congr htext.version hversions
  | next snap changes hsnap hversion hversions htext =>
      refine .upTo (by omega) ?_
      rw [hversions, List.map_append, h.versionsBefore hsnap, hversion, List.range'_concat]
      simp [hsnap.version, hversion, Nat.add_comm]
  | ensured hmissing hdocument =>
      subst hdocument
      cases h with
      | none hone hnil =>
          refine .upTo (by simp [hone]) ?_
          simp [hnil, hone, Document.documentVersion, Document.versionRow]
      | upTo hpositive hupTo =>
          -- The row of the current version is there already.
          have hmem : document.version ∈ document.versions.map (·.version) := by
            rw [hupTo, List.mem_range'_1]
            omega
          obtain ⟨row, hrow, heq⟩ := List.mem_map.mp hmem
          exact absurd heq (hmissing row hrow)

end GapFree

/-- A crawled document has the digest and the length of its content, and a title. -/
theorem Inserted.textColumns {T : TextTools} {document : Document} (h : Inserted T document) :
    TextColumns T document := by
  cases h with
  | article => exact ⟨.inl rfl, rfl, Option.some_ne_none _⟩
  | crawled => exact ⟨.inl rfl, rfl, Option.some_ne_none _⟩

/-- A crawled document has no version rows and version 1. -/
theorem Inserted.gapFree {T : TextTools} {document : Document} (h : Inserted T document) :
    GapFree document :=
  .none h.version_eq_one h.versions_eq_nil

/-- From a history without a gap, no operation breaks the unique constraint. -/
theorem VersionOp.apply_of_gapFree {T : TextTools} {document : Document} (h : GapFree document)
    (op : VersionOp) : op.apply T document = op.run T document := by
  unfold apply Document.commitVersions
  rw [if_pos (h.change (op.versionChange T document)).nodup]

/-- Every history is without a gap. -/
theorem gapFree_run {T : TextTools} {tr : List (Document × VersionOp)} {document : Document}
    (h : (versionSystem T).Run System.always tr document) : GapFree document := by
  refine h.invariant (I := fun _ document => GapFree document) (fun _ hinserted => hinserted.gapFree) ?_
  rintro tr document op _ - hgap - ⟨rfl⟩
  rw [VersionOp.apply_of_gapFree hgap]
  exact hgap.change (op.versionChange T document)

/-- The rows of a document are rows, in the same places, at every later time. -/
theorem versions_prefix_run {T : TextTools} {tr tr' : List (Document × VersionOp)}
    {document document' : Document} (h : (versionSystem T).Run System.always tr document)
    (hposition : System.Position document tr tr' document') :
    document'.versions <+: document.versions := by
  induction hposition with
  | last => exact List.prefix_rfl
  | @earlier tr tr' document document₁ document' op _ ih =>
      obtain ⟨hrun, -, hstep⟩ := h.last
      have hgap := gapFree_run hrun
      obtain rfl : op.apply T document₁ = document := Option.some.inj hstep
      rw [VersionOp.apply_of_gapFree hgap]
      exact (ih hrun).trans (op.versionChange T document₁).extends.1

/-- Version rows number the versions of the document without a gap, an earlier row is still there
as it was, and the unique constraint lets every operation pass. -/
theorem version_history_gap_free {T : TextTools} {tr : List (Document × VersionOp)}
    {document : Document} (h : (versionSystem T).Run System.always tr document) :
    ((document.versions = [] ∧ document.version = 1) ∨
        document.versions.map (·.version) = List.range' 1 document.version) ∧
      (∀ tr' document', System.Position document tr tr' document' →
        document'.versions <+: document.versions) ∧
      ∀ op : VersionOp, op.apply T document = op.run T document := by
  have hgap := gapFree_run h
  refine ⟨?_, fun tr' document' => versions_prefix_run h, fun op => VersionOp.apply_of_gapFree hgap op⟩
  cases hgap with
  | none hversion hversions => exact .inl ⟨hversions, hversion⟩
  | upTo hpositive hversions => exact .inr hversions

/-- The sample article with another text. -/
def sampleRevision : Article := { sampleArticle with content := "changed text", json := "[]" }

/-- Indexed, refreshed, edited and reparsed. -/
def sampleHistory : List VersionOp :=
  [.ensureDocumentVersion, .refresh false none sampleRevision,
    .applyMetadataUpdate [("region", some "Sichuan")], .applyParsedUpdate "approved text" [],
    .ensureDocumentVersion]

/-- Five operations leave four version rows. -/
theorem version_history_gap_free_sample :
    ∃ tr document, (versionSystem sampleTools).Run System.always tr document ∧
      document.versions.map (·.version) = [1, 2, 3, 4] := by
  let d₀ := sampleArticle.create sampleTools false none "doc-1"
  let next := fun (d : Document) (op : VersionOp) => some (op.apply sampleTools d)
  obtain ⟨d, hd⟩ := Option.isSome_iff_exists.mp
    (by decide : (System.exec next d₀ sampleHistory).isSome = true)
  have hversion : (System.exec next d₀ sampleHistory).map (·.version) = some 4 := by
    decide +kernel
  rw [hd] at hversion
  have hfour : d.version = 4 := Option.some.inj hversion
  have hrun : (versionSystem sampleTools).Run System.always
      (System.traceOf next d₀ sampleHistory) d :=
    ⟨d₀, .article false none "doc-1" sampleArticle, System.exec_path hd⟩
  refine ⟨_, d, hrun, ?_⟩
  rcases (version_history_gap_free hrun).1 with ⟨-, hone⟩ | hversions
  · rw [hone] at hfour
    cases hfour
  · rw [hversions, hfour]
    rfl

/-! ## The row of the current version -/

/-- The version row has the content, the hash and the versioned metadata of the document. -/
structure Records (row : DocumentVersion) (document : Document) : Prop where
  content : row.content = document.content
  contentHash : some row.contentHash = document.contentHash
  metadata : row.metadata = Document.snapshotFields.map fun f => (f.name, document.metadata f)

/-- A row that carries the version of the document records the document. -/
def CurrentRecorded (document : Document) : Prop :=
  ∀ row ∈ document.versions, row.version = document.version → Records row document

/-- A review of a document whose current version has its row keeps the document type: it ends
before the model's review counts, or the model returns no type or the stored one. -/
def VersionOp.KeepsSnapshot (document : Document) : VersionOp → Prop
  | .review rule llm =>
      rule ≠ .reject → ∀ r fields, llm = .reviewed r →
        ReviewService.validateExtractedFields document r = .ok fields →
        (∃ row ∈ document.versions, row.version = document.version) →
        orElse r.documentType (document.metadata .documentType) = document.metadata .documentType
  | _ => True

section Current

variable {T : TextTools} {document document' : Document}

/-- A stored digest is not empty, so a snapshot records the document. -/
theorem Snapshots.records {snap : Document → List String → DocumentVersion}
    (hsha : ∀ text, T.sha256 text ≠ "") (hsnap : Snapshots T snap) (hhash : HashOf T document)
    (changes : List String) : Records (snap document changes) document := by
  have hstored : ∃ digest, digest ≠ "" ∧ document.contentHash = some digest := by
    rcases hhash with hhash | hhash
    · exact ⟨_, hsha _, hhash⟩
    · exact ⟨_, hsha _, hhash⟩
  obtain ⟨digest, hdigest, hhash⟩ := hstored
  rcases hsnap with rfl | rfl
  · refine ⟨rfl, ?_, rfl⟩
    simp [Document.snapshot, Document.versionRow, orElse, hhash, hdigest]
  · refine ⟨rfl, ?_, rfl⟩
    simp [Document.documentVersion, Document.versionRow, orElse, hhash, hdigest]

/-- A document with the same columns is recorded by the same rows. -/
theorem CurrentRecorded.congr (h : CurrentRecorded document) (htext : document.SameText document')
    (hversions : document'.versions = document.versions)
    (hmetadata : (∃ row ∈ document.versions, row.version = document.version) →
      document'.metadata = document.metadata) :
    CurrentRecorded document' := by
  intro row hrow hversion
  rw [hversions] at hrow
  rw [htext.version] at hversion
  obtain ⟨hcontent, hhash, hrecorded⟩ := h row hrow hversion
  refine ⟨hcontent.trans htext.content.symm, hhash.trans htext.contentHash.symm, ?_⟩
  rw [hmetadata ⟨row, hrow, hversion⟩]
  exact hrecorded

/-- Every operation keeps what holds of the text columns. -/
theorem TextColumns.change (h : TextColumns T document) {op : VersionOp}
    (hchange : VersionChange T document document' op) : TextColumns T document' := by
  obtain ⟨hhash, hcount, htitle⟩ := h
  cases hchange with
  | kept htext hwords hversions hmetadata =>
      refine ⟨?_, ?_, by rwa [hmetadata]⟩
      · rwa [HashOf, htext.content, htext.contentHash]
      · rw [hwords, htext.content, hcount]
  | retyped htext hwords hversions hmetadata =>
      refine ⟨?_, ?_, by rwa [hmetadata .title (by decide)]⟩
      · rwa [HashOf, htext.content, htext.contentHash]
      · rw [hwords, htext.content, hcount]
  | next _ _ _ _ _ htext => exact htext ⟨hhash, hcount, htitle⟩
  | ensured _ hdocument =>
      rw [hdocument]
      exact ⟨hhash, hcount, htitle⟩

/-- In every history the stored hash is the digest of the content by one of the two formulas, the
word count is its length, and there is a title. -/
theorem textColumns_run {tr : List (Document × VersionOp)}
    (h : (versionSystem T).Run System.always tr document) : TextColumns T document := by
  refine h.invariant (I := fun _ document => TextColumns T document)
    (fun _ hinserted => hinserted.textColumns) ?_
  rintro tr document op _ hrun htext - ⟨rfl⟩
  rw [VersionOp.apply_of_gapFree (gapFree_run hrun)]
  exact htext.change (op.versionChange T document)

/-- The row of a new version records the document. -/
theorem currentRecorded_next (hsha : ∀ text, T.sha256 text ≠ "") (hgap : GapFree document)
    {snap : Document → List String → DocumentVersion} {changes : List String}
    (hsnap : Snapshots T snap) (hversion : document'.version = document.version + 1)
    (hversions : document'.versions = document.versionsBefore snap ++ [snap document' changes])
    (hhash' : HashOf T document') : CurrentRecorded document' := by
  intro row hrow heq
  rw [hversions, List.mem_append, List.mem_singleton] at hrow
  rcases hrow with hold | rfl
  · -- An old row carries an older version.
    have hmem : row.version ∈ (document.versionsBefore snap).map (·.version) :=
      List.mem_map_of_mem hold
    rw [hgap.versionsBefore hsnap, List.mem_range'_1] at hmem
    omega
  · exact hsnap.records hsha hhash' changes

/-- The missing row of the current version records the document. -/
theorem currentRecorded_ensured (hsha : ∀ text, T.sha256 text ≠ "") (hhash : HashOf T document)
    (hmissing : ∀ row ∈ document.versions, row.version ≠ document.version) :
    CurrentRecorded
      { document with versions := document.versions ++ [document.documentVersion T []] } := by
  intro row hrow heq
  rcases List.mem_append.mp hrow with hold | hnew
  · exact absurd heq (hmissing row hold)
  · obtain rfl := List.mem_singleton.mp hnew
    have hsnap : Snapshots T (Document.documentVersion T) := .inr rfl
    obtain ⟨hcontent, hstored, hmetadata⟩ := hsnap.records hsha hhash []
    exact ⟨hcontent, hstored, hmetadata⟩

/-- A review keeps the document recorded exactly if it meets the condition. -/
theorem currentRecorded_review (h : CurrentRecorded document) (rule : FilterDecision)
    (llm : LlmOutcome) :
    CurrentRecorded (ReviewService.run rule llm document).document ↔
      (VersionOp.review rule llm).KeepsSnapshot document := by
  have htext := (ReviewService.run_cases rule llm document).1
  obtain ⟨hversions, ⟨hmetadata, hno⟩ | ⟨r, fields, hrule, rfl, hvalid, hmetadata⟩⟩ :=
    review_effect document rule llm
  · refine iff_of_true (h.congr htext hversions fun _ => hmetadata) ?_
    exact fun hrule r fields hllm hvalid => absurd hvalid (hno r hrule hllm fields)
  · constructor
    · intro hrecorded _ r' fields' hllm _ hrow
      cases hllm
      obtain ⟨row, hmem, hversion⟩ := hrow
      have hbefore := (h row hmem hversion).metadata
      have hafter := (hrecorded row (hversions ▸ hmem) (hversion.trans htext.version.symm)).metadata
      rw [hbefore, hmetadata] at hafter
      simpa [Document.snapshotFields, Function.update] using hafter.symm
    · intro hkeeps
      refine h.congr htext hversions fun hrow => ?_
      rw [hmetadata, hkeeps hrule r fields rfl hvalid hrow, Function.update_eq_self]

/-- One operation keeps the document recorded exactly if it meets the condition. -/
theorem currentRecorded_step (hsha : ∀ text, T.sha256 text ≠ "") (hgap : GapFree document)
    (htext : TextColumns T document) (h : CurrentRecorded document) (op : VersionOp) :
    CurrentRecorded (op.run T document) ↔ op.KeepsSnapshot document := by
  by_cases hreview : ∃ rule llm, op = .review rule llm
  · obtain ⟨rule, llm, rfl⟩ := hreview
    exact currentRecorded_review h rule llm
  · have htrue : op.KeepsSnapshot document := by
      cases op with
      | review rule llm => exact absurd ⟨rule, llm, rfl⟩ hreview
      | _ => trivial
    refine iff_of_true ?_ htrue
    have hchange := op.versionChange T document
    have hhash' := (htext.change hchange).hash
    cases hchange with
    | kept htext hwords hversions hmetadata => exact h.congr htext hversions fun _ => hmetadata
    | retyped => exact absurd ⟨_, _, rfl⟩ hreview
    | next snap changes hsnap hversion hversions =>
        exact currentRecorded_next hsha hgap hsnap hversion hversions hhash'
    | ensured hmissing hdocument =>
        rw [hdocument]
        exact currentRecorded_ensured hsha htext.hash hmissing

end Current

/-- In a history of a crawled document, the row of the current version records the document
everywhere if and only if every review of a document that has this row keeps its type. -/
theorem current_version_recorded_iff {T : TextTools} (hsha : ∀ text, T.sha256 text ≠ "")
    {tr : List (Document × VersionOp)} {document : Document}
    (h : (versionSystem T).Run System.always tr document) :
    (∀ tr' document', System.Position document tr tr' document' → CurrentRecorded document') ↔
      ∀ document' op, (document', op) ∈ tr → op.KeepsSnapshot document' := by
  refine h.everywhere_iff (I := fun _ document => CurrentRecorded document)
    (fun d hd row hrow _ => ?_) ?_
  · rw [hd.versions_eq_nil] at hrow
    cases hrow
  · rintro tr' d op d' hrun hI ⟨rfl⟩
    have hgap := gapFree_run hrun
    rw [VersionOp.apply_of_gapFree hgap]
    exact currentRecorded_step hsha hgap (textColumns_run hrun) hI op

/-- The digests of the samples are not empty. -/
theorem sampleTools_sha256 (text : String) : sampleTools.sha256 text ≠ "" := by
  unfold sampleTools
  dsimp only
  split
  · decide
  · split <;> decide

/-- A model's review that approves and names a document type. -/
def sampleReview : LlmOutcome := .reviewed { decision := .approve, documentType := some "policy" }

/-- Reviewed before the first version row, then indexed. -/
theorem current_version_recorded_reviewed :
    ∃ tr document, (versionSystem sampleTools).Run System.always tr document ∧ tr.length = 2 ∧
      CurrentRecorded document := by
  let d₀ := sampleArticle.create sampleTools false none "doc-1"
  let ops : List VersionOp := [.review .accept sampleReview, .ensureDocumentVersion]
  let next := fun (d : Document) (op : VersionOp) => some (op.apply sampleTools d)
  obtain ⟨d, hd⟩ := Option.isSome_iff_exists.mp
    (by decide : (System.exec next d₀ ops).isSome = true)
  have hrun : (versionSystem sampleTools).Run System.always (System.traceOf next d₀ ops) d :=
    ⟨d₀, .article false none "doc-1" sampleArticle, System.exec_path hd⟩
  refine ⟨_, d, hrun, rfl, (current_version_recorded_iff sampleTools_sha256 hrun).mpr ?_ _ _ .last⟩
  intro d' op hmem
  simp only [System.traceOf, next, ops, List.nil_append, List.cons_append, List.mem_cons,
    List.not_mem_nil, or_false, Prod.mk.injEq] at hmem
  rcases hmem with ⟨-, rfl⟩ | ⟨rfl, rfl⟩
  · trivial
  · -- Nothing has stored a row yet.
    rintro - r fields - - ⟨row, hrow, -⟩
    cases hrow

/-- A refresh stores the rows of versions 1 and 2; the review then changes the document type of
version 2, and its row keeps the old one. -/
theorem review_changes_recorded_type :
    ∃ tr document, (versionSystem sampleTools).Run System.always tr document ∧
      ¬ CurrentRecorded document := by
  let d₀ := sampleArticle.create sampleTools false none "doc-1"
  let ops : List VersionOp := [.refresh false none sampleRevision, .review .accept sampleReview]
  let next := fun (d : Document) (op : VersionOp) => some (op.apply sampleTools d)
  obtain ⟨d, hd⟩ := Option.isSome_iff_exists.mp
    (by decide : (System.exec next d₀ ops).isSome = true)
  have hcheck : (System.exec next d₀ ops).map (fun d => d.versions.any fun row =>
      row.version == d.version && row.metadata !=
        Document.snapshotFields.map fun f => (f.name, d.metadata f)) = some true := by
    decide +kernel
  rw [hd] at hcheck
  obtain ⟨row, hrow, hrecorded⟩ := List.any_eq_true.mp (Option.some.inj hcheck)
  simp only [Bool.and_eq_true, beq_iff_eq, bne_iff_ne, ne_eq] at hrecorded
  exact ⟨_, d, ⟨d₀, .article false none "doc-1" sampleArticle, System.exec_path hd⟩,
    fun h => hrecorded.2 (h row hrow hrecorded.1).metadata⟩

end Odirag.Documents
