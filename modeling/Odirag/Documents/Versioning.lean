import Odirag.Documents.Document
import Odirag.Crawl.Batch

/-!
# Operations that rewrite a document

Reference: `apply_parsed_update` and `apply_metadata_update` of
`backend/app/services/versioning.py`; `_save_coze_article` and `_refresh_coze_document` of
`backend/app/services/crawl.py`.

Each operation is a function on the row. `none` stands for an update that the database refuses and
the service rolls back. `MetadataUpdates` is the dictionary of a request, with its column names.
-/

namespace Odirag.Documents

/-- `metadata_updates`: column names and values. -/
abbrev MetadataUpdates := List (String × Option String)

/-- The metadata field of a column name, if it is updatable. -/
def MetadataField.ofName (name : String) : Option MetadataField :=
  [title, subtitle, publishDate, author, issuingAuthority, documentNumber, region, city,
    documentType, language].find? (·.name == name)

/-- The updates of updatable fields, in order. -/
def MetadataUpdates.updatable (updates : MetadataUpdates) :
    List (MetadataField × Option String) :=
  updates.filterMap fun u => (MetadataField.ofName u.1).map (·, u.2)

/-- `VersioningResult`. -/
structure VersioningResult where
  changed : Bool
  version : ℕ
  changedFields : List String
deriving DecidableEq, Repr

namespace Document

/-- `setattr` for each update. -/
def setMetadata (document : Document) (updates : List (MetadataField × Option String)) :
    Document :=
  { document with
    metadata := updates.foldl (fun m u => Function.update m u.1 u.2) document.metadata }

/-- The updates whose value differs from the stored one. -/
def differing (document : Document) (updates : List (MetadataField × Option String)) :
    List (MetadataField × Option String) :=
  updates.filter fun u => document.metadata u.1 != u.2

/-- The end of a versioned update: the title column is not nullable. -/
def flushUpdate (document : Document) (changedFields : List String) :
    Option (Document × VersioningResult) :=
  if document.metadata .title = none then none
  else some (document, ⟨true, document.version, changedFields⟩)

/-- `VersioningService.apply_parsed_update`. -/
def applyParsedUpdate (T : TextTools) (text : String) (updates : MetadataUpdates)
    (document : Document) : Option (Document × VersioningResult) :=
  let newContent := T.cleanText text
  let newHash := T.contentHash newContent
  if document.contentHash = some newHash then some (document, ⟨false, document.version, []⟩)
  else
    let changes := (if document.content ≠ newContent then ["content"] else []) ++
      (document.differing updates.updatable).map (·.1.name)
    let updated := { document with
      version := document.version + 1
      content := newContent
      contentHash := some newHash
      wordCount := newContent.length
      indexStatus := .stale }.setMetadata updates.updatable
    { updated with
      versions := document.versionsBefore (snapshot T) ++
        [updated.snapshot T changes] }.flushUpdate changes

/-- `VersioningService.apply_metadata_update`. -/
def applyMetadataUpdate (T : TextTools) (updates : MetadataUpdates) (document : Document) :
    Option (Document × VersioningResult) :=
  let changed := document.differing updates.updatable
  if changed = [] then some (document, ⟨false, document.version, []⟩)
  else
    let names := changed.map (·.1.name)
    let updated := { document with
      version := document.version + 1
      indexStatus := .stale }.setMetadata changed
    { updated with
      versions := document.versionsBefore (snapshot T) ++
        [updated.snapshot T names] }.flushUpdate names

/-- The committed row after an update: the old one if the update was rolled back. -/
def committed (document : Document) (update : Option (Document × VersioningResult)) : Document :=
  (update.map (·.1)).getD document

@[simp] theorem setMetadata_content (document : Document)
    (updates : List (MetadataField × Option String)) :
    (document.setMetadata updates).content = document.content := rfl

@[simp] theorem setMetadata_version (document : Document)
    (updates : List (MetadataField × Option String)) :
    (document.setMetadata updates).version = document.version := rfl

@[simp] theorem setMetadata_review (document : Document)
    (updates : List (MetadataField × Option String)) :
    (document.setMetadata updates).toReviewColumns = document.toReviewColumns := rfl

/-- An update that is not rolled back stores the row it has built. -/
theorem flushUpdate_some {document document' : Document} {changedFields : List String}
    {r : VersioningResult} (h : document.flushUpdate changedFields = some (document', r)) :
    document' = document ∧ r.changed = true := by
  unfold flushUpdate at h
  split at h
  · cases h
  · cases h
    exact ⟨rfl, rfl⟩

/-- What `apply_parsed_update` can do: nothing when the stored hash is the hash of the new text,
else a new version with the new text, which keeps the review columns. -/
theorem applyParsedUpdate_cases {T : TextTools} {text : String} {updates : MetadataUpdates}
    {document document' : Document} {r : VersioningResult}
    (h : document.applyParsedUpdate T text updates = some (document', r)) :
    (document.contentHash = some (T.contentHash (T.cleanText text)) ∧ document' = document ∧
        r.changed = false) ∨
      (document.contentHash ≠ some (T.contentHash (T.cleanText text)) ∧
        document'.content = T.cleanText text ∧
        document'.contentHash = some (T.contentHash (T.cleanText text)) ∧
        document'.version = document.version + 1 ∧ document'.indexStatus = .stale ∧
        document'.toReviewColumns = document.toReviewColumns ∧ r.changed = true) := by
  unfold applyParsedUpdate at h
  dsimp only at h
  split at h
  · next heq =>
      cases h
      exact .inl ⟨heq, rfl, rfl⟩
  · next hne =>
      obtain ⟨rfl, hr⟩ := flushUpdate_some h
      exact .inr ⟨hne, rfl, rfl, rfl, rfl, rfl, hr⟩

/-- What `apply_metadata_update` can do: nothing when no value differs, else a new version, which
keeps the content and the review columns. -/
theorem applyMetadataUpdate_cases {T : TextTools} {updates : MetadataUpdates}
    {document document' : Document} {r : VersioningResult}
    (h : document.applyMetadataUpdate T updates = some (document', r)) :
    (document.differing updates.updatable = [] ∧ document' = document ∧ r.changed = false) ∨
      (document.differing updates.updatable ≠ [] ∧
        document'.content = document.content ∧ document'.version = document.version + 1 ∧
        document'.indexStatus = .stale ∧
        document'.toReviewColumns = document.toReviewColumns ∧ r.changed = true) := by
  unfold applyMetadataUpdate at h
  dsimp only at h
  split at h
  · next heq =>
      cases h
      exact .inl ⟨heq, rfl, rfl⟩
  · next hne =>
      obtain ⟨rfl, hr⟩ := flushUpdate_some h
      exact .inr ⟨hne, rfl, rfl, rfl, rfl, hr⟩

end Document

/-! ## Crawled articles -/

/-- An article of a crawl batch, as the document code reads it; `json` is its
`model_dump_json()`. -/
structure Article where
  url : String
  title : String
  publishedAt : Option String := none
  region : Option String := none
  content : String
  documentType : Option String := none
  decision : Decision
  json : String
deriving DecidableEq, Repr

namespace Article

/-- `_article_review`. -/
def review (article : Article) (isLocal : Bool) : DocumentReview where
  reviewType := if isLocal then .localExtraction else .cozeQuality
  rawResponse := some article.json

/-- The metadata columns that a crawl of the article writes. -/
def metadata (sourceRegion : Option String) (article : Article) (stored : Metadata) : Metadata
  | .title => some article.title
  | .publishDate => article.publishedAt
  | .region => orElse article.region sourceRegion
  | .documentType => article.documentType
  | .language => some (detectLanguage article.content)
  | f => stored f

/-- The review columns that a crawl of the article stores. -/
def reviewColumns (article : Article) (isLocal : Bool) : ReviewColumns where
  ruleFilterStatus := if isLocal then .pending else article.decision.autoReviewStatus
  llmReviewStatus := if isLocal then .pending else article.decision.autoReviewStatus
  manualReviewStatus := article.decision.manualReviewStatus
  finalStatus := article.decision.finalStatus

/-- The document that `_save_coze_article` inserts. -/
def create (T : TextTools) (isLocal : Bool) (sourceRegion : Option String) (documentId : String)
    (article : Article) : Document where
  toReviewColumns := article.reviewColumns isLocal
  documentId
  sourceUrl := article.url
  metadata := article.metadata sourceRegion fun _ => none
  content := article.content
  rawContent := some article.content
  contentHash := some (T.sha256 article.content)
  wordCount := article.content.length
  reviews := [article.review isLocal]

end Article

namespace Document

/-- The `values` of `_refresh_coze_document`, set on the document. -/
def withArticle (T : TextTools) (sourceRegion : Option String) (article : Article)
    (document : Document) : Document :=
  { document with
    metadata := article.metadata sourceRegion document.metadata
    sourceUrl := article.url
    content := article.content
    rawContent := some article.content
    contentHash := some (T.sha256 article.content)
    wordCount := article.content.length }

/-- `changed_fields` of `_refresh_coze_document`. -/
def changedFields (T : TextTools) (sourceRegion : Option String) (article : Article)
    (document : Document) : List String :=
  let new := document.withArticle T sourceRegion article
  let differs : List (String × Bool) :=
    [("title", document.metadata .title != new.metadata .title),
      ("source_url", document.sourceUrl != new.sourceUrl),
      ("publish_date", document.metadata .publishDate != new.metadata .publishDate),
      ("region", document.metadata .region != new.metadata .region),
      ("content", document.content != new.content),
      ("raw_content", document.rawContent != new.rawContent),
      ("content_hash", document.contentHash != new.contentHash),
      ("word_count", document.wordCount != new.wordCount),
      ("language", document.metadata .language != new.metadata .language),
      ("document_type", document.metadata .documentType != new.metadata .documentType)]
  (differs.filter (·.2)).map (·.1)

/-- `review_changed` of `_refresh_coze_document`. -/
def reviewChanged (isLocal : Bool) (article : Article) (document : Document) : Bool :=
  let review := article.review isLocal
  (document.latestReview review.reviewType).map (·.rawResponse) != some review.rawResponse

/-- `_refresh_coze_document`. -/
def refresh (T : TextTools) (isLocal : Bool) (sourceRegion : Option String) (article : Article)
    (document : Document) : Document :=
  let changed := document.changedFields T sourceRegion article
  if changed = [] ∧ document.reviewChanged isLocal article = false then document
  else
    let hasManualDecision := document.manualReviewStatus.isDecision
    let document :=
      if changed = [] then document
      else
        let new := { document.withArticle T sourceRegion article with
          version := document.version + 1
          indexStatus := .stale }
        { new with
          versions := document.versionsBefore (documentVersion T) ++
            [new.documentVersion T changed] }
    let columns := article.reviewColumns isLocal
    let document := { document with
      ruleFilterStatus := columns.ruleFilterStatus
      llmReviewStatus := columns.llmReviewStatus }
    (if changed ≠ [] ∨ hasManualDecision = false then
      { document with
        manualReviewStatus := columns.manualReviewStatus
        finalStatus := columns.finalStatus }
    else document).addReview (article.review isLocal)

/-- What `_refresh_coze_document` can do: leave the row alone, record another automatic review, or
reset the review. Only a reset changes the content or the version, and a reset never leaves the
document approved. -/
theorem refresh_cases (T : TextTools) (isLocal : Bool) (sourceRegion : Option String)
    (article : Article) (document : Document) :
    let document' := document.refresh T isLocal sourceRegion article
    let changed := document.changedFields T sourceRegion article
    (changed = [] ∧ document.reviewChanged isLocal article = false ∧ document' = document) ∨
      (changed = [] ∧ document.reviewChanged isLocal article = true ∧
        document.manualReviewStatus.isDecision = true ∧
        document'.content = document.content ∧ document'.version = document.version ∧
        document'.indexStatus = document.indexStatus ∧
        document'.finalStatus = document.finalStatus) ∨
      (changed = [] ∧ document.reviewChanged isLocal article = true ∧
        document.manualReviewStatus.isDecision = false ∧
        document'.content = document.content ∧ document'.version = document.version ∧
        document'.indexStatus = document.indexStatus ∧
        document'.finalStatus = article.decision.finalStatus) ∨
      (changed ≠ [] ∧ document'.content = article.content ∧
        document'.version = document.version + 1 ∧ document'.indexStatus = .stale ∧
        document'.finalStatus = article.decision.finalStatus) := by
  intro document' changed
  by_cases hc : document.changedFields T sourceRegion article = []
  · cases hr : document.reviewChanged isLocal article
    · refine .inl ⟨hc, rfl, ?_⟩
      simp [document', refresh, hc, hr]
    · cases hm : document.manualReviewStatus.isDecision
      · refine .inr (.inr (.inl ⟨hc, rfl, rfl, ?_⟩))
        simp [document', refresh, hc, hr, hm, Article.reviewColumns, addReview]
      · refine .inr (.inl ⟨hc, rfl, rfl, ?_⟩)
        simp [document', refresh, hc, hr, hm, addReview]
  · refine .inr (.inr (.inr ⟨hc, ?_⟩))
    simp only [document', refresh, hc, false_and, if_false, not_false_eq_true, true_or, if_true,
      ne_eq]
    exact ⟨rfl, rfl, rfl, rfl⟩

/-- A refresh keeps the id of the document. -/
@[simp] theorem refresh_documentId (T : TextTools) (isLocal : Bool) (sourceRegion : Option String)
    (article : Article) (document : Document) :
    (document.refresh T isLocal sourceRegion article).documentId = document.documentId := by
  unfold refresh
  dsimp only
  split
  · rfl
  · split <;> split <;> rfl

/-- The document of a crawl task's row, as the task sees it. -/
def toCrawl (canonicalUrl : String) (linked : Bool) (document : Document) : Crawl.CrawlDocument where
  canonicalUrl
  finalStatus := document.finalStatus
  manualReviewStatus := document.manualReviewStatus
  linked

/-- The crawl model's refresh is the document's, seen through `toCrawl`. -/
theorem toCrawl_refresh (T : TextTools) (isLocal linked : Bool) (sourceRegion : Option String)
    (article : Article) (document : Document) (url : String) :
    (document.refresh T isLocal sourceRegion article).toCrawl url true =
      (document.toCrawl url linked).refresh article.decision
        (document.changedFields T sourceRegion article != [])
        (document.reviewChanged isLocal article) := by
  by_cases hc : document.changedFields T sourceRegion article = []
  · cases hr : document.reviewChanged isLocal article <;>
      cases hm : document.manualReviewStatus.isDecision <;>
      simp [refresh, Crawl.CrawlDocument.refresh, toCrawl, hc, hr, hm, Article.reviewColumns,
        addReview]
  · simp [refresh, Crawl.CrawlDocument.refresh, toCrawl, hc, Article.reviewColumns, addReview]

/-- The crawl model's insert is the document's, seen through `toCrawl`. -/
theorem toCrawl_create (T : TextTools) (isLocal : Bool) (sourceRegion : Option String)
    (article : Article) (documentId url : String) :
    (article.create T isLocal sourceRegion documentId).toCrawl url true =
      Crawl.CrawlDocument.create url article.decision := rfl

end Document

end Odirag.Documents
