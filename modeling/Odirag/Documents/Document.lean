import Odirag.Documents.Status
import Odirag.Foundations.Orm
import Mathlib.Data.Fintype.Pi

/-!
# The document row, its versions and its reviews

Reference: `backend/app/models/document.py`; `content_hash` of
`backend/app/deduplication/core.py`; `_snapshot` of `backend/app/services/versioning.py` and
`_document_version` of `backend/app/services/crawl.py`.

`sha256` and `clean_text` are parameters: nothing below depends on which texts they return.
-/

namespace Odirag.Documents

/-- What `rule_filter_status` and `llm_review_status` hold: a crawled decision, a decision of the
rule filter or of the model, or a status of its own. -/
inductive AutoReviewStatus
  | pending | accepted | rejected | pendingReview | failed
  | accept | review | reject
  | approve | manualReview | unavailable
deriving DecidableEq, Repr

/-- The automatic review status that a crawled decision stores. -/
def Decision.autoReviewStatus : Decision → AutoReviewStatus
  | .accepted => .accepted
  | .rejected => .rejected
  | .pendingReview => .pendingReview
  | .failed => .failed

/-- `_UPDATABLE_METADATA_FIELDS`. -/
inductive MetadataField
  | title | subtitle | publishDate | author | issuingAuthority | documentNumber | region | city
  | documentType | language
deriving DecidableEq, Repr

instance : Fintype MetadataField where
  elems := {.title, .subtitle, .publishDate, .author, .issuingAuthority, .documentNumber, .region,
    .city, .documentType, .language}
  complete := by
    intro f
    cases f <;> decide

/-- The column name of a metadata field. -/
def MetadataField.name : MetadataField → String
  | title => "title"
  | subtitle => "subtitle"
  | publishDate => "publish_date"
  | author => "author"
  | issuingAuthority => "issuing_authority"
  | documentNumber => "document_number"
  | region => "region"
  | city => "city"
  | documentType => "document_type"
  | language => "language"

/-- The metadata columns; a date is its ISO text. -/
abbrev Metadata := MetadataField → Option String

/-- `DocumentReview.review_type`. -/
inductive ReviewType
  | rule | llm | manual | localExtraction | cozeQuality | dataDebtHardReject | dataDebtAudit
deriving DecidableEq, Repr

/-- A `document_reviews` row: what is compared when the document is crawled or cleaned again. -/
structure DocumentReview where
  reviewType : ReviewType
  rawResponse : Option String := none
deriving DecidableEq, Repr

/-- A `document_versions` row. -/
structure DocumentVersion where
  version : ℕ
  contentHash : String
  content : String
  metadata : List (String × Option String)
  changedFields : List String
deriving DecidableEq, Repr

/-- The four review columns of a document. -/
structure ReviewColumns where
  ruleFilterStatus : AutoReviewStatus := .pending
  llmReviewStatus : AutoReviewStatus := .pending
  manualReviewStatus : ManualReviewStatus := .pending
  finalStatus : FinalStatus := .pending
deriving DecidableEq, Repr

/-- A `documents` row with its version rows, oldest first, and its review rows, newest first. -/
structure Document extends ReviewColumns where
  documentId : String := ""
  sourceUrl : String := ""
  metadata : Metadata := fun _ => none
  content : String := ""
  rawContent : Option String := none
  contentHash : Option String := none
  wordCount : ℕ := 0
  indexStatus : IndexStatus := .pending
  version : ℕ := 1
  versions : List DocumentVersion := []
  reviews : List DocumentReview := []
deriving DecidableEq

/-- The text functions that the document code calls. -/
structure TextTools where
  sha256 : String → String
  cleanText : String → String

/-! ## Text -/

/-- Python's whitespace: what `\s` matches and `strip` removes. -/
def isSpace (c : Char) : Bool :=
  let n := c.toNat
  (9 ≤ n && n ≤ 13) || (28 ≤ n && n ≤ 32) || n == 0x85 || n == 0xa0 || n == 0x1680 ||
    (0x2000 ≤ n && n ≤ 0x200a) || n == 0x2028 || n == 0x2029 || n == 0x202f || n == 0x205f ||
    n == 0x3000

/-- The characters of `text.strip()`. -/
def strip (text : String) : List Char :=
  ((text.toList.dropWhile isSpace).reverse.dropWhile isSpace).reverse

/-- `content_hash`: the digest of the text without its whitespace. -/
def TextTools.contentHash (T : TextTools) (text : String) : String :=
  T.sha256 (String.ofList (text.toList.filter fun c => !isSpace c))

/-- The language that a crawled text is stored with. -/
def detectLanguage (text : String) : String :=
  if text.toList.any fun c => 0x4e00 ≤ c.toNat && c.toNat ≤ 0x9fff then "zh" else "unknown"

/-- `value or fallback`: an empty text counts as missing. -/
def orElse (value fallback : Option String) : Option String :=
  if value = none ∨ value = some "" then fallback else value

/-! ## Versions -/

namespace Document

/-- The metadata columns that a version row keeps. -/
def snapshotFields : List MetadataField :=
  [.title, .publishDate, .issuingAuthority, .documentNumber, .region, .documentType]

/-- The version row of a document; `missingHash` stands in for a hash that is not stored. -/
def versionRow (document : Document) (missingHash : String) (changedFields : List String) :
    DocumentVersion where
  version := document.version
  contentHash := (orElse document.contentHash (some missingHash)).getD ""
  content := document.content
  metadata := snapshotFields.map fun f => (f.name, document.metadata f)
  changedFields := changedFields

/-- `VersioningService._snapshot`. -/
def snapshot (T : TextTools) (document : Document) (changedFields : List String) :
    DocumentVersion :=
  document.versionRow (T.contentHash document.content) changedFields

/-- `CrawlService._document_version`. -/
def documentVersion (T : TextTools) (document : Document) (changedFields : List String) :
    DocumentVersion :=
  document.versionRow (T.sha256 document.content) changedFields

/-- The version rows that an update starts from: a document without any gets one of its state
before the update. -/
def versionsBefore (snap : Document → List String → DocumentVersion) (document : Document) :
    List DocumentVersion :=
  if document.versions.length = 0 then [snap document []] else document.versions

/-- The review row of a type that was added last. -/
def latestReview (document : Document) (reviewType : ReviewType) : Option DocumentReview :=
  document.reviews.find? (·.reviewType == reviewType)

/-- `add_review`. -/
def addReview (document : Document) (review : DocumentReview) : Document :=
  { document with reviews := review :: document.reviews }

/-- The UPDATE of the columns that the session has changed, with the version and review rows that
it has added. -/
def save (m : Held Document) (stored : Document) : Document where
  ruleFilterStatus :=
    column m.loaded.ruleFilterStatus m.current.ruleFilterStatus stored.ruleFilterStatus
  llmReviewStatus := column m.loaded.llmReviewStatus m.current.llmReviewStatus stored.llmReviewStatus
  manualReviewStatus :=
    column m.loaded.manualReviewStatus m.current.manualReviewStatus stored.manualReviewStatus
  finalStatus := column m.loaded.finalStatus m.current.finalStatus stored.finalStatus
  documentId := column m.loaded.documentId m.current.documentId stored.documentId
  sourceUrl := column m.loaded.sourceUrl m.current.sourceUrl stored.sourceUrl
  metadata f := column (m.loaded.metadata f) (m.current.metadata f) (stored.metadata f)
  content := column m.loaded.content m.current.content stored.content
  rawContent := column m.loaded.rawContent m.current.rawContent stored.rawContent
  contentHash := column m.loaded.contentHash m.current.contentHash stored.contentHash
  wordCount := column m.loaded.wordCount m.current.wordCount stored.wordCount
  indexStatus := column m.loaded.indexStatus m.current.indexStatus stored.indexStatus
  version := column m.loaded.version m.current.version stored.version
  versions := stored.versions ++ m.current.versions.drop m.loaded.versions.length
  reviews := m.current.reviews.take (m.current.reviews.length - m.loaded.reviews.length) ++
    stored.reviews

@[simp] theorem addReview_content (document : Document) (review : DocumentReview) :
    (document.addReview review).content = document.content := rfl

@[simp] theorem addReview_finalStatus (document : Document) (review : DocumentReview) :
    (document.addReview review).finalStatus = document.finalStatus := rfl

end Document

end Odirag.Documents
