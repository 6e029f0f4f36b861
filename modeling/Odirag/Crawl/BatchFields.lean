import Odirag.Crawl.BatchResponse
import Odirag.Foundations.Shape

/-!
# The fields of a batch

Reference: `backend/app/schemas/coze.py`.

The models of a response field by field: the names that are allowed, the defaults, and the types.
Pydantic's readers of numbers, truth values, times and URLs are parameters. What a URL field
accepts is `httpUrl`; nothing else of a value that has the declared type can be refused, apart
from negative counts.
-/

namespace Odirag.Crawl.Schema

open Documents (Decision)
open Crawler
open Json (Fields required defaulted nameUsed known readText nullable listOf literal)

/-- What the models leave to libraries. -/
structure FieldTools extends NetTools where
  /-- `json.loads`; `none` is a `JSONDecodeError`. -/
  loads : Text → Option Json
  /-- `str` of a value that is not a text. -/
  render : Json → Text
  /-- `HttpUrl`, with the URL as it is written back. -/
  httpUrl : Text → Option Text
  readBool : Json → Option Bool
  readInt : Json → Option ℤ
  readFloat : Json → Option ℚ
  /-- A `datetime` or a `date`. -/
  readTime : Json → Option Text
  readBool_bool : ∀ b, readBool (.bool b) = some b
  readInt_int : ∀ n, readInt (.int n) = some n

/-- `BatchAttachment.download_status`. -/
def downloadStatuses : List (Text × DownloadStatus) :=
  [(str "pending", .pending), (str "success", .success), (str "completed", .completed),
    (str "failed", .failed), (str "too_large", .tooLarge), (str "unsupported", .unsupported),
    (str "skipped", .skipped)]

/-- `BatchArticle.extraction_method`. -/
def extractionMethods : List (Text × ExtractionMethod) :=
  [(str "html", .html), (str "pdf", .pdf), (str "doc", .doc), (str "docx", .docx), (str "xls", .xls),
    (str "xlsx", .xlsx), (str "image", .image), (str "image_ocr", .imageOcr), (str "mixed", .mixed)]

/-- `BatchArticle.decision`. -/
def decisions : List (Text × Decision) :=
  [(str "accepted", .accepted), (str "rejected", .rejected),
    (str "pending_review", .pendingReview), (str "failed", .failed)]

namespace FieldTools

variable (P : FieldTools)

/-- A field of type `HttpUrl`. -/
def readUrl (value : Json) : Option Text := (readText value).bind P.httpUrl

/-- `int` with `ge=0`. -/
def readCount (value : Json) : Option ℕ :=
  (P.readInt value).bind fun n => if 0 ≤ n then some n.toNat else none

/-- `float` between 0 and 100. -/
def readScore (value : Json) : Option ℚ :=
  (P.readFloat value).bind fun x => if 0 ≤ x ∧ x ≤ 100 then some x else none

/-- `BatchSource`. -/
def readSource : Json → Option BatchSource
  | .obj fields => do
      let urlName := nameUsed fields (str "source_url") (str "url")
      let nameName := nameUsed fields (str "source_name") (str "name")
      guard (known (urlName :: nameName :: strs ["organization", "region", "column_name"]) fields)
      let sourceUrl ← required fields urlName P.readUrl
      let sourceName ← defaulted fields nameName none (nullable readText)
      let organization ← defaulted fields (str "organization") none (nullable readText)
      let region ← defaulted fields (str "region") none (nullable readText)
      let columnName ← defaulted fields (str "column_name") none (nullable readText)
      some { sourceUrl, sourceName, organization, region, columnName }
  | _ => none

/-- `BatchStatistics`. -/
def readStatistics : Json → Option BatchStatistics
  | .obj fields => do
      guard (known (strs ["pages_visited", "articles_discovered", "articles_fetched",
        "articles_accepted", "articles_rejected", "articles_pending_review", "articles_failed"])
        fields)
      let pagesVisited ← required fields (str "pages_visited") P.readCount
      let articlesDiscovered ← required fields (str "articles_discovered") P.readCount
      let articlesFetched ← required fields (str "articles_fetched") P.readCount
      let articlesAccepted ← required fields (str "articles_accepted") P.readCount
      let articlesRejected ← required fields (str "articles_rejected") P.readCount
      let articlesPendingReview ← required fields (str "articles_pending_review") P.readCount
      let articlesFailed ← required fields (str "articles_failed") P.readCount
      some { pagesVisited, articlesDiscovered, articlesFetched, articlesAccepted, articlesRejected,
             articlesPendingReview, articlesFailed }
  | _ => none

/-- `BatchAttachment`. -/
def readAttachment : Json → Option BatchAttachment
  | .obj fields => do
      guard (known (strs ["name", "url", "file_type", "extracted_text", "download_status",
        "error_message"]) fields)
      let name ← required fields (str "name") readText
      let url ← required fields (str "url") P.readUrl
      let fileType ← defaulted fields (str "file_type") none (nullable readText)
      let extractedText ← defaulted fields (str "extracted_text") none (nullable readText)
      let downloadStatus ←
        defaulted fields (str "download_status") .pending (literal downloadStatuses)
      let errorMessage ← defaulted fields (str "error_message") none (nullable readText)
      some { name, url, fileType, extractedText, downloadStatus, errorMessage }
  | _ => none

/-- `BatchArticle`, up to its validator. -/
def readArticle : Json → Option BatchArticle
  | .obj fields => do
      guard (known (strs ["title", "url", "published_at", "organization", "organization_inferred",
        "region", "column_name", "content", "content_length", "attachments", "extraction_method",
        "needs_ocr", "image_urls", "image_count", "image_alt_texts", "decision", "accepted",
        "quality_score", "decision_reason", "document_type", "summary", "keywords", "warnings"])
        fields)
      let title ← required fields (str "title") readText
      let url ← required fields (str "url") P.readUrl
      let publishedAt ← defaulted fields (str "published_at") none (nullable P.readTime)
      let organization ← defaulted fields (str "organization") none (nullable readText)
      let organizationInferred ← defaulted fields (str "organization_inferred") false P.readBool
      let region ← defaulted fields (str "region") none (nullable readText)
      let columnName ← defaulted fields (str "column_name") none (nullable readText)
      let content ← required fields (str "content") readText
      let contentLength ← required fields (str "content_length") P.readCount
      let attachments ← defaulted fields (str "attachments") [] (listOf P.readAttachment)
      let extractionMethod ← required fields (str "extraction_method") (literal extractionMethods)
      let needsOcr ← defaulted fields (str "needs_ocr") false P.readBool
      let imageUrls ← defaulted fields (str "image_urls") [] (listOf P.readUrl)
      let imageCount ← defaulted fields (str "image_count") 0 P.readCount
      let imageAltTexts ← defaulted fields (str "image_alt_texts") [] (listOf readText)
      let decision ← required fields (str "decision") (literal decisions)
      let accepted ← required fields (str "accepted") P.readBool
      let qualityScore ← defaulted fields (str "quality_score") none (nullable P.readScore)
      let decisionReason ← required fields (str "decision_reason") readText
      let documentType ← defaulted fields (str "document_type") none (nullable readText)
      let summary ← defaulted fields (str "summary") none (nullable readText)
      let keywords ← defaulted fields (str "keywords") [] (listOf readText)
      let warnings ← defaulted fields (str "warnings") [] (listOf readText)
      some { title, url, publishedAt, organization, organizationInferred, region, columnName,
             content, contentLength, attachments, extractionMethod, needsOcr, imageUrls, imageCount,
             imageAltTexts, decision, accepted, qualityScore, decisionReason, documentType, summary,
             keywords, warnings }
  | _ => none

/-- `BatchFailedUrl`. -/
def readFailedUrl : Json → Option BatchFailedUrl
  | .obj fields => do
      guard (known (strs ["url", "stage", "error_code", "error_message", "retryable"]) fields)
      let url ← required fields (str "url") P.readUrl
      let stage ← required fields (str "stage") readText
      let errorCode ← required fields (str "error_code") readText
      let errorMessage ← required fields (str "error_message") readText
      let retryable ← defaulted fields (str "retryable") false P.readBool
      some { url, stage, errorCode, errorMessage, retryable }
  | _ => none

/-- A text that is not empty. -/
def readTaskId (value : Json) : Option Text :=
  (readText value).filter fun taskId => !taskId.isEmpty

/-- `dict[str, Any]`. -/
def readAny : Json → Option Fields
  | .obj fields => some fields
  | _ => none

/-- `BatchCrawlResponse`, up to its validators. -/
def readFields (fields : Fields) : Option BatchCrawlResponse := do
  let success ← required fields (str "success") P.readBool
  let taskId ← required fields (str "task_id") readTaskId
  let source ← required fields (str "source") P.readSource
  let statistics ← required fields (str "statistics") P.readStatistics
  let articles ← required fields (str "articles") (listOf P.readArticle)
  let failedUrls ← required fields (str "failed_urls") (listOf P.readFailedUrl)
  let warnings ← required fields (str "warnings") (listOf readText)
  let contractVersion ← defaulted fields (str "contract_version") none (nullable readText)
  let workflowVersion ← defaulted fields (str "workflow_version") none (nullable readText)
  let startedAt ← defaulted fields (str "started_at") none (nullable P.readTime)
  let finishedAt ← defaulted fields (str "finished_at") none (nullable P.readTime)
  let completedAt ← defaulted fields (str "completed_at") none (nullable P.readTime)
  let diagnostics ← defaulted fields (str "diagnostics") none (nullable readAny)
  some { success, taskId, source, statistics, articles, failedUrls, warnings, contractVersion,
         workflowVersion, startedAt, finishedAt, completedAt, diagnostics }

/-- The libraries of the parser. -/
def batchTools : BatchTools where
  toNetTools := P.toNetTools
  loads := P.loads
  render := P.render
  readFields := P.readFields

end FieldTools

end Odirag.Crawl.Schema
