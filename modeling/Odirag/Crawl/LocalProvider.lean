import Odirag.Crawl.BatchFields
import Odirag.Crawler.SameSite

/-!
# The local crawler as a provider

Reference: `LocalCrawlProvider.start_crawl` of `backend/app/crawler/providers.py`.

The provider runs the generic crawler and puts its result into the form of a provider's batch,
which then goes through the parser that every batch goes through. The producer counts what it
lists and copies the flags of the crawler, so that the validators of the schema hold of every
crawl. What it also copies are URLs, and a URL field takes only what `HttpUrl` does; the URL of a
failed API hint is the hint as the configuration or the page has it.
-/

namespace Odirag.Crawl.LocalProvider

open Crawler
open Schema
open Json (Fields required defaulted readText nullable listOf literal)

/-! ## The payload -/

/-- The arguments of a crawl. -/
structure Payload where
  taskId : Text
  sourceUrl : Text
  sourceName : Option Text := none
  region : Option Text := none
  columnName : Option Text := none
  selectors : Fields := []
  pagination : Fields := []
  maxPages : ℕ := 1
  maxArticles : ℕ := 5

/-- What the crawler is called with. -/
def Payload.column (p : Payload) : Column where
  columnUrl := p.sourceUrl
  selectors := p.selectors
  pagination := p.pagination
  maxPages := p.maxPages
  maxArticles := some p.maxArticles

/-- The error with which a payload is refused before the crawl. -/
def Payload.refusal (p : Payload) : Option String :=
  if p.taskId = [] then some "LOCAL_TASK_ID_REQUIRED"
  else if p.sourceUrl = [] then some "LOCAL_SOURCE_URL_REQUIRED"
  else if p.maxPages < 1 ∨ p.maxArticles < 1 then some "LOCAL_INVALID_ARGUMENT"
  else none

/-- A text or null. -/
def optional (text : Option Text) : Json := text.elim .null .str

/-- A text that the source writes itself. -/
def word (w : String) : Json := .str w.toList

/-- The value of `extraction_method`. -/
def methodText : Crawler.ExtractionMethod → Text
  | .html => str "html"
  | .pdf => str "pdf"
  | .doc => str "doc"
  | .docx => str "docx"
  | .xls => str "xls"
  | .xlsx => str "xlsx"
  | .image => str "image"
  | .imageOcr => str "image_ocr"
  | .mixed => str "mixed"

def attachmentObject (a : CrawledAttachment) : Fields :=
  [(str "name", .str a.name), (str "url", .str a.url), (str "file_type", optional a.fileType),
    (str "download_status", .str (str "pending"))]

def articleObject (p : Payload) (d : CrawledDocument) : Fields :=
  [(str "title", .str d.title),
    (str "url", .str d.url),
    (str "published_at", .null),
    (str "organization", optional p.sourceName),
    (str "region", optional p.region),
    (str "column_name", optional p.columnName),
    (str "content", .str d.text),
    (str "content_length", .int d.text.length),
    (str "attachments", .arr (d.attachments.map fun a => .obj (attachmentObject a))),
    (str "extraction_method", .str (methodText d.extractionMethod)),
    (str "needs_ocr", .bool d.needsOcr),
    (str "image_urls", .arr (d.imageUrls.map .str)),
    (str "image_count", .int d.imageUrls.length),
    (str "image_alt_texts", .arr (d.imageAltTexts.map .str)),
    (str "decision", .str (str "pending_review")),
    (str "accepted", .bool false),
    (str "quality_score", .null),
    (str "decision_reason", .str (str "Local crawler requires downstream review")),
    (str "warnings", .arr (d.warnings.map word))]

def failedUrlObject (f : CrawlFailure) : Fields :=
  [(str "url", .str f.url), (str "stage", word f.stage), (str "error_code", word f.errorCode),
    (str "error_message", .str f.errorMessage), (str "retryable", .bool f.retryable)]

def sourceObject (p : Payload) : Fields :=
  [(str "source_url", .str p.sourceUrl), (str "source_name", optional p.sourceName),
    (str "region", optional p.region), (str "column_name", optional p.columnName)]

def statisticsObject (diagnostics : CrawlDiagnostics) (articles : ℕ) : Fields :=
  [(str "pages_visited", .int diagnostics.pagesVisited),
    (str "articles_discovered", .int diagnostics.candidateLinks.length),
    (str "articles_fetched", .int articles),
    (str "articles_accepted", .int 0),
    (str "articles_rejected", .int 0),
    (str "articles_pending_review", .int articles),
    (str "articles_failed", .int diagnostics.failures.length)]

def candidateObject (c : CandidateLink) : Fields :=
  [(str "url", .str c.url), (str "anchor_text", .str c.anchorText), (str "score", .int c.score),
    (str "reasons", .arr (c.reasons.map .str))]

def classificationObject (c : PageClassification) : Fields :=
  [(str "url", .str c.url), (str "kind", word c.kind), (str "status_code", .int c.statusCode)]

def eventObject : PaginationEvent → Fields
  | .maxArticlesBefore page => [(str "stop", word "max_articles"), (str "page", .int page)]
  | .maxArticles page newCandidates =>
      [(str "page", .int page), (str "stop", word "max_articles"),
        (str "new_candidates", .bool newCandidates)]
  | .noNewArticles page =>
      [(str "page", .int page), (str "stop", word "no_new_articles"), (str "new_candidates", .int 0)]
  | .next page nextUrl newCandidates =>
      [(str "page", .int page), (str "next_url", optional nextUrl),
        (str "new_candidates", .int newCandidates)]

def apiObject (api : ApiDiscovery) : Fields :=
  [(str "mode", word api.mode), (str "candidates", .arr (api.candidates.map .str)),
    (str "requests", .int api.requests), (str "items", .int api.items)]

def diagnosticsObject (d : CrawlDiagnostics) : Fields :=
  [(str "candidate_links", .arr (d.candidateLinks.map fun c => .obj (candidateObject c))),
    (str "normalized_links", .arr (d.normalizedLinks.map .str)),
    (str "page_classifications",
      .arr (d.pageClassifications.map fun c => .obj (classificationObject c))),
    (str "pagination_events", .arr (d.paginationEvents.map fun e => .obj (eventObject e))),
    (str "api_discovery", d.apiDiscovery.elim .null fun api => .obj (apiObject api))]

/-- The warnings of the crawl, and one if it found nothing at all. -/
def warningsOf (result : CrawlColumnResult) : List String :=
  let warnings := result.diagnostics.warnings
  if result.documents.isEmpty && result.diagnostics.failures.isEmpty
      && !warnings.contains "NO_ARTICLES" then
    warnings ++ ["NO_ARTICLES"]
  else warnings

/-- The batch of a result, for the documents that are sent. -/
def batchObject (p : Payload) (result : CrawlColumnResult) (documents : List CrawledDocument) :
    Fields :=
  let failures := result.diagnostics.failures
  [(str "success", .bool failures.isEmpty),
    (str "task_id", .str p.taskId),
    (str "source", .obj (sourceObject p)),
    (str "statistics", .obj (statisticsObject result.diagnostics documents.length)),
    (str "articles", .arr (documents.map fun d => .obj (articleObject p d))),
    (str "failed_urls", .arr (failures.map fun f => .obj (failedUrlObject f))),
    (str "warnings", .arr ((warningsOf result).map word)),
    (str "diagnostics", .obj (diagnosticsObject result.diagnostics))]

/-- `normalized` -/
def normalized (p : Payload) (result : CrawlColumnResult) : Fields :=
  batchObject p result (result.documents.take p.maxArticles)

/-- A `CrawlProviderError`, another exception of the crawler, or a `ValidationError`. -/
inductive StartError
  | provider (code : String) (message : Text) (retryable : Bool)
  | raised (exc : Exn)
  | validation (e : ParseError)

/-- `start_crawl`, with the outcome of the crawl that it waits for. -/
def startCrawl (P : FieldTools) (p : Payload) (outcome : Except CrawlError CrawlColumnResult) :
    Except StartError (Schema.BatchCrawlResponse × Json) :=
  match p.refusal with
  | some code => .error (.provider code [] false)
  | none =>
      match outcome with
      | .error (.discovery code message retryable) => .error (.provider code message retryable)
      | .error (.raised exc) => .error (.raised exc)
      | .ok result =>
          (parseBatchCrawlResponse P.batchTools (.obj (normalized p result))).mapError .validation

/-! ## Reading the payload -/

section

variable {P : FieldTools} {p : Payload} {result : CrawlColumnResult}

/-- The parser takes the URL. -/
def Takes (P : FieldTools) (url : Text) : Prop := (P.httpUrl url).isSome = true

/-- The parser takes every URL of a document. -/
structure TakesDocument (P : FieldTools) (d : CrawledDocument) : Prop where
  url : Takes P d.url
  attachments : ∀ a ∈ d.attachments, Takes P a.url
  imageUrls : ∀ url ∈ d.imageUrls, Takes P url

/-- The method in the schema. -/
def schemaMethod : Crawler.ExtractionMethod → Schema.ExtractionMethod
  | .html => .html
  | .pdf => .pdf
  | .doc => .doc
  | .docx => .docx
  | .xls => .xls
  | .xlsx => .xlsx
  | .image => .image
  | .imageOcr => .imageOcr
  | .mixed => .mixed

@[simp] theorem literal_methodText (m : Crawler.ExtractionMethod) :
    literal extractionMethods (.str (methodText m)) = some (schemaMethod m) := by
  cases m <;> rfl

theorem schemaMethod_image_iff (m : Crawler.ExtractionMethod) :
    schemaMethod m = .image ↔ m = .image := by
  cases m <;> simp [schemaMethod]

theorem schemaMethod_imageOcr_iff (m : Crawler.ExtractionMethod) :
    schemaMethod m = .imageOcr ↔ m = .imageOcr := by
  cases m <;> simp [schemaMethod]

theorem readCount_int (n : ℕ) : P.readCount (.int n) = some n := by
  simp [FieldTools.readCount, P.readInt_int]

theorem readTaskId_str {taskId : Text} (h : taskId ≠ []) :
    FieldTools.readTaskId (.str taskId) = some taskId := by
  simp [FieldTools.readTaskId, readText, h]

theorem listOf_word (ws : List String) :
    listOf readText (.arr (ws.map word)) = some (ws.map String.toList) := by
  have hwords : ws.map word = (ws.map String.toList).map .str := by
    rw [List.map_map]
    rfl
  rw [hwords, Json.listOf_readText]

/-- An attachment as it is read. -/
def readOf (P : FieldTools) (a : CrawledAttachment) : Option BatchAttachment :=
  (P.httpUrl a.url).map fun url => { name := a.name, url, fileType := a.fileType }

theorem readAttachment_attachmentObject (a : CrawledAttachment) :
    P.readAttachment (.obj (attachmentObject a)) = readOf P a := by
  have hname : required (attachmentObject a) (str "name") readText = some a.name := rfl
  have hurl : required (attachmentObject a) (str "url") P.readUrl = P.httpUrl a.url := rfl
  have htype : defaulted (attachmentObject a) (str "file_type") none (nullable readText) =
      some a.fileType := Json.nullable_text a.fileType
  have htext : defaulted (attachmentObject a) (str "extracted_text") none (nullable readText) =
      some none := rfl
  have hstatus : defaulted (attachmentObject a) (str "download_status") .pending
      (literal downloadStatuses) = some .pending := rfl
  have hmessage : defaulted (attachmentObject a) (str "error_message") none (nullable readText) =
      some none := rfl
  have hknown : Json.known (strs ["name", "url", "file_type", "extracted_text", "download_status",
      "error_message"]) (attachmentObject a) = true := rfl
  simp only [FieldTools.readAttachment, hname, hurl, htype, htext, hstatus, hmessage, hknown, readOf]
  cases P.httpUrl a.url <;> rfl

/-- An article as it is read, with its URLs as they are written back. -/
def articleOf (p : Payload) (d : CrawledDocument) (url : Text) (attachments : List BatchAttachment)
    (imageUrls : List Text) : Schema.BatchArticle where
  title := d.title
  url := url
  organization := p.sourceName
  region := p.region
  columnName := p.columnName
  content := d.text
  contentLength := d.text.length
  attachments := attachments
  extractionMethod := schemaMethod d.extractionMethod
  needsOcr := d.needsOcr
  imageUrls := imageUrls
  imageCount := d.imageUrls.length
  imageAltTexts := d.imageAltTexts
  decision := .pendingReview
  accepted := false
  decisionReason := str "Local crawler requires downstream review"
  warnings := d.warnings.map String.toList

/-- Only the URLs of an article are left to the parser. -/
theorem readArticle_articleObject (d : CrawledDocument) :
    P.readArticle (.obj (articleObject p d)) =
      (P.httpUrl d.url).bind fun url => (d.attachments.mapM (readOf P)).bind fun attachments =>
        (d.imageUrls.mapM P.httpUrl).bind fun imageUrls =>
          some (articleOf p d url attachments imageUrls) := by
  -- The fields one by one, in the order in which the parser reads them.
  have hknown : Json.known (strs ["title", "url", "published_at", "organization",
      "organization_inferred", "region", "column_name", "content", "content_length", "attachments",
      "extraction_method", "needs_ocr", "image_urls", "image_count", "image_alt_texts", "decision",
      "accepted", "quality_score", "decision_reason", "document_type", "summary", "keywords",
      "warnings"]) (articleObject p d) = true := rfl
  have htitle : required (articleObject p d) (str "title") readText = some d.title := rfl
  have hurl : required (articleObject p d) (str "url") P.readUrl = P.httpUrl d.url := rfl
  have hpublished : defaulted (articleObject p d) (str "published_at") none (nullable P.readTime) =
      some none := rfl
  have horganization : defaulted (articleObject p d) (str "organization") none
      (nullable readText) = some p.sourceName := Json.nullable_text p.sourceName
  have hinferred : defaulted (articleObject p d) (str "organization_inferred") false P.readBool =
      some false := rfl
  have hregion : defaulted (articleObject p d) (str "region") none (nullable readText) =
      some p.region := Json.nullable_text p.region
  have hcolumn : defaulted (articleObject p d) (str "column_name") none (nullable readText) =
      some p.columnName := Json.nullable_text p.columnName
  have hcontent : required (articleObject p d) (str "content") readText = some d.text := rfl
  have hlength : required (articleObject p d) (str "content_length") P.readCount =
      some d.text.length := readCount_int d.text.length
  have hattachments : defaulted (articleObject p d) (str "attachments") []
      (listOf P.readAttachment) = d.attachments.mapM (readOf P) :=
    Json.listOf_map readAttachment_attachmentObject d.attachments
  have hmethod : required (articleObject p d) (str "extraction_method")
      (literal extractionMethods) = some (schemaMethod d.extractionMethod) :=
    literal_methodText d.extractionMethod
  have hocr : defaulted (articleObject p d) (str "needs_ocr") false P.readBool = some d.needsOcr :=
    P.readBool_bool d.needsOcr
  have himages : defaulted (articleObject p d) (str "image_urls") [] (listOf P.readUrl) =
      d.imageUrls.mapM P.httpUrl := Json.listOf_map (fun _ => rfl) d.imageUrls
  have hcount : defaulted (articleObject p d) (str "image_count") 0 P.readCount =
      some d.imageUrls.length := readCount_int d.imageUrls.length
  have halts : defaulted (articleObject p d) (str "image_alt_texts") [] (listOf readText) =
      some d.imageAltTexts := Json.listOf_readText d.imageAltTexts
  have hdecision : required (articleObject p d) (str "decision") (literal decisions) =
      some .pendingReview := rfl
  have haccepted : required (articleObject p d) (str "accepted") P.readBool = some false :=
    P.readBool_bool false
  have hscore : defaulted (articleObject p d) (str "quality_score") none (nullable P.readScore) =
      some none := rfl
  have hreason : required (articleObject p d) (str "decision_reason") readText =
      some (str "Local crawler requires downstream review") := rfl
  have htype : defaulted (articleObject p d) (str "document_type") none (nullable readText) =
      some none := rfl
  have hsummary : defaulted (articleObject p d) (str "summary") none (nullable readText) =
      some none := rfl
  have hkeywords : defaulted (articleObject p d) (str "keywords") [] (listOf readText) =
      some [] := rfl
  have hwarnings : defaulted (articleObject p d) (str "warnings") [] (listOf readText) =
      some (d.warnings.map String.toList) := listOf_word d.warnings
  simp only [FieldTools.readArticle, hknown, htitle, hurl, hpublished, horganization, hinferred,
    hregion, hcolumn, hcontent, hlength, hattachments, hmethod, hocr, himages, hcount, halts,
    hdecision, haccepted, hscore, hreason, htype, hsummary, hkeywords, hwarnings]
  rfl

theorem readFailedUrl_failedUrlObject (f : CrawlFailure) :
    P.readFailedUrl (.obj (failedUrlObject f)) = (P.httpUrl f.url).map fun url =>
      { url, stage := f.stage.toList, errorCode := f.errorCode.toList, errorMessage := f.errorMessage,
        retryable := f.retryable } := by
  have hknown : Json.known (strs ["url", "stage", "error_code", "error_message", "retryable"])
      (failedUrlObject f) = true := rfl
  have hurl : required (failedUrlObject f) (str "url") P.readUrl = P.httpUrl f.url := rfl
  have hstage : required (failedUrlObject f) (str "stage") readText = some f.stage.toList := rfl
  have hcode : required (failedUrlObject f) (str "error_code") readText =
      some f.errorCode.toList := rfl
  have hmessage : required (failedUrlObject f) (str "error_message") readText =
      some f.errorMessage := rfl
  have hretryable : defaulted (failedUrlObject f) (str "retryable") false P.readBool =
      some f.retryable := P.readBool_bool f.retryable
  simp only [FieldTools.readFailedUrl, hknown, hurl, hstage, hcode, hmessage, hretryable]
  cases P.httpUrl f.url <;> rfl

theorem readSource_sourceObject :
    P.readSource (.obj (sourceObject p)) = (P.httpUrl p.sourceUrl).map fun sourceUrl =>
      { sourceUrl, sourceName := p.sourceName, region := p.region, columnName := p.columnName } := by
  have hurlName : Json.nameUsed (sourceObject p) (str "source_url") (str "url") =
      str "source_url" := rfl
  have hnameName : Json.nameUsed (sourceObject p) (str "source_name") (str "name") =
      str "source_name" := rfl
  have hknown : Json.known (str "source_url" :: str "source_name" ::
      strs ["organization", "region", "column_name"]) (sourceObject p) = true := rfl
  have hurl : required (sourceObject p) (str "source_url") P.readUrl = P.httpUrl p.sourceUrl := rfl
  have hname : defaulted (sourceObject p) (str "source_name") none (nullable readText) =
      some p.sourceName := Json.nullable_text p.sourceName
  have horganization : defaulted (sourceObject p) (str "organization") none (nullable readText) =
      some none := rfl
  have hregion : defaulted (sourceObject p) (str "region") none (nullable readText) =
      some p.region := Json.nullable_text p.region
  have hcolumn : defaulted (sourceObject p) (str "column_name") none (nullable readText) =
      some p.columnName := Json.nullable_text p.columnName
  simp only [FieldTools.readSource, hurlName, hnameName, hknown, hurl, hname, horganization, hregion,
    hcolumn]
  cases P.httpUrl p.sourceUrl <;> rfl

/-- The statistics as they are read. -/
def statisticsOf (diagnostics : CrawlDiagnostics) (articles : ℕ) :
    Schema.BatchStatistics where
  pagesVisited := diagnostics.pagesVisited
  articlesDiscovered := diagnostics.candidateLinks.length
  articlesFetched := articles
  articlesAccepted := 0
  articlesRejected := 0
  articlesPendingReview := articles
  articlesFailed := diagnostics.failures.length

theorem readStatistics_statisticsObject (diagnostics : CrawlDiagnostics) (articles : ℕ) :
    P.readStatistics (.obj (statisticsObject diagnostics articles)) =
      some (statisticsOf diagnostics articles) := by
  have hknown : Json.known (strs ["pages_visited", "articles_discovered", "articles_fetched",
      "articles_accepted", "articles_rejected", "articles_pending_review", "articles_failed"])
      (statisticsObject diagnostics articles) = true := rfl
  have hcount : ∀ key n, (statisticsObject diagnostics articles).lookup key = some (.int (n : ℕ)) →
      required (statisticsObject diagnostics articles) key P.readCount = some n := by
    intro key n hlookup
    rw [required, hlookup]
    exact readCount_int n
  simp only [FieldTools.readStatistics, hknown, hcount (str "pages_visited") _ rfl,
    hcount (str "articles_discovered") _ rfl, hcount (str "articles_fetched") _ rfl,
    hcount (str "articles_accepted") 0 rfl, hcount (str "articles_rejected") 0 rfl,
    hcount (str "articles_pending_review") _ rfl, hcount (str "articles_failed") _ rfl]
  rfl

/-! ## Articles -/

/-- The flags of a document agree: an image still has to be read, and one that was read has not. -/
structure OcrConsistent (d : CrawledDocument) : Prop where
  image : d.extractionMethod = .image → d.needsOcr = true
  imageOcr : d.extractionMethod = .imageOcr → d.needsOcr = false

theorem readOf_isSome {a : CrawledAttachment} : (readOf P a).isSome = true ↔ Takes P a.url := by
  rw [readOf, Option.isSome_map]
  rfl

/-- An article is read if its URLs are taken. -/
theorem readArticle_isSome {d : CrawledDocument} :
    (P.readArticle (.obj (articleObject p d))).isSome = true ↔ TakesDocument P d := by
  rw [readArticle_articleObject]
  constructor
  · intro h
    obtain ⟨a, ha⟩ := Option.isSome_iff_exists.mp h
    simp only [Option.bind_eq_some_iff] at ha
    obtain ⟨url, hurl, attachments, hattachments, imageUrls, himages, -⟩ := ha
    refine ⟨Option.isSome_of_eq_some hurl, fun a ha => ?_, fun u hu => ?_⟩
    · exact readOf_isSome.mp (Json.mapM_isSome.mp (Option.isSome_of_eq_some hattachments) a ha)
    · exact Json.mapM_isSome.mp (Option.isSome_of_eq_some himages) u hu
  · rintro ⟨hurl, hattachments, himages⟩
    obtain ⟨url, hurl⟩ := Option.isSome_iff_exists.mp hurl
    obtain ⟨attachments, hattachments⟩ := Option.isSome_iff_exists.mp
      (Json.mapM_isSome.mpr fun a ha => readOf_isSome.mpr (hattachments a ha))
    obtain ⟨imageUrls, himages⟩ := Option.isSome_iff_exists.mp (Json.mapM_isSome.mpr himages)
    simp [hurl, hattachments, himages]

/-- An article that is read passes its validator and waits for a review. -/
theorem consistent_of_readArticle {d : CrawledDocument} {a : Schema.BatchArticle}
    (h : P.readArticle (.obj (articleObject p d)) = some a) (hocr : OcrConsistent d) :
    a.validateConsistency = .ok () ∧ a.decision = .pendingReview := by
  rw [readArticle_articleObject] at h
  simp only [Option.bind_eq_some_iff] at h
  obtain ⟨url, -, attachments, -, imageUrls, himages, h⟩ := h
  obtain rfl := Option.some.inj h
  have hlength : d.imageUrls.length = imageUrls.length :=
    (Json.mapM_eq_some.mp himages).length_eq
  have himage : ¬(schemaMethod d.extractionMethod = .image ∧ d.needsOcr = false) := by
    rintro ⟨hmethod, hneeds⟩
    rw [hocr.image ((schemaMethod_image_iff _).mp hmethod)] at hneeds
    cases hneeds
  have hread : ¬(schemaMethod d.extractionMethod = .imageOcr ∧ d.needsOcr = true) := by
    rintro ⟨hmethod, hneeds⟩
    rw [hocr.imageOcr ((schemaMethod_imageOcr_iff _).mp hmethod)] at hneeds
    cases hneeds
  refine ⟨?_, rfl⟩
  simp [Schema.BatchArticle.validateConsistency, articleOf, himage, hread, hlength]

/-! ## The batch -/

/-- The batch as it is read. -/
def responseOf (p : Payload) (result : CrawlColumnResult) (documents : ℕ)
    (source : Schema.BatchSource) (articles : List Schema.BatchArticle)
    (failedUrls : List Schema.BatchFailedUrl) : Schema.BatchCrawlResponse where
  success := result.diagnostics.failures.isEmpty
  taskId := p.taskId
  source := source
  statistics := statisticsOf result.diagnostics documents
  articles := articles
  failedUrls := failedUrls
  warnings := (warningsOf result).map String.toList
  diagnostics := some (diagnosticsObject result.diagnostics)

theorem readFields_batchObject (htask : p.taskId ≠ []) (documents : List CrawledDocument) :
    P.readFields (batchObject p result documents) =
      (P.readSource (.obj (sourceObject p))).bind fun source =>
        (documents.mapM fun d => P.readArticle (.obj (articleObject p d))).bind fun articles =>
          (result.diagnostics.failures.mapM fun f => P.readFailedUrl (.obj (failedUrlObject f))).bind
            fun failedUrls =>
              some (responseOf p result documents.length source articles failedUrls) := by
  -- The fields one by one, in the order in which the parser reads them.
  have hsuccess : required (batchObject p result documents) (str "success") P.readBool =
      some result.diagnostics.failures.isEmpty := P.readBool_bool _
  have htaskId : required (batchObject p result documents) (str "task_id") FieldTools.readTaskId =
      some p.taskId := readTaskId_str htask
  have hsource : required (batchObject p result documents) (str "source") P.readSource =
      P.readSource (.obj (sourceObject p)) := rfl
  have hstatistics : required (batchObject p result documents) (str "statistics") P.readStatistics =
      some (statisticsOf result.diagnostics documents.length) :=
    readStatistics_statisticsObject result.diagnostics documents.length
  have harticles : required (batchObject p result documents) (str "articles")
      (listOf P.readArticle) = documents.mapM fun d => P.readArticle (.obj (articleObject p d)) :=
    Json.listOf_map (fun _ => rfl) documents
  have hfailed : required (batchObject p result documents) (str "failed_urls")
      (listOf P.readFailedUrl) =
        result.diagnostics.failures.mapM fun f => P.readFailedUrl (.obj (failedUrlObject f)) :=
    Json.listOf_map (fun _ => rfl) result.diagnostics.failures
  have hwarnings : required (batchObject p result documents) (str "warnings") (listOf readText) =
      some ((warningsOf result).map String.toList) := listOf_word _
  have hcontract : defaulted (batchObject p result documents) (str "contract_version") none
      (nullable readText) = some none := rfl
  have hworkflow : defaulted (batchObject p result documents) (str "workflow_version") none
      (nullable readText) = some none := rfl
  have hstarted : defaulted (batchObject p result documents) (str "started_at") none
      (nullable P.readTime) = some none := rfl
  have hfinished : defaulted (batchObject p result documents) (str "finished_at") none
      (nullable P.readTime) = some none := rfl
  have hcompleted : defaulted (batchObject p result documents) (str "completed_at") none
      (nullable P.readTime) = some none := rfl
  have hdiagnostics : defaulted (batchObject p result documents) (str "diagnostics") none
      (nullable FieldTools.readAny) = some (some (diagnosticsObject result.diagnostics)) := rfl
  simp only [FieldTools.readFields, hsuccess, htaskId, hsource, hstatistics, harticles, hfailed,
    hwarnings, hcontract, hworkflow, hstarted, hfinished, hcompleted, hdiagnostics]
  rfl

/-- The parser takes every URL of the batch. -/
structure TakesBatch (P : FieldTools) (p : Payload) (documents : List CrawledDocument)
    (failures : List CrawlFailure) : Prop where
  source : Takes P p.sourceUrl
  documents : ∀ d ∈ documents, TakesDocument P d
  failures : ∀ f ∈ failures, Takes P f.url

/-- All articles wait for a review, so that the counts are those of the lists. -/
theorem validateStatistics_responseOf {source : Schema.BatchSource}
    {articles : List Schema.BatchArticle} {failedUrls : List Schema.BatchFailedUrl} {documents : ℕ}
    (hlength : documents = articles.length)
    (hfailed : result.diagnostics.failures.length = failedUrls.length)
    (hpending : ∀ a ∈ articles, a.decision = .pendingReview) :
    (responseOf p result documents source articles failedUrls).validateStatistics = .ok () := by
  have hnone : ∀ d, d ≠ .pendingReview → articles.countP (fun a => a.decision = d) = 0 := by
    intro d hd
    rw [List.countP_eq_zero]
    intro a ha
    simp [hpending a ha, hd.symm]
  have hall : articles.countP (fun a => a.decision = .pendingReview) = articles.length := by
    rw [List.countP_eq_length]
    intro a ha
    simp [hpending a ha]
  simp [Schema.BatchCrawlResponse.validateStatistics, responseOf, statisticsOf, hnone, hall, hlength,
    hfailed]

theorem readSource_isSome :
    (P.readSource (.obj (sourceObject p))).isSome = true ↔ Takes P p.sourceUrl := by
  rw [readSource_sourceObject, Option.isSome_map]
  rfl

theorem readFailedUrl_isSome {f : CrawlFailure} :
    (P.readFailedUrl (.obj (failedUrlObject f))).isSome = true ↔ Takes P f.url := by
  rw [readFailedUrl_failedUrlObject, Option.isSome_map]
  rfl

/-- The fields of a batch are read if its URLs are taken. -/
theorem readFields_isSome (htask : p.taskId ≠ []) {documents : List CrawledDocument} :
    (P.readFields (batchObject p result documents)).isSome = true ↔
      TakesBatch P p documents result.diagnostics.failures := by
  rw [readFields_batchObject htask]
  constructor
  · intro h
    obtain ⟨response, hresponse⟩ := Option.isSome_iff_exists.mp h
    simp only [Option.bind_eq_some_iff] at hresponse
    obtain ⟨source, hsource, articles, harticles, failedUrls, hfailed, -⟩ := hresponse
    refine ⟨readSource_isSome.mp (Option.isSome_of_eq_some hsource), fun d hd => ?_, fun f hf => ?_⟩
    · exact readArticle_isSome.mp (Json.mapM_isSome.mp (Option.isSome_of_eq_some harticles) d hd)
    · exact readFailedUrl_isSome.mp (Json.mapM_isSome.mp (Option.isSome_of_eq_some hfailed) f hf)
  · rintro ⟨hsource, hdocuments, hfailures⟩
    obtain ⟨source, hsource⟩ := Option.isSome_iff_exists.mp (readSource_isSome.mpr hsource)
    obtain ⟨articles, harticles⟩ := Option.isSome_iff_exists.mp (Json.mapM_isSome.mpr fun d hd =>
      readArticle_isSome (p := p).mpr (hdocuments d hd))
    obtain ⟨failedUrls, hfailed⟩ := Option.isSome_iff_exists.mp (Json.mapM_isSome.mpr fun f hf =>
      readFailedUrl_isSome.mpr (hfailures f hf))
    simp [hsource, harticles, hfailed]

/-- A batch of consistent documents that is read passes the validators. -/
theorem valid_of_readFields (htask : p.taskId ≠ []) {documents : List CrawledDocument}
    (hocr : ∀ d ∈ documents, OcrConsistent d) {response : Schema.BatchCrawlResponse}
    (h : P.readFields (batchObject p result documents) = some response) :
    response.articles.forM Schema.BatchArticle.validateConsistency = .ok () ∧
      response.validateStatistics = .ok () := by
  rw [readFields_batchObject htask] at h
  simp only [Option.bind_eq_some_iff] at h
  obtain ⟨source, -, articles, harticles, failedUrls, hfailed, h⟩ := h
  obtain rfl := Option.some.inj h
  have hall : ∀ a ∈ articles, a.validateConsistency = .ok () ∧ a.decision = .pendingReview := by
    intro a ha
    obtain ⟨d, hd, hread⟩ := Json.exists_of_mem_mapM harticles ha
    exact consistent_of_readArticle hread (hocr d hd)
  refine ⟨forM_eq_ok.mpr fun a ha => (hall a ha).1, ?_⟩
  exact validateStatistics_responseOf (Json.mapM_eq_some.mp harticles).length_eq
    (Json.mapM_eq_some.mp hfailed).length_eq fun a ha => (hall a ha).2

/-- A batch of consistent documents is valid if its URLs are taken. -/
theorem modelValidate_iff (htask : p.taskId ≠ []) {documents : List CrawledDocument}
    (hocr : ∀ d ∈ documents, OcrConsistent d) :
    (∃ response, modelValidate P.batchTools (.obj (batchObject p result documents)) =
      .ok response) ↔ TakesBatch P p documents result.diagnostics.failures := by
  have hallowed : (batchObject p result documents).any (fun field => field.1 ∉ responseFields) =
      false := rfl
  have hread : P.batchTools.readFields = P.readFields := rfl
  rw [← readFields_isSome htask]
  simp only [modelValidate, hallowed, hread]
  cases hfields : P.readFields (batchObject p result documents) with
  | none =>
      constructor
      · rintro ⟨response, h⟩
        cases h
      · intro h
        cases h
  | some response =>
      obtain ⟨harticles, hstatistics⟩ := valid_of_readFields htask hocr hfields
      refine iff_of_true ⟨response, ?_⟩ rfl
      simp only [Option.elim_some]
      rw [if_neg (by simp)]
      exact bind_eq_ok.mpr ⟨response, rfl, bind_eq_ok.mpr ⟨(), harticles,
        bind_eq_ok.mpr ⟨(), hstatistics, rfl⟩⟩⟩

end

end Odirag.Crawl.LocalProvider
