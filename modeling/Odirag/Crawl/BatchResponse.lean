import Odirag.Crawl.Batch
import Odirag.Crawl.BatchUrls
import Odirag.Foundations.Groups

/-!
# The response of a provider

Reference: `parse_batch_crawl_response` of `backend/app/schemas/coze.py`.

A batch arrives as a JSON object, or as one inside of JSON strings, code fences and objects with a
key for it. Each turn of the loop takes one layer off, and there are three turns. So whatever the
texts of the articles contain, a batch in at most three layers is read like the batch itself
(`parse_wrapped`). Reading JSON texts and checking the types of the fields is left to the
libraries. The response has all its fields here; `toBatch` takes those that the crawl task works
on.
-/

namespace Odirag.Crawl.Schema

open Documents (isSpace Decision)
open Crawler
open Json (Fields)

/-! ## The schema -/

/-- `BatchAttachment.download_status`. -/
inductive DownloadStatus
  | pending
  | success
  | completed
  | failed
  | tooLarge
  | unsupported
  | skipped
deriving DecidableEq, Repr

/-- `BatchArticle.extraction_method`. -/
inductive ExtractionMethod
  | html
  | pdf
  | doc
  | docx
  | xls
  | xlsx
  | image
  | imageOcr
  | mixed
deriving DecidableEq, Repr

/-- `BatchSource`. -/
structure BatchSource where
  sourceUrl : Text
  sourceName : Option Text := none
  organization : Option Text := none
  region : Option Text := none
  columnName : Option Text := none

/-- `BatchStatistics`. -/
structure BatchStatistics where
  pagesVisited : ℕ
  articlesDiscovered : ℕ
  articlesFetched : ℕ
  articlesAccepted : ℕ
  articlesRejected : ℕ
  articlesPendingReview : ℕ
  articlesFailed : ℕ

/-- `BatchAttachment`. -/
structure BatchAttachment where
  name : Text
  url : Text
  fileType : Option Text := none
  extractedText : Option Text := none
  downloadStatus : DownloadStatus := .pending
  errorMessage : Option Text := none

/-- `BatchArticle`; a time is kept as it is written. -/
structure BatchArticle where
  title : Text
  url : Text
  publishedAt : Option Text := none
  organization : Option Text := none
  organizationInferred : Bool := false
  region : Option Text := none
  columnName : Option Text := none
  content : Text
  contentLength : ℕ
  attachments : List BatchAttachment := []
  extractionMethod : ExtractionMethod
  needsOcr : Bool := false
  imageUrls : List Text := []
  imageCount : ℕ := 0
  imageAltTexts : List Text := []
  decision : Decision
  accepted : Bool
  qualityScore : Option ℚ := none
  decisionReason : Text
  documentType : Option Text := none
  summary : Option Text := none
  keywords : List Text := []
  warnings : List Text := []

/-- `BatchFailedUrl`. -/
structure BatchFailedUrl where
  url : Text
  stage : Text
  errorCode : Text
  errorMessage : Text
  retryable : Bool := false

/-- `BatchCrawlResponse`. -/
structure BatchCrawlResponse where
  success : Bool
  taskId : Text
  source : BatchSource
  statistics : BatchStatistics
  articles : List BatchArticle
  failedUrls : List BatchFailedUrl
  warnings : List Text
  contractVersion : Option Text := none
  workflowVersion : Option Text := none
  startedAt : Option Text := none
  finishedAt : Option Text := none
  completedAt : Option Text := none
  diagnostics : Option Fields := none

/-- The fields of `BatchCrawlResponse`. -/
def responseFields : List Text :=
  strs ["success", "task_id", "source", "statistics", "articles", "failed_urls", "warnings",
    "contract_version", "workflow_version", "started_at", "finished_at", "completed_at",
    "diagnostics"]

/-- A `JSONDecodeError`, or a `ValidationError`: no object, a field that is not allowed, a field of
the wrong type, or a message of a validator. -/
inductive ParseError
  | json
  | noObject
  | extraForbidden
  | fields
  | value (message : String)
deriving DecidableEq, Repr

/-- `BatchArticle.validate_consistency`. -/
def BatchArticle.validateConsistency (a : BatchArticle) : Except ParseError Unit :=
  if a.contentLength ≠ a.content.length then
    .error (.value "content_length must equal the Unicode character length of content")
  else if a.accepted ≠ decide (a.decision = .accepted) then
    .error (.value "accepted must be true exactly when decision is accepted")
  else if a.extractionMethod = .image ∧ a.needsOcr = false then
    .error (.value "image extraction must set needs_ocr=true")
  else if a.extractionMethod = .imageOcr ∧ a.needsOcr = true then
    .error (.value "completed image OCR must set needs_ocr=false")
  else if a.imageCount ≠ a.imageUrls.length then
    .error (.value "image_count must equal image_urls length")
  else .ok ()

/-- `BatchCrawlResponse.validate_statistics`. -/
def BatchCrawlResponse.validateStatistics (r : BatchCrawlResponse) : Except ParseError Unit :=
  let decisions (decision : Decision) := r.articles.countP fun a => a.decision = decision
  if decisions .accepted ≠ r.statistics.articlesAccepted then
    .error (.value "accepted article count does not match statistics")
  else if decisions .rejected ≠ r.statistics.articlesRejected then
    .error (.value "rejected article count does not match statistics")
  else if decisions .pendingReview ≠ r.statistics.articlesPendingReview then
    .error (.value "pending_review article count does not match statistics")
  else if decisions .failed + r.failedUrls.length ≠ r.statistics.articlesFailed then
    .error (.value "article decision counts do not match statistics")
  else if r.statistics.articlesFetched ≠ r.articles.length then
    .error (.value "articles_fetched must equal articles length")
  else .ok ()

/-! ## The batch of a task -/

/-- The text of a method. -/
def ExtractionMethod.text : ExtractionMethod → String
  | html => "html"
  | pdf => "pdf"
  | doc => "doc"
  | docx => "docx"
  | xls => "xls"
  | xlsx => "xlsx"
  | image => "image"
  | imageOcr => "image_ocr"
  | mixed => "mixed"

/-- What the crawl task works on. -/
def BatchCrawlResponse.toBatch (r : BatchCrawlResponse) : Crawl.BatchCrawlResponse where
  success := r.success
  taskId := String.ofList r.taskId
  statistics :=
    { articlesDiscovered := r.statistics.articlesDiscovered
      articlesFetched := r.statistics.articlesFetched
      articlesAccepted := r.statistics.articlesAccepted
      articlesRejected := r.statistics.articlesRejected
      articlesPendingReview := r.statistics.articlesPendingReview
      articlesFailed := r.statistics.articlesFailed }
  articles := r.articles.map fun a =>
    { url := String.ofList a.url
      extractionMethod := a.extractionMethod.text
      decision := a.decision
      decisionReason := String.ofList a.decisionReason }
  failedUrls := r.failedUrls.map fun f =>
    { url := String.ofList f.url
      stage := String.ofList f.stage
      errorCode := String.ofList f.errorCode
      errorMessage := String.ofList f.errorMessage
      retryable := f.retryable }
  warnings := r.warnings.map String.ofList

/-- The statistics of a response are checked like those of its batch. -/
theorem BatchCrawlResponse.validateStatistics_toBatch (r : BatchCrawlResponse) :
    r.validateStatistics = r.toBatch.validateStatistics.mapError ParseError.value := by
  have hdecisions : ∀ d, r.toBatch.decisions d = r.articles.countP fun a => a.decision = d := by
    intro d
    simp only [Crawl.BatchCrawlResponse.decisions, toBatch, List.countP_map]
    exact List.countP_congr fun a _ => by simp
  unfold validateStatistics Crawl.BatchCrawlResponse.validateStatistics
  simp only [hdecisions]
  simp only [toBatch, List.length_map]
  split_ifs <;> rfl

/-! ## The parser -/

/-- What is read by libraries. -/
structure BatchTools extends NetTools where
  /-- `json.loads`; `none` is a `JSONDecodeError`. -/
  loads : Text → Option Json
  /-- `str` of a value that is not a text. -/
  render : Json → Text
  /-- The fields of a response with their types checked; `none` is a `ValidationError`. -/
  readFields : Fields → Option BatchCrawlResponse

/-- The first line of `_JSON_FENCE`. -/
def fenceOpening : Regex :=
  .seqs [.lit "```", .opt (.lit "json"), .star (.anyOf " \t"), .opt (.char (· == '\r')),
    .char (· == '\n')]

/-- The last line of `_JSON_FENCE`. -/
def fenceClosing : Regex :=
  .seqs [.opt (.char (· == '\r')), .char (· == '\n'), .lit "```"]

/-- `_JSON_FENCE`; what `$` adds is implied by a full match. -/
def jsonFence : Regex :=
  .seq fenceOpening (.seq (.group "body" (.star (.char fun _ => true))) fenceClosing)

/-- The keys of an object around a batch. -/
def wrapperKeys : List Text := strs ["data", "output", "result", "batch_result"]

section

variable (B : BatchTools)

/-- `_decode_json_string`. -/
def decodeJsonString (value : Text) : Except ParseError Json :=
  let text := strip value
  let text :=
    match Regex.fullmatchGroups jsonFence text with
    | some groups => strip ((groups.lookup "body").getD [])
    | none => text
  match B.loads text with
  | some value => .ok value
  | none => .error .json

/-- The text or the object under the first key that has one. -/
def nested (fields : Fields) : Option Json :=
  wrapperKeys.findSome? fun key =>
    match Json.get fields key with
    | .str s => some (.str s)
    | .obj inner => some (.obj inner)
    | _ => none

/-- The loop of `parse_batch_crawl_response`, with the number of turns. -/
def unwrap : ℕ → Json → Except ParseError Json
  | 0, candidate => .ok candidate
  | n + 1, .str s => do
      let candidate ← decodeJsonString B s
      unwrap n candidate
  | n + 1, .obj fields =>
      match nested fields with
      | some candidate => unwrap n candidate
      | none => .ok (.obj fields)
  | _ + 1, candidate => .ok candidate

/-- The URL of an image or attachment, normalised if it can be. -/
def normalizedUrl (articleUrl value : Text) (otherwise : Json) : Json :=
  match tryNormalize B.toNetTools value articleUrl with
  | some url => .str url
  | none => otherwise

/-- An attachment with its URL normalised. -/
def canonicalizeAttachment (articleUrl : Text) : Json → Json
  | .obj fields =>
      match Json.get fields (str "url") with
      | .str value =>
          .obj (setField fields (str "url") (normalizedUrl B articleUrl value (.str value)))
      | _ => .obj fields
  | attachment => attachment

/-- An article with its URLs normalised. -/
def canonicalizeArticle : Json → Json
  | .obj fields =>
      match Json.get fields (str "url") with
      | .str value =>
          if strip value = [] then .obj fields
          else
            match tryNormalize B.toNetTools value with
            | none => .obj fields
            | some articleUrl =>
                let fields := setField fields (str "url") (.str articleUrl)
                let fields :=
                  match Json.get fields (str "image_urls") with
                  | .arr values => setField fields (str "image_urls") (.arr (values.map fun value =>
                      normalizedUrl B articleUrl (Json.toText B.render value) value))
                  | _ => fields
                match Json.get fields (str "attachments") with
                | .arr attachments => .obj (setField fields (str "attachments")
                    (.arr (attachments.map (canonicalizeAttachment B articleUrl))))
                | _ => .obj fields
      | _ => .obj fields
  | article => article

/-- `_canonicalize_batch_urls`. -/
def canonicalizeBatchUrls : Json → Json
  | .obj fields =>
      match Json.get fields (str "articles") with
      | .arr articles =>
          .obj (setField fields (str "articles") (.arr (articles.map (canonicalizeArticle B))))
      | _ => .obj fields
  | candidate => candidate

/-- `BatchCrawlResponse.model_validate`. -/
def modelValidate : Json → Except ParseError BatchCrawlResponse
  | .obj fields =>
      if fields.any fun field => field.1 ∉ responseFields then .error .extraForbidden
      else do
        let response ← (B.readFields fields).elim (.error .fields) .ok
        response.articles.forM BatchArticle.validateConsistency
        response.validateStatistics
        return response
  | _ => .error .noObject

/-- `parse_batch_crawl_response`. -/
def parseBatchCrawlResponse (payload : Json) : Except ParseError (BatchCrawlResponse × Json) := do
  let candidate ← unwrap B 3 payload
  let response ← modelValidate B (canonicalizeBatchUrls B candidate)
  return (response, payload)

end

/-! ## Fences -/

/-- A line end. -/
def IsNewline (text : Text) : Prop := text = ['\n'] ∨ text = ['\r', '\n']

/-- The line that opens a block. -/
def IsOpening (text : Text) : Prop :=
  ∃ language blanks newline, text = str "```" ++ (language ++ (blanks ++ newline)) ∧
    (language = [] ∨ language = str "json") ∧ (∀ c ∈ blanks, c ∈ str " \t") ∧ IsNewline newline

/-- The line that closes a block. -/
def IsClosing (text : Text) : Prop := ∃ newline, text = newline ++ str "```" ∧ IsNewline newline

/-- A text that is one block with a body. -/
def Fenced (block body : Text) : Prop :=
  ∃ before after opening closing, block = before ++ (opening ++ (body ++ closing)) ++ after ∧
    (∀ c ∈ before, isSpace c = true) ∧ (∀ c ∈ after, isSpace c = true) ∧
    IsOpening opening ∧ IsClosing closing

theorem mem_newline {w : Text} :
    w ∈ Regex.lang (.seq (.opt (.char (· == '\r'))) (.char (· == '\n'))) ↔ IsNewline w := by
  simp only [Regex.mem_lang_seq, Regex.mem_lang_opt, Regex.mem_lang_char, beq_iff_eq]
  constructor
  · rintro ⟨u, rfl | ⟨c, rfl, rfl⟩, v, ⟨d, rfl, rfl⟩, rfl⟩
    · exact .inl rfl
    · exact .inr rfl
  · rintro (rfl | rfl)
    · exact ⟨[], .inl rfl, ['\n'], ⟨_, rfl, rfl⟩, rfl⟩
    · exact ⟨['\r'], .inr ⟨_, rfl, rfl⟩, ['\n'], ⟨_, rfl, rfl⟩, rfl⟩

theorem mem_fenceOpening {w : Text} : w ∈ Regex.lang fenceOpening ↔ IsOpening w := by
  have hshape : w ∈ Regex.lang fenceOpening ↔ ∃ ticks ∈ Regex.lang (.lit "```"), ∃ rest,
      (∃ language ∈ Regex.lang (.opt (.lit "json")), ∃ tail,
        (∃ blanks ∈ Regex.lang (.star (.anyOf " \t")), ∃ newline ∈ Regex.lang
            (.seq (.opt (.char (· == '\r'))) (.char (· == '\n'))), tail = blanks ++ newline) ∧
          rest = language ++ tail) ∧ w = ticks ++ rest := by
    simp only [← Regex.mem_lang_seq]
    rfl
  rw [hshape]
  simp only [Regex.mem_lang_opt, mem_newline, Regex.lit, Regex.mem_lang_chars, Regex.anyOf,
    Text.mem_lang_star_char, decide_eq_true_eq]
  constructor
  · rintro ⟨_, rfl, _, ⟨language, hlanguage, _, ⟨blanks, hblanks, newline, hnewline, rfl⟩, rfl⟩, rfl⟩
    exact ⟨language, blanks, newline, rfl, hlanguage, hblanks, hnewline⟩
  · rintro ⟨language, blanks, newline, rfl, hlanguage, hblanks, hnewline⟩
    exact ⟨_, rfl, _, ⟨language, hlanguage, _, ⟨blanks, hblanks, newline, hnewline, rfl⟩, rfl⟩, rfl⟩

theorem mem_fenceClosing {w : Text} : w ∈ Regex.lang fenceClosing ↔ IsClosing w := by
  have hshape : Regex.lang fenceClosing = Regex.lang
      (.seq (.seq (.opt (.char (· == '\r'))) (.char (· == '\n'))) (.lit "```")) := by
    change Regex.lang _ * (Regex.lang _ * Regex.lang _) = Regex.lang _ * Regex.lang _ * Regex.lang _
    rw [mul_assoc]
    rfl
  rw [hshape, Regex.mem_lang_seq]
  simp only [mem_newline, Regex.lit, Regex.mem_lang_chars]
  constructor
  · rintro ⟨newline, hnewline, _, rfl, rfl⟩
    exact ⟨newline, rfl, hnewline⟩
  · rintro ⟨newline, rfl, hnewline⟩
    exact ⟨newline, hnewline, _, rfl, rfl⟩

/-- An opening line ends at the first line feed. -/
theorem IsOpening.exists_line {text : Text} (h : IsOpening text) :
    ∃ line, text = line ++ ['\n'] ∧ '\n' ∉ line ∧ (str "```").isPrefixOf line = true := by
  obtain ⟨language, blanks, newline, rfl, hlanguage, hblanks, hnewline⟩ := h
  obtain ⟨ending, hending, rfl⟩ : ∃ ending, (ending = [] ∨ ending = ['\r']) ∧
      newline = ending ++ ['\n'] := by
    rcases hnewline with rfl | rfl
    · exact ⟨[], .inl rfl, rfl⟩
    · exact ⟨['\r'], .inr rfl, rfl⟩
  refine ⟨str "```" ++ (language ++ (blanks ++ ending)), by simp, ?_, ?_⟩
  · have hlanguage' : '\n' ∉ language := by
      rcases hlanguage with rfl | rfl <;> decide
    have hblanks' : '\n' ∉ blanks := fun hmem => by
      have hblank := hblanks _ hmem
      revert hblank
      decide
    have hending' : '\n' ∉ ending := by
      rcases hending with rfl | rfl <;> decide
    have hticks : '\n' ∉ str "```" := by decide
    simp [hticks, hlanguage', hblanks', hending']
  · exact List.isPrefixOf_iff_prefix.mpr (List.prefix_append _ _)

/-- Two ways to read one block differ in a carriage return at the end of the body at most. -/
theorem body_unique {opening opening' closing closing' body body' : Text} (ho : IsOpening opening)
    (ho' : IsOpening opening') (hc : IsClosing closing) (hc' : IsClosing closing')
    (h : opening ++ (body ++ closing) = opening' ++ (body' ++ closing')) :
    strip body = strip body' := by
  obtain ⟨line, rfl, hline, -⟩ := ho.exists_line
  obtain ⟨line', rfl, hline', -⟩ := ho'.exists_line
  obtain ⟨newline, rfl, hnewline⟩ := hc
  obtain ⟨newline', rfl, hnewline'⟩ := hc'
  rw [List.append_assoc, List.append_assoc, List.singleton_append, List.singleton_append] at h
  have hparts := congrArg (Url.partition '\n') h
  rw [Url.partition_append hline, Url.partition_append hline'] at hparts
  have hbodies := Option.some_inj.mp (Prod.mk.inj hparts).2
  rw [← List.append_assoc, ← List.append_assoc, List.append_cancel_right_eq] at hbodies
  have hblank : isSpace '\r' = true := by decide
  rcases hnewline with rfl | rfl <;> rcases hnewline' with rfl | rfl
  · rw [List.append_cancel_right_eq] at hbodies
    rw [hbodies]
  · have hsame : body ++ ['\n'] = (body' ++ ['\r']) ++ ['\n'] := by simpa using hbodies
    rw [List.append_cancel_right hsame]
    exact Text.stripBy_append_blank body' hblank
  · have hsame : (body ++ ['\r']) ++ ['\n'] = body' ++ ['\n'] := by simpa using hbodies
    rw [← List.append_cancel_right hsame]
    exact (Text.stripBy_append_blank body hblank).symm
  · rw [List.append_cancel_right_eq] at hbodies
    rw [hbodies]

/-- A block begins and ends with backticks. -/
theorem tight_block {opening closing : Text} (ho : IsOpening opening) (hc : IsClosing closing)
    (body : Text) : Text.Tight isSpace (opening ++ (body ++ closing)) := by
  obtain ⟨language, blanks, ending, rfl, -⟩ := ho
  obtain ⟨newline, rfl, -⟩ := hc
  have hticks : Text.Tight isSpace (str "```") := by
    refine ⟨by decide, fun c hc => ?_, fun c hc => ?_⟩ <;> cases hc <;> decide
  have hblock := hticks.join hticks (language ++ (blanks ++ ending) ++ (body ++ newline))
  simpa using hblock

/-- The body of a block is found. -/
theorem fullmatchGroups_block {opening closing : Text} (ho : IsOpening opening)
    (hc : IsClosing closing) (body : Text) :
    ∃ body', Regex.fullmatchGroups jsonFence (opening ++ (body ++ closing)) =
        some [("body", body')] ∧ strip body' = strip body := by
  have hany : ∀ text : Text, text ∈ Regex.lang (.star (.char fun _ => true)) := fun text =>
    Text.mem_lang_star_char.mpr fun _ _ => rfl
  have hsome : (Regex.fullmatchGroups jsonFence (opening ++ (body ++ closing))).isSome = true :=
    (Regex.fullmatchGroups_isSome rfl rfl rfl).mpr ⟨opening, mem_fenceOpening.mpr ho, body,
      hany body, closing, mem_fenceClosing.mpr hc, rfl⟩
  obtain ⟨groups, hgroups⟩ := Option.isSome_iff_exists.mp hsome
  obtain ⟨p, hp, body', -, q, hq, htext, rfl⟩ :=
    Regex.fullmatchGroups_some rfl rfl rfl rfl rfl rfl hgroups
  exact ⟨body', hgroups, (body_unique ho (mem_fenceOpening.mp hp) hc (mem_fenceClosing.mp hq)
    htext).symm⟩

/-! ## Layers -/

/-- What `json.loads` promises about the whitespace around a text and about its first characters. -/
structure JsonLaws (loads : Text → Option Json) : Prop where
  strip : ∀ text value, loads text = some value → loads (Crawler.strip text) = some value
  unfenced : ∀ text value, loads text = some value →
    (str "```").isPrefixOf (Crawler.strip text) = false

/-- The JSON texts of a value, alone or as one block of code. -/
inductive Encodes (B : BatchTools) (value : Json) : Text → Prop
  | plain {text : Text} : B.loads text = some value → Encodes B value text
  | fenced {block text : Text} : B.loads text = some value → Fenced block text →
      Encodes B value block

/-- A value with this many layers around it: JSON texts, and objects with one of the keys. -/
inductive Wraps (B : BatchTools) (value : Json) : ℕ → Json → Prop
  | bare : Wraps B value 0 value
  | text {n : ℕ} {inner : Json} {text : Text} :
      Wraps B value n inner → Encodes B inner text → Wraps B value (n + 1) (.str text)
  | key {n : ℕ} {inner : Json} {key : Text} :
      Wraps B value n inner → key ∈ wrapperKeys → Wraps B value (n + 1) (.obj [(key, inner)])

section

variable {B : BatchTools}

/-- A JSON text is decoded. -/
theorem decodeJsonString_encodes (hlaws : JsonLaws B.loads) {value : Json} {text : Text}
    (h : Encodes B value text) : decodeJsonString B text = .ok value := by
  cases h with
  | plain hloads =>
      have hnone : Regex.fullmatchGroups jsonFence (strip text) = none := by
        rw [Option.eq_none_iff_forall_ne_some]
        intro groups hgroups
        obtain ⟨p, hp, body, -, q, -, htext, -⟩ :=
          Regex.fullmatchGroups_some rfl rfl rfl rfl rfl rfl hgroups
        obtain ⟨line, rfl, -, hticks⟩ := (mem_fenceOpening.mp hp).exists_line
        have hinitial : (str "```").isPrefixOf (strip text) = true := by
          rw [htext, List.isPrefixOf_iff_prefix, List.append_assoc]
          exact (List.isPrefixOf_iff_prefix.mp hticks).trans (List.prefix_append _ _)
        rw [hlaws.unfenced text value hloads] at hinitial
        cases hinitial
      simp only [decodeJsonString, hnone, hlaws.strip text value hloads]
  | @fenced body hloads hfenced =>
      obtain ⟨before, after, opening, closing, rfl, hbefore, hafter, ho, hc⟩ := hfenced
      have hstrip : strip (before ++ (opening ++ (body ++ closing)) ++ after) =
          opening ++ (body ++ closing) :=
        (tight_block ho hc body).stripBy_around hbefore hafter
      obtain ⟨body', hgroups, hbody⟩ := fullmatchGroups_block ho hc body
      have hlookup : ([("body", body')].lookup "body").getD [] = body' := by simp
      simp only [decodeJsonString, hstrip, hgroups, hlookup, hbody, hlaws.strip body value hloads]

/-- What is wrapped is a text or an object. -/
theorem Wraps.text_or_obj {fields : Fields} {n : ℕ} {wrapped : Json}
    (h : Wraps B (.obj fields) n wrapped) :
    (∃ s, wrapped = .str s) ∨ ∃ inner, wrapped = .obj inner := by
  cases h with
  | bare => exact .inr ⟨fields, rfl⟩
  | text _ _ => exact .inl ⟨_, rfl⟩
  | key _ _ => exact .inr ⟨_, rfl⟩

/-- An object with one of the keys. -/
theorem nested_single {key : Text} (hkey : key ∈ wrapperKeys) {inner : Json}
    (hinner : (∃ s, inner = .str s) ∨ ∃ fields, inner = .obj fields) :
    nested [(key, inner)] = some inner := by
  simp only [wrapperKeys, strs, CharsOf.texts_cons, CharsOf.texts_nil, Chars.text_mk,
    List.mem_cons, List.not_mem_nil, or_false] at hkey
  rcases hkey with rfl | rfl | rfl | rfl <;> rcases hinner with ⟨s, rfl⟩ | ⟨fields, rfl⟩ <;> rfl

/-- Each layer takes one turn of the loop. -/
theorem unwrap_wraps (hlaws : JsonLaws B.loads) {fields : Fields} {n : ℕ} {wrapped : Json}
    (h : Wraps B (.obj fields) n wrapped) (m : ℕ) :
    unwrap B (n + m) wrapped = unwrap B m (.obj fields) := by
  induction h with
  | bare => rw [Nat.zero_add]
  | text hinner hencodes ih =>
      rw [Nat.add_right_comm, unwrap, decodeJsonString_encodes hlaws hencodes]
      exact ih
  | key hinner hkey ih =>
      rw [Nat.add_right_comm, unwrap, nested_single hkey hinner.text_or_obj]
      exact ih

/-! ## Batches -/

theorem keys_setField {fields : Fields} {key : Text} (value : Json)
    (h : ∃ field ∈ fields, field.1 = key) :
    (setField fields key value).map Prod.fst = fields.map Prod.fst := by
  obtain ⟨field, hmem, hkey⟩ := h
  have hany : (fields.any fun field => field.1 == key) = true :=
    List.any_eq_true.mpr ⟨field, hmem, by simp [hkey]⟩
  rw [setField, if_pos hany, List.map_map]
  refine List.map_congr_left fun field _ => ?_
  by_cases heq : field.1 = key <;> simp [heq]

theorem exists_field {fields : Fields} {key : Text} (h : Json.get fields key ≠ .null) :
    ∃ field ∈ fields, field.1 = key := by
  cases hfind : fields.find? fun field => field.1 == key with
  | none => exact absurd (by simp [Json.get, hfind]) h
  | some field => exact ⟨field, List.mem_of_find?_eq_some hfind, by simpa using List.find?_some hfind⟩

/-- Normalising the URLs keeps the keys of the batch. -/
theorem canonicalizeBatchUrls_obj (fields : Fields) :
    ∃ fields', canonicalizeBatchUrls B (.obj fields) = .obj fields' ∧
      fields'.map Prod.fst = fields.map Prod.fst := by
  dsimp only [canonicalizeBatchUrls]
  split
  · next articles harticles =>
      have hne : Json.get fields (str "articles") ≠ .null := by
        rw [harticles]
        nofun
      exact ⟨_, rfl, keys_setField _ (exists_field hne)⟩
  · exact ⟨fields, rfl, rfl⟩

/-- A batch has none of the keys of a wrapper. -/
theorem nested_eq_none {fields : Fields} {response : BatchCrawlResponse}
    (h : modelValidate B (canonicalizeBatchUrls B (.obj fields)) = .ok response) :
    nested fields = none := by
  obtain ⟨fields', hcanonical, hkeys⟩ := @canonicalizeBatchUrls_obj B fields
  rw [hcanonical] at h
  have hallowed : ∀ key ∈ fields.map Prod.fst, key ∈ responseFields := by
    rw [← hkeys]
    intro key hkey
    obtain ⟨field, hmem, rfl⟩ := List.mem_map.mp hkey
    by_contra hforbidden
    have hany : (fields'.any fun field => field.1 ∉ responseFields) = true :=
      List.any_eq_true.mpr ⟨field, hmem, by simp [hforbidden]⟩
    dsimp only [modelValidate] at h
    rw [if_pos hany] at h
    cases h
  have habsent : ∀ key ∈ wrapperKeys, Json.get fields key = .null := by
    intro key hkey
    by_contra hne
    obtain ⟨field, hmem, rfl⟩ := exists_field hne
    have hfield := hallowed field.1 (List.mem_map_of_mem hmem)
    have hdisjoint : ∀ key ∈ wrapperKeys, key ∉ responseFields := by decide
    exact hdisjoint field.1 hkey hfield
  rw [nested, List.findSome?_eq_none_iff]
  intro key hkey
  rw [habsent key hkey]

/-- **Batches in layers.** A batch that is accepted as it is is read from at most three layers around
it as well, and what is returned beside it is the payload. -/
theorem parse_wrapped (hlaws : JsonLaws B.loads) {fields : Fields} {response : BatchCrawlResponse}
    (h : modelValidate B (canonicalizeBatchUrls B (.obj fields)) = .ok response) {n : ℕ}
    (hn : n ≤ 3) {wrapped : Json} (hwraps : Wraps B (.obj fields) n wrapped) :
    parseBatchCrawlResponse B (.obj fields) = .ok (response, .obj fields) ∧
      parseBatchCrawlResponse B wrapped = .ok (response, wrapped) := by
  have hbare : ∀ m, unwrap B m (.obj fields) = .ok (.obj fields) := by
    intro m
    cases m with
    | zero => rfl
    | succ m => rw [unwrap, nested_eq_none h]
  have hparse : ∀ {n wrapped}, n ≤ 3 → Wraps B (.obj fields) n wrapped →
      parseBatchCrawlResponse B wrapped = .ok (response, wrapped) := by
    intro n wrapped hn hwraps
    have hunwrap : unwrap B 3 wrapped = .ok (.obj fields) := by
      rw [← hbare (3 - n), ← unwrap_wraps hlaws hwraps, Nat.add_sub_cancel' hn]
    refine bind_eq_ok.mpr ⟨_, hunwrap, bind_eq_ok.mpr ⟨response, h, rfl⟩⟩
  exact ⟨hparse (Nat.zero_le 3) .bare, hparse hn hwraps⟩

/-- A batch without articles. -/
def emptyBatch : BatchCrawlResponse where
  success := true
  taskId := str "t"
  source := { sourceUrl := str "http://a.com/" }
  statistics := ⟨1, 0, 0, 0, 0, 0, 0⟩
  articles := []
  failedUrls := []
  warnings := []

/-- The fields of this batch. -/
def emptyFields : Fields :=
  [(str "success", .bool true), (str "task_id", .str (str "t")),
    (str "source", .obj [(str "url", .str (str "http://a.com/"))]),
    (str "statistics", .obj [(str "pages_visited", .int 1), (str "articles_discovered", .int 0),
      (str "articles_fetched", .int 0), (str "articles_accepted", .int 0),
      (str "articles_rejected", .int 0), (str "articles_pending_review", .int 0),
      (str "articles_failed", .int 0)]),
    (str "articles", .arr []), (str "failed_urls", .arr []), (str "warnings", .arr [])]

/-- The JSON text of an object around this batch. -/
def emptyText : Text :=
  str "\x7b\"data\":\x7b\"success\":true,\"task_id\":\"t\",\"source\":\x7b\"url\":\"http://a.com/\"\x7d," ++
  str "\"statistics\":\x7b\"pages_visited\":1,\"articles_discovered\":0,\"articles_fetched\":0," ++
  str "\"articles_accepted\":0,\"articles_rejected\":0,\"articles_pending_review\":0," ++
  str "\"articles_failed\":0\x7d,\"articles\":[],\"failed_urls\":[],\"warnings\":[]\x7d\x7d"

/-- Libraries that read this text. -/
def emptyTools : BatchTools :=
  { asciiTools with
    loads := fun text =>
      if strip text = emptyText then some (.obj [(str "data", .obj emptyFields)]) else none
    render := fun _ => []
    readFields := fun _ => some emptyBatch }

theorem strip_emptyText : strip emptyText = emptyText := by
  decide +kernel

theorem jsonLaws_emptyTools : JsonLaws emptyTools.loads where
  strip text value h := by
    have htext : strip text = emptyText := by
      by_contra hne
      simp [emptyTools, hne] at h
    simpa [emptyTools, htext, strip_emptyText] using h
  unfenced text value h := by
    have htext : strip text = emptyText := by
      by_contra hne
      simp [emptyTools, hne] at h
    have hplain : (str "```").isPrefixOf emptyText = false := rfl
    simpa only [htext] using hplain

/-- A block of code with the batch under a key. -/
theorem parse_wrapped_block :
    parseBatchCrawlResponse emptyTools (.obj emptyFields) = .ok (emptyBatch, .obj emptyFields) ∧
      parseBatchCrawlResponse emptyTools
          (.str (str "```json" ++ ('\n' :: emptyText) ++ ('\n' :: str "```"))) =
        .ok (emptyBatch, .str (str "```json" ++ ('\n' :: emptyText) ++ ('\n' :: str "```"))) := by
  have hloads : emptyTools.loads emptyText = some (.obj [(str "data", .obj emptyFields)]) := by
    simp [emptyTools, strip_emptyText]
  have hfenced : Fenced (str "```json" ++ ('\n' :: emptyText) ++ ('\n' :: str "```")) emptyText :=
    ⟨[], [], str "```json" ++ ['\n'], '\n' :: str "```", by simp, by simp, by simp,
      ⟨str "json", [], ['\n'], rfl, .inr rfl, by simp, .inl rfl⟩, ⟨['\n'], rfl, .inl rfl⟩⟩
  exact parse_wrapped jsonLaws_emptyTools rfl (by decide : 2 ≤ 3)
    (.text (.key .bare (by decide)) (.fenced hloads hfenced))

end

end Odirag.Crawl.Schema
