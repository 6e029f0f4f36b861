import Odirag.Attachments.Cleaning
import Odirag.Attachments.Download

/-!
# Parsing an attachment

Reference: `ParsingService.parse_attachment` and `_ocr_attachment` of `backend/app/services/parsing.py`,
`ParsedArtifact` and `Parser` of `backend/app/parsers/base.py`, `OcrResult` and `OcrProvider` of
`backend/app/ocr/base.py`.

The parsers and the OCR provider are parameters of a service, the bytes on disk and the time are
inputs of a call. Commits succeed. `parseAttachment_cases` says everything a call can do: a text is
accepted on one of three ways, a cached text is returned, or the row does not count as parsed.
-/

namespace Odirag.Attachments

open Crawler (strip)

/-! ## Parsers -/

/-- `ParsedArtifact`, as far as it is read. -/
structure ParsedArtifact where
  text : Text
  pages : List Text := []
  /-- `metadata.get("page_count")`. -/
  pageCount : Option ℕ := none
  requiresOcr : Bool := false
deriving DecidableEq

/-- A parser; the name of a class has no colon in it. -/
structure Parser where
  className : Text
  version : Text
  parse : List UInt8 → Text → Except String ParsedArtifact
  plain : ':' ∉ className := by decide

/-- `OcrResult.status`. -/
inductive RecognitionStatus
  | success
  | partially
  | failed
deriving DecidableEq, Repr

/-- `OcrResult`. -/
structure OcrResult where
  text : Text
  pages : List Text := []
  status : RecognitionStatus := .success
  provider : Option Text := some (str "unknown")
  version : Option Text := some (str "unknown")
  errorCode : Option String := none
  errorMessage : Option String := none

/-- `OcrProvider`. -/
structure OcrProvider where
  name : Text
  version : Text
  recognize : List UInt8 → String → Text → Except String OcrResult

/-- `ParsingService`: the registry gives the parser of an extension. -/
structure ParsingService where
  registry : Text → Option Parser
  ocrProvider : Option OcrProvider
  maxFileBytes : ℕ

/-! ## Rows -/

/-- `Attachment` with the columns that parsing writes. -/
structure ParsedRow extends Attachment where
  parsedText : Option Text := none
  extractedTextLength : ℕ := 0
  parser : Option Text := none
  parserVersion : Option Text := none
  extractionMethod : Option String := none
  pageCount : Option ℕ := none
  requiresOcr : Bool := false
  /-- `none` is `not_required`. -/
  ocrStatus : Option RecognitionStatus := none
  ocrProvider : Option Text := none
  ocrVersion : Option Text := none
  ocrPageCount : Option ℕ := none
  ocrTextLength : Option ℕ := none
  ocrLatencyMs : Option ℕ := none
  parseAttemptedAt : Option ℕ := none
deriving DecidableEq

/-- One call of `parse_attachment`: what reading the file meets, and how long recognising takes. -/
structure ParseCall where
  service : ParsingService
  force : Bool
  now : ℕ
  readFails : Option String := none
  latencyMs : ℕ := 0

/-- What a call leaves and gives: `cached` if the artifact was not made by this call, and how often
the OCR provider was asked. -/
structure Parse where
  row : ParsedRow
  outcome : Except String ParsedArtifact
  cached : Bool := false
  recognitions : ℕ := 0

/-- `value or default` for a text that may be missing. -/
def orDefault (value : Option String) (default : String) : String :=
  match value with
  | none => default
  | some value => if value = "" then default else value

namespace ParsedRow

/-- `_mark_failure`. -/
def markFailure (row : ParsedRow) (status : ParseStatus) (errorCode : String) (retryable : Bool)
    (message : String) (now : ℕ) : ParsedRow :=
  { row with
    parseStatus := status
    errorCode := some errorCode
    retryable := retryable
    errorMessage := some message
    processedAt := some now }

/-- `_reset_ocr_audit`. -/
def resetOcrAudit (row : ParsedRow) : ParsedRow :=
  { row with
    requiresOcr := false
    ocrStatus := none
    ocrProvider := none
    ocrVersion := none
    ocrPageCount := none
    ocrTextLength := none
    ocrLatencyMs := none }

/-- The text of the row counts as parsed. -/
def accept (row : ParsedRow) (errorMessage : Option String) (now : ℕ) : ParsedRow :=
  { row with
    parseStatus := .parsed
    errorCode := none
    retryable := false
    errorMessage := errorMessage
    processedAt := some now }

end ParsedRow

/-! ## File names -/

section

variable (D : DetectTools)

/-- `Path(value).suffix`. -/
def pathSuffix (value : Text) : Text := (splitSuffix (pathName value)).2

/-- `_safe_suffix`; `\.[a-z0-9]{1,10}`. -/
def shortSuffix (value : Text) : Text :=
  let suffix := D.lower (pathSuffix value)
  if isPlainSuffix suffix ∧ suffix.length ≤ 11 then suffix else []

/-- `_filename`; `none` is a `ValueError` of `urlsplit`. -/
def filenameOf (row : ParsedRow) : Option Text :=
  let extension := strip (row.fileExtension.getD [])
  if extension ≠ [] then some (str "attachment." ++ extension.dropWhile (· == '.'))
  else
    (Url.urlsplit D.toTools row.sourceUrl).map fun parsed =>
      let named := [some row.attachmentName, some parsed.path, row.localPath].findSome? fun candidate =>
        candidate.bind fun candidate =>
          if candidate ≠ [] ∧ shortSuffix D candidate ≠ [] then some (pathName candidate) else none
      named.getD (str "attachment")

/-- `_file_type`. -/
def fileTypeOf (filename : Text) (mimeType : Option Text) : Text :=
  let extension := (shortSuffix D filename).dropWhile (· == '.')
  if extension ≠ [] then extension
  else
    match mimeType.bind nonEmpty with
    | none => str "unknown"
    | some mimeType =>
        let (head, tail) := Url.partition '/' mimeType
        D.lower (tail.getD head)

/-- The suffixes of `_requires_ocr_file`. -/
def imageSuffixes : List Text :=
  strs [".bmp", ".gif", ".jpeg", ".jpg", ".png", ".tif", ".tiff", ".webp"]

/-- `_requires_ocr_file`. -/
def requiresOcrFile (filename : Text) (mimeType : Option Text) : Bool :=
  (mimeType.bind nonEmpty).any (fun mimeType => (str "image/").isPrefixOf (D.lower mimeType)) ||
    imageSuffixes.contains (shortSuffix D filename)

/-! ## Identities -/

/-- `_OCR_PIPELINE_VERSION` behind its name. -/
def ocrPipeline : Text := str "ocr:1"

/-- `_ocr_parser_version`; no parser for an image. -/
def ocrParserVersion : Option Parser → Text
  | none => ocrPipeline
  | some parser => parser.className ++ ':' :: (parser.version ++ '+' :: ocrPipeline)

/-- `_resolved_identity`. -/
def resolvedIdentity (value : Option Text) (fallback : Text) : Text :=
  let normalized := strip (value.getD [])
  if normalized = [] ∨ normalized = str "unknown" then fallback else normalized

/-- `_parsed_cache_valid`. -/
def parsedCacheValid (row : ParsedRow) (contentHash parser parserVersion : Text)
    (ocrProvider : Option OcrProvider) : Bool :=
  if row.parseStatus ≠ .parsed ∨ row.parsedText = none ∨ row.fileHash ≠ some contentHash ∨
      row.parser ≠ some parser ∨ row.parserVersion ≠ some parserVersion then false
  else if parser ≠ str "ocr" then true
  else if row.ocrProvider.bind nonEmpty = none ∨ row.ocrVersion.bind nonEmpty = none then false
  else
    match ocrProvider with
    | none => true
    | some provider =>
        row.ocrProvider = some provider.name ∧ row.ocrVersion = some provider.version

/-- `expected_parser`. -/
def expectedParser : Option Parser → Text
  | none => str "ocr"
  | some parser => parser.className

/-- `expected_parser_version`. -/
def expectedParserVersion : Option Parser → Text
  | none => ocrParserVersion none
  | some parser => parser.version

/-- The stored text need not be made again. -/
def isParseCached (row : ParsedRow) (contentHash : Text) (parser : Option Parser)
    (ocrProvider : Option OcrProvider) : Bool :=
  (parser.isSome && row.parser = some (str "ocr") &&
      parsedCacheValid row contentHash (str "ocr") (ocrParserVersion parser) ocrProvider) ||
    parsedCacheValid row contentHash (expectedParser parser) (expectedParserVersion parser)
      ocrProvider

/-! ## Texts -/

/-- The cleaned pages, joined by form feeds, or the cleaned text if there are no pages. -/
def joinedText (pages : List Text) (text : Text) : Text :=
  if pages = [] then cleanText D.nfkc text
  else List.intercalate [formFeed] (pages.map (cleanText D.nfkc))

/-- `len(pages) or count`. -/
def countedPages (pages : List Text) (count : Option ℕ) : Option ℕ :=
  if pages = [] then count else some pages.length

/-! ## Upstream text -/

/-- The text that came with the attachment. -/
def upstreamParser : Text := str "upstream_extracted_text"

/-- The row has a text that is not blank, and no file. -/
def hasUpstreamText (row : ParsedRow) : Bool :=
  row.parsedText.any (fun text => strip text ≠ []) && row.localPath.bind nonEmpty = none

/-- The cleaned text that came with the attachment. -/
def storeUpstream (row : ParsedRow) (text : Text) (now : ℕ) : ParsedRow :=
  { row with
    parseAttemptedAt := some now
    parsedText := some (cleanText D.nfkc text)
    extractedTextLength := (cleanText D.nfkc text).length
    parser := some upstreamParser
    parserVersion := some (str "1")
    extractionMethod := some (orDefault row.extractionMethod "upstream_extracted_text") }

/-- The text was cleaned before. -/
def isUpstreamCached (row : ParsedRow) : Bool :=
  row.parseStatus = .parsed && row.parser = some upstreamParser &&
    row.parserVersion = some (str "1") && !row.requiresOcr

/-- The first part of `parse_attachment`. -/
def parseUpstream (row : ParsedRow) (text : Text) (call : ParseCall) : Parse :=
  if !call.force && isUpstreamCached row then
    { row, outcome := .ok { text }, cached := true }
  else
    let row := storeUpstream D row text call.now
    if row.requiresOcr then
      { row :=
          { row with
            ocrStatus := some .failed
            ocrProvider := none
            ocrVersion := none
            ocrPageCount := some 0
            ocrTextLength := some 0
            ocrLatencyMs := some 0 }.markFailure .failed "OCR_PROVIDER_UNAVAILABLE" false
              "attachment requires OCR but no OCR provider is configured" call.now
        outcome := .error "ValueError" }
    else
      { row := row.resetOcrAudit.accept none call.now
        outcome := .ok { text := cleanText D.nfkc text } }

/-! ## Recognition -/

/-- What is set before the provider is asked. -/
def beginOcr (row : ParsedRow) (parserVersion : Text) : ParsedRow :=
  { row with
    requiresOcr := true
    parser := some (str "ocr")
    parserVersion := some parserVersion
    extractionMethod := some (if row.fileType = "pdf" then "pdf_ocr" else "image_ocr")
    ocrPageCount := some 0
    ocrTextLength := some 0
    ocrLatencyMs := some 0 }

/-- What is set from a result. -/
def storeRecognized (row : ParsedRow) (provider : OcrProvider) (result : OcrResult)
    (latencyMs : ℕ) : ParsedRow :=
  let text := joinedText D result.pages result.text
  { row with
    ocrLatencyMs := some latencyMs
    ocrProvider := some (resolvedIdentity result.provider provider.name)
    ocrVersion := some (resolvedIdentity result.version provider.version)
    ocrStatus := some result.status
    ocrPageCount := some result.pages.length
    ocrTextLength := some text.length
    parsedText := nonEmpty text
    extractedTextLength := text.length
    pageCount := countedPages result.pages row.pageCount }

/-- `_ocr_attachment`. -/
def ocrAttachment (row : ParsedRow) (content : List UInt8) (filename parserVersion : Text)
    (call : ParseCall) : Parse :=
  let row := beginOcr row parserVersion
  match call.service.ocrProvider with
  | none =>
      { row :=
          { row with
            ocrStatus := some .failed
            ocrProvider := none
            ocrVersion := none }.markFailure .failed "OCR_PROVIDER_UNAVAILABLE" false
              "attachment requires OCR but no OCR provider is configured" call.now
        outcome := .error "ValueError" }
  | some provider =>
      match provider.recognize content row.fileType filename with
      | .error error =>
          { row :=
              { row with
                ocrProvider := some provider.name
                ocrVersion := some provider.version
                ocrLatencyMs := some call.latencyMs
                ocrStatus := some .failed }.markFailure .failed "OCR_FAILED" true
                  "OCR provider request failed" call.now
            outcome := .error error
            recognitions := 1 }
      | .ok result =>
          let row := storeRecognized D row provider result call.latencyMs
          let text := joinedText D result.pages result.text
          if result.status = .failed ∨ text = [] then
            { row :=
                row.markFailure .failed (orDefault result.errorCode "OCR_FAILED") false
                  (orDefault result.errorMessage "OCR provider produced no text") call.now
              outcome := .error "ValueError"
              recognitions := 1 }
          else
            { row := { row with requiresOcr := false }.accept result.errorMessage call.now
              outcome := .ok { text, pages := result.pages }
              recognitions := 1 }

/-! ## Local files -/

/-- An exception that has not been recorded yet. -/
def parseError (row : ParsedRow) (error : String) (now : ℕ) : Parse where
  row := row.markFailure .failed "PARSE_ERROR" false "attachment parser failed" now
  outcome := .error error

/-- What is set from the artifact of a parser. -/
def storeParsed (row : ParsedRow) (parser : Parser) (parsed : ParsedArtifact) : ParsedRow :=
  let text := joinedText D parsed.pages parsed.text
  { row with
    parser := some parser.className
    parserVersion := some parser.version
    extractionMethod := some (if row.fileType = "" then "parser" else row.fileType)
    parsedText := some text
    extractedTextLength := text.length
    pageCount := countedPages parsed.pages parsed.pageCount
    requiresOcr := parsed.requiresOcr }

/-- What is set before a parser or the provider is asked. -/
def beginParse (row : ParsedRow) (content : List UInt8) (now : ℕ) : ParsedRow :=
  { row with
    parseAttemptedAt := some now
    processedAt := none
    fileHash := some (D.sha256 content)
    fileSize := some content.length
    errorCode := none
    retryable := false
    errorMessage := none }

/-- Parse the bytes. -/
def parseFresh (row : ParsedRow) (content : List UInt8) (filename : Text) (parser : Option Parser)
    (call : ParseCall) : Parse :=
  let row := beginParse D row content call.now
  match parser with
  | none => ocrAttachment D row content filename (ocrParserVersion none) call
  | some parser =>
      match parser.parse content filename with
      | .error error => parseError row error call.now
      | .ok parsed =>
          let row := storeParsed D row parser parsed
          if parsed.requiresOcr then
            ocrAttachment D row content filename (ocrParserVersion (some parser)) call
          else if joinedText D parsed.pages parsed.text = [] then
            { row :=
                row.markFailure .failed "NO_TEXT_EXTRACTED" false
                  "attachment parser produced no text" call.now
              outcome := .error "ValueError" }
          else
            { row := row.resetOcrAudit.accept none call.now, outcome := .ok parsed }

/-- The types of old office files. -/
def legacyTypes : List String := ["doc", "xls", "legacy_office"]

/-- The bytes of an old office file. -/
def storeLegacy (row : ParsedRow) (content : List UInt8) (detected : DetectedAttachmentType)
    (now : ℕ) : ParsedRow :=
  ({ row with
    parseAttemptedAt := some now
    fileHash := some (D.sha256 content)
    fileSize := some content.length
    fileType := detected.fileType
    fileExtension := nonEmpty detected.extension
    typeDetectionSource := some detected.source
    parser := none
    parserVersion := none
    parsedText := none
    extractedTextLength := 0 } : ParsedRow).resetOcrAudit.markFailure .unsupported
      "UNSUPPORTED_LEGACY_FORMAT" false "legacy Office bytes do not have a reliable parser" now

/-- The type of the bytes, from the names that the row has. -/
def detectedLocally (row : ParsedRow) (content : List UInt8) : Option DetectedAttachmentType :=
  detectAttachmentType D row.mimeType none (some content) (some row.attachmentName)
    (firstName [row.downloadFinalUrl, some row.sourceUrl])

/-- The part of `parse_attachment` that has the bytes. -/
def parseContent (row : ParsedRow) (content : List UInt8) (filename : Text)
    (parser : Option Parser) (call : ParseCall) : Parse :=
  let attempted := { row with parseAttemptedAt := some call.now }
  match call.readFails with
  | some error => parseError attempted error call.now
  | none =>
      if call.service.maxFileBytes < content.length then
        { row :=
            attempted.markFailure .failed "ATTACHMENT_TOO_LARGE" false
              "attachment exceeds the parser size limit" call.now
          outcome := .error "ValueError" }
      else
        match detectedLocally D row content with
        | none => parseError attempted "ValueError" call.now
        | some detected =>
            if detected.fileType ∈ legacyTypes then
              { row := storeLegacy D row content detected call.now, outcome := .error "ValueError" }
            else if !call.force && isParseCached row (D.sha256 content) parser
                call.service.ocrProvider then
              { row, outcome := .ok { text := row.parsedText.getD [] }, cached := true }
            else parseFresh D row content filename parser call

/-- The parser of a file, no parser for an image; `none` is a `ValueError`. -/
def parserOf (service : ParsingService) (filename : Text) (mimeType : Option Text) :
    Option (Option Parser) :=
  if requiresOcrFile D filename mimeType then some none
  else (service.registry (D.lower (pathSuffix filename))).map some

/-- The part of `parse_attachment` for a row with a file. -/
def parseLocal (row : ParsedRow) (files : Files) (filename : Text) (call : ParseCall) : Parse :=
  let attempted := { row with parseAttemptedAt := some call.now }
  if pathSuffix filename = [] then
    { row :=
        attempted.markFailure .failed "FILE_TYPE_UNKNOWN" true
          "attachment file type cannot be determined" call.now
      outcome := .error "ValueError" }
  else
    match parserOf D call.service filename row.mimeType with
    | none =>
        let errorCode :=
          if shortSuffix D filename ∈ strs [".doc", ".xls"] then "UNSUPPORTED_LEGACY_FORMAT"
          else "UNSUPPORTED_FILE_TYPE"
        { row :=
            attempted.markFailure .unsupported errorCode false
              "no reliable parser is registered for this file type" call.now
          outcome := .error "ValueError" }
    | some parser =>
        match row.localPath.bind nonEmpty with
        | none =>
            { row :=
                attempted.markFailure .failed "ATTACHMENT_NOT_DOWNLOADED" true
                  "attachment bytes are not available locally" call.now
              outcome := .error "ValueError" }
        | some path =>
            match files path with
            | none =>
                { row :=
                    attempted.markFailure .failed "ATTACHMENT_FILE_MISSING" true
                      "downloaded attachment file is missing" call.now
                  outcome := .error "FileNotFoundError" }
            | some content => parseContent D row content filename parser call

/-- The row with the type that its names tell. -/
def typed (row : ParsedRow) (filename : Text) : ParsedRow :=
  { row with fileType := String.ofList (fileTypeOf D filename row.mimeType) }

/-- `ParsingService.parse_attachment`. -/
def parseAttachment (row : ParsedRow) (files : Files) (call : ParseCall) : Parse :=
  match filenameOf D row with
  | none => { row, outcome := .error "ValueError" }
  | some filename =>
      let row := typed D row filename
      if hasUpstreamText row then parseUpstream D row (row.parsedText.getD []) call
      else parseLocal D row files filename call

/-! ## What a call does -/

/-- The bytes that a call has to parse, with their name and the parser for it, if they are no
image. -/
structure ParseInput where
  content : List UInt8
  filename : Text
  parser : Option Parser

/-- The call comes to these bytes. -/
structure Reads (row : ParsedRow) (files : Files) (call : ParseCall) (input : ParseInput) :
    Prop where
  filename : filenameOf D row = some input.filename
  no_upstream : hasUpstreamText row = false
  suffix : pathSuffix input.filename ≠ []
  parser : parserOf D call.service input.filename row.mimeType = some input.parser
  content : (row.localPath.bind nonEmpty).bind files = some input.content
  readable : call.readFails = none
  small : input.content.length ≤ call.service.maxFileBytes
  modern : ∃ detected, detectedLocally D row input.content = some detected ∧
    detected.fileType ∉ legacyTypes

/-- The call fails before it comes to the bytes. -/
structure Refused (row : ParsedRow) (p : Parse) : Prop where
  status : p.row = row ∨ p.row.parseStatus ≠ .parsed
  outcome : ∃ error, p.outcome = .error error
  cached : p.cached = false
  recognitions : p.recognitions = 0

end

section

variable {D : DetectTools} {row : ParsedRow} {files : Files} {call : ParseCall} {input : ParseInput}

/-- A call comes to one file. -/
theorem Reads.unique {input' : ParseInput} (h : Reads D row files call input)
    (h' : Reads D row files call input') : input' = input := by
  obtain ⟨content, filename, parser⟩ := input
  obtain ⟨content', filename', parser'⟩ := input'
  obtain rfl : filename' = filename := Option.some.inj (h'.filename.symm.trans h.filename)
  obtain rfl : content' = content := Option.some.inj (h'.content.symm.trans h.content)
  obtain rfl : parser' = parser := Option.some.inj (h'.parser.symm.trans h.parser)
  rfl

/-- A call that comes to bytes. -/
theorem Reads.parseAttachment_eq (h : Reads D row files call input) :
    parseAttachment D row files call =
      if !call.force && isParseCached row (D.sha256 input.content) input.parser
          call.service.ocrProvider then
        { row := typed D row input.filename, outcome := .ok { text := row.parsedText.getD [] },
          cached := true }
      else
        parseFresh D (typed D row input.filename) input.content input.filename input.parser call := by
  obtain ⟨path, hpath, hfile⟩ := Option.bind_eq_some_iff.mp h.content
  obtain ⟨detected, hdetected, hmodern⟩ := h.modern
  have hupstream : hasUpstreamText (typed D row input.filename) = false := h.no_upstream
  have hpath' : (typed D row input.filename).localPath.bind nonEmpty = some path := hpath
  have hdetected' : detectedLocally D (typed D row input.filename) input.content = some detected :=
    hdetected
  have hparser : parserOf D call.service input.filename (typed D row input.filename).mimeType =
      some input.parser := h.parser
  unfold parseAttachment
  rw [h.filename]
  dsimp only
  rw [hupstream, if_neg (by simp), parseLocal, if_neg h.suffix, hparser]
  dsimp only
  rw [hpath']
  dsimp only
  rw [hfile]
  dsimp only
  rw [parseContent, h.readable]
  dsimp only
  rw [if_neg (Nat.not_lt.mpr h.small), hdetected']
  dsimp only
  rw [if_neg hmodern]
  rfl

/-- A call that takes the text that came with the attachment. -/
theorem parseAttachment_of_upstream {filename : Text} (hfilename : filenameOf D row = some filename)
    (hupstream : hasUpstreamText row = true) :
    parseAttachment D row files call =
      parseUpstream D (typed D row filename) (row.parsedText.getD []) call := by
  unfold parseAttachment
  rw [hfilename]
  exact if_pos hupstream

/-- A call that raises and leaves a row that does not count as parsed. -/
theorem refused_of_status {row' : ParsedRow} {error : String} (status : ParseStatus)
    (hstatus : row'.parseStatus = status) (hne : status ≠ .parsed) :
    Refused row { row := row', outcome := .error error } :=
  ⟨.inr (hstatus ▸ hne), ⟨error, rfl⟩, rfl, rfl⟩

/-- A call comes to bytes, it takes the text that came with the attachment, or it fails. -/
theorem parseAttachment_cases (D : DetectTools) (row : ParsedRow) (files : Files)
    (call : ParseCall) :
    (∃ input, Reads D row files call input) ∨
      (∃ filename, filenameOf D row = some filename ∧ hasUpstreamText row = true) ∨
      Refused row (parseAttachment D row files call) := by
  unfold parseAttachment
  cases hfilename : filenameOf D row with
  | none => exact .inr (.inr ⟨.inl rfl, ⟨_, rfl⟩, rfl, rfl⟩)
  | some filename =>
      dsimp only
      by_cases hupstream : hasUpstreamText row = true
      · exact .inr (.inl ⟨filename, rfl, hupstream⟩)
      · rw [if_neg (show ¬ hasUpstreamText (typed D row filename) = true from hupstream), parseLocal]
        -- From here on every check of the source either refuses the attachment or leads on.
        by_cases hsuffix : pathSuffix filename = []
        · rw [if_pos hsuffix]
          exact .inr (.inr (refused_of_status .failed rfl (by decide)))
        · rw [if_neg hsuffix]
          cases hparser : parserOf D call.service filename (typed D row filename).mimeType with
          | none => exact .inr (.inr (refused_of_status .unsupported rfl (by decide)))
          | some parser =>
              dsimp only
              cases hpath : (typed D row filename).localPath.bind nonEmpty with
              | none => exact .inr (.inr (refused_of_status .failed rfl (by decide)))
              | some path =>
                  dsimp only
                  cases hfile : files path with
                  | none => exact .inr (.inr (refused_of_status .failed rfl (by decide)))
                  | some content =>
                      dsimp only [parseContent]
                      cases hreadable : call.readFails with
                      | some error => exact .inr (.inr (refused_of_status .failed rfl (by decide)))
                      | none =>
                          dsimp only
                          by_cases hlarge : call.service.maxFileBytes < content.length
                          · rw [if_pos hlarge]
                            exact .inr (.inr (refused_of_status .failed rfl (by decide)))
                          · rw [if_neg hlarge]
                            cases hdetected : detectedLocally D (typed D row filename) content with
                            | none => exact .inr (.inr (refused_of_status .failed rfl (by decide)))
                            | some detected =>
                                dsimp only
                                by_cases hlegacy : detected.fileType ∈ legacyTypes
                                · rw [if_pos hlegacy]
                                  exact .inr (.inr (refused_of_status .unsupported rfl (by decide)))
                                -- All checks are passed.
                                · refine .inl ⟨⟨content, filename, parser⟩, ?_⟩
                                  have hcontent : (row.localPath.bind nonEmpty).bind files =
                                      some content := Option.bind_eq_some_iff.mpr ⟨path, hpath, hfile⟩
                                  exact ⟨hfilename, by simpa using hupstream, hsuffix, hparser,
                                    hcontent, hreadable, Nat.not_lt.mp hlarge,
                                    detected, hdetected, hlegacy⟩

end

end Odirag.Attachments
