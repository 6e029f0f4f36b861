import Odirag.Attachments.Parsing

/-!
# What a call extracts

Reference: `ParsingService` of `backend/app/services/parsing.py`.

The bytes of a call are read by a parser, or recognised if they are an image or the parser asks for it
(`needsOcr`). One lemma for each of the ways that parsing the bytes can end; the theorems about the
stored text, its pages and its cache use these.
-/

namespace Odirag.Attachments

/-! ## Names -/

/-- What the file name and the parser of a row are read from. -/
structure SameNames (row row' : Attachment) : Prop where
  attachmentName : row'.attachmentName = row.attachmentName
  sourceUrl : row'.sourceUrl = row.sourceUrl
  localPath : row'.localPath = row.localPath
  mimeType : row'.mimeType = row.mimeType
  fileExtension : row'.fileExtension = row.fileExtension

theorem SameNames.trans {row row' row'' : Attachment} (h : SameNames row row')
    (h' : SameNames row' row'') : SameNames row row'' :=
  ⟨h'.attachmentName.trans h.attachmentName, h'.sourceUrl.trans h.sourceUrl,
    h'.localPath.trans h.localPath, h'.mimeType.trans h.mimeType,
    h'.fileExtension.trans h.fileExtension⟩

theorem typed_sameNames (D : DetectTools) (row : ParsedRow) (filename : Text) :
    SameNames row.toAttachment (typed D row filename).toAttachment := by
  constructor <;> rfl

theorem SameNames.filenameOf_eq {D : DetectTools} {row row' : ParsedRow}
    (h : SameNames row.toAttachment row'.toAttachment) : filenameOf D row' = filenameOf D row := by
  unfold filenameOf
  rw [h.fileExtension, h.sourceUrl, h.attachmentName, h.localPath]

theorem SameNames.typed_fileType {D : DetectTools} {row row' : ParsedRow}
    (h : SameNames row.toAttachment row'.toAttachment) (filename : Text) :
    (typed D row' filename).fileType = (typed D row filename).fileType := by
  unfold typed
  rw [h.mimeType]

/-- A call on a row with the same names comes to the same bytes. -/
theorem Reads.of_sameNames {D : DetectTools} {row row' : ParsedRow} {files : Files}
    {call again : ParseCall} {input : ParseInput} (h : Reads D row files call input)
    (hnames : SameNames row.toAttachment row'.toAttachment)
    (hurl : row'.downloadFinalUrl = row.downloadFinalUrl)
    (hservice : again.service = call.service) (hreadable : again.readFails = none) :
    Reads D row' files again input where
  filename := hnames.filenameOf_eq.trans h.filename
  no_upstream := by
    obtain ⟨path, hpath, -⟩ := Option.bind_eq_some_iff.mp h.content
    unfold hasUpstreamText
    rw [hnames.localPath, hpath]
    simp
  suffix := h.suffix
  parser := by rw [hservice, hnames.mimeType, h.parser]
  content := by rw [hnames.localPath, h.content]
  readable := hreadable
  small := by rw [hservice]; exact h.small
  modern := by
    unfold detectedLocally
    rw [hnames.mimeType, hnames.attachmentName, hurl, hnames.sourceUrl]
    exact h.modern

/-! ## What the cache holds -/

/-- The row holds a text for bytes of this digest, made by this parser. -/
structure CacheValid (row : ParsedRow) (contentHash parser parserVersion : Text)
    (ocrProvider : Option OcrProvider) : Prop where
  status : row.parseStatus = .parsed
  text : row.parsedText ≠ none
  hash : row.fileHash = some contentHash
  maker : row.parser = some parser
  version : row.parserVersion = some parserVersion
  identified : parser = str "ocr" →
    row.ocrProvider.bind nonEmpty ≠ none ∧ row.ocrVersion.bind nonEmpty ≠ none
  configured : parser = str "ocr" → ∀ provider, ocrProvider = some provider →
    row.ocrProvider = some provider.name ∧ row.ocrVersion = some provider.version

theorem parsedCacheValid_iff {row : ParsedRow} {contentHash parser parserVersion : Text}
    {ocrProvider : Option OcrProvider} :
    parsedCacheValid row contentHash parser parserVersion ocrProvider = true ↔
      CacheValid row contentHash parser parserVersion ocrProvider := by
  unfold parsedCacheValid
  constructor
  · intro h
    split_ifs at h with hrow hocr hidentity
    · simp only [not_or, not_not] at hrow
      obtain ⟨hstatus, htext, hhash, hmaker, hversion⟩ := hrow
      exact ⟨hstatus, htext, hhash, hmaker, hversion, fun heq => absurd heq hocr,
        fun heq => absurd heq hocr⟩
    · simp only [not_or, not_not] at hrow
      obtain ⟨hstatus, htext, hhash, hmaker, hversion⟩ := hrow
      refine ⟨hstatus, htext, hhash, hmaker, hversion, fun _ => not_or.mp hidentity,
        fun _ provider hprovider => ?_⟩
      rw [hprovider] at h
      simpa using h
  · rintro ⟨hstatus, htext, hhash, hmaker, hversion, hidentified, hconfigured⟩
    rw [if_neg (by simp [hstatus, htext, hhash, hmaker, hversion])]
    split_ifs with hocr hidentity
    · rfl
    · obtain ⟨hname, hnumber⟩ := hidentified (not_not.mp hocr)
      exact absurd hidentity (not_or.mpr ⟨hname, hnumber⟩)
    · cases hprovider : ocrProvider with
      | none => rfl
      | some provider => simpa using hconfigured (not_not.mp hocr) provider hprovider

/-! ## What the bytes give -/

/-- The bytes are an image, or their parser finds no text in them. -/
def ParseInput.needsOcr (input : ParseInput) : Bool :=
  match input.parser with
  | none => true
  | some parser =>
      match parser.parse input.content input.filename with
      | .error _ => false
      | .ok parsed => parsed.requiresOcr

/-- The bytes are parsed, and nothing is taken from the cache. -/
structure Parses (D : DetectTools) (row : ParsedRow) (files : Files) (call : ParseCall)
    (input : ParseInput) : Prop extends Reads D row files call input where
  fresh : call.force = true ∨
    isParseCached row (D.sha256 input.content) input.parser call.service.ocrProvider = false

/-- A parser reads the bytes as this artifact. -/
structure ParsedAs (input : ParseInput) (parser : Parser) (parsed : ParsedArtifact) : Prop where
  registered : input.parser = some parser
  parse : parser.parse input.content input.filename = .ok parsed
  native : parsed.requiresOcr = false

/-- The provider recognises the bytes as this result. -/
structure RecognizedAs (D : DetectTools) (row : ParsedRow) (call : ParseCall) (input : ParseInput)
    (provider : OcrProvider) (result : OcrResult) : Prop where
  needed : input.needsOcr = true
  configured : call.service.ocrProvider = some provider
  recognize : provider.recognize input.content (typed D row input.filename).fileType
    input.filename = .ok result

section

variable {D : DetectTools} {row : ParsedRow} {files : Files} {call : ParseCall} {input : ParseInput}
  {parser : Parser} {parsed : ParsedArtifact} {provider : OcrProvider} {result : OcrResult}

theorem ParsedAs.needsOcr_eq_false (h : ParsedAs input parser parsed) : input.needsOcr = false := by
  unfold ParseInput.needsOcr
  rw [h.registered]
  dsimp only
  rw [h.parse]
  exact h.native

theorem ParsedAs.not_recognized (h : ParsedAs input parser parsed) :
    ¬ RecognizedAs D row call input provider result := fun hrecognized => by
  have hneeded := hrecognized.needed
  rw [h.needsOcr_eq_false] at hneeded
  cases hneeded

theorem ParsedAs.unique {parser' : Parser} {parsed' : ParsedArtifact}
    (h : ParsedAs input parser parsed) (h' : ParsedAs input parser' parsed') : parsed' = parsed := by
  obtain rfl : parser' = parser := Option.some.inj (h'.registered.symm.trans h.registered)
  exact Except.ok.inj (h'.parse.symm.trans h.parse)

theorem RecognizedAs.unique {provider' : OcrProvider} {result' : OcrResult}
    (h : RecognizedAs D row call input provider result)
    (h' : RecognizedAs D row call input provider' result') : result' = result := by
  obtain rfl : provider' = provider := Option.some.inj (h'.configured.symm.trans h.configured)
  exact Except.ok.inj (h'.recognize.symm.trans h.recognize)

theorem Parses.parseAttachment_eq (h : Parses D row files call input) :
    parseAttachment D row files call =
      parseFresh D (typed D row input.filename) input.content input.filename input.parser call := by
  rw [h.toReads.parseAttachment_eq, if_neg]
  rcases h.fresh with hforce | hmiss
  · simp [hforce]
  · simp [hmiss]

/-- The row before the provider is asked. -/
def beforeOcr (D : DetectTools) (row : ParsedRow) (input : ParseInput) (now : ℕ) : ParsedRow :=
  let row := beginParse D row input.content now
  match input.parser with
  | none => row
  | some parser =>
      match parser.parse input.content input.filename with
      | .error _ => row
      | .ok parsed => storeParsed D row parser parsed

/-- The provider is asked with the type that the names tell. -/
theorem beforeOcr_fileType (D : DetectTools) (row : ParsedRow) (input : ParseInput) (now : ℕ) :
    (beforeOcr D row input now).fileType = row.fileType := by
  unfold beforeOcr
  cases input.parser with
  | none => rfl
  | some parser =>
      dsimp only
      cases parser.parse input.content input.filename <;> rfl

theorem beforeOcr_fileHash (D : DetectTools) (row : ParsedRow) (input : ParseInput) (now : ℕ) :
    (beforeOcr D row input now).fileHash = some (D.sha256 input.content) := by
  unfold beforeOcr
  cases input.parser with
  | none => rfl
  | some parser =>
      dsimp only
      cases parser.parse input.content input.filename <;> rfl

/-- Nothing that a name is read from changes before the provider is asked. -/
theorem beforeOcr_sameNames (D : DetectTools) (row : ParsedRow) (input : ParseInput) (now : ℕ) :
    SameNames row.toAttachment (beforeOcr D row input now).toAttachment ∧
      (beforeOcr D row input now).downloadFinalUrl = row.downloadFinalUrl := by
  unfold beforeOcr
  cases input.parser with
  | none => exact ⟨by constructor <;> rfl, rfl⟩
  | some parser =>
      dsimp only
      cases parser.parse input.content input.filename <;> exact ⟨by constructor <;> rfl, rfl⟩

theorem beginOcr_fileType (row : ParsedRow) (parserVersion : Text) :
    (beginOcr row parserVersion).fileType = row.fileType := rfl

/-- The row after an artifact of a parser. -/
def afterParsed (D : DetectTools) (row : ParsedRow) (input : ParseInput) (parser : Parser)
    (parsed : ParsedArtifact) (now : ℕ) : ParsedRow :=
  let row := storeParsed D (beginParse D row input.content now) parser parsed
  if joinedText D parsed.pages parsed.text = [] then
    row.markFailure .failed "NO_TEXT_EXTRACTED" false "attachment parser produced no text" now
  else row.resetOcrAudit.accept none now

/-- The row after a result of the provider. -/
def afterRecognized (D : DetectTools) (row : ParsedRow) (input : ParseInput)
    (provider : OcrProvider) (result : OcrResult) (call : ParseCall) : ParsedRow :=
  let row := storeRecognized D
    (beginOcr (beforeOcr D row input call.now) (ocrParserVersion input.parser)) provider result
    call.latencyMs
  if result.status = .failed ∨ joinedText D result.pages result.text = [] then
    row.markFailure .failed (orDefault result.errorCode "OCR_FAILED") false
      (orDefault result.errorMessage "OCR provider produced no text") call.now
  else { row with requiresOcr := false }.accept result.errorMessage call.now

theorem parseFresh_of_needsOcr (h : input.needsOcr = true) :
    parseFresh D row input.content input.filename input.parser call =
      ocrAttachment D (beforeOcr D row input call.now) input.content input.filename
        (ocrParserVersion input.parser) call := by
  unfold ParseInput.needsOcr at h
  unfold parseFresh beforeOcr
  cases hparser : input.parser with
  | none => rfl
  | some parser =>
      rw [hparser] at h
      dsimp only at h ⊢
      cases hparse : parser.parse input.content input.filename with
      | error error =>
          rw [hparse] at h
          cases h
      | ok parsed =>
          rw [hparse] at h
          dsimp only at h ⊢
          rw [if_pos h]

theorem ocrAttachment_cached (D : DetectTools) (row : ParsedRow) (content : List UInt8)
    (filename parserVersion : Text) (call : ParseCall) :
    (ocrAttachment D row content filename parserVersion call).cached = false := by
  unfold ocrAttachment
  dsimp only
  split
  · rfl
  · split
    · rfl
    · split <;> rfl

/-- Nothing that is parsed is taken from the cache. -/
theorem Parses.cached_eq_false (h : Parses D row files call input) :
    (parseAttachment D row files call).cached = false := by
  rw [h.parseAttachment_eq]
  unfold parseFresh
  dsimp only
  split
  · exact ocrAttachment_cached ..
  · split
    · rfl
    · split
      · exact ocrAttachment_cached ..
      · split <;> rfl

/-- A call whose bytes a parser reads. -/
theorem Parses.of_parsedAs (h : Parses D row files call input)
    (hparsed : ParsedAs input parser parsed) :
    (parseAttachment D row files call).row =
        afterParsed D (typed D row input.filename) input parser parsed call.now ∧
      (parseAttachment D row files call).recognitions = 0 ∧
      (joinedText D parsed.pages parsed.text ≠ [] →
        (parseAttachment D row files call).outcome = .ok parsed) := by
  rw [h.parseAttachment_eq]
  unfold parseFresh
  rw [hparsed.registered]
  dsimp only
  rw [hparsed.parse]
  dsimp only
  rw [if_neg (by simp [hparsed.native])]
  unfold afterParsed
  split_ifs with hempty
  · exact ⟨rfl, rfl, fun hne => absurd hempty hne⟩
  · exact ⟨rfl, rfl, fun _ => rfl⟩

/-- A call whose bytes are recognised. -/
theorem Parses.of_recognizedAs (h : Parses D row files call input)
    (hrecognized : RecognizedAs D row call input provider result) :
    (parseAttachment D row files call).row =
        afterRecognized D (typed D row input.filename) input provider result call ∧
      (parseAttachment D row files call).recognitions = 1 ∧
      ((∃ artifact, (parseAttachment D row files call).outcome = .ok artifact) ↔
        result.status ≠ .failed ∧ joinedText D result.pages result.text ≠ []) ∧
      (∀ artifact, (parseAttachment D row files call).outcome = .ok artifact →
        artifact.text = joinedText D result.pages result.text) := by
  rw [h.parseAttachment_eq, parseFresh_of_needsOcr hrecognized.needed, ocrAttachment]
  rw [hrecognized.configured]
  dsimp only
  rw [beginOcr_fileType, beforeOcr_fileType, hrecognized.recognize]
  dsimp only
  unfold afterRecognized
  split_ifs with hempty
  · refine ⟨rfl, rfl, ⟨?_, ?_⟩, ?_⟩
    · rintro ⟨_, hok⟩
      cases hok
    · rintro ⟨hstatus, htext⟩
      exact absurd hempty (not_or.mpr ⟨hstatus, htext⟩)
    · intro _ hok
      cases hok
  · refine ⟨rfl, rfl, ⟨fun _ => not_or.mp hempty, fun _ => ⟨_, rfl⟩⟩, ?_⟩
    intro _ hok
    cases hok
    rfl

/-- Bytes that are parsed are read by a parser or recognised, or the call fails. -/
theorem Parses.cases (h : Parses D row files call input) :
    (∃ parser parsed, ParsedAs input parser parsed) ∨
      (∃ provider result, RecognizedAs D row call input provider result) ∨
      ((parseAttachment D row files call).row.parseStatus ≠ .parsed ∧
        ∃ error, (parseAttachment D row files call).outcome = .error error) := by
  -- The text needs recognition, or the parser has read it.
  cases hneeds : input.needsOcr with
  | true =>
      cases hprovider : call.service.ocrProvider with
      | none =>
          rw [h.parseAttachment_eq, parseFresh_of_needsOcr hneeds, ocrAttachment, hprovider]
          exact .inr (.inr ⟨nofun, _, rfl⟩)
      | some provider =>
          cases hresult : provider.recognize input.content (typed D row input.filename).fileType
              input.filename with
          | error error =>
              rw [h.parseAttachment_eq, parseFresh_of_needsOcr hneeds, ocrAttachment, hprovider]
              dsimp only
              rw [beginOcr_fileType, beforeOcr_fileType, hresult]
              exact .inr (.inr ⟨nofun, _, rfl⟩)
          | ok result => exact .inr (.inl ⟨provider, result, hneeds, hprovider, hresult⟩)
  | false =>
      unfold ParseInput.needsOcr at hneeds
      cases hparser : input.parser with
      | none => simp [hparser] at hneeds
      | some parser =>
          rw [hparser] at hneeds
          dsimp only at hneeds
          cases hparse : parser.parse input.content input.filename with
          | error error =>
              rw [h.parseAttachment_eq]
              unfold parseFresh
              rw [hparser]
              dsimp only
              rw [hparse]
              exact .inr (.inr ⟨nofun, _, rfl⟩)
          | ok parsed =>
              rw [hparse] at hneeds
              exact .inl ⟨parser, parsed, hparser, hparse, hneeds⟩

end

end Odirag.Attachments
