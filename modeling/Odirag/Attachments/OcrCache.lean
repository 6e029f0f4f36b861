import Odirag.Attachments.Extraction

/-!
# Recognising the same bytes again

Reference: `_ocr_attachment` of `backend/app/services/parsing.py`.

A result of the provider is stored under the identity that it carries, and it is looked up under the
name and the version of the provider that is configured. So the next call finds it exactly if the two
are the same (`repeated_ocr_iff`). This is so for images and for files whose parser asks for
recognition, which are looked up at different places.
-/

namespace Odirag.Attachments

/-- The identity of a result is the one that its provider is looked up under. -/
structure SameIdentity (provider : OcrProvider) (result : OcrResult) : Prop where
  name : resolvedIdentity result.provider provider.name = provider.name
  version : resolvedIdentity result.version provider.version = provider.version
  name_ne_nil : provider.name ≠ []
  version_ne_nil : provider.version ≠ []

section

variable {D : DetectTools} {row : ParsedRow} {files : Files} {call : ParseCall} {input : ParseInput}
  {provider : OcrProvider} {result : OcrResult}

/-- The result of the provider was accepted. -/
def acceptedRow (D : DetectTools) (row : ParsedRow) (input : ParseInput) (provider : OcrProvider)
    (result : OcrResult) (call : ParseCall) : ParsedRow :=
  { storeRecognized D (beginOcr (beforeOcr D row input call.now) (ocrParserVersion input.parser))
      provider result call.latencyMs with requiresOcr := false }.accept result.errorMessage call.now

theorem afterRecognized_of_accepted (hstatus : result.status ≠ .failed)
    (htext : joinedText D result.pages result.text ≠ []) :
    afterRecognized D row input provider result call =
      acceptedRow D row input provider result call :=
  if_neg (not_or.mpr ⟨hstatus, htext⟩)

/-- The stored version of a parser is not its own. -/
theorem ocrParserVersion_ne (parser : Parser) :
    ocrParserVersion (some parser) ≠ parser.version := by
  intro h
  have hlength := congrArg List.length h
  simp only [ocrParserVersion, List.length_append, List.length_cons] at hlength
  omega

/-- The text of an accepted result is found under the version of its parser exactly if the identities
are the same. -/
theorem cacheValid_acceptedRow (htext : joinedText D result.pages result.text ≠ []) :
    CacheValid (acceptedRow D row input provider result call) (D.sha256 input.content) (str "ocr")
      (ocrParserVersion input.parser) (some provider) ↔ SameIdentity provider result := by
  have hnonEmpty : ∀ {t : Text}, (some t).bind nonEmpty ≠ none ↔ t ≠ [] := by
    intro t
    simp [nonEmpty]
  constructor
  · intro h
    obtain ⟨hname, hversion⟩ := h.configured rfl provider rfl
    obtain ⟨hname', hversion'⟩ := h.identified rfl
    rw [hname, hnonEmpty] at hname'
    rw [hversion, hnonEmpty] at hversion'
    exact ⟨Option.some.inj hname, Option.some.inj hversion, hname', hversion'⟩
  · rintro ⟨hname, hversion, hname', hversion'⟩
    have hstored : (acceptedRow D row input provider result call).ocrProvider =
        some provider.name := congrArg some hname
    have hnumber : (acceptedRow D row input provider result call).ocrVersion =
        some provider.version := congrArg some hversion
    have hsome : (acceptedRow D row input provider result call).parsedText =
        some (joinedText D result.pages result.text) := if_neg htext
    refine ⟨rfl, by simp [hsome], beforeOcr_fileHash D row input call.now, rfl, rfl, fun _ => ?_,
      fun _ provider' heq => ?_⟩
    · rw [hstored, hnumber]
      exact ⟨hnonEmpty.mpr hname', hnonEmpty.mpr hversion'⟩
    · obtain rfl := Option.some.inj heq
      exact ⟨hstored, hnumber⟩

/-- A recognised row is found in the cache exactly if the identities are the same. -/
theorem isParseCached_acceptedRow (htext : joinedText D result.pages result.text ≠ []) :
    isParseCached (acceptedRow D row input provider result call) (D.sha256 input.content)
      input.parser (some provider) = true ↔ SameIdentity provider result := by
  have hvalid := @cacheValid_acceptedRow D row call input provider result htext
  rw [← hvalid, ← parsedCacheValid_iff]
  unfold isParseCached
  cases hparser : input.parser with
  | none => simp [expectedParser, expectedParserVersion]
  | some parser =>
      -- The version of a parser alone is never the one that is stored.
      have hother : parsedCacheValid (acceptedRow D row input provider result call)
          (D.sha256 input.content) (expectedParser (some parser))
          (expectedParserVersion (some parser)) (some provider) = false := by
        rw [Bool.eq_false_iff, Ne, parsedCacheValid_iff]
        intro h
        have hversion : some (ocrParserVersion input.parser) = some parser.version := h.version
        rw [hparser] at hversion
        exact ocrParserVersion_ne parser (Option.some.inj hversion)
      have hmaker : (acceptedRow D row input provider result call).parser = some (str "ocr") := rfl
      simp [hother, hmaker]

theorem acceptedRow_sameNames (D : DetectTools) (row : ParsedRow) (input : ParseInput)
    (provider : OcrProvider) (result : OcrResult) (call : ParseCall) :
    SameNames row.toAttachment (acceptedRow D row input provider result call).toAttachment ∧
      (acceptedRow D row input provider result call).downloadFinalUrl = row.downloadFinalUrl := by
  obtain ⟨hnames, hurl⟩ := beforeOcr_sameNames D row input call.now
  exact ⟨⟨hnames.attachmentName, hnames.sourceUrl, hnames.localPath, hnames.mimeType,
    hnames.fileExtension⟩, hurl⟩

/-- **Recognising again.** After bytes were recognised, the next call gives the same text without
asking the provider exactly if the result carries the identity of its provider. -/
theorem repeated_ocr_iff (h : Parses D row files call input)
    (hresult : RecognizedAs D row call input provider result) {artifact : ParsedArtifact}
    (hok : (parseAttachment D row files call).outcome = .ok artifact) {again : ParseCall}
    (hservice : again.service = call.service) (hforce : again.force = false)
    (hreadable : again.readFails = none) :
    (∃ artifact', (parseAttachment D (parseAttachment D row files call).row files again).outcome =
          .ok artifact' ∧ artifact'.text = artifact.text) ∧
        (parseAttachment D (parseAttachment D row files call).row files again).recognitions = 0 ↔
      SameIdentity provider result := by
  obtain ⟨hrow, -, haccepted, htext⟩ := h.of_recognizedAs hresult
  obtain ⟨hstatus, hne⟩ := haccepted.mp ⟨artifact, hok⟩
  rw [hrow, afterRecognized_of_accepted hstatus hne, htext artifact hok]
  obtain ⟨hnames, hurl⟩ :=
    acceptedRow_sameNames D (typed D row input.filename) input provider result call
  have hnames' := (typed_sameNames D row input.filename).trans hnames
  have hreads := h.toReads.of_sameNames hnames' hurl hservice hreadable
  have hconfigured : again.service.ocrProvider = some provider :=
    hservice ▸ hresult.configured
  have hcached := @isParseCached_acceptedRow D (typed D row input.filename) call input provider
    result hne
  by_cases hsame : SameIdentity provider result
  · have hhit : (!again.force && isParseCached
        (acceptedRow D (typed D row input.filename) input provider result call)
        (D.sha256 input.content) input.parser again.service.ocrProvider) = true := by
      rw [hforce, hconfigured, hcached.mpr hsame]
      rfl
    have hstored : (acceptedRow D (typed D row input.filename) input provider result
        call).parsedText = some (joinedText D result.pages result.text) := if_neg hne
    rw [hreads.parseAttachment_eq, if_pos hhit, hstored]
    exact iff_of_true ⟨⟨_, rfl, rfl⟩, rfl⟩ hsame
  · -- The bytes are parsed again, and the provider is asked again.
    have hmiss : isParseCached (acceptedRow D (typed D row input.filename) input provider result call)
        (D.sha256 input.content) input.parser again.service.ocrProvider = false := by
      rw [hconfigured, Bool.eq_false_iff]
      exact fun hhit => hsame (hcached.mp hhit)
    have hrecognized : RecognizedAs D (acceptedRow D (typed D row input.filename) input provider
        result call) again input provider result :=
      ⟨hresult.needed, hconfigured, by rw [hnames'.typed_fileType]; exact hresult.recognize⟩
    have hagain := Parses.of_recognizedAs ⟨hreads, .inr hmiss⟩ hrecognized
    refine iff_of_false (fun hzero => ?_) hsame
    rw [hagain.2.1] at hzero
    exact absurd hzero.2 Nat.one_ne_zero

end

/-! ## A provider that stands for another one -/

/-- A downloaded file with this suffix and type. -/
def scanned (suffix mimeType : Text) : ParsedRow :=
  { sampleStored.row with
    localPath := some (str "/data/a" ++ suffix)
    mimeType := some mimeType
    fileExtension := some suffix }

def scannedFiles : Files := fun _ => some (bytes (str "scan"))

theorem colon_not_mem_pdfParser : ':' ∉ str "PdfParser" := by decide

/-- A service whose provider has this name; its results are those of an engine. The parser of a PDF
file finds no text. -/
def engineService (name : Text) : ParsingService where
  registry extension :=
    if extension = str ".pdf" then
      some
        { className := str "PdfParser"
          version := str "1"
          parse := fun _ _ => .ok { text := [], pages := [[]], requiresOcr := true }
          plain := colon_not_mem_pdfParser }
    else none
  ocrProvider :=
    some
      { name
        version := str "2"
        recognize := fun _ _ _ => .ok
          { text := str "扫描"
            provider := some (str "engine")
            version := some (str "2") } }
  maxFileBytes := 1024

def engineCall (name : Text) : ParseCall where
  service := engineService name
  force := false
  now := 1

/-- Two calls on a file: what they give, and how often the provider is asked. -/
def twice (row : ParsedRow) (call : ParseCall) : Parse × Parse :=
  let first := parseAttachment sampleTools row scannedFiles call
  (first, parseAttachment sampleTools first.row scannedFiles call)

/-- A provider that names the engine behind it is asked again, for an image and for a PDF file. -/
theorem gateway_asked_again :
    ([scanned (str ".png") (str "image/png"), scanned (str ".pdf") (str "application/pdf")].map
      fun row =>
        let (first, second) := twice row (engineCall (str "gateway"))
        (first.outcome, first.recognitions, second.recognitions)) =
      [(.ok { text := str "扫描" }, 1, 1), (.ok { text := str "扫描" }, 1, 1)] := by
  decide +kernel

/-- The engine itself is asked once. -/
theorem repeated_ocr_iff_engine :
    (twice (scanned (str ".png") (str "image/png")) (engineCall (str "engine"))).2.recognitions =
      0 := by
  have hparses : Parses sampleTools (scanned (str ".png") (str "image/png")) scannedFiles
      (engineCall (str "engine")) ⟨bytes (str "scan"), str "attachment.png", none⟩ := by
    refine ⟨⟨by decide +kernel, by decide +kernel, by decide +kernel, if_pos (by decide +kernel),
      by decide +kernel, rfl, by decide +kernel, ?_⟩, .inr (by decide +kernel)⟩
    exact ⟨_, rfl, by decide +kernel⟩
  have hresult : RecognizedAs sampleTools (scanned (str ".png") (str "image/png"))
      (engineCall (str "engine")) ⟨bytes (str "scan"), str "attachment.png", none⟩ _ _ :=
    ⟨rfl, rfl, rfl⟩
  have hok : (parseAttachment sampleTools (scanned (str ".png") (str "image/png")) scannedFiles
      (engineCall (str "engine"))).outcome = .ok { text := str "扫描" } := by decide +kernel
  exact ((repeated_ocr_iff hparses hresult hok rfl rfl rfl).mpr
    ⟨by decide +kernel, by decide +kernel, by decide, by decide⟩).2

end Odirag.Attachments
