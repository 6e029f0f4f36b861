import Odirag.Attachments.History
import Odirag.Attachments.OcrCache
import Odirag.Foundations.Netloc

/-!
# What the parse cache holds

Reference: `ParsingService` of `backend/app/services/parsing.py`.

The stored text of a file is up to date: it is what some service of the run made of bytes with the
stored digest, under the names that the row still has, and the row names its parser and the identity
of the result (`UpToDate`). Every step keeps this (`upToDate_next`). Where parsers are identified by
their names and versions, and results by the identities that they carry (`Configured`), a text that is
found in the cache is then the one that the same call would make of the bytes (`cached_text_fresh`).
-/

namespace Odirag.Attachments

/-! ## Services -/

/-- The services that parse an attachment have a provider, their parsers are identified by name and
version, and what a provider recognises is identified by the name and the version that the result
carries. -/
structure Configured (services : Set ParsingService) : Prop where
  provider : ∀ S ∈ services, ∃ provider, S.ocrProvider = some provider
  parsers : ∀ S ∈ services, ∀ S' ∈ services, ∀ extension extension' parser parser',
    S.registry extension = some parser → S'.registry extension' = some parser' →
      parser.className = parser'.className → parser.version = parser'.version →
        parser.parse = parser'.parse
  named : ∀ S ∈ services, ∀ extension parser, S.registry extension = some parser →
    parser.className ≠ str "ocr"
  recognitions : ∀ S ∈ services, ∀ S' ∈ services, ∀ provider provider',
    S.ocrProvider = some provider → S'.ocrProvider = some provider' →
      ∀ content fileType filename result,
        provider.recognize content fileType filename = .ok result →
          resolvedIdentity result.provider provider.name = provider'.name →
            resolvedIdentity result.version provider.version = provider'.version →
              provider'.recognize content fileType filename = .ok result

/-- One service, whose parsers are identified by name and version. -/
theorem configured_singleton {S : ParsingService} {provider : OcrProvider}
    (hprovider : S.ocrProvider = some provider)
    (hparsers : ∀ extension extension' parser parser', S.registry extension = some parser →
      S.registry extension' = some parser' → parser.className = parser'.className →
        parser.version = parser'.version → parser.parse = parser'.parse)
    (hnamed : ∀ extension parser, S.registry extension = some parser →
      parser.className ≠ str "ocr") : Configured {S} where
  provider S' hS' := ⟨provider, by rw [Set.mem_singleton_iff.mp hS', hprovider]⟩
  parsers S' hS' S'' hS'' := by
    obtain rfl := Set.mem_singleton_iff.mp hS'
    obtain rfl := Set.mem_singleton_iff.mp hS''
    exact hparsers
  named S' hS' := by
    obtain rfl := Set.mem_singleton_iff.mp hS'
    exact hnamed
  recognitions S' hS' S'' hS'' p p' hp hp' := by
    obtain rfl := Set.mem_singleton_iff.mp hS'
    obtain rfl := Set.mem_singleton_iff.mp hS''
    obtain rfl : p = p' := Option.some.inj (hp.symm.trans hp')
    exact fun _ _ _ _ h _ _ => h

/-- The parsers of two versions of recognised texts are the same. -/
theorem ocrParserVersion_inj {parser parser' : Parser}
    (h : ocrParserVersion (some parser) = ocrParserVersion (some parser')) :
    parser.className = parser'.className ∧ parser.version = parser'.version := by
  have hparts := congrArg (Url.partition ':') h
  simp only [ocrParserVersion, Url.partition_append parser.plain,
    Url.partition_append parser'.plain, Prod.mk.injEq, Option.some.injEq] at hparts
  exact ⟨hparts.1, List.append_cancel_right hparts.2⟩

theorem ocrParserVersion_some_ne_none (parser : Parser) :
    ocrParserVersion (some parser) ≠ ocrParserVersion none := by
  intro h
  have hlength := congrArg List.length h
  simp only [ocrParserVersion, List.length_append, List.length_cons] at hlength
  omega

/-! ## Texts that are up to date -/

/-- The stored text is what these bytes gave. -/
inductive Made (D : DetectTools) (row : ParsedRow) (service : ParsingService) (input : ParseInput) :
    Prop
  | parsed {parser : Parser} {parsed : ParsedArtifact} :
      ParsedAs input parser parsed → row.parser = some parser.className →
        row.parserVersion = some parser.version → row.ocrProvider = none →
          joinedText D parsed.pages parsed.text ≠ [] →
            row.parsedText = some (joinedText D parsed.pages parsed.text) →
              Made D row service input
  | recognized {provider : OcrProvider} {result : OcrResult} :
      input.needsOcr = true → service.ocrProvider = some provider →
        provider.recognize input.content (typed D row input.filename).fileType input.filename =
            .ok result →
          row.parser = some (str "ocr") → row.parserVersion = some (ocrParserVersion input.parser) →
            row.ocrProvider = some (resolvedIdentity result.provider provider.name) →
              row.ocrVersion = some (resolvedIdentity result.version provider.version) →
                result.status ≠ .failed → joinedText D result.pages result.text ≠ [] →
                  row.parsedText = some (joinedText D result.pages result.text) →
                    Made D row service input

/-- A parsed row with a file has the text of bytes with its digest, under its names. -/
def UpToDate (D : DetectTools) (services : Set ParsingService) (contents : Set (List UInt8))
    (row : ParsedRow) : Prop :=
  row.parseStatus = .parsed → row.localPath.bind nonEmpty ≠ none →
    ∃ service ∈ services, ∃ input : ParseInput, input.content ∈ contents ∧
      filenameOf D row = some input.filename ∧
      parserOf D service input.filename row.mimeType = some input.parser ∧
      row.fileHash = some (D.sha256 input.content) ∧ Made D row service input

/-- A call of one of the services, on one of the contents. -/
def Admissible (services : Set ParsingService) (contents : Set (List UInt8)) (s : Held) :
    AttachmentStep → Prop
  | .parse call => call.service ∈ services ∧
      ∀ content, (s.row.localPath.bind nonEmpty).bind s.files = some content → content ∈ contents
  | _ => True

section

variable {D : DetectTools} {services : Set ParsingService} {contents : Set (List UInt8)}
  {row row' : ParsedRow} {service : ParsingService} {input : ParseInput} {files : Files}
  {call : ParseCall}

/-- The columns that say how the text of a row was made. -/
structure SameText (row row' : ParsedRow) : Prop where
  parsedText : row'.parsedText = row.parsedText
  parser : row'.parser = row.parser
  parserVersion : row'.parserVersion = row.parserVersion
  ocrProvider : row'.ocrProvider = row.ocrProvider
  ocrVersion : row'.ocrVersion = row.ocrVersion

theorem Made.congr (h : Made D row service input)
    (hnames : SameNames row.toAttachment row'.toAttachment) (htext : SameText row row') :
    Made D row' service input := by
  cases h with
  | parsed hparsed hparser hversion hocr hne hstored =>
      exact .parsed hparsed (htext.parser.trans hparser) (htext.parserVersion.trans hversion)
        (htext.ocrProvider.trans hocr) hne (htext.parsedText.trans hstored)
  | recognized hneeded hprovider hresult hparser hversion hname hnumber hstatus hne hstored =>
      refine .recognized hneeded hprovider ?_ (htext.parser.trans hparser)
        (htext.parserVersion.trans hversion) (htext.ocrProvider.trans hname)
        (htext.ocrVersion.trans hnumber) hstatus hne (htext.parsedText.trans hstored)
      rw [hnames.typed_fileType]
      exact hresult

/-- A text stays up to date while the names, the digest and the text of its row stay. -/
theorem UpToDate.congr (h : UpToDate D services contents row)
    (hnames : SameNames row.toAttachment row'.toAttachment) (htext : SameText row row')
    (hstatus : row'.parseStatus = row.parseStatus) (hhash : row'.fileHash = row.fileHash) :
    UpToDate D services contents row' := by
  intro hparsed hlocal
  rw [hnames.localPath] at hlocal
  obtain ⟨service, hservice, input, hcontent, hfilename, hparser, hdigest, hmade⟩ :=
    h (hstatus ▸ hparsed) hlocal
  exact ⟨service, hservice, input, hcontent, hnames.filenameOf_eq.trans hfilename,
    by rw [hnames.mimeType, hparser], hhash.trans hdigest, hmade.congr hnames htext⟩

theorem upToDate_of_not_parsed (h : row.parseStatus ≠ .parsed) :
    UpToDate D services contents row := fun hparsed => absurd hparsed h

/-! ## One step -/

theorem made_afterParsed {parser : Parser} {parsed : ParsedArtifact} {now : ℕ}
    (hparsed : ParsedAs input parser parsed)
    (hstatus : (afterParsed D row input parser parsed now).parseStatus = .parsed) :
    Made D (afterParsed D row input parser parsed now) service input := by
  unfold afterParsed at hstatus ⊢
  dsimp only at hstatus ⊢
  split_ifs at hstatus ⊢ with hempty
  · cases hstatus
  · exact .parsed hparsed rfl rfl rfl hempty rfl

/-- A result that lets a row count as parsed was accepted. -/
theorem accepted_of_parsed {provider : OcrProvider} {result : OcrResult}
    (hstatus : (afterRecognized D row input provider result call).parseStatus = .parsed) :
    result.status ≠ .failed ∧ joinedText D result.pages result.text ≠ [] := by
  refine not_or.mp fun hfailed => ?_
  rw [afterRecognized, if_pos hfailed] at hstatus
  cases hstatus

theorem made_acceptedRow {provider : OcrProvider} {result : OcrResult}
    (hresult : RecognizedAs D row call input provider result) (hstatus : result.status ≠ .failed)
    (hne : joinedText D result.pages result.text ≠ []) :
    Made D (acceptedRow D (typed D row input.filename) input provider result call)
      call.service input := by
  have hnames := (typed_sameNames D row input.filename).trans
    (acceptedRow_sameNames D (typed D row input.filename) input provider result call).1
  refine .recognized hresult.needed hresult.configured ?_ rfl rfl rfl rfl hstatus hne (if_neg hne)
  rw [hnames.typed_fileType]
  exact hresult.recognize

/-- A call that parses bytes, so that the row counts as parsed, stores their digest and what they
give, under the names that the row has. -/
theorem Parses.stored (h : Parses D row files call input)
    (hstatus : (parseAttachment D row files call).row.parseStatus = .parsed) :
    SameNames row.toAttachment (parseAttachment D row files call).row.toAttachment ∧
      (parseAttachment D row files call).row.fileHash = some (D.sha256 input.content) ∧
      Made D (parseAttachment D row files call).row call.service input := by
  rcases h.cases with ⟨parser, parsed, hparsed⟩ | ⟨provider, result, hresult⟩ | ⟨hnot, -⟩
  · rw [(h.of_parsedAs hparsed).1] at hstatus ⊢
    refine ⟨?_, ?_, made_afterParsed hparsed hstatus⟩
    · unfold afterParsed
      dsimp only
      split_ifs <;> constructor <;> rfl
    · unfold afterParsed
      dsimp only
      split_ifs <;> rfl
  · rw [(h.of_recognizedAs hresult).1] at hstatus ⊢
    obtain ⟨haccepted, hne⟩ := accepted_of_parsed hstatus
    rw [afterRecognized_of_accepted haccepted hne]
    exact ⟨(typed_sameNames D row input.filename).trans (acceptedRow_sameNames D _ _ _ _ _).1,
      beforeOcr_fileHash D _ input call.now, made_acceptedRow hresult haccepted hne⟩
  · exact absurd hstatus hnot

theorem parseUpstream_localPath (D : DetectTools) (row : ParsedRow) (text : Text)
    (call : ParseCall) : (parseUpstream D row text call).row.localPath = row.localPath := by
  unfold parseUpstream
  split
  · rfl
  · dsimp only
    split <;> rfl

/-- A call keeps a text up to date. -/
theorem upToDate_parseAttachment (h : UpToDate D services contents row)
    (hservice : call.service ∈ services)
    (hcontents : ∀ content, (row.localPath.bind nonEmpty).bind files = some content →
      content ∈ contents) :
    UpToDate D services contents (parseAttachment D row files call).row := by
  rcases parseAttachment_cases D row files call with ⟨input, hreads⟩ | hupstream | hrefused
  · by_cases hcached : (!call.force && isParseCached row (D.sha256 input.content) input.parser
        call.service.ocrProvider) = true
    · rw [hreads.parseAttachment_eq, if_pos hcached]
      exact h.congr (typed_sameNames D row input.filename) (by constructor <;> rfl) rfl rfl
    · intro hstatus _
      have hparses : Parses D row files call input :=
        ⟨hreads, by simpa [or_iff_not_imp_left] using hcached⟩
      obtain ⟨hnames, hhash, hmade⟩ := hparses.stored hstatus
      exact ⟨call.service, hservice, input, hcontents _ hreads.content,
        hnames.filenameOf_eq.trans hreads.filename, by rw [hnames.mimeType, hreads.parser], hhash,
        hmade⟩
  · obtain ⟨filename, hfilename, htext⟩ := hupstream
    intro _ hlocal
    have hnone : row.localPath.bind nonEmpty = none := by
      simp only [hasUpstreamText, Bool.and_eq_true, decide_eq_true_eq] at htext
      exact htext.2
    rw [parseAttachment_of_upstream hfilename htext] at hlocal
    refine absurd ?_ hlocal
    rw [parseUpstream_localPath]
    exact hnone
  · rcases hrefused.status with hsame | hnot
    · rwa [hsame]
    · exact upToDate_of_not_parsed hnot

/-- Every step keeps a text up to date. -/
theorem upToDate_next {storage : FileStorage} {s : Held} {step : AttachmentStep}
    (h : UpToDate D services contents s.row) (hstep : Admissible services contents s step) :
    UpToDate D services contents (s.next D storage step).row := by
  cases step with
  | download call =>
      rcases download_sameFile D storage ⟨s.row.toAttachment, s.files⟩ call with hnot | hsame
      · exact upToDate_of_not_parsed hnot
      · exact h.congr ⟨hsame.attachmentName, hsame.sourceUrl, hsame.localPath, hsame.mimeType,
          hsame.fileExtension⟩ (by constructor <;> rfl) hsame.parseStatus hsame.fileHash
  | parse call => exact upToDate_parseAttachment h hstep.1 hstep.2
  | disk files => exact h

/-! ## Looking up -/

/-- What is found in the cache is found under the recognition of its parser or under the parser. -/
theorem isParseCached_cases {contentHash : Text} {parser : Option Parser}
    {ocrProvider : Option OcrProvider}
    (h : isParseCached row contentHash parser ocrProvider = true) :
    (∃ parser', parser = some parser' ∧ CacheValid row contentHash (str "ocr")
        (ocrParserVersion (some parser')) ocrProvider) ∨
      CacheValid row contentHash (expectedParser parser) (expectedParserVersion parser)
        ocrProvider := by
  unfold isParseCached at h
  rcases Bool.or_eq_true_iff.mp h with h | h
  · cases parser with
    | none => simp at h
    | some parser =>
        simp only [Option.isSome_some, Bool.true_and, Bool.and_eq_true] at h
        exact .inl ⟨parser, rfl, parsedCacheValid_iff.mp h.2⟩
  · exact .inr (parsedCacheValid_iff.mp h)

/-- The parser of a file is one of its service. -/
theorem registered_of_parserOf {filename : Text} {mimeType : Option Text} {parser : Parser}
    (h : parserOf D service filename mimeType = some (some parser)) :
    service.registry (D.lower (pathSuffix filename)) = some parser := by
  unfold parserOf at h
  split_ifs at h
  · cases h
  · obtain ⟨parser', hparser, heq⟩ := Option.map_eq_some_iff.mp h
    rwa [← Option.some.inj heq]

/-- Parsers with the same name and version read the same. -/
theorem Configured.parse_eq {service' : ParsingService} {mimeType : Option Text} {filename : Text}
    {parser parser' : Parser} (hconfigured : Configured services) (hservice : service ∈ services)
    (hservice' : service' ∈ services)
    (hparser : parserOf D service filename mimeType = some (some parser))
    (hparser' : parserOf D service' filename mimeType = some (some parser'))
    (hname : parser.className = parser'.className) (hversion : parser.version = parser'.version) :
    parser.parse = parser'.parse :=
  hconfigured.parsers service hservice service' hservice' _ _ parser parser'
    (registered_of_parserOf hparser) (registered_of_parserOf hparser') hname hversion

section

variable {service' : ParsingService} {mimeType : Option Text} {filename : Text}
  {content : List UInt8} {parser parser' : Option Parser}

theorem resolvedIdentity_self {value : Option Text} {fallback identity : Text}
    (h : resolvedIdentity value fallback = identity) :
    resolvedIdentity value identity = identity := by
  unfold resolvedIdentity at h ⊢
  dsimp only at h ⊢
  split_ifs at h ⊢
  · rfl
  · exact h

/-- Recognised bytes that are found in the cache are found under the recognition of their parser,
which asks for recognition too. -/
theorem recognized_found (hconfigured : Configured services) (hservice : service ∈ services)
    (hservice' : service' ∈ services)
    (hparser : parserOf D service filename mimeType = some parser)
    (hparser' : parserOf D service' filename mimeType = some parser')
    (hneeded : ParseInput.needsOcr ⟨content, filename, parser⟩ = true)
    (hmaker : row.parser = some (str "ocr"))
    (hversion : row.parserVersion = some (ocrParserVersion parser))
    (hcached : isParseCached row (D.sha256 content) parser' service'.ocrProvider = true) :
    CacheValid row (D.sha256 content) (str "ocr") (ocrParserVersion parser') service'.ocrProvider ∧
      ParseInput.needsOcr ⟨content, filename, parser'⟩ = true := by
  rcases isParseCached_cases hcached with ⟨p', rfl, hvalid⟩ | hvalid
  · have hsame : ocrParserVersion parser = ocrParserVersion (some p') :=
      Option.some.inj (hversion.symm.trans hvalid.version)
    cases parser with
    | none => exact absurd hsame.symm (ocrParserVersion_some_ne_none p')
    | some p =>
        obtain ⟨hname, hnumber⟩ := ocrParserVersion_inj hsame
        have hparse := hconfigured.parse_eq hservice hservice' hparser hparser' hname hnumber
        refine ⟨hvalid, ?_⟩
        unfold ParseInput.needsOcr at hneeded ⊢
        dsimp only at hneeded ⊢
        rwa [← hparse]
  · cases parser' with
    | none => exact ⟨hvalid, rfl⟩
    | some p' =>
        have hname : str "ocr" = p'.className :=
          Option.some.inj (hmaker.symm.trans hvalid.maker)
        exact absurd hname.symm
          (hconfigured.named service' hservice' _ p' (registered_of_parserOf hparser'))

/-- What was made of the bytes and is found for them is what they give again. -/
theorem Made.again (hmade : Made D row service ⟨content, filename, parser⟩)
    (hconfigured : Configured services) (hservice : service ∈ services)
    (hservice' : service' ∈ services)
    (hparser : parserOf D service filename mimeType = some parser)
    (hparser' : parserOf D service' filename mimeType = some parser')
    (hcached : isParseCached row (D.sha256 content) parser' service'.ocrProvider = true) :
    Made D row service' ⟨content, filename, parser'⟩ := by
  cases hmade with
  | @parsed p parsed hparsed hmaker hversion hocr hne hstored =>
      obtain ⟨hregistered, hparse, hnative⟩ := hparsed
      obtain rfl : parser = some p := hregistered
      have hnone : ∀ {version : Text}, ¬ CacheValid row (D.sha256 content) (str "ocr") version
          service'.ocrProvider := fun hvalid => (hvalid.identified rfl).1 (by rw [hocr]; rfl)
      -- What a parser has stored is not found as a recognised text.
      rcases isParseCached_cases hcached with ⟨p', -, hvalid⟩ | hvalid
      · exact absurd hvalid hnone
      · cases parser' with
        | none => exact absurd hvalid hnone
        | some p' =>
            have hname : p.className = p'.className :=
              Option.some.inj (hmaker.symm.trans hvalid.maker)
            have hnumber : p.version = p'.version :=
              Option.some.inj (hversion.symm.trans hvalid.version)
            have hsame := hconfigured.parse_eq hservice hservice' hparser hparser' hname hnumber
            exact .parsed ⟨rfl, hsame ▸ hparse, hnative⟩ hvalid.maker hvalid.version hocr hne hstored
  | @recognized provider result hneeded hprovider hresult hmaker hversion hname hnumber hstatus hne
      hstored =>
      obtain ⟨hvalid, hneeded'⟩ := recognized_found hconfigured hservice hservice' hparser hparser'
        hneeded hmaker hversion hcached
      -- The row names the provider that the row was made with, and the one that is configured now.
      obtain ⟨provider', hprovider'⟩ := hconfigured.provider service' hservice'
      obtain ⟨hname', hnumber'⟩ := hvalid.configured rfl provider' hprovider'
      have hidentity : resolvedIdentity result.provider provider.name = provider'.name :=
        Option.some.inj (hname.symm.trans hname')
      have hidentity' : resolvedIdentity result.version provider.version = provider'.version :=
        Option.some.inj (hnumber.symm.trans hnumber')
      have hagain := hconfigured.recognitions service hservice service' hservice' provider provider'
        hprovider hprovider' _ _ _ result hresult hidentity hidentity'
      refine .recognized hneeded' hprovider' hagain hmaker hvalid.version ?_ ?_ hstatus hne hstored
      · rw [resolvedIdentity_self hidentity, hname']
      · rw [resolvedIdentity_self hidentity', hnumber']

/-- What was made of the bytes is what a forced call stores. -/
theorem Made.forced (hmade : Made D row service input) (hreads : Reads D row files call input)
    (hservice : call.service = service) (hforce : call.force = true) {text : Text}
    (htext : row.parsedText = some text) :
    (parseAttachment D row files call).row.parsedText = some text ∧
      ∃ artifact, (parseAttachment D row files call).outcome = .ok artifact := by
  have hparses : Parses D row files call input := ⟨hreads, .inl hforce⟩
  cases hmade with
  | @parsed parser parsed hparsed _ _ _ hne hstored =>
      obtain ⟨hrow, -, hok⟩ := hparses.of_parsedAs hparsed
      rw [hrow, afterParsed, if_neg hne, ← htext, hstored]
      exact ⟨rfl, parsed, hok hne⟩
  | @recognized provider result hneeded hprovider hresult _ _ _ _ hstatus hne hstored =>
      have hrecognized : RecognizedAs D row call input provider result :=
        ⟨hneeded, hservice ▸ hprovider, hresult⟩
      obtain ⟨hrow, -, hok, -⟩ := hparses.of_recognizedAs hrecognized
      rw [hrow, afterRecognized_of_accepted hstatus hne, ← htext, hstored]
      exact ⟨if_neg hne, hok.mpr ⟨hstatus, hne⟩⟩

end

/-! ## The cache -/

/-- Downloads and calls of these services in any order leave the text up to date. -/
theorem upToDate_of_run {storage : FileStorage} {tr : List (Held × AttachmentStep)} {s : Held}
    (h : (attachments D storage).Run (fun _ s step _ => Admissible services contents s step) tr s) :
    UpToDate D services contents s.row := by
  refine h.invariant (I := fun _ s => UpToDate D services contents s.row)
    (fun s (hs : s.row.parseStatus ≠ .parsed) => upToDate_of_not_parsed hs) ?_
  intro tr s step s' _ hs hadmissible hstep
  obtain rfl : s.next D storage step = s' := by simpa [attachments, System.ofNext] using hstep
  exact upToDate_next hs hadmissible

/-- **The cache is sound.** In every run of downloads, of calls and of changes on disk, an artifact
that a call returns from the cache has the text that the same call, forced, stores. -/
theorem cached_text_fresh {storage : FileStorage} (hconfigured : Configured services)
    (hdigest : Set.InjOn D.sha256 contents) {tr : List (Held × AttachmentStep)} {s : Held}
    (h : (attachments D storage).Run (fun _ s step _ => Admissible services contents s step) tr s)
    (hcall : Admissible services contents s (.parse call))
    (hlocal : s.row.localPath.bind nonEmpty ≠ none) {artifact : ParsedArtifact}
    (hok : (parseAttachment D s.row s.files call).outcome = .ok artifact)
    (hcached : (parseAttachment D s.row s.files call).cached = true) :
    (parseAttachment D s.row s.files { call with force := true }).row.parsedText =
        some artifact.text ∧
      ∃ artifact', (parseAttachment D s.row s.files { call with force := true }).outcome =
        .ok artifact' := by
  have hupToDate := upToDate_of_run h
  rcases parseAttachment_cases D s.row s.files call with ⟨input, hreads⟩ | hupstream | hrefused
  · by_cases hfound : (!call.force && isParseCached s.row (D.sha256 input.content) input.parser
        call.service.ocrProvider) = true
    · have hfound' := (Bool.and_eq_true_iff.mp hfound).2
      have hvalid : s.row.parseStatus = .parsed ∧ s.row.parsedText ≠ none ∧
          s.row.fileHash = some (D.sha256 input.content) := by
        rcases isParseCached_cases hfound' with ⟨_, _, hvalid⟩ | hvalid
        · exact ⟨hvalid.status, hvalid.text, hvalid.hash⟩
        · exact ⟨hvalid.status, hvalid.text, hvalid.hash⟩
      -- The row is valid, so some service stored its text from the same bytes, file name and
      -- parser.
      obtain ⟨hstatus, htext, hhash⟩ := hvalid
      obtain ⟨text, htext⟩ := Option.ne_none_iff_exists'.mp htext
      obtain ⟨service, hservice, ⟨content, filename, parser⟩, hcontent, hfilename, hparser, hmadeOf,
        hmade⟩ := hupToDate hstatus hlocal
      obtain ⟨content', filename', parser'⟩ := input
      obtain rfl : filename' = filename :=
        Option.some.inj (hreads.filename.symm.trans hfilename)
      obtain rfl : content' = content :=
        -- Equal digests are equal bytes among the contents at hand.
        hdigest (hcall.2 _ hreads.content) hcontent (Option.some.inj (hhash.symm.trans hmadeOf))
      rw [hreads.parseAttachment_eq, if_pos hfound] at hok
      have hartifact : artifact.text = text := by
        rw [← Except.ok.inj hok, htext]
        rfl
      have hagain := hmade.again hconfigured hservice hcall.1 hparser hreads.parser hfound'
      have hforced : Reads D s.row s.files { call with force := true }
          ⟨content', filename', parser'⟩ :=
        hreads.of_sameNames ⟨rfl, rfl, rfl, rfl, rfl⟩ rfl rfl hreads.readable
      rw [hartifact]
      exact hagain.forced hforced rfl rfl htext
    · have hparses : Parses D s.row s.files call input :=
        ⟨hreads, by simpa [or_iff_not_imp_left] using hfound⟩
      rw [hparses.cached_eq_false] at hcached
      cases hcached
  · obtain ⟨filename, -, htext⟩ := hupstream
    simp only [hasUpstreamText, Bool.and_eq_true, decide_eq_true_eq] at htext
    exact absurd htext.2 hlocal
  · rw [hrefused.cached] at hcached
    cases hcached

end

/-! ## A recognised image -/

/-- An image that was recognised. -/
def recognizedHeld : Held :=
  Held.next sampleTools sampleStorage ⟨scanned (str ".png") (str "image/png"), scannedFiles⟩
    (.parse (engineCall (str "engine")))

/-- The remote side does not answer. -/
def lostDownload : DownloadCall where
  force := true
  now := 2
  fetched := .error ⟨"ReadTimeout", none⟩

theorem configured_engine : Configured {engineService (str "engine")} := by
  refine configured_singleton rfl (fun extension extension' parser parser' h h' _ _ => ?_)
    fun extension parser h => ?_
  · simp only [engineService] at h h'
    split_ifs at h h'
    rw [← Option.some.inj h, ← Option.some.inj h']
  · simp only [engineService] at h
    split_ifs at h
    rw [← Option.some.inj h]
    decide

/-- After a download that failed the text of the image is found in the cache. -/
theorem cached_text_fresh_image :
    (parseAttachment sampleTools
      (recognizedHeld.next sampleTools sampleStorage (.download lostDownload)).row scannedFiles
      { engineCall (str "engine") with force := true }).row.parsedText = some (str "扫描") := by
  have hcontents : ∀ {row : ParsedRow} {content : List UInt8},
      (row.localPath.bind nonEmpty).bind scannedFiles = some content →
        content ∈ ({bytes (str "scan")} : Set (List UInt8)) := by
    intro row content hcontent
    obtain ⟨path, -, hfile⟩ := Option.bind_eq_some_iff.mp hcontent
    exact (Option.some.inj hfile).symm
  have hpending : (scanned (str ".png") (str "image/png")).parseStatus ≠ .parsed := by decide
  have hrun : (attachments sampleTools sampleStorage).Run
      (fun _ s step _ => Admissible {engineService (str "engine")} {bytes (str "scan")} s step)
      [(recognizedHeld, .download lostDownload),
        (⟨scanned (str ".png") (str "image/png"), scannedFiles⟩,
          .parse (engineCall (str "engine")))]
      (recognizedHeld.next sampleTools sampleStorage (.download lostDownload)) :=
    ⟨⟨scanned (str ".png") (str "image/png"), scannedFiles⟩, hpending,
      .cons (.cons .nil ⟨rfl, fun _ => hcontents⟩ rfl) trivial rfl⟩
  have hok : (parseAttachment sampleTools
      (recognizedHeld.next sampleTools sampleStorage (.download lostDownload)).row scannedFiles
      (engineCall (str "engine"))).outcome = .ok { text := str "扫描" } := by decide +kernel
  have hcached : (parseAttachment sampleTools
      (recognizedHeld.next sampleTools sampleStorage (.download lostDownload)).row scannedFiles
      (engineCall (str "engine"))).cached = true := by decide +kernel
  have hcall : Admissible {engineService (str "engine")} {bytes (str "scan")}
      (recognizedHeld.next sampleTools sampleStorage (.download lostDownload))
      (.parse (engineCall (str "engine"))) := ⟨rfl, fun _ => hcontents⟩
  exact (cached_text_fresh configured_engine (Set.injOn_singleton _ _) hrun hcall
    (by decide +kernel) hok hcached).1

end Odirag.Attachments
