import Odirag.Attachments.History

/-!
# Parsed attachments and their text

Reference: `ParsingService` of `backend/app/services/parsing.py`.

Whether there is a text is asked of the raw text that came with an attachment, of the joined pages of
a parser and of a provider, never of the visible characters of what is stored. So a text that is
boilerplate only is accepted, and so are two blank pages, which are joined by a form feed. A call lets
a row count as parsed without a visible character exactly if it takes such a text or such pages
(`hasText_iff`), and in a run this is the only way to such a row (`parsed_has_text_iff`).
-/

namespace Odirag.Attachments

open Documents (isSpace)

/-- A row that counts as parsed has a text with a character that is no white space. -/
def HasText (row : ParsedRow) : Prop :=
  row.parseStatus = .parsed → ∃ text, row.parsedText = some text ∧ ∃ c ∈ text, isSpace c = false

/-- Where there are several pages, one of them has a text after cleaning. -/
def SomePageVisible (D : DetectTools) (pages : List Text) : Prop :=
  2 ≤ pages.length → ∃ page ∈ pages, cleanText D.nfkc page ≠ []

/-- What the call takes has a text after cleaning. -/
structure TakesText (D : DetectTools) (row : ParsedRow) (files : Files) (call : ParseCall) :
    Prop where
  upstream : filenameOf D row ≠ none → hasUpstreamText row = true →
    call.force = true ∨ isUpstreamCached row = false → row.requiresOcr = false →
      cleanText D.nfkc (row.parsedText.getD []) ≠ []
  parsed : ∀ input parser parsed, Parses D row files call input → ParsedAs input parser parsed →
    SomePageVisible D parsed.pages
  recognized : ∀ input provider result, Parses D row files call input →
    RecognizedAs D row call input provider result → result.status ≠ .failed →
      SomePageVisible D result.pages

section

variable {D : DetectTools} {row : ParsedRow} {files : Files} {call : ParseCall}

theorem exists_visible {text : Text} :
    (∃ c ∈ text, isSpace c = false) ↔ Text.ink isSpace text ≠ [] := by
  rw [Ne, Text.ink_eq_nil]
  push Not
  simp

theorem cleanText_visible {text : Text} :
    (∃ c ∈ cleanText D.nfkc text, isSpace c = false) ↔ cleanText D.nfkc text ≠ [] := by
  rw [exists_visible, Ne, ink_cleanText]

/-- Several pages are joined to a text that is not empty. -/
theorem joinedText_ne_nil {pages : List Text} {text : Text} (h : 2 ≤ pages.length) :
    joinedText D pages text ≠ [] := by
  match pages, h with
  | page :: next :: rest, _ => simp [joinedText, List.intercalate_cons_cons]

/-- The joined text has a visible character if it is not empty and one of several pages has one. -/
theorem joinedText_visible {pages : List Text} {text : Text} :
    (∃ c ∈ joinedText D pages text, isSpace c = false) ↔
      joinedText D pages text ≠ [] ∧ SomePageVisible D pages := by
  unfold joinedText SomePageVisible
  split_ifs with hpages
  · simp [cleanText_visible, hpages]
  · have hink : Text.ink isSpace (List.intercalate [formFeed] (pages.map (cleanText D.nfkc))) = [] ↔
        ∀ page ∈ pages, cleanText D.nfkc page = [] := by
      rw [Text.ink_intercalate (List.forall_mem_singleton.mpr (by decide))]
      simp [List.flatMap_eq_nil_iff, ink_cleanText]
    rw [exists_visible, Ne, hink]
    push Not
    by_cases hseveral : 2 ≤ pages.length
    · have hne : joinedText D pages text ≠ [] := joinedText_ne_nil hseveral
      rw [joinedText, if_neg hpages] at hne
      simp [hne, hseveral]
    · have hpos : 0 < pages.length := List.length_pos_of_ne_nil hpages
      obtain ⟨page, rfl⟩ : ∃ page, pages = [page] := List.length_eq_one_iff.mp (by omega)
      simp

theorem hasText_accept {row : ParsedRow} {text : Text} {errorMessage : Option String} {now : ℕ}
    (htext : row.parsedText = some text) :
    HasText (row.accept errorMessage now) ↔ ∃ c ∈ text, isSpace c = false := by
  have hparsed : (row.accept errorMessage now).parsedText = some text := htext
  unfold HasText
  rw [hparsed]
  simp [ParsedRow.accept]

theorem hasText_of_not_parsed (h : row.parseStatus ≠ .parsed) : HasText row :=
  fun hparsed => absurd hparsed h

/-! ## One call -/

theorem hasText_afterParsed {input : ParseInput} {parser : Parser} {parsed : ParsedArtifact}
    {now : ℕ} : HasText (afterParsed D row input parser parsed now) ↔
      SomePageVisible D parsed.pages := by
  unfold afterParsed
  dsimp only
  split_ifs with hempty
  · exact iff_of_true (hasText_of_not_parsed nofun) fun h => absurd hempty (joinedText_ne_nil h)
  · rw [hasText_accept (show _ = some (joinedText D parsed.pages parsed.text) from rfl),
      joinedText_visible, and_iff_right hempty]

theorem hasText_afterRecognized {input : ParseInput} {provider : OcrProvider} {result : OcrResult} :
    HasText (afterRecognized D row input provider result call) ↔
      (result.status ≠ .failed → SomePageVisible D result.pages) := by
  unfold afterRecognized
  dsimp only
  split_ifs with hfailed
  · refine iff_of_true (hasText_of_not_parsed nofun) fun hstatus h => ?_
    exact absurd (hfailed.resolve_left hstatus) (joinedText_ne_nil h)
  · obtain ⟨hstatus, hempty⟩ := not_or.mp hfailed
    have htext : nonEmpty (joinedText D result.pages result.text) =
        some (joinedText D result.pages result.text) := if_neg hempty
    rw [hasText_accept (show _ = some (joinedText D result.pages result.text) from htext),
      joinedText_visible, and_iff_right hempty]
    simp [hstatus]

/-- A call that takes the text that came with the attachment. -/
theorem hasText_parseUpstream {text : Text} (h : HasText row) :
    HasText (parseUpstream D row text call).row ↔
      (call.force = true ∨ isUpstreamCached row = false → row.requiresOcr = false →
        cleanText D.nfkc text ≠ []) := by
  unfold parseUpstream
  by_cases hcached : (!call.force && isUpstreamCached row) = true
  · rw [if_pos hcached]
    have hnone : ¬ (call.force = true ∨ isUpstreamCached row = false) := by simpa using hcached
    exact iff_of_true h fun hfresh => absurd hfresh hnone
  · have hfresh : call.force = true ∨ isUpstreamCached row = false := by
      simpa [or_iff_not_imp_left] using hcached
    have hsame : (storeUpstream D row text call.now).requiresOcr = row.requiresOcr := rfl
    rw [if_neg hcached]
    dsimp only
    rw [hsame]
    cases hocr : row.requiresOcr with
    | true =>
        rw [if_pos rfl]
        exact iff_of_true (hasText_of_not_parsed nofun) fun _ hno => by cases hno
    | false =>
        rw [if_neg (by simp)]
        dsimp only
        rw [hasText_accept (show _ = some (cleanText D.nfkc text) from rfl), cleanText_visible]
        simp [hfresh]

/-- A call that comes to bytes takes only what is in them. -/
theorem takesText_of_reads {input : ParseInput} (h : Reads D row files call input)
    (hparsed : ∀ parser parsed, Parses D row files call input → ParsedAs input parser parsed →
      SomePageVisible D parsed.pages)
    (hrecognized : ∀ provider result, Parses D row files call input →
      RecognizedAs D row call input provider result → result.status ≠ .failed →
        SomePageVisible D result.pages) : TakesText D row files call where
  upstream _ hupstream := by simp [h.no_upstream] at hupstream
  parsed input' parser parsed hparses := by
    obtain rfl := h.unique hparses.toReads
    exact hparsed parser parsed hparses
  recognized input' provider result hparses := by
    obtain rfl := h.unique hparses.toReads
    exact hrecognized provider result hparses

/-- A call whose bytes are parsed leaves a row with a text exactly if what it takes has a text. -/
theorem hasText_iff_of_parses {input : ParseInput} (h : Parses D row files call input) :
    HasText (parseAttachment D row files call).row ↔ TakesText D row files call := by
  by_cases hparsed : ∃ parser parsed, ParsedAs input parser parsed
  · obtain ⟨parser, parsed, hparsed⟩ := hparsed
    rw [(h.of_parsedAs hparsed).1, hasText_afterParsed]
    refine ⟨fun hvisible => takesText_of_reads h.toReads (fun _ _ _ hparsed' => ?_)
      fun _ _ _ hresult => absurd hresult hparsed.not_recognized,
      fun htakes => htakes.parsed input parser parsed h hparsed⟩
    rwa [hparsed.unique hparsed']
  · by_cases hresult : ∃ provider result, RecognizedAs D row call input provider result
    · obtain ⟨provider, result, hresult⟩ := hresult
      rw [(h.of_recognizedAs hresult).1, hasText_afterRecognized]
      refine ⟨fun hvisible => takesText_of_reads h.toReads
        (fun _ _ _ hparsed' => absurd hresult hparsed'.not_recognized) fun _ _ _ hresult' => ?_,
        fun htakes => htakes.recognized input provider result h hresult⟩
      rwa [hresult.unique hresult']
    · have hfails := (h.cases.resolve_left hparsed).resolve_left hresult
      exact iff_of_true (hasText_of_not_parsed hfails.1) (takesText_of_reads h.toReads
        (fun parser parsed _ hparsed' => absurd ⟨parser, parsed, hparsed'⟩ hparsed)
        fun provider result _ hresult' => absurd ⟨provider, result, hresult'⟩ hresult)

/-- A call leaves a row with a text exactly if what it takes has a text. -/
theorem hasText_iff (h : HasText row) :
    HasText (parseAttachment D row files call).row ↔ TakesText D row files call := by
  by_cases hreads : ∃ input, Reads D row files call input
  · obtain ⟨input, hreads⟩ := hreads
    by_cases hcached : (!call.force && isParseCached row (D.sha256 input.content) input.parser
        call.service.ocrProvider) = true
    · have hnot : ¬ Parses D row files call input := fun hparses => by
        rcases hparses.fresh with hfresh | hfresh <;> simp [hfresh] at hcached
      rw [hreads.parseAttachment_eq, if_pos hcached]
      exact iff_of_true h (takesText_of_reads hreads (fun _ _ hparses => absurd hparses hnot)
        fun _ _ hparses => absurd hparses hnot)
    · exact hasText_iff_of_parses ⟨hreads, by simpa [or_iff_not_imp_left] using hcached⟩
  · have hnone : ∀ input, ¬ Parses D row files call input :=
      fun input hparses => hreads ⟨input, hparses.toReads⟩
    have hfrom : TakesText D row files call ↔ (filenameOf D row ≠ none →
        hasUpstreamText row = true → call.force = true ∨ isUpstreamCached row = false →
          row.requiresOcr = false → cleanText D.nfkc (row.parsedText.getD []) ≠ []) :=
      ⟨fun htakes => htakes.upstream, fun hupstream =>
        ⟨hupstream, fun input _ _ hparses => absurd hparses (hnone input),
          fun input _ _ hparses => absurd hparses (hnone input)⟩⟩
    rw [hfrom]
    by_cases hupstream : ∃ filename, filenameOf D row = some filename ∧ hasUpstreamText row = true
    · obtain ⟨filename, hfilename, hupstream⟩ := hupstream
      have htyped : HasText (typed D row filename) := h
      rw [parseAttachment_of_upstream hfilename hupstream, hasText_parseUpstream htyped]
      simp only [hfilename, hupstream, ne_eq, reduceCtorEq, not_false_eq_true, forall_const]
      exact Iff.rfl
    · have hrefused := ((parseAttachment_cases D row files call).resolve_left hreads).resolve_left
        hupstream
      refine iff_of_true ?_ fun hfilename htext => ?_
      · rcases hrefused.status with hsame | hstatus
        · rwa [hsame]
        · exact hasText_of_not_parsed hstatus
      · obtain ⟨filename, hfilename⟩ := Option.ne_none_iff_exists'.mp hfilename
        exact absurd ⟨filename, hfilename, htext⟩ hupstream

/-! ## Runs -/

/-- In a run every row that counts as parsed has a visible character exactly if all that its calls
take has. -/
theorem parsed_has_text_iff {storage : FileStorage} {tr : List (Held × AttachmentStep)} {s : Held}
    (h : (attachments D storage).Run System.always tr s) :
    (∀ tr' s', System.Position s tr tr' s' → HasText s'.row) ↔
      ∀ s₁ call, (s₁, AttachmentStep.parse call) ∈ tr → TakesText D s₁.row s₁.files call := by
  have hsteps : (∀ tr' s', System.Position s tr tr' s' → HasText s'.row) ↔
      ∀ s₁ step, (s₁, step) ∈ tr → ∀ call, step = AttachmentStep.parse call →
        TakesText D s₁.row s₁.files call := by
    refine h.everywhere_iff (I := fun _ s => HasText s.row)
      (fun s (hs : s.row.parseStatus ≠ .parsed) => hasText_of_not_parsed hs) ?_
    intro tr s step s' _ hs hstep
    obtain rfl : s.next D storage step = s' := by simpa [attachments, System.ofNext] using hstep
    cases step with
    | parse call => simpa [Held.next] using hasText_iff hs
    | download call =>
        refine iff_of_true ?_ fun _ heq => by cases heq
        rcases download_sameFile D storage ⟨s.row.toAttachment, s.files⟩ call with hstatus | hsame
        · exact hasText_of_not_parsed hstatus
        · exact fun hparsed => hs (hsame.parseStatus.symm.trans hparsed)
    | disk files => exact iff_of_true hs fun _ heq => by cases heq
  rw [hsteps]
  exact ⟨fun hall s₁ call hmem => hall s₁ _ hmem call rfl,
    fun hall s₁ step hmem call heq => hall s₁ call (heq ▸ hmem)⟩

end

/-! ## Boilerplate and blank pages -/

/-- A parser for PDF files that finds these pages. -/
def pagesParser (pages : List Text) : Parser where
  className := str "PdfParser"
  version := str "1"
  parse _ _ := .ok { text := [], pages, pageCount := some pages.length }

def pagesService (pages : List Text) : ParsingService where
  registry extension := if extension = str ".pdf" then some (pagesParser pages) else none
  ocrProvider := none
  maxFileBytes := 1024

def pagesCall (pages : List Text) : ParseCall where
  service := pagesService pages
  force := false
  now := 2

/-- A row that came with a text. -/
def upstreamHeld (text : Text) : Held where
  row := { sampleStored.row with parsedText := some text }
  files _ := none

/-- A row with a PDF file. -/
def pdfHeld : Held where
  row := { savedStored.row with parsedText := none }
  files := savedStored.files

/-- One call on a row is a run. -/
theorem run_parse {s : Held} (h : s.row.parseStatus ≠ .parsed) (call : ParseCall) :
    (attachments sampleTools sampleStorage).Run System.always [(s, .parse call)]
      (s.next sampleTools sampleStorage (.parse call)) :=
  ⟨s, h, .cons .nil trivial rfl⟩

/-- A text of boilerplate is accepted as an empty one, and two blank pages as a form feed. -/
theorem parsed_without_text :
    (∃ tr s, (attachments sampleTools sampleStorage).Run System.always tr s ∧
      s.row.parsedText = some [] ∧ ¬ HasText s.row) ∧
    ∃ tr s, (attachments sampleTools sampleStorage).Run System.always tr s ∧
      s.row.parsedText = some [formFeed] ∧ ¬ HasText s.row := by
  have hnone : ∀ (row : ParsedRow) (text : Text), row.parseStatus = .parsed →
      row.parsedText = some text → (∀ c ∈ text, isSpace c = true) → ¬ HasText row := by
    intro row text hparsed htext hblank h
    obtain ⟨text', htext', c, hc, hvisible⟩ := h hparsed
    obtain rfl : text = text' := Option.some.inj (htext.symm.trans htext')
    rw [hblank c hc] at hvisible
    cases hvisible
  have hboilerplate : ((upstreamHeld (str "打印本页")).next sampleTools sampleStorage
      (.parse (pagesCall []))).row.parsedText = some [] := by decide +kernel
  have hpages : (pdfHeld.next sampleTools sampleStorage
      (.parse (pagesCall [[], []]))).row.parsedText = some [formFeed] := by decide +kernel
  have hfeed : isSpace formFeed = true := by decide
  exact ⟨⟨_, _, run_parse (by decide) _, hboilerplate,
      hnone _ _ (by decide +kernel) hboilerplate (by simp)⟩,
    ⟨_, _, run_parse (by decide) _, hpages,
      hnone _ _ (by decide +kernel) hpages (by simp [hfeed])⟩⟩

/-- The call that accepts boilerplate takes no text. -/
theorem parsed_has_text_iff_boilerplate :
    ¬ ∀ s₁ call, (s₁, AttachmentStep.parse call) ∈
        [(upstreamHeld (str "打印本页"), AttachmentStep.parse (pagesCall []))] →
      TakesText sampleTools s₁.row s₁.files call := by
  intro h
  obtain ⟨text, htext, c, hc, -⟩ :=
    (parsed_has_text_iff (run_parse (by decide) (pagesCall []))).mpr h _ _ .last (by decide +kernel)
  have hempty : ((upstreamHeld (str "打印本页")).next sampleTools sampleStorage
      (.parse (pagesCall []))).row.parsedText = some [] := by decide +kernel
  rw [hempty] at htext
  cases htext
  cases hc

end Odirag.Attachments
