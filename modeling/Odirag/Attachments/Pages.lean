import Odirag.Attachments.ParsedText
import Odirag.Indexing.Chunks

/-!
# Pages on their way into the index

Reference: `backend/app/services/parsing.py`, `_drafts` of `backend/app/services/indexing.py`.

Parsing stores the cleaned pages joined by form feeds, indexing splits the stored text at form feeds
and counts. A cleaned page has no form feed in it, so each page comes back as it was stored, blank
ones too (`splitPages_joinedText`), and its drafts carry its number (`page_attribution`).
-/

namespace Odirag.Attachments

open Indexing (Indexer ChunkDraft SourceDraft splitPages sourceDraft appendDrafts)

/-- `parse_status`, as indexing reads it. -/
def ParseStatus.indexed : ParseStatus → Indexing.ParseStatus
  | .pending => .pending
  | .parsed => .parsed
  | .unsupported => .unsupported
  | .failed => .failed

/-- The row as indexing reads it. -/
def ParsedRow.indexed (row : ParsedRow) : Indexing.Attachment where
  id := row.id
  attachmentName := String.ofList row.attachmentName
  parseStatus := row.parseStatus.indexed
  parsedText := row.parsedText.map String.ofList
  pageCount := row.pageCount

/-- What the chunker makes of pages, each draft with the number of its page, if pages are counted. -/
def pageDrafts (chunk : String → List ChunkDraft) (counted : Bool) (pages : List String) :
    List (Option ℕ × ChunkDraft) :=
  (pages.zipIdx 1).flatMap fun page =>
    (chunk page.1).map fun draft => (if counted then some page.2 else none, draft)

/-- Drafts of an attachment, numbered from here on. -/
def numbered (attachment : Indexing.Attachment) (start : ℕ) (drafts : List (Option ℕ × ChunkDraft)) :
    List SourceDraft :=
  (drafts.zipIdx start).map fun draft => sourceDraft (some attachment) draft.1.1 draft.2 draft.1.2

theorem numbered_append (attachment : Indexing.Attachment) (start : ℕ)
    (drafts drafts' : List (Option ℕ × ChunkDraft)) :
    numbered attachment start (drafts ++ drafts') =
      numbered attachment start drafts ++ numbered attachment (start + drafts.length) drafts' := by
  rw [numbered, List.zipIdx_append, List.map_append]
  rfl

theorem length_numbered (attachment : Indexing.Attachment) (start : ℕ)
    (drafts : List (Option ℕ × ChunkDraft)) :
    (numbered attachment start drafts).length = drafts.length := by
  simp [numbered]

/-- `_append_drafts` adds the drafts of one page. -/
theorem appendDrafts_eq (attachment : Indexing.Attachment) (pageNumber : Option ℕ)
    (output : List SourceDraft) (drafts : List ChunkDraft) :
    appendDrafts (some attachment) pageNumber output drafts =
      output ++ numbered attachment output.length (drafts.map fun draft => (pageNumber, draft)) := by
  unfold appendDrafts
  induction drafts generalizing output with
  | nil => simp [numbered]
  | cons draft drafts ih =>
      rw [List.foldl_cons, ih, List.append_assoc, List.length_append]
      simp [numbered]

/-- Indexing adds the drafts of the pages that the stored text is split into. -/
theorem appendAttachment_eq (ix : Indexer) (output : List SourceDraft)
    (attachment : Indexing.Attachment) :
    ix.appendAttachment output attachment = output ++ numbered attachment output.length
      (pageDrafts ix.chunk
        (decide (1 < (splitPages (attachment.parsedText.getD "")).length) ||
          attachment.pageCount.isSome)
        (splitPages (attachment.parsedText.getD ""))) := by
  unfold Indexer.appendAttachment
  dsimp only
  generalize (decide (1 < (splitPages (attachment.parsedText.getD "")).length) ||
    attachment.pageCount.isSome) = counted
  have hpages : ∀ (pages : List String) (k : ℕ) (output : List SourceDraft),
      (pages.zipIdx k).foldl (fun output page =>
        appendDrafts (some attachment) (if counted then some (page.2 + 1) else none) output
          (ix.chunk page.1)) output =
        output ++ numbered attachment output.length ((pages.zipIdx (k + 1)).flatMap fun page =>
          (ix.chunk page.1).map fun draft => (if counted then some page.2 else none, draft)) := by
    intro pages
    induction pages with
    | nil => simp [numbered]
    | cons page pages ih =>
        intro k output
        rw [List.zipIdx_cons, List.foldl_cons, ih, appendDrafts_eq, List.zipIdx_cons,
          List.flatMap_cons, numbered_append, List.append_assoc, List.length_append,
          length_numbered]
  exact hpages _ 0 output

/-! ## Splitting what was joined -/

/-- The texts of the pages that are stored. -/
def storedPages (D : DetectTools) (pages : List Text) (text : Text) : List Text :=
  if pages = [] then [cleanText D.nfkc text] else pages.map (cleanText D.nfkc)

/-- The stored text is split into the pages that it was joined of. -/
theorem splitPages_joinedText (D : DetectTools) (pages : List Text) (text : Text) :
    splitPages (String.ofList (joinedText D pages text)) =
      (storedPages D pages text).map String.ofList := by
  have hjoined : joinedText D pages text =
      List.intercalate [formFeed] (storedPages D pages text) := by
    unfold joinedText storedPages
    split_ifs
    · rw [List.intercalate_singleton]
    · rfl
  have hclean : ∀ page ∈ storedPages D pages text, formFeed ∉ page := by
    intro page hpage
    unfold storedPages at hpage
    split_ifs at hpage
    · rw [List.mem_singleton.mp hpage]
      exact formFeed_not_mem_cleanText
    · obtain ⟨raw, -, rfl⟩ := List.mem_map.mp hpage
      exact formFeed_not_mem_cleanText
  have hne : storedPages D pages text ≠ [] := by
    unfold storedPages
    split_ifs with hpages
    · simp
    · simpa using hpages
  unfold splitPages
  rw [String.toList_ofList, hjoined]
  exact congrArg _ (List.splitOn_intercalate formFeed hclean hne)

/-- The drafts of a row that holds these pages. -/
theorem appendAttachment_of_joinedText {D : DetectTools} {row : ParsedRow} {pages : List Text}
    {text : Text} {count : Option ℕ} (htext : row.parsedText.getD [] = joinedText D pages text)
    (hcount : row.pageCount = countedPages pages count) (ix : Indexer) (output : List SourceDraft) :
    ix.appendAttachment output row.indexed = output ++ numbered row.indexed output.length
      (pageDrafts ix.chunk (decide (pages ≠ []) || count.isSome)
        ((storedPages D pages text).map String.ofList)) := by
  have hstored : row.indexed.parsedText.getD "" = String.ofList (joinedText D pages text) := by
    rw [← htext]
    change (row.parsedText.map String.ofList).getD "" = _
    cases row.parsedText <;> rfl
  have hcounted : (decide (1 < (storedPages D pages text).length) || row.indexed.pageCount.isSome) =
      (decide (pages ≠ []) || count.isSome) := by
    have hpageCount : row.indexed.pageCount = countedPages pages count := hcount
    rw [hpageCount]
    unfold storedPages countedPages
    split_ifs with hpages <;> simp [hpages]
  rw [appendAttachment_eq, hstored, splitPages_joinedText, List.length_map, hcounted]

/-! ## Attribution -/

/-- The bytes give these pages, and this text: a parser reads them, or the provider recognises
them. -/
inductive Extracts (D : DetectTools) (row : ParsedRow) (call : ParseCall) (input : ParseInput) :
    List Text → Text → Prop
  | parsed {parser : Parser} {parsed : ParsedArtifact} :
      ParsedAs input parser parsed → Extracts D row call input parsed.pages parsed.text
  | recognized {provider : OcrProvider} {result : OcrResult} :
      RecognizedAs D row call input provider result →
        Extracts D row call input result.pages result.text

/-- The row holds the extracted pages, whether they are accepted or not. -/
theorem Extracts.holds {D : DetectTools} {row : ParsedRow} {files : Files} {call : ParseCall}
    {input : ParseInput} {pages : List Text} {text : Text} (h : Parses D row files call input)
    (hextracts : Extracts D row call input pages text) :
    (parseAttachment D row files call).row.parsedText.getD [] = joinedText D pages text ∧
      ∃ count, (parseAttachment D row files call).row.pageCount = countedPages pages count := by
  cases hextracts with
  | @parsed parser parsed hparsed =>
      rw [(h.of_parsedAs hparsed).1]
      unfold afterParsed
      dsimp only
      split_ifs <;> exact ⟨rfl, _, rfl⟩
  | @recognized provider result hresult =>
      have hnonEmpty : (nonEmpty (joinedText D result.pages result.text)).getD [] =
          joinedText D result.pages result.text := by
        unfold nonEmpty
        split_ifs with hempty
        · rw [hempty]
          rfl
        · rfl
      rw [(h.of_recognizedAs hresult).1]
      unfold afterRecognized
      dsimp only
      split_ifs <;> exact ⟨hnonEmpty, _, rfl⟩

/-- **Attribution.** The pages that a call extracts are indexed as they were cleaned, in their order,
each draft with the number of its page. Without pages the cleaned text is indexed as one page. -/
theorem page_attribution {D : DetectTools} {row : ParsedRow} {files : Files} {call : ParseCall}
    {input : ParseInput} {pages : List Text} {text : Text} (h : Parses D row files call input)
    (hextracts : Extracts D row call input pages text) (ix : Indexer) (output : List SourceDraft) :
    (pages ≠ [] →
      ix.appendAttachment output (parseAttachment D row files call).row.indexed =
        output ++ numbered (parseAttachment D row files call).row.indexed output.length
          (pageDrafts ix.chunk true
            (pages.map fun page => String.ofList (cleanText D.nfkc page)))) ∧
      (pages = [] → ∃ counted,
        ix.appendAttachment output (parseAttachment D row files call).row.indexed =
          output ++ numbered (parseAttachment D row files call).row.indexed output.length
            (pageDrafts ix.chunk counted [String.ofList (cleanText D.nfkc text)])) := by
  obtain ⟨htext, count, hcount⟩ := hextracts.holds h
  have hdrafts := appendAttachment_of_joinedText htext hcount ix output
  constructor
  · intro hpages
    rw [hdrafts, storedPages, if_neg hpages, List.map_map]
    simp only [hpages, ne_eq, not_false_eq_true, decide_true, Bool.true_or]
    rfl
  · rintro rfl
    exact ⟨_, hdrafts⟩

/-- A chunker that makes one draft of a page that is not empty. -/
def wholePages : Indexer where
  chunk page := if page = "" then [] else [⟨page, [], none, page.length⟩]
  sha256 := id
  dimensions := 0
  providerName := ""
  modelName := ""

/-- The page behind a blank one keeps its number. -/
theorem page_attribution_blank :
    (wholePages.appendAttachment [] (parseAttachment sampleTools pdfHeld.row pdfHeld.files
        (pagesCall [str "一", [], str "三"])).row.indexed).map
          (fun draft => (draft.pageNumber, draft.content)) = [(some 1, "一"), (some 3, "三")] := by
  have hparses : Parses sampleTools pdfHeld.row pdfHeld.files (pagesCall [str "一", [], str "三"])
      ⟨bytes (str "%PDF-1"), str "attachment.pdf",
        some (pagesParser [str "一", [], str "三"])⟩ := by
    refine ⟨⟨by decide +kernel, by decide +kernel, by decide +kernel, rfl, by decide +kernel, rfl,
      by decide +kernel, ?_⟩, .inr (by decide +kernel)⟩
    exact ⟨_, rfl, by decide +kernel⟩
  rw [(page_attribution hparses (.parsed ⟨rfl, rfl, rfl⟩) wholePages []).1 (by decide)]
  decide +kernel

end Odirag.Attachments
