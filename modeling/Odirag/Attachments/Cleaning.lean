import Odirag.Chunking.Heading
import Odirag.Foundations.Distinct

/-!
# Cleaning a text

Reference: `backend/app/cleaners/text.py`.

A text is cleaned line by line, and its repeated paragraphs are dropped. What is left has no line
break but the line feed, so no form feed (`formFeed_not_mem_cleanText`), and it is empty or begins
and ends with a character that is no white space (`cleanText_tight`). The normal form of Unicode is a
parameter, of which nothing is used.
-/

namespace Odirag.Attachments

open Regex
open Chunking (strip splitlines replaceReturns isLineBreak blank dot)
open Chunking.ChunkingConfig (blankLine)
open Documents (isSpace)

/-! ## Lines -/

/-- `[\t \u3000]+`. -/
def spaces : Regex := plus (char fun c => c = '\t' || c = ' ' || c.toNat == 0x3000)

/-- `DEFAULT_BOILERPLATE_PATTERNS` without their anchors: a line has no line break in it. -/
def boilerplatePatterns : List Regex :=
  [lit "打印本页", lit "关闭窗口", seqs [lit "责任编辑", anyOf ":：", plus dot],
    lit "扫一扫在手机打开当前页"]

/-- A line that one of the patterns matches. -/
def isBoilerplate (line : Text) : Bool := boilerplatePatterns.any fun pattern => pattern.fullmatch line

/-- One line of `clean_text`. -/
def addLine (lines : List Text) (line : Text) : List Text :=
  let value := strip (sub spaces [' '] line)
  if value ≠ [] ∧ !isBoilerplate value then lines ++ [value]
  else if value = [] ∧ lines ≠ [] ∧ lines.getLast? ≠ some [] then lines ++ [[]]
  else lines

/-! ## Paragraphs -/

/-- `re.sub(r"\s+", "", paragraph)`. -/
def paragraphFingerprint (paragraph : Text) : Text := sub (plus blank) [] paragraph

/-- `"\n\n".join(paragraphs)`. -/
def joinParagraphs (paragraphs : List Text) : Text := List.intercalate ['\n', '\n'] paragraphs

/-- `remove_duplicate_paragraphs`. -/
def removeDuplicateParagraphs (text : Text) : Text :=
  let paragraphs := ((blankLine.split text).map strip).filter (· ≠ [])
  joinParagraphs (firstsBy paragraphFingerprint paragraphs)

/-- `clean_text`. -/
def cleanText (nfkc : Text → Text) (text : Text) : Text :=
  let normalized := replaceReturns (nfkc text)
  let lines := (splitlines normalized).foldl addLine []
  strip (removeDuplicateParagraphs (Text.joinLines lines))

/-! ## What is left -/

variable {nfkc : Text → Text} {text : Text}

theorem mem_of_mem_strip {c : Char} {t : Text} (h : c ∈ strip t) : c ∈ t :=
  Text.mem_of_mem_stripBy h

theorem isLineBreak_false_of_mem_splitlines {line : Text} (h : line ∈ splitlines text) :
    ∀ c ∈ line, isLineBreak c = false := by
  have hline : line ∈ text.splitOnP isLineBreak := by
    unfold splitlines at h
    dsimp only at h
    split_ifs at h
    · exact List.mem_of_mem_dropLast h
    · exact h
  obtain ⟨-, -, -, hbreaks, -⟩ := Text.mem_splitOnP hline
  exact hbreaks

/-- The lines that are kept have no line break in them. -/
theorem isLineBreak_false_of_mem_addLine {lines : List Text} {line : Text}
    (hlines : ∀ l ∈ lines, ∀ c ∈ l, isLineBreak c = false)
    (hline : ∀ c ∈ line, isLineBreak c = false) :
    ∀ l ∈ addLine lines line, ∀ c ∈ l, isLineBreak c = false := by
  have hvalue : ∀ c ∈ strip (sub spaces [' '] line), isLineBreak c = false := by
    intro c hc
    rcases mem_of_mem_sub (mem_of_mem_strip hc) with hspace | hmem
    · rw [List.mem_singleton.mp hspace]
      rfl
    · exact hline c hmem
  intro l hl
  unfold addLine at hl
  dsimp only at hl
  split_ifs at hl
  · rcases List.mem_append.mp hl with hl | hl
    · exact hlines l hl
    · rw [List.mem_singleton.mp hl]
      exact hvalue
  · rcases List.mem_append.mp hl with hl | hl
    · exact hlines l hl
    · rw [List.mem_singleton.mp hl]
      simp
  · exact hlines l hl

/-- The only line break of a cleaned text is the line feed. -/
theorem eq_newline_of_mem_cleanText {c : Char} (h : c ∈ cleanText nfkc text)
    (hbreak : isLineBreak c = true) : c = '\n' := by
  have hlines : ∀ (given kept : List Text), (∀ l ∈ given, ∀ c ∈ l, isLineBreak c = false) →
      (∀ l ∈ kept, ∀ c ∈ l, isLineBreak c = false) →
      ∀ l ∈ given.foldl addLine kept, ∀ c ∈ l, isLineBreak c = false := by
    intro given
    induction given with
    | nil => exact fun _ _ hkept => hkept
    | cons line given ih =>
        exact fun kept hgiven hkept => ih _ (fun l hl => hgiven l (List.mem_cons_of_mem _ hl))
          (isLineBreak_false_of_mem_addLine hkept (hgiven line List.mem_cons_self))
  rcases Text.mem_of_mem_intercalate (mem_of_mem_strip h) with hjoin | ⟨paragraph, hparagraph, hc⟩
  · simpa using hjoin
  · have hpart := List.mem_of_mem_filter (mem_of_mem_firstsBy hparagraph)
    obtain ⟨part, hin, rfl⟩ := List.mem_map.mp hpart
    rcases Text.mem_of_mem_intercalate (mem_of_mem_split hin (mem_of_mem_strip hc)) with
      hjoin | ⟨line, hline, hc⟩
    · simpa using hjoin
    · have hnone := hlines _ [] (fun l hl => isLineBreak_false_of_mem_splitlines hl) (by simp) line
        hline c hc
      rw [hnone] at hbreak
      cases hbreak

/-- `\f`. -/
def formFeed : Char := Char.ofNat 12

/-- There is no form feed in a cleaned text. -/
theorem formFeed_not_mem_cleanText : formFeed ∉ cleanText nfkc text := fun h => by
  have heq : formFeed = '\n' := eq_newline_of_mem_cleanText h rfl
  exact absurd heq (by decide)

theorem cleanText_tight : cleanText nfkc text = [] ∨ Text.Tight isSpace (cleanText nfkc text) := by
  by_cases h : cleanText nfkc text = []
  · exact .inl h
  · exact .inr (@Text.tight_stripBy isSpace _ h)

/-- A cleaned text without visible characters is empty. -/
theorem ink_cleanText : Text.ink isSpace (cleanText nfkc text) = [] ↔ cleanText nfkc text = [] := by
  constructor
  · exact fun h => cleanText_tight.resolve_right fun htight => htight.ink_ne_nil h
  · intro h
    rw [h, Text.ink_nil]

end Odirag.Attachments
