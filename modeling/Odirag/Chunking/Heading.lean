import Odirag.Documents.Document
import Odirag.Foundations.Ink

/-!
# Chunks along headings

Reference: `backend/app/chunking/heading.py`.

A text is cut into sections at its headings, a section into paragraphs at blank lines, and a
paragraph that is too long at the last separator near the limit. The parts are packed into chunks,
each of which repeats the end of the one before it. What the interpreter takes for a digit is a
parameter.
-/

namespace Odirag.Chunking

open Regex
open Documents (isSpace)

/-! ## Configuration -/

/-- A configuration that `__post_init__` takes. -/
structure ChunkingConfig where
  targetChars : ℕ := 800
  minChars : ℕ := 160
  maxChars : ℕ := 1200
  overlapChars : ℕ := 120
  overlap_lt : overlapChars < targetChars := by decide
  min_pos : 0 < minChars := by decide
  min_le : minChars ≤ targetChars := by decide
  target_le : targetChars ≤ maxChars := by decide

structure ChunkDraft where
  index : ℕ
  content : Text
  sectionPath : List Text
  sectionTitle : Option Text
  charCount : ℕ
deriving DecidableEq, Repr

structure HeadingAwareChunker where
  config : ChunkingConfig
  /-- `\d`. -/
  isDigit : Char → Bool

/-! ## Lines -/

/-- `text.strip()`. -/
def strip (text : Text) : Text := Text.stripBy isSpace text

/-- `text.lstrip()`. -/
def lstrip (text : Text) : Text := text.dropWhile isSpace

/-- `text.lstrip("#")`. -/
def lstripMarks (text : Text) : Text := text.dropWhile (· == '#')

/-- The line breaks of `str.splitlines`. -/
def isLineBreak (c : Char) : Bool :=
  (10 ≤ c.toNat && c.toNat ≤ 13) || (28 ≤ c.toNat && c.toNat ≤ 30) || c.toNat == 0x85 ||
    c.toNat == 0x2028 || c.toNat == 0x2029

/-- `text.splitlines()` of a text without carriage returns: a break at the end ends the last line. -/
def splitlines (text : Text) : List Text :=
  let lines := text.splitOnP isLineBreak
  if lines.getLast? = some [] then lines.dropLast else lines

/-- `text.replace("\r\n", "\n").replace("\r", "\n")`. -/
def replaceReturns (text : Text) : Text :=
  (text.replace ['\r', '\n'] ['\n']).replace ['\r'] ['\n']

/-! ## Sections -/

/-- `.`. -/
def dot : Regex := char (· != '\n')

/-- `\s`. -/
def blank : Regex := char isSpace

/-- The Chinese numerals of `_HEADING_RE`. -/
def isNumeral (c : Char) : Bool := c ∈ str "一二三四五六七八九十百千万零〇两"

/-- `_HEADING_RE`. -/
def headingPattern (isDigit : Char → Bool) : Regex :=
  oneOf [
    seqs [between (char (· == '#')) 1 6, plus blank, plus dot],
    seqs [lit "第", plus (char fun c => isNumeral c || isDigit c), anyOf "章节条编部分", star blank,
      star dot],
    seqs [plus (char isNumeral), lit "、", star blank, plus dot],
    seqs [plus (char isDigit), star (.seq (lit ".") (plus (char isDigit))), anyOf ".、)", star blank,
      plus dot]]

/-- A section: the headings above it and its own, its title and its text. -/
structure Section where
  path : List Text
  title : Option Text
  body : Text
deriving DecidableEq, Repr

/-- The text of a section, with its title. -/
def Section.text (s : Section) : Text :=
  (match s.title with
    | none => []
    | some title => if title = [] then [] else title ++ ['\n']) ++ s.body

/-- The state of the loop of `_sections`. -/
structure SectionState where
  sections : List Section
  headingStack : List Text
  title : Option Text
  body : List Text

/-- The section that is being read. -/
def SectionState.current (s : SectionState) : Section :=
  ⟨s.headingStack, s.title, strip (Text.joinLines s.body)⟩

namespace HeadingAwareChunker

variable (chunker : HeadingAwareChunker)

/-- A line that is a heading. -/
def isHeading (line : Text) : Bool :=
  !(strip line).isEmpty && (headingPattern chunker.isDigit).fullmatch (strip line)

/-- One line of `_sections`. -/
def addLine (s : SectionState) (line : Text) : SectionState :=
  let stripped := strip line
  if chunker.isHeading line then
    let level :=
      if stripped.head? = some '#' then stripped.length - (lstripMarks stripped).length else 1
    let cleanTitle := strip (lstripMarks stripped)
    { sections := if s.title ≠ none ∨ s.body ≠ [] then s.sections ++ [s.current] else s.sections
      headingStack := s.headingStack.take (level - 1) ++ [cleanTitle]
      title := some cleanTitle
      body := [] }
  else { s with body := s.body ++ [line] }

/-- `_sections`. -/
def sections (text : Text) : List Section :=
  let s := (splitlines text).foldl chunker.addLine ⟨[], [], none, []⟩
  s.sections ++ [s.current]

end HeadingAwareChunker

/-! ## Long paragraphs -/

/-- `text.rfind(c, start)`, or -1. -/
def rfind (text : Text) (c : Char) (start : ℕ) : ℤ :=
  match ((List.range text.length).filter fun i => start ≤ i ∧ text[i]? = some c).getLast? with
  | none => -1
  | some i => i

/-- `separators`. -/
def separators : List Char := str "\n。！？；;，, "

/-- `minimum_boundary`. -/
def minimumBoundary (limit : ℕ) : ℕ := max 1 (limit / 3)

/-- `boundary`: the last separator of the window, or -1. -/
def boundary (limit : ℕ) (remaining : Text) : ℤ :=
  separators.foldl (fun boundary separator =>
    let candidate := rfind (remaining.take (limit + 1)) separator (minimumBoundary limit)
    if candidate > boundary then candidate else boundary) (-1)

/-- `cut`; a separator is one character long. -/
def cutAt (limit : ℕ) (remaining : Text) : ℕ :=
  if boundary limit remaining ≥ minimumBoundary limit then (boundary limit remaining).toNat + 1
  else limit

theorem cutAt_pos {limit : ℕ} (h : 0 < limit) (remaining : Text) : 0 < cutAt limit remaining := by
  unfold cutAt
  split_ifs
  · exact Nat.succ_pos _
  · exact h

/-- The loop of `_separator_fallback`: each step cuts something off. -/
def fallbackFrom (limit : {n : ℕ // 0 < n}) (remaining : Text) : List Text :=
  if limit < remaining.length then
    let piece := strip (remaining.take (cutAt limit remaining))
    (if piece = [] then [] else [piece]) ++
      fallbackFrom limit (strip (remaining.drop (cutAt limit remaining)))
  else if remaining = [] then []
  else [remaining]
termination_by remaining.length
decreasing_by
  have hstrip : (strip (remaining.drop (cutAt limit remaining))).length ≤
      (remaining.drop (cutAt limit remaining)).length := Text.length_stripBy_le _
  have hcut := cutAt_pos limit.2 remaining
  rw [List.length_drop] at hstrip
  omega

/-- `_separator_fallback`. -/
def separatorFallback (text : Text) (limit : {n : ℕ // 0 < n}) : List Text :=
  fallbackFrom limit (strip text)

namespace ChunkingConfig

variable (config : ChunkingConfig)

/-- `piece_limit`. -/
def pieceLimit : {n : ℕ // 0 < n} :=
  ⟨max 1 (config.maxChars - config.overlapChars - if config.overlapChars = 0 then 0 else 2),
    Nat.lt_of_lt_of_le Nat.one_pos (le_max_left _ _)⟩

/-- `_hard_split`. -/
def hardSplit (text : Text) : List Text :=
  if text.length ≤ config.pieceLimit then [text] else separatorFallback text config.pieceLimit

/-! ## Packing -/

/-- `\n\s*\n`. -/
def blankLine : Regex := seqs [lit "\n", star blank, lit "\n"]

/-- The paragraphs of a text, or the text itself if it has none. -/
def paragraphs (body : Text) : List Text :=
  let paragraphs := ((blankLine.split body).map strip).filter (· ≠ [])
  if paragraphs = [] then [strip body] else paragraphs

/-- The state of the loop of `_split_body`. -/
structure Packing where
  chunks : List Text
  current : Text
deriving DecidableEq, Repr

/-- `overlap`. -/
def overlap (current : Text) : Text :=
  if config.overlapChars = 0 then []
  else lstrip (current.drop (current.length - config.overlapChars))

/-- `candidate`. -/
def candidate (current part : Text) : Text :=
  if current = [] then part else strip (current ++ '\n' :: '\n' :: part)

/-- `should_flush`. -/
def shouldFlush (current part : Text) : Bool :=
  config.maxChars < (candidate current part).length ||
    config.targetChars < (candidate current part).length && config.minChars ≤ current.length

/-- The current chunk is finished before this part. -/
def flushes (current part : Text) : Bool := current ≠ [] && config.shouldFlush current part

/-- One part of `_split_body`. -/
def addPart (s : Packing) (part : Text) : Packing :=
  if config.flushes s.current part then
    ⟨s.chunks ++ [s.current], strip (config.overlap s.current ++ '\n' :: '\n' :: part)⟩
  else ⟨s.chunks, candidate s.current part⟩

/-- The parts of a text. -/
def parts (body : Text) : List Text := (paragraphs body).flatMap config.hardSplit

/-- `_split_body`. -/
def splitBody (body : Text) : List Text :=
  let s := (config.parts body).foldl config.addPart ⟨[], []⟩
  if s.current = [] then s.chunks else s.chunks ++ [s.current]

end ChunkingConfig

namespace HeadingAwareChunker

variable (chunker : HeadingAwareChunker)

/-- `raw_chunks`. -/
def rawChunks (sections : List Section) : List (Text × Section) :=
  sections.flatMap fun s => (chunker.config.splitBody s.text).map fun piece => (piece, s)

/-- `chunk`. -/
def chunk (text : Text) : List ChunkDraft :=
  let normalized := strip (replaceReturns text)
  if normalized = [] then []
  else
    ((chunker.rawChunks (chunker.sections normalized)).zipIdx.filter fun entry =>
      strip entry.1.1 ≠ []).map fun entry =>
        ⟨entry.2, entry.1.1, entry.1.2.path, entry.1.2.title, entry.1.1.length⟩

end HeadingAwareChunker

end Odirag.Chunking
