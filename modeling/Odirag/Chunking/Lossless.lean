import Odirag.Chunking.Heading
import Mathlib.Data.List.SplitBy

/-!
# Chunking loses and invents nothing

Reference: `backend/app/chunking/heading.py`.

Every step moves blanks only. The sections are those that the headings give (`map_sections`), their text
is the text without the marks of its headings (`ink_sections`), the parts of a section are its text
(`parts_spec`), and each chunk is the overlap of the one before it followed by new parts (`Packed`). So
without their overlaps the chunks are the text, each within its section (`chunk_lossless`).
-/

namespace Odirag.Chunking

open Regex
open Documents (isSpace)

/-- The characters of a text that are no whitespace. -/
def ink (text : Text) : Text := Text.ink isSpace text

@[simp] theorem ink_nil : ink [] = [] := rfl

@[simp] theorem ink_append (a b : Text) : ink (a ++ b) = ink a ++ ink b := Text.ink_append a b

theorem ink_newline (text : Text) : ink ('\n' :: text) = ink text :=
  Text.ink_cons_of_blank (by decide) text

@[simp] theorem ink_strip (text : Text) : ink (strip text) = ink text := Text.ink_stripBy text

theorem strip_eq_nil {text : Text} : strip text = [] ↔ ink text = [] := Text.stripBy_eq_nil

/-- A text that begins and ends with a character that is no whitespace. -/
abbrev Tight (text : Text) : Prop := Text.Tight isSpace text

/-! ## Long paragraphs -/

/-- The pieces of a text that was cut are its text, and each of them is stripped. -/
theorem fallbackFrom_spec (limit : {n : ℕ // 0 < n}) (remaining : Text)
    (h : remaining = [] ∨ Tight remaining) :
    (fallbackFrom limit remaining).flatMap ink = ink remaining ∧
      ∀ piece ∈ fallbackFrom limit remaining, Tight piece := by
  fun_induction fallbackFrom limit remaining with
  | case1 remaining hlong piece ih =>
      have hrest : strip (remaining.drop (cutAt limit remaining)) = [] ∨
          Tight (strip (remaining.drop (cutAt limit remaining))) := by
        by_cases hempty : strip (remaining.drop (cutAt limit remaining)) = []
        · exact .inl hempty
        · exact .inr (Text.tight_stripBy hempty)
      obtain ⟨hink, htight⟩ := ih hrest
      have hpiece : (if piece = [] then [] else [piece]).flatMap ink =
          ink (remaining.take (cutAt limit remaining)) := by
        have hsame : ink piece = ink (remaining.take (cutAt limit remaining)) := ink_strip _
        split_ifs with hempty
        · rw [← hsame, hempty]
          rfl
        · simpa using hsame
      refine ⟨?_, fun p hp => ?_⟩
      · rw [List.flatMap_append, hpiece, hink, ink_strip, ← ink_append, List.take_append_drop]
      · rcases List.mem_append.mp hp with hp | hp
        · split_ifs at hp with hempty
          · cases hp
          · rw [List.mem_singleton.mp hp]
            exact Text.tight_stripBy hempty
        · exact htight p hp
  | case2 hshort => simp
  | case3 remaining hshort hne =>
      exact ⟨by simp, fun p hp => by rw [List.mem_singleton.mp hp]; exact h.resolve_left hne⟩

namespace ChunkingConfig

variable (config : ChunkingConfig)

theorem hardSplit_spec {text : Text} (h : Tight text) :
    (config.hardSplit text).flatMap ink = ink text ∧
      ∀ part ∈ config.hardSplit text, Tight part := by
  unfold hardSplit
  split_ifs
  · exact ⟨by simp, fun part hpart => by rwa [List.mem_singleton.mp hpart]⟩
  · have hstrip : strip text = text := h.stripBy_eq
    rw [separatorFallback, hstrip]
    exact fallbackFrom_spec config.pieceLimit text (.inr h)

/-! ## Paragraphs -/

theorem matchesBlanks_blankLine : Text.MatchesBlanks isSpace blankLine :=
  Text.matchesBlanks_between (fun _ h => h) (by decide) (by decide)

/-- The paragraphs of a text are its text. They are stripped, unless there is only an empty one. -/
theorem paragraphs_spec (body : Text) :
    (paragraphs body).flatMap ink = ink body ∧
      (paragraphs body = [[]] ∨ ∀ paragraph ∈ paragraphs body, Tight paragraph) := by
  have hsplit : (((blankLine.split body).map strip).filter (· ≠ [])).flatMap ink = ink body := by
    rw [ink, ← Text.ink_split matchesBlanks_blankLine body]
    induction blankLine.split body with
    | nil => rfl
    | cons part rest ih =>
        have hpart : ink (strip part) = Text.ink isSpace part := ink_strip part
        rw [List.map_cons, List.flatMap_cons, ← ih]
        by_cases hempty : strip part = []
        · rw [List.filter_cons_of_neg (by simpa using hempty), ← hpart, hempty]
          rfl
        · rw [List.filter_cons_of_pos (by simpa using hempty), List.flatMap_cons, hpart]
  unfold paragraphs
  simp only
  split_ifs with hnone
  · rw [hnone] at hsplit
    refine ⟨by simp, .inl ?_⟩
    rw [strip_eq_nil.mpr hsplit.symm]
  · refine ⟨hsplit, .inr fun paragraph hparagraph => ?_⟩
    obtain ⟨hmem, hne⟩ := List.mem_filter.mp hparagraph
    obtain ⟨part, -, rfl⟩ := List.mem_map.mp hmem
    have hne' : strip part ≠ [] := by simpa using hne
    exact Text.tight_stripBy hne'

/-- The parts of a text are its text. They are stripped, unless there is only an empty one. -/
theorem parts_spec (body : Text) :
    (config.parts body).flatMap ink = ink body ∧
      (config.parts body = [[]] ∨ ∀ part ∈ config.parts body, Tight part) := by
  obtain ⟨hink, hparagraphs⟩ := paragraphs_spec body
  rw [← hink]
  unfold parts
  rcases hparagraphs with hempty | htight
  · rw [hempty]
    have hsplit : config.hardSplit [] = [[]] := by simp [hardSplit]
    simp [hsplit]
  · refine ⟨?_, .inr fun part hpart => ?_⟩
    · rw [List.flatMap_assoc]
      exact List.flatMap_congr fun paragraph hparagraph =>
        (config.hardSplit_spec (htight paragraph hparagraph)).1
    · obtain ⟨paragraph, hparagraph, hin⟩ := List.mem_flatMap.mp hpart
      exact (config.hardSplit_spec (htight paragraph hparagraph)).2 part hin

/-! ## Packing -/

/-- What is finished, with the chunk that is being packed. -/
def Packing.pieces (s : Packing) : List Text :=
  if s.current = [] then s.chunks else s.chunks ++ [s.current]

/-- The chunks without their overlaps; `previous` is the chunk before them. -/
def freshFrom (previous : Text) : List Text → List Text
  | [] => []
  | piece :: rest => piece.drop (config.overlap previous).length :: freshFrom piece rest

/-- The chunks of a section without their overlaps. -/
def fresh (pieces : List Text) : List Text := freshFrom config [] pieces

/-- The overlap of a chunk is the end of this chunk and the beginning of the next one. -/
def Continues (previous piece : Text) : Prop :=
  config.overlap previous <:+ previous ∧ config.overlap previous <+: piece

theorem overlap_suffix (current : Text) : config.overlap current <:+ current := by
  unfold overlap
  split_ifs
  · exact List.nil_suffix
  · exact (List.dropWhile_suffix _).trans (List.drop_suffix _ _)

@[simp] theorem overlap_nil : config.overlap [] = [] := by
  simpa using config.overlap_suffix []

theorem freshFrom_append (previous : Text) (pieces : List Text) (piece : Text) :
    freshFrom config previous (pieces ++ [piece]) =
      freshFrom config previous pieces ++
        [piece.drop (config.overlap (pieces.getLast?.getD previous)).length] := by
  induction pieces generalizing previous with
  | nil => rfl
  | cons p pieces ih =>
      rw [List.cons_append, freshFrom, ih, freshFrom, List.getLast?_cons]
      cases pieces.getLast? <;> rfl

/-- The text that begins after a tight one is tight, with the overlap in front. -/
theorem tight_overlap {current : Text} (h : Tight current) :
    config.overlap current = [] ∨ Tight (config.overlap current) := by
  by_cases hempty : config.overlap current = []
  · exact .inl hempty
  refine .inr ⟨hempty, fun c hc => ?_, fun c hc => ?_⟩
  · unfold overlap at hc
    split_ifs at hc
    · cases hc
    · exact Text.head?_dropWhile _ c hc
  · obtain ⟨front, heq⟩ := config.overlap_suffix current
    refine h.last c ?_
    rwa [← heq, List.getLast?_append_of_ne_nil _ hempty]

/-- A new chunk is the overlap, blanks and the part. -/
theorem strip_overlap {current part : Text} (hcurrent : Tight current) (hpart : Tight part) :
    ∃ rest, strip (config.overlap current ++ '\n' :: '\n' :: part) =
        config.overlap current ++ rest ∧
      ink rest = ink part ∧
      Tight (strip (config.overlap current ++ '\n' :: '\n' :: part)) := by
  rcases config.tight_overlap hcurrent with hempty | htight
  · have hstrip : strip ('\n' :: '\n' :: part) = part := by
      have hdrop : strip ('\n' :: '\n' :: part) = strip part := rfl
      rw [hdrop]
      exact hpart.stripBy_eq
    rw [hempty, List.nil_append, hstrip]
    exact ⟨part, rfl, rfl, hpart⟩
  · have hjoined := htight.join hpart ['\n', '\n']
    have hsame : config.overlap current ++ ['\n', '\n'] ++ part =
        config.overlap current ++ '\n' :: '\n' :: part := by simp
    rw [hsame] at hjoined
    have hstrip : strip (config.overlap current ++ '\n' :: '\n' :: part) =
        config.overlap current ++ '\n' :: '\n' :: part := hjoined.stripBy_eq
    rw [hstrip]
    exact ⟨_, rfl, by rw [ink_newline, ink_newline], hjoined⟩

/-- A chunk that goes on is the chunk, blanks and the part. -/
theorem candidate_tight {current part : Text} (hcurrent : Tight current) (hpart : Tight part) :
    candidate current part = current ++ '\n' :: '\n' :: part ∧ Tight (candidate current part) := by
  have hjoined := hcurrent.join hpart ['\n', '\n']
  have hsame : current ++ ['\n', '\n'] ++ part = current ++ '\n' :: '\n' :: part := by simp
  rw [hsame] at hjoined
  have hstrip : strip (current ++ '\n' :: '\n' :: part) = current ++ '\n' :: '\n' :: part :=
    hjoined.stripBy_eq
  rw [candidate, if_neg hcurrent.ne_nil, hstrip]
  exact ⟨rfl, hjoined⟩

/-- The state of the packing after parts with the text `done`. -/
structure Packed (s : Packing) (done : Text) : Prop where
  started : s.current = [] → s.chunks = []
  tight : ∀ piece ∈ s.pieces, Tight piece
  chained : s.pieces.IsChain (Continues config)
  fresh_eq : (fresh config s.pieces).flatMap ink = done
  inside : ∀ piece ∈ s.pieces, ink piece <:+: done
  last : ink s.current <:+ done

theorem packed_nil : Packed config ⟨[], []⟩ [] where
  started _ := rfl
  tight := by simp [Packing.pieces]
  chained := by simp [Packing.pieces]
  fresh_eq := rfl
  inside := by simp [Packing.pieces]
  last := List.suffix_refl []

variable {config} {s : Packing} {done part : Text}

theorem pieces_of_ne_nil (h : s.current ≠ []) : s.pieces = s.chunks ++ [s.current] := if_neg h

/-- The current chunk is the last piece. -/
theorem Packed.tight_current (h : Packed config s done) (hne : s.current ≠ []) :
    Tight s.current :=
  h.tight s.current (by rw [pieces_of_ne_nil hne]; simp)

/-- A chunk is finished, and the next one begins. -/
theorem Packed.flush (h : Packed config s done) (hne : s.current ≠ []) (hpart : Tight part) :
    Packed config ⟨s.chunks ++ [s.current],
      strip (config.overlap s.current ++ '\n' :: '\n' :: part)⟩ (done ++ ink part) := by
  obtain ⟨rest, hnew, hrest, htight⟩ := config.strip_overlap (h.tight_current hne) hpart
  rw [hnew] at htight ⊢
  have hpieces : Packing.pieces ⟨s.chunks ++ [s.current], config.overlap s.current ++ rest⟩ =
      s.pieces ++ [config.overlap s.current ++ rest] := by
    rw [pieces_of_ne_nil htight.ne_nil, pieces_of_ne_nil hne]
  have hsuffix : ink (config.overlap s.current ++ rest) <:+ done ++ ink part := by
    obtain ⟨front, hfront⟩ := config.overlap_suffix s.current
    obtain ⟨before, hbefore⟩ := h.last
    refine ⟨before ++ ink front, ?_⟩
    rw [← hbefore, ← hrest]
    conv_rhs => rw [← hfront]
    simp
  -- The chunk that is finished is what the new one overlaps with.
  have hlast : s.pieces.getLast? = some s.current := by
    rw [pieces_of_ne_nil hne]
    simp
  refine
    { started := fun hempty => absurd hempty htight.ne_nil
      tight := ?_
      chained := ?_
      fresh_eq := ?_
      inside := ?_
      last := hsuffix }
  · rw [hpieces]
    intro piece hpiece
    rcases List.mem_append.mp hpiece with hpiece | hpiece
    · exact h.tight piece hpiece
    · rwa [List.mem_singleton.mp hpiece]
  · rw [hpieces]
    refine List.isChain_append.mpr ⟨h.chained, List.isChain_singleton _, fun a ha b hb => ?_⟩
    rw [hlast] at ha
    obtain rfl : s.current = a := Option.some.inj ha
    obtain rfl : config.overlap s.current ++ rest = b := by simpa using hb
    exact ⟨config.overlap_suffix s.current, List.prefix_append _ _⟩
  · have hfresh := h.fresh_eq
    rw [fresh] at hfresh
    rw [hpieces, fresh, freshFrom_append, hlast, List.flatMap_append, hfresh]
    simp [hrest]
  · rw [hpieces]
    intro piece hpiece
    rcases List.mem_append.mp hpiece with hpiece | hpiece
    · exact (h.inside piece hpiece).trans (List.infix_append' [] done (ink part))
    · rw [List.mem_singleton.mp hpiece]
      exact hsuffix.isInfix

/-- The current chunk goes on. -/
theorem Packed.extend (h : Packed config s done) (hne : s.current ≠ []) (hpart : Tight part) :
    Packed config ⟨s.chunks, candidate s.current part⟩ (done ++ ink part) := by
  obtain ⟨hnew, htight⟩ := candidate_tight (h.tight_current hne) hpart
  have hpieces : Packing.pieces ⟨s.chunks, candidate s.current part⟩ =
      s.chunks ++ [candidate s.current part] := pieces_of_ne_nil htight.ne_nil
  have hink : ink (candidate s.current part) = ink s.current ++ ink part := by
    rw [hnew, ink_append, ink_newline, ink_newline]
  have hsuffix : ink (candidate s.current part) <:+ done ++ ink part := by
    obtain ⟨before, hbefore⟩ := h.last
    exact ⟨before, by rw [hink, ← List.append_assoc, hbefore]⟩
  -- Only the last piece changes: the pieces before it keep their chain, and their joint with it.
  have hold := h.chained
  rw [pieces_of_ne_nil hne] at hold
  obtain ⟨hchunks, -, hjoint⟩ := List.isChain_append.mp hold
  have hcontinues : ∀ previous ∈ s.chunks.getLast?, Continues config previous s.current :=
    fun previous hprevious => hjoint previous hprevious s.current (by simp)
  refine
    { started := fun hempty => absurd hempty htight.ne_nil
      tight := ?_
      chained := ?_
      fresh_eq := ?_
      inside := ?_
      last := hsuffix }
  · rw [hpieces]
    intro piece hpiece
    rcases List.mem_append.mp hpiece with hpiece | hpiece
    · exact h.tight piece (by rw [pieces_of_ne_nil hne]; exact List.mem_append_left _ hpiece)
    · rwa [List.mem_singleton.mp hpiece]
  · rw [hpieces]
    refine List.isChain_append.mpr ⟨hchunks, List.isChain_singleton _, fun a ha b hb => ?_⟩
    obtain rfl : candidate s.current part = b := by simpa using hb
    obtain ⟨hsuffix, hfront⟩ := hcontinues a ha
    exact ⟨hsuffix, hfront.trans (by rw [hnew]; exact List.prefix_append _ _)⟩
  · have hfresh := h.fresh_eq
    rw [fresh, pieces_of_ne_nil hne, freshFrom_append, List.flatMap_append] at hfresh
    -- The overlap is part of the old chunk, so the new text lies behind it.
    have hlength : (config.overlap (s.chunks.getLast?.getD [])).length ≤ s.current.length := by
      cases hlast : s.chunks.getLast? with
      | none => simp
      | some previous => exact (hcontinues previous (Option.mem_def.mpr hlast)).2.length_le
    rw [hpieces, fresh, freshFrom_append, List.flatMap_append, hnew,
      List.drop_append_of_le_length hlength, ← hfresh]
    simp [ink_newline]
  · rw [hpieces]
    intro piece hpiece
    rcases List.mem_append.mp hpiece with hpiece | hpiece
    · exact (h.inside piece (by
        rw [pieces_of_ne_nil hne]
        exact List.mem_append_left _ hpiece)).trans (List.infix_append' [] done (ink part))
    · rw [List.mem_singleton.mp hpiece]
      exact hsuffix.isInfix

/-- The first chunk begins. -/
theorem Packed.begin (h : Packed config s done) (hempty : s.current = []) (hpart : Tight part) :
    Packed config ⟨s.chunks, candidate s.current part⟩ (done ++ ink part) := by
  have hchunks := h.started hempty
  have hdone : done = [] := by
    rw [← h.fresh_eq, Packing.pieces, if_pos hempty, hchunks]
    rfl
  have hnew : candidate s.current part = part := if_pos hempty
  have hpieces : Packing.pieces ⟨s.chunks, candidate s.current part⟩ = [part] := by
    rw [hnew, pieces_of_ne_nil hpart.ne_nil, hchunks]
    rfl
  refine
    { started := fun hnil => absurd (hnew ▸ hnil) hpart.ne_nil
      tight := by rw [hpieces]; simpa using hpart
      chained := by rw [hpieces]; exact List.isChain_singleton _
      fresh_eq := by rw [hpieces, hdone]; simp [fresh, freshFrom]
      inside := by rw [hpieces, hdone]; simp
      last := by rw [hnew, hdone]; exact List.suffix_refl _ }

/-- One part. -/
theorem Packed.addPart (h : Packed config s done) (hpart : Tight part) :
    Packed config (config.addPart s part) (done ++ ink part) := by
  unfold ChunkingConfig.addPart
  split_ifs with hflush
  · have hne : s.current ≠ [] := by
      simp only [flushes, Bool.and_eq_true, decide_eq_true_eq] at hflush
      exact hflush.1
    exact h.flush hne hpart
  · by_cases hempty : s.current = []
    · exact h.begin hempty hpart
    · exact h.extend hempty hpart

/-- All parts. -/
theorem Packed.foldl {parts : List Text} (h : Packed config s done)
    (hparts : ∀ part ∈ parts, Tight part) :
    Packed config (parts.foldl config.addPart s) (done ++ parts.flatMap ink) := by
  induction parts generalizing s done with
  | nil => simpa using h
  | cons part parts ih =>
      rw [List.foldl_cons, List.flatMap_cons, ← List.append_assoc]
      exact ih (h.addPart (hparts part List.mem_cons_self)) fun p hp =>
        hparts p (List.mem_cons_of_mem _ hp)

/-- The chunks of a section. -/
structure Chunked (config : ChunkingConfig) (text : Text) (pieces : List Text) : Prop where
  tight : ∀ piece ∈ pieces, Tight piece
  chained : pieces.IsChain (Continues config)
  fresh_eq : (fresh config pieces).flatMap ink = ink text
  inside : ∀ piece ∈ pieces, ink piece <:+: ink text

/-- What a section is packed into. -/
theorem splitBody_spec (config : ChunkingConfig) (body : Text) :
    Chunked config body (config.splitBody body) := by
  obtain ⟨hink, hparts⟩ := config.parts_spec body
  rcases hparts with hempty | htight
  · have hnone : config.splitBody body = [] := by
      have hstep : config.addPart ⟨[], []⟩ [] = ⟨[], []⟩ := rfl
      simp [splitBody, hempty, hstep]
    have hblank : ink body = [] := by
      rw [← hink, hempty]
      rfl
    rw [hnone]
    exact ⟨by simp, by simp, by rw [hblank]; rfl, by simp⟩
  · have hpacked := (packed_nil config).foldl htight
    rw [List.nil_append, hink] at hpacked
    have hpieces : config.splitBody body =
        ((config.parts body).foldl config.addPart ⟨[], []⟩).pieces := rfl
    rw [hpieces]
    exact ⟨hpacked.tight, hpacked.chained, hpacked.fresh_eq, hpacked.inside⟩

end ChunkingConfig

/-! ## Lines -/

/-- The lines of a text. -/
def lines (text : Text) : List Text := splitlines (strip (replaceReturns text))

theorem isSpace_of_isLineBreak (c : Char) (h : isLineBreak c = true) : isSpace c = true := by
  simp only [isLineBreak, isSpace, Bool.or_eq_true, Bool.and_eq_true, decide_eq_true_eq,
    beq_iff_eq] at h ⊢
  omega

theorem ink_splitlines (text : Text) : (splitlines text).flatMap ink = ink text := by
  have hsplit : (text.splitOnP isLineBreak).flatMap ink = ink text :=
    Text.ink_splitOnP isSpace_of_isLineBreak text
  unfold splitlines
  simp only
  split_ifs with hlast
  · obtain ⟨front, heq⟩ := List.getLast?_eq_some_iff.mp hlast
    rw [heq] at hsplit ⊢
    simpa using hsplit
  · exact hsplit

theorem ink_replaceReturns (text : Text) : ink (replaceReturns text) = ink text := by
  have hreturn : ∀ old : Text, (∀ c ∈ old, isSpace c = true) → old ≠ [] → ∀ t : Text,
      ink (t.replace old ['\n']) = ink t := fun old hold hne t =>
    Text.ink_replace hold (List.forall_mem_singleton.mpr (by decide)) hne t
  have hcr : isSpace '\r' = true := by decide
  have hlf : isSpace '\n' = true := by decide
  rw [replaceReturns, hreturn _ (by simp [hcr]) (by simp), hreturn _ (by simp [hcr, hlf]) (by simp)]

theorem lines_ne_nil {text : Text} (h : strip (replaceReturns text) ≠ []) : lines text ≠ [] := by
  intro hnone
  have hink := ink_splitlines (strip (replaceReturns text))
  rw [← lines, hnone, ink_strip] at hink
  exact h (strip_eq_nil.mpr hink.symm)

theorem ink_lines (text : Text) : (lines text).flatMap ink = ink text := by
  rw [lines, ink_splitlines, ink_strip, ink_replaceReturns]

/-! ## Sections -/

namespace HeadingAwareChunker

variable (chunker : HeadingAwareChunker)

/-- A line without the marks in front of a heading. -/
def unmarked (line : Text) : Text :=
  if chunker.isHeading line then lstripMarks (strip line) else line

/-- What a state has read. -/
def readInk (s : SectionState) : Text :=
  (s.sections.flatMap fun s => ink s.text) ++ ink s.current.text

theorem ink_text (path : List Text) (title : Option Text) (body : Text) :
    ink (Section.text ⟨path, title, body⟩) = ink (title.getD []) ++ ink body := by
  cases title with
  | none => simp [Section.text]
  | some title =>
      by_cases hempty : title = []
      · simp [Section.text, hempty]
      · simp [Section.text, hempty, ink_newline]

theorem ink_current (s : SectionState) :
    ink s.current.text = ink (s.title.getD []) ++ s.body.flatMap ink := by
  rw [SectionState.current, ink_text, ink_strip]
  exact congrArg _ (Text.ink_joinLines (by decide) s.body)

/-- One line. -/
theorem readInk_addLine (s : SectionState) (line : Text) :
    readInk (chunker.addLine s line) = readInk s ++ ink (chunker.unmarked line) := by
  unfold addLine unmarked
  by_cases hheading : chunker.isHeading line = true
  · simp only [hheading, if_true]
    by_cases hnone : s.title ≠ none ∨ s.body ≠ []
    · simp [readInk, hnone, ink_current]
    · obtain ⟨htitle, hbody⟩ := not_or.mp hnone
      simp [readInk, ink_current, not_not.mp htitle, not_not.mp hbody]
  · simp [readInk, hheading, ink_current]

/-- The text of the sections is the text without the marks of its headings. -/
theorem ink_sections (text : Text) :
    (chunker.sections text).flatMap (fun s => ink s.text) =
      (splitlines text).flatMap fun line => ink (chunker.unmarked line) := by
  have hfold : ∀ (lines : List Text) (s : SectionState),
      readInk (lines.foldl chunker.addLine s) =
        readInk s ++ lines.flatMap fun line => ink (chunker.unmarked line) := by
    intro lines
    induction lines with
    | nil => simp
    | cons line lines ih =>
        intro s
        rw [List.foldl_cons, ih, readInk_addLine, List.append_assoc, List.flatMap_cons]
  have hread := hfold (splitlines text) ⟨[], [], none, []⟩
  have hstart : readInk ⟨[], [], none, []⟩ = [] := rfl
  rw [hstart, List.nil_append] at hread
  rw [← hread, sections, readInk]
  simp

/-! ## Headings -/

/-- The lines of the sections that the headings give: each heading begins one. -/
def blocks (lines : List Text) : List (List Text) :=
  lines.splitBy fun _ line => !chunker.isHeading line

/-- The title of a section with these lines: its heading without the marks, if it has one. -/
def blockTitle : List Text → Option Text
  | [] => none
  | line :: _ => if chunker.isHeading line then some (strip (lstripMarks (strip line))) else none

/-- What such a section says under its heading. -/
def blockBody : List Text → Text
  | [] => []
  | line :: rest => strip (Text.joinLines (if chunker.isHeading line then rest else line :: rest))

/-- The section that is being read has these lines. -/
inductive Reads (s : SectionState) : List Text → Prop
  | titled (line : Text) (hheading : chunker.isHeading line = true)
      (htitle : s.title = some (strip (lstripMarks (strip line)))) : Reads s (line :: s.body)
  | untitled (line : Text) (rest : List Text) (hheading : chunker.isHeading line = false)
      (htitle : s.title = none) (hbody : s.body = line :: rest) : Reads s s.body

variable {chunker} in
/-- A section that is being read has been begun. -/
theorem Reads.begun {s : SectionState} {block : List Text} (h : chunker.Reads s block) :
    s.title ≠ none ∨ s.body ≠ [] := by
  cases h with
  | titled line _ htitle => simp [htitle]
  | untitled line rest _ _ hbody => simp [hbody]

variable {chunker} in
theorem Reads.ne_nil {s : SectionState} {block : List Text} (h : chunker.Reads s block) :
    block ≠ [] := by
  cases h with
  | titled line _ _ => exact List.cons_ne_nil _ _
  | untitled line rest _ _ hbody => simp [hbody]

variable {chunker} in
theorem Reads.current {s : SectionState} {block : List Text} (h : chunker.Reads s block) :
    (s.current.title, s.current.body) = (chunker.blockTitle block, chunker.blockBody block) := by
  cases h with
  | titled line hheading htitle =>
      simp [SectionState.current, blockTitle, blockBody, hheading, htitle]
  | untitled line rest hheading htitle hbody =>
      simp [SectionState.current, blockTitle, blockBody, hheading, htitle, hbody]

variable {chunker} in
/-- A line that is no heading goes on with the section. -/
theorem Reads.line {s : SectionState} {block : List Text} (h : chunker.Reads s block) {line : Text}
    (hline : chunker.isHeading line = false) :
    chunker.Reads (chunker.addLine s line) (block ++ [line]) := by
  have hstep : chunker.addLine s line = { s with body := s.body ++ [line] } := if_neg (by simp [hline])
  rw [hstep]
  cases h with
  | titled heading hheading htitle => exact .titled heading hheading htitle
  | untitled first rest hheading htitle hbody =>
      exact .untitled first (rest ++ [line]) hheading htitle (by simp [hbody])

/-- A heading begins a section. -/
theorem reads_heading (s : SectionState) {line : Text} (hline : chunker.isHeading line = true) :
    chunker.Reads (chunker.addLine s line) [line] := by
  unfold addLine
  rw [if_pos hline]
  exact .titled line hline rfl

/-- The lines that follow, up to the next heading, belong to the section. -/
theorem map_sections_foldl (lines : List Text) (s : SectionState) {block : List Text}
    (hreads : chunker.Reads s block)
    (hchain : block.IsChain fun _ line => (!chunker.isHeading line) = true) :
    ((lines.foldl chunker.addLine s).sections ++ [(lines.foldl chunker.addLine s).current]).map
        (fun s => (s.title, s.body)) =
      s.sections.map (fun s => (s.title, s.body)) ++
        (chunker.blocks (block ++ lines)).map fun b => (chunker.blockTitle b, chunker.blockBody b) := by
  induction lines generalizing s block with
  | nil =>
      rw [List.append_nil, blocks, List.splitBy_of_isChain hreads.ne_nil hchain]
      simp [hreads.current]
  | cons line lines ih =>
      rw [List.foldl_cons]
      by_cases hline : chunker.isHeading line = true
      · have hstep : (chunker.addLine s line).sections = s.sections ++ [s.current] := by
          unfold addLine
          rw [if_pos hline]
          exact if_pos hreads.begun
        have hblock : chunker.blocks block = [block] := List.splitBy_of_isChain hreads.ne_nil hchain
        have hsplit : chunker.blocks (block ++ line :: lines) =
            chunker.blocks block ++ chunker.blocks (line :: lines) :=
          List.splitBy_append_cons lines (by simp [hline])
        have hrest := ih (chunker.addLine s line) (chunker.reads_heading s hline)
          (List.isChain_singleton line)
        rw [hrest, hstep, hsplit, hblock]
        simp [hreads.current]
      · rw [Bool.not_eq_true] at hline
        have hstep : (chunker.addLine s line).sections = s.sections := by
          unfold addLine
          rw [if_neg (by simp [hline])]
        have hlonger : (block ++ [line]).IsChain fun _ line => (!chunker.isHeading line) = true :=
          List.isChain_append.mpr ⟨hchain, List.isChain_singleton line, fun _ _ b hb => by
            obtain rfl : line = b := by simpa using hb
            simp [hline]⟩
        have hrest := ih (chunker.addLine s line) (hreads.line hline) hlonger
        rw [hrest, hstep, List.append_assoc, List.singleton_append]

/-- The sections are those that the headings give. -/
theorem map_sections {text : Text} (hne : splitlines text ≠ []) :
    (chunker.sections text).map (fun s => (s.title, s.body)) =
      (chunker.blocks (splitlines text)).map fun b =>
        (chunker.blockTitle b, chunker.blockBody b) := by
  obtain ⟨line, rest, hlines⟩ := List.exists_cons_of_ne_nil hne
  have hfirst : chunker.Reads (chunker.addLine ⟨[], [], none, []⟩ line) [line] := by
    by_cases hline : chunker.isHeading line = true
    · exact chunker.reads_heading _ hline
    · have hstep : chunker.addLine ⟨[], [], none, []⟩ line = ⟨[], [], none, [line]⟩ := if_neg hline
      rw [hstep]
      exact .untitled line [] (Bool.not_eq_true _ ▸ hline) rfl rfl
  have hsections : (chunker.addLine ⟨[], [], none, []⟩ line).sections = [] := by
    unfold addLine
    split <;> rfl
  have hread := chunker.map_sections_foldl rest _ hfirst (List.isChain_singleton line)
  rw [hsections, List.map_nil, List.nil_append] at hread
  rw [sections, hlines, List.foldl_cons]
  exact hread

/-! ## Chunks -/

/-- What the chunks keep of a text. -/
structure Kept (text : Text) (drafts : List ChunkDraft) : Prop where
  /-- The drafts are the chunks of the sections that the headings give, in order. Without their overlaps
  the chunks of each section are its text, and each of them lies in it. -/
  sections : ∃ parts : List (Section × List Text),
    (drafts.map fun draft => (draft.content, draft.sectionPath, draft.sectionTitle)) =
        parts.flatMap (fun p => p.2.map fun piece => (piece, p.1.path, p.1.title)) ∧
      parts.map (fun p => (p.1.title, p.1.body)) =
        (chunker.blocks (lines text)).map (fun b => (chunker.blockTitle b, chunker.blockBody b)) ∧
      (∀ p ∈ parts, ChunkingConfig.Chunked chunker.config p.1.text p.2) ∧
      parts.flatMap (fun p => (ChunkingConfig.fresh chunker.config p.2).flatMap ink) =
        (lines text).flatMap fun line => ink (chunker.unmarked line)
  /-- The lines are the text. -/
  lines_eq : (lines text).flatMap ink = ink text
  indices : (drafts.map ChunkDraft.index).Pairwise (· < ·)

/-- Nothing is dropped from chunks that are not blank, and they are numbered in order. -/
theorem chunk_of_tight {raw : List (Text × Section)} (h : ∀ entry ∈ raw, Tight entry.1) :
    (raw.zipIdx.filter fun entry => strip entry.1.1 ≠ []) = raw.zipIdx := by
  refine List.filter_eq_self.mpr fun entry hentry => ?_
  have htight := h entry.1 (List.fst_mem_of_mem_zipIdx hentry)
  have hstrip : strip entry.1.1 = entry.1.1 := htight.stripBy_eq
  simpa [hstrip] using htight.ne_nil

/-- **Chunking.** The chunks of a text, without their overlaps, are the text without the marks of its
headings. -/
theorem chunk_lossless (text : Text) : Kept chunker text (chunker.chunk text) := by
  unfold chunk
  simp only
  split_ifs with hempty
  · have hnone : lines text = [] := by
      rw [lines, hempty]
      rfl
    refine ⟨⟨[], rfl, by simp [hnone, blocks], by simp, by simp [hnone]⟩, ink_lines text, by simp⟩
  · obtain ⟨sections, hsections⟩ : ∃ sections,
        chunker.sections (strip (replaceReturns text)) = sections := ⟨_, rfl⟩
    have hinked := chunker.ink_sections (strip (replaceReturns text))
    have houtline := chunker.map_sections (lines_ne_nil hempty)
    -- The packed pieces are tight, so stripping them again changes nothing.
    have hraw : ∀ entry ∈ chunker.rawChunks sections, Tight entry.1 := by
      intro entry hentry
      obtain ⟨s, -, hentry⟩ := List.mem_flatMap.mp hentry
      obtain ⟨piece, hpiece, rfl⟩ := List.mem_map.mp hentry
      exact (ChunkingConfig.splitBody_spec chunker.config s.text).tight piece hpiece
    rw [hsections, chunk_of_tight hraw]
    refine ⟨⟨sections.map fun s => (s, chunker.config.splitBody s.text), ?_, ?_, ?_, ?_⟩,
      ink_lines text, ?_⟩
    · rw [List.map_map, List.flatMap_map]
      have hfirst : (chunker.rawChunks sections).zipIdx.map
            (fun entry => (entry.1.1, entry.1.2.path, entry.1.2.title)) =
          (chunker.rawChunks sections).map fun entry => (entry.1, entry.2.path, entry.2.title) := by
        conv_rhs => rw [← List.zipIdx_map_fst 0 (chunker.rawChunks sections), List.map_map]
        rfl
      refine hfirst.trans ?_
      rw [rawChunks, List.map_flatMap]
      exact List.flatMap_congr fun s _ => by rw [List.map_map]; rfl
    · rw [lines, ← houtline, hsections, List.map_map]
      rfl
    · intro p hp
      obtain ⟨s, -, rfl⟩ := List.mem_map.mp hp
      exact ChunkingConfig.splitBody_spec chunker.config s.text
    · rw [lines, ← hinked, hsections, List.flatMap_map]
      exact List.flatMap_congr fun s _ =>
        (ChunkingConfig.splitBody_spec chunker.config s.text).fresh_eq
    · have hsecond : ((chunker.rawChunks sections).zipIdx.map fun entry =>
          (⟨entry.2, entry.1.1, entry.1.2.path, entry.1.2.title, entry.1.1.length⟩ :
            ChunkDraft)).map ChunkDraft.index =
          List.range' 0 (chunker.rawChunks sections).length := by
        rw [List.map_map, ← List.zipIdx_map_snd 0]
        rfl
      rw [hsecond]
      exact List.pairwise_lt_range'

end HeadingAwareChunker

end Odirag.Chunking
