import Odirag.Chunking.Lossless
import Odirag.Foundations.Outline

/-!
# The paths of chunks

Reference: `_sections` of `backend/app/chunking/heading.py`.

The loop of `_sections` read beside the headings it has met: each chunk with the headings before it.
The path of a chunk should be the headings that enclose it. The loop cuts its stack at the number of
marks as if no level were ever skipped, so the paths are right exactly if no heading closes another
while a heading of a smaller level is missing.
-/

namespace Odirag.Chunking

open Regex
open Documents (isSpace)

/-! ## A heading has a title -/

/-- Each word of a language has such a character. -/
def Shows (P : Char → Prop) (L : Language Char) : Prop := ∀ w ∈ L, ∃ c ∈ w, P c

section

variable {P : Char → Prop} {L M : Language Char}

theorem Shows.mul_left (h : Shows P L) : Shows P (L * M) := by
  intro w hw
  obtain ⟨u, hu, v, -, rfl⟩ := Language.mem_mul.mp hw
  obtain ⟨c, hc, hP⟩ := h u hu
  exact ⟨c, List.mem_append_left v hc, hP⟩

theorem Shows.mul_right (h : Shows P M) : Shows P (L * M) := by
  intro w hw
  obtain ⟨u, -, v, hv, rfl⟩ := Language.mem_mul.mp hw
  obtain ⟨c, hc, hP⟩ := h v hv
  exact ⟨c, List.mem_append_right u hc, hP⟩

theorem Shows.add (hL : Shows P L) (hM : Shows P M) : Shows P (L + M) := by
  intro w hw
  rcases (Language.mem_add L M w).mp hw with hw | hw
  · exact hL w hw
  · exact hM w hw

theorem shows_char {p : Char → Bool} (h : ∀ c, p c = true → P c) : Shows P (lang (char p)) := by
  rintro w ⟨c, hc, rfl⟩
  exact ⟨c, List.mem_singleton_self c, h c hc⟩

theorem shows_plus {p : Char → Bool} (h : ∀ c, p c = true → P c) :
    Shows P (lang (plus (char p))) := by
  refine Shows.mul_left ?_
  rw [pow_one]
  exact shows_char h

theorem shows_chars {t : Text} (h : ∃ c ∈ t, P c) : Shows P (lang (chars t)) := by
  intro w hw
  rwa [mem_lang_chars.mp hw]

end

/-- No heading consists of marks alone. -/
theorem shows_headingPattern (isDigit : Char → Bool) :
    Shows (· ≠ '#') (lang (headingPattern isDigit)) := by
  have hblank : ∀ c, isSpace c = true → c ≠ '#' := by
    rintro c hc rfl
    exact absurd hc (by decide)
  have hnumeral : ∀ c, isNumeral c = true → c ≠ '#' := by
    rintro c hc rfl
    exact absurd hc (by decide)
  have hmark : ∀ c, decide (c ∈ str ".、)") = true → c ≠ '#' := by
    rintro c hc rfl
    exact absurd hc (by decide)
  refine Shows.add ?_ (Shows.add ?_ (Shows.add ?_ ?_))
  · exact ((shows_plus hblank).mul_left).mul_right
  · exact (shows_chars ⟨'第', by decide, by decide⟩).mul_left
  · exact (shows_plus hnumeral).mul_left
  · exact (((shows_char hmark).mul_left).mul_right).mul_right

theorem plain_headingPattern (isDigit : Char → Bool) : plain (headingPattern isDigit) = true := rfl

/-! ## Headings -/

structure Heading where
  level : ℕ
  title : Text
  level_pos : 0 < level
  ink_title : ink title ≠ []

/-- `level`. -/
def headingLevel (stripped : Text) : ℕ :=
  if stripped.head? = some '#' then stripped.length - (lstripMarks stripped).length else 1

theorem headingLevel_pos (stripped : Text) : 0 < headingLevel stripped := by
  unfold headingLevel
  split
  · next hhead =>
      cases stripped with
      | nil => cases hhead
      | cons c rest =>
          obtain rfl : c = '#' := Option.some_inj.mp hhead
          have hmarks : lstripMarks ('#' :: rest) = rest.dropWhile (· == '#') :=
            List.dropWhile_cons_of_pos (by decide)
          have hle : (rest.dropWhile (· == '#')).length ≤ rest.length := List.length_dropWhile_le _ _
          rw [hmarks, List.length_cons]
          omega
  · exact Nat.one_pos

namespace HeadingAwareChunker

variable (chunker : HeadingAwareChunker)

theorem ink_title_of_isHeading {line : Text} (h : chunker.isHeading line = true) :
    ink (strip (lstripMarks (strip line))) ≠ [] := by
  obtain ⟨hne, hmatch⟩ : strip line ≠ [] ∧
      (headingPattern chunker.isDigit).fullmatch (strip line) = true := by
    simpa [isHeading] using h
  have htight : Tight (strip line) := Text.tight_stripBy hne
  obtain ⟨cursor, hcursor, hrest⟩ := List.any_eq_true.mp hmatch
  obtain ⟨w, hw, hline⟩ :=
    (consumes_run _ (plain_headingPattern chunker.isDigit) _ []).mp
      ⟨cursor, hcursor, List.isEmpty_iff.mp hrest⟩
  obtain ⟨c, hc, hmark⟩ := shows_headingPattern chunker.isDigit w hw
  obtain rfl : strip line = w := by simpa using hline
  -- What follows the marks is not empty and ends in no blank.
  have hafter : lstripMarks (strip line) ≠ [] := by
    intro hnil
    exact hmark (by simpa using List.dropWhile_eq_nil_iff.mp hnil c hc)
  rw [ink_strip]
  intro hblank
  have hlast := List.getLast_mem hafter
  have hspace := Text.ink_eq_nil.mp hblank _ hlast
  have heq : (lstripMarks (strip line)).getLast? = (strip line).getLast? := by
    conv_rhs => rw [← List.takeWhile_append_dropWhile (p := (· == '#')) (l := strip line)]
    exact (List.getLast?_append_of_ne_nil _ hafter).symm
  rw [List.getLast?_eq_some_getLast hafter] at heq
  rw [htight.last _ heq.symm] at hspace
  cases hspace

/-- The heading that a line is. -/
def heading? (line : Text) : Option Heading :=
  if h : chunker.isHeading line = true then
    some
      { level := headingLevel (strip line)
        title := strip (lstripMarks (strip line))
        level_pos := headingLevel_pos (strip line)
        ink_title := chunker.ink_title_of_isHeading h }
  else none

/-- The headings of a text. -/
def headings (text : Text) : List Heading := (lines text).filterMap chunker.heading?

/-- The sections that the loop leaves, each with the headings that it has met when it leaves it. -/
def locatedFrom (s : SectionState) (seen : List Heading) : List Text → List (Section × List Heading)
  | [] => [(s.current, seen)]
  | line :: rest =>
      match chunker.heading? line with
      | some heading =>
          (if s.title ≠ none ∨ s.body ≠ [] then [(s.current, seen)] else []) ++
            locatedFrom (chunker.addLine s line) (seen ++ [heading]) rest
      | none => locatedFrom (chunker.addLine s line) seen rest

/-- The chunks, each with the headings before it. -/
def locatedChunks (text : Text) : List (ChunkDraft × List Heading) :=
  if strip (replaceReturns text) = [] then []
  else
    (((chunker.locatedFrom ⟨[], [], none, []⟩ [] (lines text)).flatMap fun entry =>
      (chunker.config.splitBody entry.1.text).map fun piece => (piece, entry)).zipIdx.filter
        fun entry => strip entry.1.1 ≠ []).map fun entry =>
          (⟨entry.2, entry.1.1, entry.1.2.1.path, entry.1.2.1.title, entry.1.1.length⟩,
            entry.1.2.2)

variable {chunker}

theorem addLine_of_heading {line : Text} {heading : Heading}
    (h : chunker.heading? line = some heading) (s : SectionState) :
    chunker.addLine s line =
      { sections := if s.title ≠ none ∨ s.body ≠ [] then s.sections ++ [s.current] else s.sections
        headingStack := s.headingStack.take (heading.level - 1) ++ [heading.title]
        title := some heading.title
        body := [] } := by
  unfold heading? at h
  split at h
  · next hline =>
      obtain rfl := Option.some_inj.mp h
      exact if_pos hline
  · cases h

theorem addLine_of_none {line : Text} (h : chunker.heading? line = none) (s : SectionState) :
    chunker.addLine s line = { s with body := s.body ++ [line] } := by
  unfold heading? at h
  split at h
  · cases h
  · next hline => exact if_neg hline

/-- The located sections are the sections. -/
theorem map_fst_locatedFrom (lines : List Text) (s : SectionState) (seen : List Heading) :
    s.sections ++ (chunker.locatedFrom s seen lines).map Prod.fst =
      (lines.foldl chunker.addLine s).sections ++ [(lines.foldl chunker.addLine s).current] := by
  induction lines generalizing s seen with
  | nil => rfl
  | cons line lines ih =>
      rw [List.foldl_cons, locatedFrom]
      split
      · next heading hheading =>
          rw [← ih (chunker.addLine s line) (seen ++ [heading]), addLine_of_heading hheading,
            List.map_append]
          split
          · rw [List.append_assoc]
            rfl
          · rfl
      · next hheading =>
          rw [← ih (chunker.addLine s line) seen, addLine_of_none hheading]

/-- The located chunks are the chunks. -/
theorem map_fst_locatedChunks (text : Text) :
    (chunker.locatedChunks text).map Prod.fst = chunker.chunk text := by
  unfold locatedChunks chunk
  dsimp only
  split
  · rfl
  · have hsections : chunker.sections (strip (replaceReturns text)) =
        (chunker.locatedFrom ⟨[], [], none, []⟩ [] (lines text)).map Prod.fst :=
      (map_fst_locatedFrom (lines text) ⟨[], [], none, []⟩ []).symm
    have hraw : ∀ located : List (Section × List Heading),
        chunker.rawChunks (located.map Prod.fst) =
          (located.flatMap fun entry => (chunker.config.splitBody entry.1.text).map fun piece =>
            (piece, entry)).map (Prod.map id Prod.fst) := by
      intro located
      rw [rawChunks, List.flatMap_map, List.map_flatMap]
      exact List.flatMap_congr fun entry _ => by rw [List.map_map]; rfl
    rw [hsections, hraw, List.zipIdx_map, List.filter_map, List.map_map, List.map_map]
    rfl

/-! ## The stack -/

/-- The stack holds what the headings that were met leave of it. -/
structure Follows (s : SectionState) (seen : List Heading) : Prop where
  stack : s.headingStack = (Outline.cuts Heading.level seen).map Heading.title
  title : s.title = seen.getLast?.map Heading.title

theorem follows_start : Follows ⟨[], [], none, []⟩ [] := ⟨rfl, rfl⟩

theorem Follows.heading {s : SectionState} {seen : List Heading} (h : Follows s seen) {line : Text}
    {heading : Heading} (hline : chunker.heading? line = some heading) :
    Follows (chunker.addLine s line) (seen ++ [heading]) := by
  rw [addLine_of_heading hline]
  constructor
  · rw [Outline.cuts_concat, Outline.cut, List.map_append, List.map_take, h.stack,
      List.map_singleton]
  · rw [List.getLast?_concat, Option.map_some]

theorem Follows.body {s : SectionState} {seen : List Heading} (h : Follows s seen) {line : Text}
    (hline : chunker.heading? line = none) : Follows (chunker.addLine s line) seen := by
  rw [addLine_of_none hline]
  exact ⟨h.stack, h.title⟩

/-- What holds of a located section: its path is what is left of the stack, its title is that of the
last heading before it, and the headings are some from the front. -/
theorem of_mem_locatedFrom {lines : List Text} {s : SectionState} {seen : List Heading}
    (h : Follows s seen) {entry : Section × List Heading}
    (hentry : entry ∈ chunker.locatedFrom s seen lines) :
    entry.1.path = (Outline.cuts Heading.level entry.2).map Heading.title ∧
      entry.1.title = entry.2.getLast?.map Heading.title ∧
      entry.2 <+: seen ++ lines.filterMap chunker.heading? := by
  induction lines generalizing s seen with
  | nil =>
      obtain rfl := List.mem_singleton.mp hentry
      exact ⟨h.stack, h.title, List.prefix_append _ _⟩
  | cons line lines ih =>
      rw [locatedFrom] at hentry
      split at hentry
      · next heading hheading =>
          rcases List.mem_append.mp hentry with hentry | hentry
          · split at hentry
            · obtain rfl := List.mem_singleton.mp hentry
              exact ⟨h.stack, h.title, List.prefix_append _ _⟩
            · cases hentry
          · rw [List.filterMap_cons_some hheading]
            simpa using ih (h.heading hheading) hentry
      · next hheading =>
          rw [List.filterMap_cons_none hheading]
          exact ih (h.body hheading) hentry

/-- Each heading is the last one before some section. -/
theorem exists_mem_locatedFrom {lines : List Text} {s : SectionState} {seen before : List Heading}
    (htitle : before = seen → s.title ≠ none) (hseen : seen <+: before)
    (hbefore : before <+: seen ++ lines.filterMap chunker.heading?) :
    ∃ entry ∈ chunker.locatedFrom s seen lines, entry.2 = before := by
  induction lines generalizing s seen with
  | nil =>
      rw [List.filterMap_nil, List.append_nil] at hbefore
      exact ⟨_, List.mem_singleton_self _, hseen.eq_of_length_le hbefore.length_le⟩
  | cons line lines ih =>
      rw [locatedFrom]
      split
      · next heading hheading =>
          rw [List.filterMap_cons_some hheading, List.append_cons] at hbefore
          by_cases heq : before = seen
          · rw [if_pos (.inl (htitle heq))]
            exact ⟨_, List.mem_append_left _ (List.mem_singleton_self _), heq.symm⟩
          · have hlonger : seen ++ [heading] <+: before := by
              refine List.prefix_of_prefix_length_le (List.prefix_append _ _) hbefore ?_
              have hlt : seen.length < before.length := by
                refine lt_of_le_of_ne hseen.length_le fun hlength => heq ?_
                exact (hseen.eq_of_length hlength).symm
              rw [List.length_append, List.length_singleton]
              omega
            obtain ⟨entry, hentry, hlast⟩ := @ih (chunker.addLine s line) (seen ++ [heading])
              (fun _ => by rw [addLine_of_heading hheading]; simp) hlonger hbefore
            exact ⟨entry, List.mem_append_right _ hentry, hlast⟩
      · next hheading =>
          rw [List.filterMap_cons_none hheading] at hbefore
          refine ih ?_ hseen hbefore
          rwa [addLine_of_none hheading]

/-! ## Paths -/

theorem exists_of_mem_locatedChunks {text : Text} {entry : ChunkDraft × List Heading}
    (h : entry ∈ chunker.locatedChunks text) :
    ∃ located ∈ chunker.locatedFrom ⟨[], [], none, []⟩ [] (lines text),
      entry.1.sectionPath = located.1.path ∧ entry.2 = located.2 := by
  unfold locatedChunks at h
  split at h
  · cases h
  · obtain ⟨raw, hraw, rfl⟩ := List.mem_map.mp h
    have hpiece := List.fst_mem_of_mem_zipIdx (List.mem_filter.mp hraw).1
    obtain ⟨located, hlocated, hpiece⟩ := List.mem_flatMap.mp hpiece
    obtain ⟨piece, -, heq⟩ := List.mem_map.mp hpiece
    exact ⟨located, hlocated, by rw [← heq], by rw [← heq]⟩

/-- A section with a title has a chunk. -/
theorem exists_mem_locatedChunks {text : Text} {located : Section × List Heading}
    (h : located ∈ chunker.locatedFrom ⟨[], [], none, []⟩ [] (lines text)) {title : Text}
    (htitle : located.1.title = some title) (hink : ink title ≠ []) :
    ∃ entry ∈ chunker.locatedChunks text,
      entry.1.sectionPath = located.1.path ∧ entry.2 = located.2 := by
  have hchunked := ChunkingConfig.splitBody_spec chunker.config located.1.text
  -- The title stands in the text of its section, so the section is not empty.
  have htext : ink located.1.text ≠ [] := by
    have heq : ink located.1.text = ink (located.1.title.getD []) ++ ink located.1.body :=
      ink_text _ _ _
    rw [htitle, Option.getD_some] at heq
    intro hnil
    exact hink (List.append_eq_nil_iff.mp (heq.symm.trans hnil)).1
  obtain ⟨piece, hpiece⟩ : ∃ piece, piece ∈ chunker.config.splitBody located.1.text := by
    refine List.exists_mem_of_ne_nil _ fun hnil => htext ?_
    rw [← hchunked.fresh_eq, hnil]
    rfl
  have hlines : strip (replaceReturns text) ≠ [] := by
    intro hnil
    have hnone : lines text = [] := by
      rw [lines, hnil]
      rfl
    rw [hnone] at h
    obtain rfl := List.mem_singleton.mp h
    cases htitle
  have hraw : (piece, located) ∈
      (chunker.locatedFrom ⟨[], [], none, []⟩ [] (lines text)).flatMap fun entry =>
        (chunker.config.splitBody entry.1.text).map fun piece => (piece, entry) :=
    List.mem_flatMap.mpr ⟨located, h, List.mem_map_of_mem hpiece⟩
  obtain ⟨index, hindex⟩ := List.mem_iff_getElem?.mp hraw
  have htight : Tight piece := hchunked.tight piece hpiece
  have hstrip : strip piece = piece := htight.stripBy_eq
  unfold locatedChunks
  rw [if_neg hlines]
  refine ⟨_, List.mem_map_of_mem (List.mem_filter.mpr
    ⟨List.mk_mem_zipIdx_iff_getElem?.mpr hindex, ?_⟩), rfl, rfl⟩
  simpa [hstrip] using htight.ne_nil

/-- The path of each chunk is the list of the headings that enclose it, exactly if no heading closes
another one while a heading of a smaller level is missing. -/
theorem section_path_iff (chunker : HeadingAwareChunker) (text : Text) :
    (∀ entry ∈ chunker.locatedChunks text,
        entry.1.sectionPath =
          (Outline.enclosing Heading.level entry.2).map Heading.title) ↔
      Outline.Nested Heading.level (chunker.headings text) := by
  rw [← Outline.forall_cuts_iff Heading.title fun heading _ => heading.level_pos]
  constructor
  · intro h before hbefore
    by_cases hne : before = []
    · rw [hne]
      rfl
    · -- The section that begins with the last of these headings has a chunk.
      obtain ⟨located, hlocated, rfl⟩ :
          ∃ located ∈ chunker.locatedFrom ⟨[], [], none, []⟩ [] (lines text), located.2 = before :=
        exists_mem_locatedFrom (fun heq => absurd heq hne) List.nil_prefix hbefore
      obtain ⟨hpath, htitle, -⟩ := of_mem_locatedFrom follows_start hlocated
      rw [List.getLast?_eq_some_getLast hne, Option.map_some] at htitle
      obtain ⟨entry, hentry, hsection, hseen⟩ :=
        exists_mem_locatedChunks hlocated htitle (located.2.getLast hne).ink_title
      rw [← hpath, ← hsection, h entry hentry, hseen]
  · intro h entry hentry
    obtain ⟨located, hlocated, hpath, hseen⟩ := exists_of_mem_locatedChunks hentry
    obtain ⟨hstack, -, hinitial⟩ := of_mem_locatedFrom follows_start hlocated
    rw [hpath, hstack, hseen]
    exact h located.2 hinitial

/-! ## A text that begins in the middle -/

/-- A chunker for texts with the digits of ASCII. -/
def asciiChunker : HeadingAwareChunker where
  config := {}
  isDigit := Char.isDigit

/-- The second heading is not below the first, and its path begins with that. -/
theorem section_path_skipped_level :
    (asciiChunker.chunk (str "### A\nx\n## B\ny")).map ChunkDraft.sectionPath =
        [strs ["A"], strs ["A", "B"]] ∧
      ¬ ∀ entry ∈ asciiChunker.locatedChunks (str "### A\nx\n## B\ny"),
        entry.1.sectionPath =
          (Outline.enclosing Heading.level entry.2).map Heading.title := by
  decide +kernel

end HeadingAwareChunker

end Odirag.Chunking
