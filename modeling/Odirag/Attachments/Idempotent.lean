import Odirag.Attachments.Cleaning
import Odirag.Foundations.Collapse

/-!
# Cleaning a cleaned text

Reference: `backend/app/cleaners/text.py`.

A cleaned text is paragraphs with one empty line between them, each of lines that are kept as they
are, and no two paragraphs with one fingerprint (`cleanText_groups`). Read again, it gives the same
lines (`Settled.foldl_addLine`), the same paragraphs (`removeDuplicateParagraphs_groups`) and so itself
(`cleanText_idempotent`).
-/

namespace Odirag.Attachments

open Regex
open Chunking (strip splitlines replaceReturns isLineBreak)
open Chunking.ChunkingConfig (blankLine)
open Documents (isSpace)
open Text (joinLines Tight)

/-! ## Lines -/

/-- A line with its runs of blanks replaced and its ends stripped. -/
def tidy (line : Text) : Text := strip (sub spaces [' '] line)

@[simp] theorem tidy_nil : tidy [] = [] := rfl

theorem tidy_tidy (line : Text) : tidy (tidy line) = tidy line :=
  stripBy_sub_stripBy isSpace rfl line

/-- A line that cleaning leaves as it is. -/
structure Kept (line : Text) : Prop where
  ne_nil : line ≠ []
  tidied : tidy line = line
  wanted : isBoilerplate line = false
  unbroken : ∀ c ∈ line, isLineBreak c = false

theorem addLine_eq (lines : List Text) (line : Text) :
    addLine lines line =
      if tidy line ≠ [] ∧ !isBoilerplate (tidy line) then lines ++ [tidy line]
      else if tidy line = [] ∧ lines ≠ [] ∧ lines.getLast? ≠ some [] then lines ++ [[]]
      else lines := rfl

theorem Kept.tight {line : Text} (h : Kept line) : Tight isSpace line := by
  have hne : Text.stripBy isSpace (sub spaces [' '] line) ≠ [] := by
    rw [show Text.stripBy isSpace (sub spaces [' '] line) = line from h.tidied]
    exact h.ne_nil
  have htight := Text.tight_stripBy hne
  rwa [show Text.stripBy isSpace (sub spaces [' '] line) = line from h.tidied] at htight

/-- No line feed is in it, so no gap. -/
theorem Kept.solid {line : Text} (h : Kept line) : Solid isSpace '\n' line := by
  refine ⟨h.tight, List.isChain_iff_forall_rel_of_append_cons_cons.mpr ?_⟩
  rintro c d front back rfl rfl
  have hbreak := h.unbroken '\n' (by simp)
  cases hbreak

theorem kept_tidy {line : Text} (hunbroken : ∀ c ∈ line, isLineBreak c = false)
    (hne : tidy line ≠ []) (hwanted : isBoilerplate (tidy line) = false) : Kept (tidy line) := by
  refine ⟨hne, tidy_tidy line, hwanted, fun c hc => ?_⟩
  rcases mem_of_mem_sub (mem_of_mem_strip hc) with hspace | hmem
  · rw [List.mem_singleton.mp hspace]
    rfl
  · exact hunbroken c hmem

/-- Lines as they stand after some lines were read: kept ones, and single empty ones after them. -/
inductive Settled : List Text → Prop
  | nil : Settled []
  | line {lines : List Text} {line : Text} : Settled lines → Kept line → Settled (lines ++ [line])
  | gap {lines : List Text} : Settled lines → lines ≠ [] → lines.getLast? ≠ some [] →
      Settled (lines ++ [[]])

theorem Settled.addLine {lines : List Text} {line : Text} (h : Settled lines)
    (hunbroken : ∀ c ∈ line, isLineBreak c = false) : Settled (addLine lines line) := by
  rw [addLine_eq]
  split_ifs with hkept hgap
  · exact h.line (kept_tidy hunbroken hkept.1 (by simpa using hkept.2))
  · exact h.gap hgap.2.1 hgap.2.2
  · exact h

/-- Reading the lines leaves settled ones. -/
theorem settled_foldl_addLine {given kept : List Text}
    (hgiven : ∀ line ∈ given, ∀ c ∈ line, isLineBreak c = false) (hkept : Settled kept) :
    Settled (given.foldl addLine kept) := by
  induction given generalizing kept with
  | nil => exact hkept
  | cons line given ih =>
      exact ih (fun l hl => hgiven l (List.mem_cons_of_mem _ hl))
        (hkept.addLine (hgiven line List.mem_cons_self))

/-- Settled lines are read as they are. -/
theorem Settled.foldl_addLine {lines : List Text} (h : Settled lines) :
    lines.foldl Attachments.addLine [] = lines := by
  induction h with
  | nil => rfl
  | @line lines line _ hline ih =>
      have hkeep : tidy line ≠ [] ∧ (!isBoilerplate (tidy line)) = true := by
        rw [hline.tidied, hline.wanted]
        exact ⟨hline.ne_nil, rfl⟩
      rw [List.foldl_append, ih, List.foldl_cons, List.foldl_nil, addLine_eq, if_pos hkeep,
        hline.tidied]
  | @gap lines _ hne hlast ih =>
      rw [List.foldl_append, ih, List.foldl_cons, List.foldl_nil, addLine_eq, tidy_nil,
        if_neg (fun hkeep => hkeep.1 rfl), if_pos ⟨rfl, hne, hlast⟩]

/-- Nothing but tidy lines that were given is kept, in their order. -/
theorem filter_foldl_addLine (given : List Text) :
    ((given.foldl addLine []).filter (· ≠ [])).Sublist (given.map tidy) := by
  induction given using List.reverseRecOn with
  | nil => exact List.Sublist.refl _
  | append_singleton given line ih =>
      rw [List.foldl_append, List.foldl_cons, List.foldl_nil, addLine_eq, List.map_append]
      split_ifs
      · rw [List.filter_append]
        exact ih.append List.filter_sublist
      · rw [List.filter_append]
        simpa using ih.trans (List.sublist_append_left _ _)
      · exact ih.trans (List.sublist_append_left _ _)

/-! ## Paragraphs -/

/-- The lines of a paragraph. -/
structure IsParagraph (lines : List Text) : Prop where
  ne_nil : lines ≠ []
  kept : ∀ line ∈ lines, Kept line

/-- Paragraphs with one empty line between them. -/
def separated (groups : List (List Text)) : List Text := List.intercalate [[]] groups

theorem IsParagraph.solid {lines : List Text} (h : IsParagraph lines) :
    Solid isSpace '\n' (joinLines lines) := by
  obtain ⟨hne, hkept⟩ := h
  induction lines with
  | nil => exact absurd rfl hne
  | cons line lines ih =>
      have hline := (hkept line List.mem_cons_self).solid
      cases lines with
      | nil =>
          rw [Text.joinLines_singleton]
          exact hline
      | cons next lines =>
          rw [Text.joinLines_cons_cons]
          exact hline.join (ih (by simp) fun l hl => hkept l (List.mem_cons_of_mem _ hl)) rfl

variable {groups : List (List Text)}

theorem separated_concat (hne : groups ≠ []) (group : List Text) :
    separated (groups ++ [group]) = separated groups ++ [[]] ++ group :=
  Text.intercalate_concat hne

/-- A line at the end of the last paragraph. -/
theorem separated_concat_append (front : List (List Text)) (group more : List Text) :
    separated (front ++ [group ++ more]) = separated (front ++ [group]) ++ more := by
  by_cases hne : front = []
  · simp [hne, separated]
  · rw [separated_concat hne, separated_concat hne, List.append_assoc _ group more]

theorem separated_ne_nil (hne : groups ≠ []) (h : ∀ group ∈ groups, IsParagraph group) :
    ∃ lines line, separated groups = lines ++ [line] ∧ Kept line := by
  obtain ⟨front, group, rfl⟩ := (List.eq_nil_or_concat' groups).resolve_left hne
  have hgroup := h group (by simp)
  obtain ⟨before, line, rfl⟩ := (List.eq_nil_or_concat' group).resolve_left hgroup.ne_nil
  exact ⟨separated (front ++ [before]), line, separated_concat_append front before [line],
    hgroup.kept line (by simp)⟩

/-- Settled lines are paragraphs with one empty line between them, and perhaps one at the end. -/
theorem Settled.exists_groups {lines : List Text} (h : Settled lines) :
    ∃ groups, (∀ group ∈ groups, IsParagraph group) ∧
      (lines = separated groups ∨ groups ≠ [] ∧ lines = separated groups ++ [[]]) := by
  induction h with
  | nil => exact ⟨[], by simp, .inl rfl⟩
  | @line lines line _ hline ih =>
      obtain ⟨groups, hgroups, hlines⟩ := ih
      have hsingle : IsParagraph [line] := ⟨by simp, by simpa using hline⟩
      rcases hlines with rfl | ⟨hne, rfl⟩
      · rcases List.eq_nil_or_concat' groups with rfl | ⟨front, group, rfl⟩
        · exact ⟨[[line]], by simpa using hsingle, .inl (by simp [separated])⟩
        · have hlast := hgroups group (by simp)
          refine ⟨front ++ [group ++ [line]], fun g hg => ?_,
            .inl (separated_concat_append front group [line]).symm⟩
          rcases List.mem_append.mp hg with hg | hg
          · exact hgroups g (List.mem_append_left _ hg)
          · rw [List.mem_singleton.mp hg]
            refine ⟨by simp, fun l hl => ?_⟩
            rcases List.mem_append.mp hl with hl | hl
            · exact hlast.kept l hl
            · rw [List.mem_singleton.mp hl]
              exact hline
      · refine ⟨groups ++ [[line]], fun g hg => ?_, .inl (separated_concat hne [line]).symm⟩
        rcases List.mem_append.mp hg with hg | hg
        · exact hgroups g hg
        · rw [List.mem_singleton.mp hg]
          exact hsingle
  | @gap lines _ hne hlast ih =>
      obtain ⟨groups, hgroups, hlines⟩ := ih
      rcases hlines with rfl | ⟨-, rfl⟩
      · refine ⟨groups, hgroups, .inr ⟨?_, rfl⟩⟩
        rintro rfl
        exact hne rfl
      · exact absurd (by simp) hlast

theorem Settled.append {lines more : List Text} (h : Settled lines)
    (hmore : ∀ line ∈ more, Kept line) : Settled (lines ++ more) := by
  induction more using List.reverseRecOn with
  | nil => simpa using h
  | append_singleton more line ih =>
      rw [← List.append_assoc]
      exact (ih fun l hl => hmore l (List.mem_append_left _ hl)).line (hmore line (by simp))

/-- Paragraphs with one empty line between them are settled. -/
theorem settled_separated (h : ∀ group ∈ groups, IsParagraph group) :
    Settled (separated groups) := by
  induction groups using List.reverseRecOn with
  | nil => exact .nil
  | append_singleton groups group ih =>
      have hgroup := h group (by simp)
      have hbefore : ∀ g ∈ groups, IsParagraph g := fun g hg => h g (List.mem_append_left _ hg)
      by_cases hne : groups = []
      · subst hne
        simpa [separated] using Settled.nil.append hgroup.kept
      · obtain ⟨lines, line, hlines, hline⟩ := separated_ne_nil hne hbefore
        rw [separated_concat hne]
        refine ((ih hbefore).gap ?_ ?_).append hgroup.kept
        · simp [hlines]
        · simpa [hlines] using hline.ne_nil

/-- The lines of paragraphs without the empty ones between them. -/
theorem filter_separated (h : ∀ group ∈ groups, IsParagraph group) :
    (separated groups).filter (· ≠ []) = groups.flatten := by
  induction groups using List.reverseRecOn with
  | nil => rfl
  | append_singleton groups group ih =>
      have hgroup : group.filter (· ≠ []) = group :=
        List.filter_eq_self.mpr fun line hline => by
          simpa using ((h group (by simp)).kept line hline).ne_nil
      have hbefore := ih fun g hg => h g (List.mem_append_left _ hg)
      by_cases hne : groups = []
      · subst hne
        simpa [separated] using hgroup
      · rw [separated_concat hne, List.filter_append, List.filter_append, hbefore, hgroup,
          List.flatten_append]
        simp

theorem joinLines_separated (h : ∀ group ∈ groups, IsParagraph group) :
    joinLines (separated groups) = joinParagraphs (groups.map joinLines) := by
  induction groups using List.reverseRecOn with
  | nil => rfl
  | append_singleton groups group ih =>
      have hbefore : ∀ g ∈ groups, IsParagraph g := fun g hg => h g (List.mem_append_left _ hg)
      by_cases hne : groups = []
      · subst hne
        simp [separated, joinParagraphs]
      · obtain ⟨lines, line, hlines, -⟩ := separated_ne_nil hne hbefore
        have htexts : groups.map joinLines ≠ [] := by simpa using hne
        have hjoin := @Text.intercalate_concat _ ['\n', '\n'] (joinLines group) _ htexts
        rw [separated_concat hne, Text.joinLines_append (by simp) (h group (by simp)).ne_nil,
          Text.joinLines_append (by simp [hlines]) (by simp), ih hbefore, Text.joinLines_singleton,
          List.map_append, List.map_singleton, joinParagraphs, joinParagraphs, hjoin]
        simp

theorem blankLine_eq : blankLine = gap isSpace '\n' := rfl

/-- The paragraphs of a joined text are the paragraphs joined. -/
theorem removeDuplicateParagraphs_groups (h : ∀ group ∈ groups, IsParagraph group)
    {tail : Text} (htail : tail = [] ∨ groups ≠ [] ∧ tail = ['\n']) :
    removeDuplicateParagraphs (joinParagraphs (groups.map joinLines) ++ tail) =
      joinParagraphs (firstsBy paragraphFingerprint (groups.map joinLines)) := by
  unfold removeDuplicateParagraphs
  cases groups with
  | nil =>
      rcases htail with rfl | ⟨hne, -⟩
      · rfl
      · exact absurd rfl hne
  | cons group groups =>
      have hsolid : ∀ t ∈ joinLines group :: groups.map joinLines, Solid isSpace '\n' t := by
        intro t ht
        obtain ⟨g, hg, rfl⟩ := List.mem_map.mp (show t ∈ (group :: groups).map joinLines from ht)
        exact (h g hg).solid
      have hsplit : (split (gap isSpace '\n')
          (joinParagraphs (joinLines group :: groups.map joinLines) ++ tail)).map strip =
            joinLines group :: groups.map joinLines :=
        split_gap rfl hsolid (htail.imp_right fun ht => ht.2)
      have hfilter : (joinLines group :: groups.map joinLines).filter (· ≠ []) =
          joinLines group :: groups.map joinLines :=
        List.filter_eq_self.mpr fun t ht => by simpa using (hsolid t ht).tight.ne_nil
      dsimp only
      rw [blankLine_eq, List.map_cons, hsplit, hfilter]

/-! ## Cleaned texts -/

/-- A text that tidying the lines of a text and dropping lines of it leaves. -/
def Tidied (text cleaned : Text) : Prop :=
  ∃ lines, cleaned = joinLines lines ∧
    (lines.filter (· ≠ [])).Sublist ((splitlines (replaceReturns text)).map tidy)

/-- What is kept of a text: paragraphs with distinct fingerprints. -/
structure Cleaned (groups : List (List Text)) : Prop where
  paragraph : ∀ group ∈ groups, IsParagraph group
  distinct : ((groups.map joinLines).map paragraphFingerprint).Nodup

theorem Cleaned.joinLines_eq (h : Cleaned groups) :
    joinLines (separated groups) = joinParagraphs (groups.map joinLines) :=
  joinLines_separated h.paragraph

theorem tight_joinParagraphs {paragraphs : List Text} (hne : paragraphs ≠ [])
    (h : ∀ paragraph ∈ paragraphs, Tight isSpace paragraph) :
    Tight isSpace (joinParagraphs paragraphs) := by
  induction paragraphs with
  | nil => exact absurd rfl hne
  | cons paragraph paragraphs ih =>
      have hfirst := h paragraph List.mem_cons_self
      cases paragraphs with
      | nil => simpa [joinParagraphs] using hfirst
      | cons next paragraphs =>
          rw [joinParagraphs, List.intercalate_cons_cons]
          exact hfirst.join (ih (by simp) fun p hp => h p (List.mem_cons_of_mem _ hp)) _

theorem strip_joinParagraphs (h : ∀ group ∈ groups, IsParagraph group) :
    strip (joinParagraphs (groups.map joinLines)) = joinParagraphs (groups.map joinLines) := by
  by_cases hne : groups = []
  · rw [hne]
    rfl
  · refine (tight_joinParagraphs (by simpa using hne) fun t ht => ?_).stripBy_eq
    obtain ⟨group, hgroup, rfl⟩ := List.mem_map.mp ht
    exact (h group hgroup).solid.tight

variable {nfkc : Text → Text}

/-- What cleaning leaves. -/
theorem cleanText_groups (text : Text) :
    ∃ groups, Cleaned groups ∧ cleanText nfkc text = joinParagraphs (groups.map joinLines) ∧
      groups.flatten.Sublist ((splitlines (replaceReturns (nfkc text))).map tidy) := by
  have hlinesSolid : ∀ line ∈ splitlines (replaceReturns (nfkc text)), ∀ c ∈ line,
      isLineBreak c = false := fun _ hline => isLineBreak_false_of_mem_splitlines hline
  have hsettled := settled_foldl_addLine hlinesSolid .nil
  have hkept := filter_foldl_addLine (splitlines (replaceReturns (nfkc text)))
  obtain ⟨groups, hgroups, hlines⟩ := hsettled.exists_groups
  -- One empty line may be left at the end, which the paragraphs do not show.
  have hduplicates : removeDuplicateParagraphs
      (joinLines ((splitlines (replaceReturns (nfkc text))).foldl addLine [])) =
        joinParagraphs (firstsBy paragraphFingerprint (groups.map joinLines)) := by
    rcases hlines with hlines | ⟨hne, hlines⟩
    · rw [hlines, joinLines_separated hgroups, ← removeDuplicateParagraphs_groups hgroups (.inl rfl),
        List.append_nil]
    · obtain ⟨lines, line, hlast, -⟩ := separated_ne_nil hne hgroups
      rw [hlines, Text.joinLines_append (by simp [hlast]) (by simp), joinLines_separated hgroups,
        Text.joinLines_singleton]
      exact removeDuplicateParagraphs_groups hgroups (.inr ⟨hne, rfl⟩)
  have hall : groups.flatten.Sublist ((splitlines (replaceReturns (nfkc text))).map tidy) := by
    rw [← filter_separated hgroups]
    rcases hlines with hlines | ⟨-, hlines⟩
    · rwa [hlines] at hkept
    · rw [hlines, List.filter_append] at hkept
      simpa using hkept
  obtain ⟨firsts, hsub, hfirsts⟩ := List.sublist_map_iff.mp
    (firstsBy_sublist paragraphFingerprint (groups.map joinLines))
  have hparagraph : ∀ group ∈ firsts, IsParagraph group := fun g hg => hgroups g (hsub.subset hg)
  refine ⟨firsts, ⟨hparagraph, ?_⟩, ?_, hsub.flatten.trans hall⟩
  · rw [← hfirsts]
    exact nodup_firstsBy _ _
  · unfold cleanText
    dsimp only
    rw [hduplicates, hfirsts, strip_joinParagraphs hparagraph]

/-- The lines of what cleaning leaves are split again. -/
theorem Cleaned.splitlines_eq (h : Cleaned groups) :
    splitlines (joinParagraphs (groups.map joinLines)) = separated groups := by
  by_cases hne : groups = []
  · rw [hne]
    decide
  · obtain ⟨lines, line, hlines, hline⟩ := separated_ne_nil hne h.paragraph
    have hunbroken : ∀ l ∈ separated groups, ∀ c ∈ l, isLineBreak c = false := by
      intro l hl
      by_cases hempty : l = []
      · simp [hempty]
      · have hmem : l ∈ (separated groups).filter (· ≠ []) :=
          List.mem_filter.mpr ⟨hl, by simpa using hempty⟩
        rw [filter_separated h.paragraph] at hmem
        obtain ⟨group, hgroup, hin⟩ := List.mem_flatten.mp hmem
        exact ((h.paragraph group hgroup).kept l hin).unbroken
    have hsplit := Text.splitOnP_joinLines (p := isLineBreak) rfl (by simp [hlines]) hunbroken
    have hlast : (separated groups).getLast? ≠ some [] := by
      simpa [hlines] using hline.ne_nil
    rw [← h.joinLines_eq, splitlines, hsplit, if_neg hlast]

/-- A cleaned text is read as it is. -/
theorem Cleaned.cleanText_eq (h : Cleaned groups)
    (hnormal : nfkc (joinParagraphs (groups.map joinLines)) = joinParagraphs (groups.map joinLines))
    (hreturns : '\r' ∉ joinParagraphs (groups.map joinLines)) :
    cleanText nfkc (joinParagraphs (groups.map joinLines)) =
      joinParagraphs (groups.map joinLines) := by
  have hreplace : replaceReturns (joinParagraphs (groups.map joinLines)) =
      joinParagraphs (groups.map joinLines) := by
    rw [replaceReturns, Text.replace_of_not_mem hreturns, Text.replace_of_not_mem hreturns]
  unfold cleanText
  dsimp only
  rw [hnormal, hreplace, h.splitlines_eq, (settled_separated h.paragraph).foldl_addLine,
    h.joinLines_eq, ← List.append_nil (joinParagraphs (groups.map joinLines)),
    removeDuplicateParagraphs_groups h.paragraph (.inl rfl), firstsBy_eq_self h.distinct,
    strip_joinParagraphs h.paragraph, List.append_nil]

/-- Cleaning a cleaned text changes nothing, if the normal form of Unicode leaves a text as it is whose
lines are tidied lines of a normal form. -/
theorem cleanText_idempotent
    (hnfkc : ∀ text cleaned, Tidied (nfkc text) cleaned → nfkc cleaned = cleaned) (text : Text) :
    cleanText nfkc (cleanText nfkc text) = cleanText nfkc text := by
  obtain ⟨groups, hcleaned, htext, hlines⟩ := @cleanText_groups nfkc text
  have hreturns : '\r' ∉ joinParagraphs (groups.map joinLines) := by
    intro hmem
    rw [← htext] at hmem
    have heq := eq_newline_of_mem_cleanText hmem rfl
    exact absurd heq (by decide)
  have htidied : Tidied (nfkc text) (joinParagraphs (groups.map joinLines)) := by
    refine ⟨separated groups, hcleaned.joinLines_eq.symm, ?_⟩
    rw [filter_separated hcleaned.paragraph]
    exact hlines
  rw [htext]
  exact hcleaned.cleanText_eq (hnfkc text _ htidied) hreturns

/-- A page with blanks, a button and a paragraph that comes twice. -/
def pageText : Text := str "  标题 \n正文\t一\n\n\n打印本页\n\n标题\n正文 一\n\n附件\n"

theorem cleanText_idempotent_page :
    cleanText id pageText = str "标题\n正文 一\n\n附件" ∧
      cleanText id (cleanText id pageText) = cleanText id pageText :=
  ⟨by decide +kernel, cleanText_idempotent (fun _ _ _ => rfl) pageText⟩

end Odirag.Attachments
