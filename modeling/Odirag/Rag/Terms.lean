import Odirag.Rag.Patterns
import Odirag.Foundations.Distinct
import Odirag.Foundations.Binary64

/-!
# Terms, values and shapes

Reference: `backend/app/rag/evidence.py`.

The lexical side of the evidence gate: how a query is cut into aspects and an answer into claims,
the weighted terms of a text and how much of their weight an evidence text covers, the exact values
and the shape of answer that an aspect asks for.

Weights are counted in halves. They are multiples of one half and their sums are exact in floating
point, so that only the quotients are rounded.
-/

namespace Odirag.Rag

open Regex
open Documents (isSpace)

variable (py : Python)

/-! ## Cleaning -/

/-- `re.sub(r"\s+", " ", value)`. -/
def collapseSpaces (value : Text) : Text := (plus space).sub (str " ") value

/-- `_clean_display`. -/
def cleanDisplay (value : Text) : Text :=
  Text.stripBy (· ∈ str " ,，:：") (collapseSpaces value)

/-- `_clean_for_matching`. -/
def cleanForMatching (value : Text) : Text :=
  let cleaned := url.sub (str " ") (py.lower value)
  let cleaned := py.questionPhrases.foldl (fun cleaned phrase => cleaned.replace phrase (str " "))
    cleaned
  Text.stripBy isSpace (collapseSpaces cleaned)

/-- The cleaned text of a part, if anything is left of it. -/
def displayed (part : Text) : List Text :=
  let cleaned := cleanDisplay part
  if cleaned = [] then [] else [cleaned]

/-- The rest of `_query_aspects`: `part` is the text since the last separator, reversed. Separators
within book titles do not count. -/
def queryAspectsFrom (bookTitleDepth : ℕ) (part : Text) : Text → List Text
  | [] => displayed part.reverse
  | c :: rest =>
      if c = '《' then queryAspectsFrom (bookTitleDepth + 1) (c :: part) rest
      else if c = '》' then queryAspectsFrom (bookTitleDepth - 1) (c :: part) rest
      else if bookTitleDepth = 0 ∧ c ∈ (str "?？。!！;；\n") then
        displayed part.reverse ++ queryAspectsFrom 0 [] rest
      else queryAspectsFrom bookTitleDepth (c :: part) rest

/-- `_query_aspects`. -/
def queryAspects (query : Text) : List Text := queryAspectsFrom 0 [] query

/-- `_answer_claims`. -/
def answerClaims (answer : Text) : List Text :=
  (answerClaimSeparator.split (inlineCitationNote.sub (str " ") answer)).flatMap displayed

/-! ## Weighted terms -/

/-- A dictionary from terms to weights, in halves. -/
abbrev Terms := List (Text × ℕ)

/-- `terms[term] = max(terms.get(term, 0.0), weight)`. -/
def Terms.raise (term : Text) (weight : ℕ) : Terms → Terms
  | [] => [(term, weight)]
  | (t, w) :: rest => if t = term then (t, max w weight) :: rest else (t, w) :: raise term weight rest

/-- `_GENERIC_TERMS` has the term. -/
def isGeneric (term : Text) : Bool := genericTerms.any (· == term)

/-- The terms of this size in a segment. -/
def Terms.addGrams (segment : Text) (terms : Terms) (size weight : ℕ) : Terms :=
  if segment.length < size then terms
  else
    (List.range (segment.length - size + 1)).foldl (fun terms index =>
      let term := segment.slice index (index + size)
      if isGeneric term then terms else terms.raise term weight) terms

/-- The terms that a CJK segment contributes. -/
def Terms.addSegment (terms : Terms) (segment : Text) : Terms :=
  if segment.length < 2 then terms
  else
    let terms := ((terms.addGrams segment 2 2).addGrams segment 3 4).addGrams segment 4 6
    if segment.length ≤ 6 ∧ isGeneric segment = false then
      terms.raise segment (2 * min 5 segment.length)
    else terms

/-- `_weighted_terms`. -/
def weightedTerms (value : Text) : Terms :=
  let latin := (latinTerm.findall value).foldl (fun terms term =>
    let normalized := py.lower term
    Terms.raise normalized (min 8 normalized.length) terms) []
  (cjkSegment.findall value).foldl Terms.addSegment latin

/-- `sum(terms.values())`. -/
def Terms.total (terms : Terms) : ℕ := (terms.map Prod.snd).sum

/-- The weight of the terms that occur in the text. -/
def Terms.matched (terms : Terms) (text : Text) : ℕ :=
  ((terms.filter fun t => text.contains t.1).map Prod.snd).sum

/-- `_coverage`. -/
def coverage (terms : Terms) (text : Text) : ℚ :=
  if terms.total = 0 then 0 else Binary64.div (terms.matched text) terms.total

/-- `_strong_match_count`. -/
def strongMatchCount (terms : Terms) (text : Text) : ℕ :=
  terms.countP fun t => text.contains t.1 && (3 ≤ t.1.length || latinTerm.fullmatch t.1)

/-! ## Exact values -/

/-- `_normalize_value`. -/
def normalizeValue (value : Text) : Text :=
  py.lower (value.filter fun c => !(isSpace c || c == ',' || c == '，'))

/-- `_explicit_values`. -/
def explicitValues (value : Text) : List Text := firsts ((explicitValue py).findall value)

/-- A value that bounds a filter (`after 2020`) is no constraint on the evidence. -/
def isFilterBoundary (value : Text) (m : Match) : Bool :=
  let before := py.lower (value.slice (m.start - 8) m.start)
  let after := py.lower (value.slice m.stop (m.stop + 4))
  (strs ["之后", "以后", "以来", "之前", "以前"]).any (·.isPrefixOf after) ||
    (strs ["截至", "晚于", "早于", "after", "since", "before"]).any before.endsWith

/-- `_query_constraints`. -/
def queryConstraints (value : Text) : List Text :=
  firsts
    ((((explicitValue py).finditer value).filter fun m => !isFilterBoundary py value m).map Match.text)

/-! ## Answer shapes -/

/-- The aspect asks for one of these words and the evidence lacks what answers it. -/
def missing (words : List Text) (lowered : Text) (r : Regex) (evidence : Text) : Bool :=
  lowered.containsAny words && (r.search evidence).isNone

/-- `_answer_shape_supported`. -/
def answerShapeSupported (aspect evidence : Text) : Bool :=
  let lowered := py.lower aspect
  let numericAlternative := lowered.contains (str "数量") && lowered.contains (str "比例") &&
    lowered.contains (str "编号") && lowered.contains (str "或")
  let numericAlternativeMissing :=
    numericAlternative && ((quantityEvidence py).search evidence).isNone
  let dateMissing := missing (strs ["什么时候", "何时", "时间", "日期"]) lowered (dateEvidence py) evidence
  let percentageMissing := !numericAlternative &&
    missing (strs ["比例", "百分比", "占比", "%", "％"]) lowered (percentEvidence py) evidence
  let moneyMissing :=
    missing (strs ["金额", "罚款", "补助资金", "资金额度"]) lowered (moneyEvidence py) evidence
  let quantityMissing := !numericAlternative && !lowered.containsAny (strs ["比例", "金额", "罚款"]) &&
    missing (strs ["多少", "数量", "几家", "几个"]) lowered (quantityEvidence py) evidence
  let contactMissing :=
    missing (strs ["联系人", "联系电话", "联系方式", "邮箱"]) lowered (contactEvidence py) evidence
  let listMissing :=
    missing (strs ["名单", "哪些单位", "哪几家", "包括哪些"]) lowered (listEvidence py) evidence
  let supportMissing := lowered.contains (str "支持措施") && !evidence.containsAny
    (strs ["补助", "资金", "奖励", "减免", "优惠", "贷款", "培训", "服务", "支持"])
  !(dateMissing || percentageMissing || moneyMissing || quantityMissing || contactMissing ||
    listMissing || supportMissing || numericAlternativeMissing)

/-- `_bounded`, of a finite number. -/
def bounded (value : ℚ) : ℚ := Binary64.roundDigits 6 (min 1 (max 0 value))

theorem bounded_mem_unit (value : ℚ) : 0 ≤ bounded value ∧ bounded value ≤ 1 :=
  Binary64.roundDigits_mem_unit ⟨le_min zero_le_one (le_max_left 0 value), min_le_left _ _⟩ 6

/-! ## Terms are parts of lines -/

/-- No term contains a line break. -/
def Terms.WithinLines (terms : Terms) : Prop := ∀ t ∈ terms, '\n' ∉ t.1

theorem Terms.WithinLines.raise {terms : Terms} (h : terms.WithinLines) {term : Text}
    (hterm : '\n' ∉ term) (weight : ℕ) : (terms.raise term weight).WithinLines := by
  induction terms with
  | nil =>
      intro t ht
      rw [List.mem_singleton.mp ht]
      exact hterm
  | cons head rest ih =>
      have hrest : Terms.WithinLines rest := fun t ht => h t (List.mem_cons_of_mem _ ht)
      have hhead : '\n' ∉ head.1 := h head List.mem_cons_self
      intro t ht
      simp only [Terms.raise] at ht
      split at ht
      · rcases List.mem_cons.mp ht with rfl | ht
        · exact hhead
        · exact hrest t ht
      · rcases List.mem_cons.mp ht with rfl | ht
        · exact hhead
        · exact ih hrest t ht

theorem not_mem_slice {text : Text} {c : Char} (h : c ∉ text) (i j : ℕ) : c ∉ text.slice i j :=
  fun hc => h (List.mem_of_mem_drop (List.mem_of_mem_take hc))

theorem Terms.WithinLines.addGrams {terms : Terms} (h : terms.WithinLines) {segment : Text}
    (hsegment : '\n' ∉ segment) (size weight : ℕ) :
    (terms.addGrams segment size weight).WithinLines := by
  unfold Terms.addGrams
  split
  · exact h
  · refine List.foldlRecOn _ _ h fun terms h index _ => ?_
    show Terms.WithinLines (if _ then terms else _)
    split
    · exact h
    · exact h.raise (not_mem_slice hsegment _ _) weight

theorem Terms.WithinLines.addSegment {terms : Terms} (h : terms.WithinLines) {segment : Text}
    (hsegment : '\n' ∉ segment) : (terms.addSegment segment).WithinLines := by
  have hgrams : (((terms.addGrams segment 2 2).addGrams segment 3 4).addGrams segment 4 6).WithinLines :=
    ((h.addGrams hsegment 2 2).addGrams hsegment 3 4).addGrams hsegment 4 6
  unfold Terms.addSegment
  split
  · exact h
  · show Terms.WithinLines (if _ then _ else _)
    split
    · exact hgrams.raise hsegment _
    · exact hgrams

/-- The terms of a text lie within its lines. -/
theorem weightedTerms_withinLines (value : Text) : (weightedTerms py value).WithinLines := by
  have hlatin : ∀ w ∈ latinTerm.findall value, '\n' ∉ w := fun w hw =>
    not_mem_of_avoids (by decide) w (mem_lang_of_mem_findall rfl hw)
  have hcjk : ∀ w ∈ cjkSegment.findall value, '\n' ∉ w := fun w hw =>
    not_mem_of_avoids (by decide) w (mem_lang_of_mem_findall rfl hw)
  unfold weightedTerms
  refine List.foldlRecOn _ _ ?_ fun terms h segment hs => h.addSegment (hcjk segment hs)
  refine List.foldlRecOn _ _ (fun t ht => by cases ht) fun terms h term ht => ?_
  exact h.raise (py.newline_not_mem_lower term (hlatin term ht)) _

/-! ## Texts that show more

Coverage, strong matches and shapes are matters of what the lines of a text show, so they only grow
with the lines. -/

/-- Whatever some line of the first text shows, some line of the second shows. -/
def LinesLE (a b : Text) : Prop :=
  ∀ P : Text → Prop, (∀ x y, P (x ++ '\n' :: y) ↔ P x ∨ P y) → P a → P b

theorem LinesLE.contains {a b : Text} (h : LinesLE a b) {needle : Text} (hn : '\n' ∉ needle)
    (ha : a.contains needle = true) : b.contains needle = true :=
  h (fun t => t.contains needle = true)
    (fun x y => by simp only [Text.contains_iff]; exact Text.infix_append_cons hn) ha

theorem LinesLE.search {a b : Text} (h : LinesLE a b) {r : Regex} (hr : FoundInLines r)
    (ha : (r.search a).isSome = true) : (r.search b).isSome = true :=
  h (fun t => (r.search t).isSome = true) hr ha

theorem LinesLE.containsAny {a b : Text} (h : LinesLE a b) {words : List Text}
    (hn : ∀ w ∈ words, '\n' ∉ w) (ha : a.containsAny words = true) :
    b.containsAny words = true := by
  obtain ⟨w, hw, hc⟩ := List.any_eq_true.mp ha
  exact List.any_eq_true.mpr ⟨w, hw, h.contains (hn w hw) hc⟩

theorem Terms.matched_cons (t : Text × ℕ) (terms : Terms) (text : Text) :
    Terms.matched (t :: terms) text =
      (if text.contains t.1 then t.2 else 0) + Terms.matched terms text := by
  by_cases h : text.contains t.1 = true
  · simp [Terms.matched, h]
  · simp [Terms.matched, h]

theorem Terms.matched_le {terms : Terms} {a b : Text}
    (h : ∀ t ∈ terms, a.contains t.1 = true → b.contains t.1 = true) :
    terms.matched a ≤ terms.matched b := by
  induction terms with
  | nil => exact le_refl _
  | cons t terms ih =>
      have hrest := ih fun t ht => h t (List.mem_cons_of_mem _ ht)
      rw [Terms.matched_cons, Terms.matched_cons]
      refine Nat.add_le_add ?_ hrest
      by_cases ha : a.contains t.1 = true
      · rw [if_pos ha, if_pos (h t List.mem_cons_self ha)]
      · rw [if_neg ha]
        exact Nat.zero_le _

/-- A text with the same terms and more covers as much. -/
theorem coverage_le {terms : Terms} {a b : Text}
    (h : ∀ t ∈ terms, a.contains t.1 = true → b.contains t.1 = true) :
    coverage terms a ≤ coverage terms b := by
  unfold coverage
  split
  · exact le_refl _
  · refine Binary64.div_mono (Nat.cast_nonneg _) (Nat.cast_nonneg _) ?_
    exact_mod_cast Terms.matched_le h

theorem strongMatchCount_le {terms : Terms} {a b : Text}
    (h : ∀ t ∈ terms, a.contains t.1 = true → b.contains t.1 = true) :
    strongMatchCount terms a ≤ strongMatchCount terms b := by
  refine List.countP_mono_left fun t ht hstrong => ?_
  obtain ⟨hcontains, hlong⟩ := Bool.and_eq_true_iff.mp hstrong
  rw [h t ht hcontains, hlong]
  rfl

theorem coverage_mono {terms : Terms} (hterms : terms.WithinLines) {a b : Text} (h : LinesLE a b) :
    coverage terms a ≤ coverage terms b :=
  coverage_le fun t ht => h.contains (hterms t ht)

theorem strongMatchCount_mono {terms : Terms} (hterms : terms.WithinLines) {a b : Text}
    (h : LinesLE a b) : strongMatchCount terms a ≤ strongMatchCount terms b :=
  strongMatchCount_le fun t ht => h.contains (hterms t ht)

theorem missing_mono {words : List Text} {lowered : Text} {r : Regex} (hr : FoundInLines r)
    {a b : Text} (h : LinesLE a b) (ha : missing words lowered r a = false) :
    missing words lowered r b = false := by
  unfold missing at *
  rw [Bool.and_eq_false_iff] at *
  refine ha.imp id fun hfound => ?_
  rw [Option.isNone_eq_false_iff] at *
  exact h.search hr hfound

/-- An answer shape that a text has is not lost by showing more. -/
theorem answerShapeSupported_mono {aspect a b : Text} (h : LinesLE a b)
    (ha : answerShapeSupported py aspect a = true) : answerShapeSupported py aspect b = true := by
  have hquantity := quantityEvidence_lines py
  simp only [answerShapeSupported, Bool.not_eq_true', Bool.or_eq_false_iff,
    Bool.and_eq_false_iff] at *
  obtain ⟨⟨⟨⟨⟨⟨⟨hdate, hpercent⟩, hmoney⟩, hq⟩, hcontact⟩, hlist⟩, hsupport⟩, halt⟩ := ha
  refine ⟨⟨⟨⟨⟨⟨⟨missing_mono (dateEvidence_lines py) h hdate, ?_⟩,
    missing_mono (moneyEvidence_lines py) h hmoney⟩, ?_⟩,
    missing_mono (contactEvidence_lines py) h hcontact⟩,
    missing_mono (listEvidence_lines py) h hlist⟩, ?_⟩, ?_⟩
  · exact hpercent.imp id (missing_mono (percentEvidence_lines py) h)
  · exact hq.imp id (missing_mono hquantity h)
  · refine hsupport.imp id fun hs => ?_
    rw [Bool.not_eq_false'] at *
    exact h.containsAny (by decide) hs
  · refine halt.imp id fun hs => ?_
    rw [Option.isNone_eq_false_iff] at *
    exact h.search hquantity hs

end Odirag.Rag
