import Odirag.Rag.Evidence

/-!
# What a verdict says

Reference: `EvidenceSufficiencyGate` of `backend/app/rag/evidence.py`.

`assessAspect_eq` says what becomes of an aspect in three parts: the checks before the exact values,
the exact values, and the checks after them. The hits that satisfy the constraints of an aspect are
chosen one by one (`constraintHits_eq`), and all checks but the one of the exact values look at what
the lines of the joined texts show, so that only that one can notice how the hits are joined.
`assess_sufficient_iff` says when a query as a whole is covered.
-/

namespace Odirag.Rag

open Retrieval

variable (py : Python) (gate : EvidenceSufficiencyGate)

/-! ## Joined texts -/

theorem lower_joinLines {texts : List Text} (hne : texts ≠ []) :
    py.lower (Text.joinLines texts) = Text.joinLines (texts.map py.lower) := by
  induction texts with
  | nil => exact absurd rfl hne
  | cons t rest ih =>
      cases rest with
      | nil => rw [List.map_singleton, Text.joinLines_singleton, Text.joinLines_singleton]
      | cons u rest =>
          rw [Text.joinLines_cons_cons, py.lower_newline, ih (by simp), List.map_cons, List.map_cons,
            List.map_cons, Text.joinLines_cons_cons]

/-- The evidence text is the joined texts of the hits. -/
theorem evidenceText_eq {hits : List RetrievalHit} (hne : hits ≠ []) :
    evidenceText py hits = Text.joinLines (hits.map (hitText py)) := by
  unfold evidenceText
  rw [lower_joinLines py (by simpa using hne), List.map_map]
  rfl

/-- A hit has a title and a content, so that a line break stands between them. -/
theorem newline_mem_hitText (hit : RetrievalHit) : '\n' ∈ hitText py hit := by
  unfold hitText searchableText searchableFields
  rw [Text.joinLines_cons_cons, py.lower_newline]
  exact List.mem_append_right _ List.mem_cons_self

theorem evidenceText_ne_nil {hits : List RetrievalHit} (hne : hits ≠ []) :
    evidenceText py hits ≠ [] := by
  obtain ⟨hit, rest, rfl⟩ := List.exists_cons_of_ne_nil hne
  rw [evidenceText_eq py hne]
  intro hnil
  have hmem := newline_mem_hitText py hit
  cases rest with
  | nil =>
      rw [List.map_singleton, Text.joinLines_singleton] at hnil
      rw [hnil] at hmem
      cases hmem
  | cons other rest =>
      rw [List.map_cons, List.map_cons, Text.joinLines_cons_cons] at hnil
      exact List.append_ne_nil_of_right_ne_nil _ (List.cons_ne_nil _ _) hnil

/-- What some hit shows, the evidence text of any hits with it shows, whatever their order. -/
theorem evidenceText_linesLE {hits hits' : List RetrievalHit} (hne : hits ≠ [])
    (h : ∀ hit ∈ hits, hit ∈ hits') : LinesLE (evidenceText py hits) (evidenceText py hits') := by
  have hne' : hits' ≠ [] := by
    obtain ⟨hit, hhit⟩ := List.exists_mem_of_ne_nil hits hne
    exact List.ne_nil_of_mem (h hit hhit)
  intro P hP hhits
  rw [evidenceText_eq py hne, Text.joinLines_iff hP (by simpa using hne)] at hhits
  rw [evidenceText_eq py hne', Text.joinLines_iff hP (by simpa using hne')]
  obtain ⟨t, ht, hPt⟩ := hhits
  obtain ⟨hit, hhit, rfl⟩ := List.mem_map.mp ht
  exact ⟨_, List.mem_map_of_mem (h hit hhit), hPt⟩

/-! ## The hits of an aspect -/

/-- The hit states the relation of the aspect, if it has one. -/
def SatisfiesRelation (aspect : Text) (hit : RetrievalHit) : Prop :=
  relationFailure py aspect [] ≠ none → relationFailure py aspect (hitText py hit) = none

/-- The hit states the scope of the aspect, if it has one. -/
def SatisfiesScope (aspect : Text) (hit : RetrievalHit) : Prop :=
  scopeTarget aspect ≠ none → scopeSupported py aspect (hitText py hit) = true

/-- The hit states what the aspect requires. -/
def Satisfies (aspect : Text) (hit : RetrievalHit) : Prop :=
  SatisfiesRelation py aspect hit ∧ SatisfiesScope py aspect hit

instance (aspect : Text) (hit : RetrievalHit) : Decidable (SatisfiesRelation py aspect hit) :=
  inferInstanceAs (Decidable (_ → _))

instance (aspect : Text) (hit : RetrievalHit) : Decidable (SatisfiesScope py aspect hit) :=
  inferInstanceAs (Decidable (_ → _))

instance (aspect : Text) (hit : RetrievalHit) : Decidable (Satisfies py aspect hit) :=
  inferInstanceAs (Decidable (_ ∧ _))

/-- The constraint hits are those that state both constraints, each by itself. -/
theorem constraintHits_eq (aspect : Text) (hits : List RetrievalHit) :
    constraintHits py aspect hits = hits.filter fun hit => decide (Satisfies py aspect hit) := by
  unfold constraintHits
  refine List.filter_congr fun hit hmem => ?_
  have hrelation : hit ∈ relationHits py aspect hits ↔
      relationFailure py aspect (hitText py hit) = none := by
    simp [relationHits, hmem]
  have hscope : hit ∈ scopeHits py aspect hits ↔
      scopeSupported py aspect (hitText py hit) = true := by
    simp [scopeHits, hmem]
  rw [Bool.eq_iff_iff, Bool.and_eq_true, Bool.or_eq_true, Bool.or_eq_true, decide_eq_true_iff,
    decide_eq_true_iff, decide_eq_true_iff, hrelation, hscope]
  unfold relationRequired Satisfies SatisfiesRelation SatisfiesScope
  cases relationFailure py aspect [] <;> cases scopeTarget aspect <;> simp

theorem mem_constraintHits {aspect : Text} {hits : List RetrievalHit} {hit : RetrievalHit} :
    hit ∈ constraintHits py aspect hits ↔ hit ∈ hits ∧ Satisfies py aspect hit := by
  rw [constraintHits_eq, List.mem_filter, decide_eq_true_iff]

theorem usedHits_ne_nil {aspect : Text} {hits : List RetrievalHit} (hne : hits ≠ []) :
    usedHits py aspect hits ≠ [] := by
  unfold usedHits
  split
  · exact hne
  · assumption

theorem mem_of_mem_usedHits {aspect : Text} {hits : List RetrievalHit} {hit : RetrievalHit}
    (h : hit ∈ usedHits py aspect hits) : hit ∈ hits := by
  unfold usedHits at h
  split at h
  · exact h
  · exact ((mem_constraintHits py).mp h).1

/-! ## The parts of a verdict -/

/-- What refuses the aspect before its exact values are looked at. -/
def earlierFailure (aspect : Text) (hits : List RetrievalHit) : Option Reason :=
  if aspectTerms py aspect = [] then some .queryAspectHasNoAnchor
  else if requiresFailClosedQuery py aspect then some .evidenceConstraintMismatch
  else if relationRequired py aspect ∧ relationHits py aspect hits = [] then
    some .evidenceMissingRequiredRelation
  else if (scopeTarget aspect).isSome ∧ scopeHits py aspect hits = [] then
    some .evidenceMissingRequiredScopeTarget
  else none

/-- What refuses the aspect if its exact values are found. -/
def laterFailure (aspect : Text) (hits : List RetrievalHit) : Option Reason :=
  if answerShapeSupported py aspect (evidenceText py (usedHits py aspect hits)) = false then
    some .evidenceMissingRequiredAnswerShape
  else if coverage (aspectTerms py aspect) (evidenceText py hits) < gate.minimumConfidence ∨
      strongMatchCount (aspectTerms py aspect) (evidenceText py hits) = 0 then
    some .insufficientEvidenceRelevance
  else if supportingIds py gate aspect hits = [] then some .insufficientEvidenceRelevance
  else none

/-- Why the aspect is refused, `none` if it is supported. -/
def aspectFailure (aspect : Text) (hits : List RetrievalHit) : Option Reason :=
  (earlierFailure py aspect hits).or
    ((if valuesFound py aspect hits then none else some .evidenceConstraintMismatch).or
      (laterFailure py gate aspect hits))

/-- The confidence in an aspect, whether it is supported or not. -/
def aspectConfidence (aspect : Text) (hits : List RetrievalHit) : ℚ :=
  coverage (aspectTerms py aspect) (evidenceText py hits)

theorem assessAspect_eq {aspect : Text} {hits : List RetrievalHit} (hne : hits ≠ []) :
    assessAspect py gate aspect hits =
      match aspectFailure py gate aspect hits with
      | some reason => ⟨aspect, false, aspectConfidence py aspect hits, reason, []⟩
      | none => ⟨aspect, true, aspectConfidence py aspect hits, .evidenceAspectSupported,
          supportingIds py gate aspect hits⟩ := by
  have htext : evidenceText py (usedHits py aspect hits) ≠ [] :=
    evidenceText_ne_nil py (usedHits_ne_nil py hne)
  have hvalues : ((queryConstraints py aspect).any fun value =>
      !(normalizeValue py (evidenceText py (usedHits py aspect hits))).contains
        (normalizeValue py value)) = !valuesFound py aspect hits := by
    rw [valuesFound, List.not_all_eq_any_not]
  unfold assessAspect aspectFailure earlierFailure laterFailure
  simp only [hvalues, if_neg htext]
  -- The checks in the order of the source: each either gives the reason or hands over to the next.
  by_cases hterms : aspectTerms py aspect = []
  · have hconfidence : aspectConfidence py aspect hits = 0 := by
      rw [aspectConfidence, hterms]
      rfl
    rw [if_pos hterms, if_pos hterms, hconfidence]
    rfl
  rw [if_neg hterms, if_neg hterms]
  by_cases hclosed : requiresFailClosedQuery py aspect = true
  · rw [if_pos hclosed, if_pos hclosed]
    rfl
  rw [if_neg hclosed, if_neg hclosed]
  by_cases hrelation : relationRequired py aspect = true ∧ relationHits py aspect hits = []
  · rw [if_pos hrelation, if_pos hrelation]
    rfl
  rw [if_neg hrelation, if_neg hrelation]
  by_cases hscope : (scopeTarget aspect).isSome = true ∧ scopeHits py aspect hits = []
  · rw [if_pos hscope, if_pos hscope]
    rfl
  rw [if_neg hscope, if_neg hscope]
  cases valuesFound py aspect hits with
  | false => rfl
  | true =>
      rw [if_neg (by decide), if_pos rfl]
      split
      · rfl
      · split
        · rfl
        · split <;> rfl

theorem assessAspect_supported_iff {aspect : Text} {hits : List RetrievalHit} (hne : hits ≠ []) :
    (assessAspect py gate aspect hits).supported = true ↔ aspectFailure py gate aspect hits = none := by
  rw [assessAspect_eq py gate hne]
  cases aspectFailure py gate aspect hits <;> simp

theorem assessAspect_confidence {aspect : Text} {hits : List RetrievalHit} (hne : hits ≠ []) :
    (assessAspect py gate aspect hits).confidence = aspectConfidence py aspect hits := by
  rw [assessAspect_eq py gate hne]
  cases aspectFailure py gate aspect hits <;> rfl

theorem assessAspect_supportingChunkIds {aspect : Text} {hits : List RetrievalHit} (hne : hits ≠ [])
    (h : aspectFailure py gate aspect hits = none) :
    (assessAspect py gate aspect hits).supportingChunkIds = supportingIds py gate aspect hits := by
  rw [assessAspect_eq py gate hne, h]

/-- What it means that hits cover an aspect. -/
structure AspectCovered (aspect : Text) (hits : List RetrievalHit) : Prop where
  terms : aspectTerms py aspect ≠ []
  answerable : requiresFailClosedQuery py aspect = false
  relation : relationRequired py aspect = true → relationHits py aspect hits ≠ []
  scope : (scopeTarget aspect).isSome = true → scopeHits py aspect hits ≠ []
  values : valuesFound py aspect hits = true
  shape : answerShapeSupported py aspect (evidenceText py (usedHits py aspect hits)) = true
  confidence : gate.minimumConfidence ≤ aspectConfidence py aspect hits
  strong : strongMatchCount (aspectTerms py aspect) (evidenceText py hits) ≠ 0
  counted : supportingIds py gate aspect hits ≠ []

theorem aspectFailure_eq_none_iff {aspect : Text} {hits : List RetrievalHit} :
    aspectFailure py gate aspect hits = none ↔ AspectCovered py gate aspect hits := by
  constructor
  · intro h
    simp only [aspectFailure, Option.or_eq_none_iff] at h
    obtain ⟨hearlier, hvalues, hlater⟩ := h
    unfold earlierFailure at hearlier
    unfold laterFailure at hlater
    split_ifs at hearlier with hterms hclosed hrelation hscope
    split_ifs at hvalues with hfound
    split_ifs at hlater with hshape hweak hcounted
    rw [not_or, not_lt] at hweak
    exact ⟨hterms, Bool.not_eq_true _ ▸ hclosed, fun hr hnil => hrelation ⟨hr, hnil⟩,
      fun hs hnil => hscope ⟨hs, hnil⟩, hfound, Bool.not_eq_false _ ▸ hshape, hweak.1, hweak.2,
      hcounted⟩
  · intro h
    have hweak : ¬ (coverage (aspectTerms py aspect) (evidenceText py hits) < gate.minimumConfidence ∨
        strongMatchCount (aspectTerms py aspect) (evidenceText py hits) = 0) := by
      rintro (hlt | hzero)
      · exact absurd h.confidence (not_le.mpr hlt)
      · exact h.strong hzero
    unfold aspectFailure earlierFailure laterFailure
    rw [if_neg h.terms, if_neg (Bool.not_eq_true _ ▸ h.answerable),
      if_neg (fun hr => h.relation hr.1 hr.2), if_neg (fun hs => h.scope hs.1 hs.2), if_pos h.values,
      if_neg (Bool.not_eq_false _ ▸ h.shape), if_neg hweak, if_neg h.counted]
    rfl

/-! ## Whole queries -/

/-- What it means that hits cover a query. -/
structure Covers (query : Text) (hits : List RetrievalHit) : Prop where
  retrieved : hits ≠ []
  substantive : queryAspects query ≠ []
  covered : ∀ aspect ∈ queryAspects query, AspectCovered py gate aspect (uniqueHits hits)

theorem uniqueHits_eq_nil_iff {hits : List RetrievalHit} : uniqueHits hits = [] ↔ hits = [] :=
  firstsBy_eq_nil_iff

/-- The confidence in a query is that in its weakest aspect. -/
def queryConfidence (query : Text) (hits : List RetrievalHit) : ℚ :=
  (((queryAspects query).map fun aspect => aspectConfidence py aspect hits).min?).getD 0

/-- The assessments of the aspects of a query. -/
def assessments (query : Text) (hits : List RetrievalHit) : List AspectAssessment :=
  (queryAspects query).map fun aspect => assessAspect py gate aspect hits

section

variable {hits : List RetrievalHit} (hne : hits ≠ [])
include hne

theorem assessAspect_supported (aspect : Text) : (assessAspect py gate aspect hits).supported =
    (aspectFailure py gate aspect hits).isNone := by
  rw [Bool.eq_iff_iff, assessAspect_supported_iff py gate hne, Option.isNone_iff_eq_none]

theorem map_confidence_assessments (query : Text) :
    (assessments py gate query hits).map AspectAssessment.confidence =
      (queryAspects query).map fun aspect => aspectConfidence py aspect hits := by
  unfold assessments
  rw [List.map_map]
  exact List.map_congr_left fun aspect _ => assessAspect_confidence py gate hne

/-- The aspects that are not supported are those that fail. -/
theorem map_aspect_unsupported (query : Text) :
    ((assessments py gate query hits).filter fun item => !item.supported).map
        AspectAssessment.aspect =
      (queryAspects query).filter fun aspect => (aspectFailure py gate aspect hits).isSome := by
  have haspect : ∀ aspect, (assessAspect py gate aspect hits).aspect = aspect := by
    intro aspect
    rw [assessAspect_eq py gate hne]
    cases aspectFailure py gate aspect hits <;> rfl
  unfold assessments
  rw [List.filter_map, List.map_map]
  have hid : ∀ aspect, (AspectAssessment.aspect ∘ fun aspect => assessAspect py gate aspect hits)
      aspect = id aspect := haspect
  rw [List.map_congr_left fun aspect _ => hid aspect, List.map_id]
  refine List.filter_congr fun aspect _ => ?_
  show (!(assessAspect py gate aspect hits).supported) = _
  rw [assessAspect_supported py gate hne, Option.not_isNone]

/-- The first assessment that is not supported is that of the first aspect that fails. -/
theorem find?_assessments_of_some {query : Text} {reason : Reason}
    (h : ((queryAspects query).findSome? fun aspect => aspectFailure py gate aspect hits) =
      some reason) :
    ∃ item, (assessments py gate query hits).find? (fun item => !item.supported) = some item ∧
      item.reason = reason := by
  obtain ⟨before, aspect, after, hsplit, hreason, hbefore⟩ := List.findSome?_eq_some_iff.mp h
  refine ⟨assessAspect py gate aspect hits, ?_, ?_⟩
  · rw [assessments, hsplit, List.map_append, List.map_cons, List.find?_append,
      List.find?_cons_of_pos, List.find?_eq_none.mpr]
    · rfl
    · intro item hitem
      obtain ⟨other, hother, rfl⟩ := List.mem_map.mp hitem
      rw [assessAspect_supported py gate hne, hbefore other hother]
      decide
    · rw [assessAspect_supported py gate hne, hreason]
      rfl
  · rw [assessAspect_eq py gate hne, hreason]

theorem supported_of_mem_assessments {query : Text}
    (h : ∀ aspect ∈ queryAspects query, aspectFailure py gate aspect hits = none) :
    ∀ item ∈ assessments py gate query hits, item.supported = true := by
  intro item hitem
  obtain ⟨aspect, haspect, rfl⟩ := List.mem_map.mp hitem
  exact (assessAspect_supported_iff py gate hne).mpr (h aspect haspect)

theorem supportingChunkIds_assessments {query : Text}
    (h : ∀ aspect ∈ queryAspects query, aspectFailure py gate aspect hits = none) :
    ((assessments py gate query hits).filter AspectAssessment.supported).flatMap
        AspectAssessment.supportingChunkIds =
      (queryAspects query).flatMap fun aspect => supportingIds py gate aspect hits := by
  rw [List.filter_eq_self.mpr (supported_of_mem_assessments py gate hne h), assessments,
    List.flatMap_map]
  exact List.flatMap_congr fun aspect haspect =>
    assessAspect_supportingChunkIds py gate hne (h aspect haspect)

end

/-- If no aspect fails, some chunk is counted. -/
theorem firsts_supportingIds_ne_nil {query : Text} {hits : List RetrievalHit}
    (haspects : queryAspects query ≠ [])
    (h : ∀ aspect ∈ queryAspects query, aspectFailure py gate aspect hits = none) :
    firsts ((queryAspects query).flatMap fun aspect => supportingIds py gate aspect hits) ≠ [] := by
  rw [Ne, firsts_eq_nil_iff, List.flatMap_eq_nil_iff]
  intro hnil
  obtain ⟨aspect, haspect⟩ := List.exists_mem_of_ne_nil _ haspects
  exact ((aspectFailure_eq_none_iff py gate).mp (h aspect haspect)).counted (hnil aspect haspect)

/-- The first failure of an aspect decides. -/
theorem assess_eq {query : Text} {hits : List RetrievalHit} (hne : hits ≠ [])
    (haspects : queryAspects query ≠ []) :
    assess py gate query hits =
      match (queryAspects query).findSome? fun aspect =>
          aspectFailure py gate aspect (uniqueHits hits) with
      | some reason => ⟨false, bounded (queryConfidence py query (uniqueHits hits)), reason, [],
          (queryAspects query).filter fun aspect =>
            (aspectFailure py gate aspect (uniqueHits hits)).isSome⟩
      | none => ⟨true, bounded (queryConfidence py query (uniqueHits hits)),
          .evidenceCoversAllQueryAspects,
          firsts ((queryAspects query).flatMap fun aspect =>
            supportingIds py gate aspect (uniqueHits hits)), []⟩ := by
  have hunique : uniqueHits hits ≠ [] := mt uniqueHits_eq_nil_iff.mp hne
  have hconfidence := map_confidence_assessments py gate hunique query
  have hunsupported := map_aspect_unsupported py gate hunique query
  unfold assessments at hconfidence hunsupported
  unfold assess
  simp only [if_neg hunique, if_neg haspects, hconfidence, hunsupported]
  cases hfirst : (queryAspects query).findSome? fun aspect =>
      aspectFailure py gate aspect (uniqueHits hits) with
  | some reason =>
      obtain ⟨item, hfind, hreason⟩ := find?_assessments_of_some py gate hunique hfirst
      rw [assessments] at hfind
      rw [hfind]
      simp only [hreason]
      rfl
  | none =>
      -- No aspect fails, so that there are supporting hits to cite.
      have hnone := List.findSome?_eq_none_iff.mp hfirst
      have hfind : (assessments py gate query (uniqueHits hits)).find?
          (fun item => !item.supported) = none := by
        refine List.find?_eq_none.mpr fun item hitem => ?_
        rw [supported_of_mem_assessments py gate hunique hnone item hitem]
        decide
      have hids := supportingChunkIds_assessments py gate hunique hnone
      rw [assessments] at hfind hids
      rw [hfind]
      simp only [hids, if_neg (firsts_supportingIds_ne_nil py gate haspects hnone)]
      rfl

theorem assess_sufficient_iff {query : Text} {hits : List RetrievalHit} :
    (assess py gate query hits).sufficient = true ↔ Covers py gate query hits := by
  by_cases hne : hits = []
  · constructor
    · intro h
      rw [assess, if_pos (uniqueHits_eq_nil_iff.mpr hne)] at h
      cases h
    · intro h
      exact absurd hne h.retrieved
  by_cases haspects : queryAspects query = []
  · constructor
    · intro h
      rw [assess, if_neg (mt uniqueHits_eq_nil_iff.mp hne), if_pos haspects] at h
      cases h
    · intro h
      exact absurd haspects h.substantive
  rw [assess_eq py gate hne haspects]
  constructor
  · intro h
    refine ⟨hne, haspects, fun aspect haspect => ?_⟩
    split at h
    · cases h
    · next hnone =>
        exact (aspectFailure_eq_none_iff py gate).mp
          (List.findSome?_eq_none_iff.mp hnone aspect haspect)
  · intro h
    rw [List.findSome?_eq_none_iff.mpr fun aspect haspect =>
      (aspectFailure_eq_none_iff py gate).mpr (h.covered aspect haspect)]

theorem mem_supportedChunkIds {query : Text} {hits : List RetrievalHit} {id : String}
    (h : Covers py gate query hits) :
    id ∈ (assess py gate query hits).supportedChunkIds ↔
      ∃ aspect ∈ queryAspects query, id ∈ supportingIds py gate aspect (uniqueHits hits) := by
  rw [assess_eq py gate h.retrieved h.substantive, List.findSome?_eq_none_iff.mpr
    fun aspect haspect => (aspectFailure_eq_none_iff py gate).mpr (h.covered aspect haspect)]
  show id ∈ firsts _ ↔ _
  rw [mem_firsts, List.mem_flatMap]

/-- The parts of a decision about hits agree with each other. -/
structure EvidenceSufficiencyDecision.Consistent (decision : EvidenceSufficiencyDecision)
    (hits : List RetrievalHit) : Prop where
  confidence : 0 ≤ decision.confidence ∧ decision.confidence ≤ 1
  distinct : decision.supportedChunkIds.Nodup
  final : ∀ id ∈ decision.supportedChunkIds, id ∈ hits.map RetrievalHit.chunkId
  supported : decision.sufficient = true →
    decision.supportedChunkIds ≠ [] ∧ decision.unsupportedAspects = []
  unsupported : decision.sufficient = false → decision.supportedChunkIds = []

theorem consistent_refusal {confidence : ℚ} (hconfidence : 0 ≤ confidence ∧ confidence ≤ 1)
    (reason : Reason) (unsupported : List Text) (hits : List RetrievalHit) :
    EvidenceSufficiencyDecision.Consistent ⟨false, confidence, reason, [], unsupported⟩ hits where
  confidence := hconfidence
  distinct := List.nodup_nil
  final := fun _ hid => by cases hid
  supported := fun h => by cases h
  unsupported := fun _ => rfl

theorem mem_of_mem_uniqueHits {hits : List RetrievalHit} {hit : RetrievalHit}
    (h : hit ∈ uniqueHits hits) : hit ∈ hits := mem_of_mem_firstsBy h

theorem mem_map_chunkId_of_counted {aspect : Text} {hits : List RetrievalHit} {id : String}
    (h : id ∈ supportingIds py gate aspect hits) : id ∈ hits.map RetrievalHit.chunkId := by
  obtain ⟨hit, hhit, rfl⟩ := List.mem_map.mp h
  exact List.mem_map_of_mem (mem_of_mem_usedHits py (List.mem_filter.mp hhit).1)

/-- The decisions of the gate are consistent. -/
theorem consistent_assess (query : Text) (hits : List RetrievalHit) :
    (assess py gate query hits).Consistent hits := by
  have hzero : (0 : ℚ) ≤ 0 ∧ (0 : ℚ) ≤ 1 := ⟨le_rfl, zero_le_one⟩
  by_cases hne : hits = []
  · rw [assess, if_pos (uniqueHits_eq_nil_iff.mpr hne)]
    exact consistent_refusal hzero _ _ hits
  by_cases haspects : queryAspects query = []
  · rw [assess, if_neg (mt uniqueHits_eq_nil_iff.mp hne), if_pos haspects]
    exact consistent_refusal hzero _ _ hits
  rw [assess_eq py gate hne haspects]
  split
  · exact consistent_refusal (bounded_mem_unit _) _ _ hits
  · next hnone =>
      refine ⟨bounded_mem_unit _, nodup_firsts _, fun id hid => ?_,
        fun _ => ⟨firsts_supportingIds_ne_nil py gate haspects
          (List.findSome?_eq_none_iff.mp hnone), rfl⟩,
        fun h => by cases h⟩
      obtain ⟨aspect, -, hcount⟩ := List.mem_flatMap.mp (mem_firsts.mp hid)
      obtain ⟨hit, hhit, rfl⟩ := List.mem_map.mp (mem_map_chunkId_of_counted py gate hcount)
      exact List.mem_map_of_mem (mem_of_mem_uniqueHits hhit)

end Odirag.Rag
