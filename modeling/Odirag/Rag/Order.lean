import Odirag.Rag.Monotone

/-!
# The order of the hits

Reference: `EvidenceSufficiencyGate` of `backend/app/rag/evidence.py`.

A permutation of the hits permutes the hits that an aspect uses, and what joined lines show is the same
in every order. Only the exact values are searched across the joints. They matter where the checks
before them pass and the verdict rests on them: because the checks after them pass too, or because the
aspect is the first that may fail (`OrderSafe`). `assess_perm_iff` says that the gate is independent of
the order exactly there.
-/

namespace Odirag.Rag

open Retrieval

variable {py : Python} {gate : EvidenceSufficiencyGate}
variable {aspect query : Text} {hits hits' : List RetrievalHit}

/-! ## One aspect -/

theorem nil_iff_of_perm {α : Type*} {xs ys : List α} (h : xs.Perm ys) : xs = [] ↔ ys = [] :=
  ⟨fun hnil => List.nil_perm.mp (hnil ▸ h), fun hnil => List.perm_nil.mp (hnil ▸ h)⟩

theorem constraintHits_perm (h : hits.Perm hits') :
    (constraintHits py aspect hits).Perm (constraintHits py aspect hits') := by
  rw [constraintHits_eq, constraintHits_eq]
  exact h.filter _

theorem usedHits_perm (h : hits.Perm hits') :
    (usedHits py aspect hits).Perm (usedHits py aspect hits') := by
  have hconstraint : (constraintHits py aspect hits).Perm (constraintHits py aspect hits') :=
    constraintHits_perm h
  unfold usedHits
  by_cases hnil : constraintHits py aspect hits = []
  · rw [if_pos hnil, if_pos ((nil_iff_of_perm hconstraint).mp hnil)]
    exact h
  · rw [if_neg hnil, if_neg (mt (nil_iff_of_perm hconstraint).mpr hnil)]
    exact hconstraint

theorem supportingIds_perm (h : hits.Perm hits') :
    (supportingIds py gate aspect hits).Perm (supportingIds py gate aspect hits') :=
  ((usedHits_perm h).filter _).map _

variable (py) in
/-- The evidence texts of permuted hits show the same lines. -/
theorem evidenceText_perm (h : hits.Perm hits') (hne : hits ≠ []) :
    LinesLE (evidenceText py hits) (evidenceText py hits') ∧
      LinesLE (evidenceText py hits') (evidenceText py hits) :=
  ⟨evidenceText_linesLE py hne fun _ hmem => h.mem_iff.mp hmem,
    evidenceText_linesLE py (mt (nil_iff_of_perm h).mpr hne) fun _ hmem => h.mem_iff.mpr hmem⟩

theorem aspectConfidence_perm (h : hits.Perm hits') (hne : hits ≠ []) :
    aspectConfidence py aspect hits = aspectConfidence py aspect hits' := by
  obtain ⟨hle, hge⟩ := evidenceText_perm py h hne
  have hterms : (aspectTerms py aspect).WithinLines := weightedTerms_withinLines py _
  exact le_antisymm (coverage_mono hterms hle) (coverage_mono hterms hge)

theorem earlierFailure_perm (h : hits.Perm hits') :
    earlierFailure py aspect hits = earlierFailure py aspect hits' := by
  have hrelation : relationHits py aspect hits = [] ↔ relationHits py aspect hits' = [] :=
    nil_iff_of_perm (h.filter _)
  have hscope : scopeHits py aspect hits = [] ↔ scopeHits py aspect hits' = [] :=
    nil_iff_of_perm (h.filter _)
  unfold earlierFailure
  simp only [hrelation, hscope]

theorem laterFailure_perm (h : hits.Perm hits') (hne : hits ≠ []) :
    laterFailure py gate aspect hits = laterFailure py gate aspect hits' := by
  have hshape : answerShapeSupported py aspect (evidenceText py (usedHits py aspect hits)) =
      answerShapeSupported py aspect (evidenceText py (usedHits py aspect hits')) := by
    have hused : (usedHits py aspect hits).Perm (usedHits py aspect hits') := usedHits_perm h
    obtain ⟨hle, hge⟩ := evidenceText_perm py hused (usedHits_ne_nil py hne)
    exact Bool.eq_iff_iff.mpr
      ⟨answerShapeSupported_mono py hle, answerShapeSupported_mono py hge⟩
  have hconfidence : coverage (aspectTerms py aspect) (evidenceText py hits) =
      coverage (aspectTerms py aspect) (evidenceText py hits') := aspectConfidence_perm h hne
  have hstrong : strongMatchCount (aspectTerms py aspect) (evidenceText py hits) =
      strongMatchCount (aspectTerms py aspect) (evidenceText py hits') := by
    obtain ⟨hle, hge⟩ := evidenceText_perm py h hne
    have hterms : (aspectTerms py aspect).WithinLines := weightedTerms_withinLines py _
    exact le_antisymm (strongMatchCount_mono hterms hle) (strongMatchCount_mono hterms hge)
  unfold laterFailure
  simp only [hshape, hconfidence, hstrong, nil_iff_of_perm (supportingIds_perm h)]

/-- A later check gives another reason than the exact values do. -/
theorem laterFailure_ne_mismatch :
    laterFailure py gate aspect hits ≠ some .evidenceConstraintMismatch := by
  unfold laterFailure
  split_ifs <;> simp

/-- If the exact values are found in both orders or in neither, the aspect fares the same. -/
theorem aspectFailure_perm (h : hits.Perm hits') (hne : hits ≠ [])
    (hvalues : earlierFailure py aspect hits = none →
      (valuesFound py aspect hits = true ↔ valuesFound py aspect hits' = true)) :
    aspectFailure py gate aspect hits = aspectFailure py gate aspect hits' := by
  unfold aspectFailure
  rw [← earlierFailure_perm h, ← laterFailure_perm h hne]
  cases hearlier : earlierFailure py aspect hits with
  | some reason => rfl
  | none => simp only [hvalues hearlier]

/-- With a check after the exact values that fails, the aspect fails in every order. -/
theorem isSome_aspectFailure_perm (h : hits.Perm hits') (hne : hits ≠ [])
    (hvalues : earlierFailure py aspect hits = none → laterFailure py gate aspect hits = none →
      (valuesFound py aspect hits = true ↔ valuesFound py aspect hits' = true)) :
    (aspectFailure py gate aspect hits).isSome = (aspectFailure py gate aspect hits').isSome := by
  cases hearlier : earlierFailure py aspect hits with
  | some reason =>
      rw [aspectFailure_perm h hne fun hnone => by rw [hearlier] at hnone; cases hnone]
  | none =>
      cases hlater : laterFailure py gate aspect hits with
      | none => rw [aspectFailure_perm h hne fun _ => hvalues hearlier hlater]
      | some reason =>
          unfold aspectFailure
          rw [← earlierFailure_perm h, ← laterFailure_perm h hne, hlater]
          simp

variable (gate) in
/-- Past the checks before the exact values, these and the checks after them decide. -/
theorem aspectFailure_of_earlier (hearlier : earlierFailure py aspect hits = none) :
    aspectFailure py gate aspect hits =
      if valuesFound py aspect hits then laterFailure py gate aspect hits
      else some .evidenceConstraintMismatch := by
  unfold aspectFailure
  rw [hearlier]
  cases valuesFound py aspect hits <;> rfl

/-- If the aspect fares the same in both orders, the exact values found in one are found in the
other: missing ones give a reason of their own. -/
theorem valuesFound_of_same (hearlier : earlierFailure py aspect hits = none)
    (hearlier' : earlierFailure py aspect hits' = none)
    (hlater : laterFailure py gate aspect hits = none →
      (aspectFailure py gate aspect hits).isSome = (aspectFailure py gate aspect hits').isSome)
    (hreason : ∀ reason reason', aspectFailure py gate aspect hits = some reason →
      aspectFailure py gate aspect hits' = some reason' → reason = reason')
    (hfound : valuesFound py aspect hits = true) : valuesFound py aspect hits' = true := by
  by_contra hmissing
  have hfailure' : aspectFailure py gate aspect hits' = some .evidenceConstraintMismatch := by
    rw [aspectFailure_of_earlier gate hearlier', if_neg hmissing]
  have hfailure : aspectFailure py gate aspect hits = laterFailure py gate aspect hits := by
    rw [aspectFailure_of_earlier gate hearlier, if_pos hfound]
  cases hl : laterFailure py gate aspect hits with
  | none =>
      have hsome := hlater hl
      rw [hfailure, hfailure', hl] at hsome
      cases hsome
  | some reason =>
      have hsame := hreason reason _ (hfailure.trans hl) hfailure'
      exact laterFailure_ne_mismatch (hsame ▸ hl)

/-! ## Whole queries -/

/-- The decisions agree, up to the order of the supported chunks. -/
def SameOutcome (d d' : EvidenceSufficiencyDecision) : Prop :=
  d.sufficient = d'.sufficient ∧ d.confidence = d'.confidence ∧ d.reason = d'.reason ∧
    d.unsupportedAspects = d'.unsupportedAspects ∧
    ∀ id, id ∈ d.supportedChunkIds ↔ id ∈ d'.supportedChunkIds

variable (py gate) in
/-- Wherever the verdict rests on the exact values of an aspect, they are found in both orders or in
neither. -/
def OrderSafe (query : Text) (hits hits' : List RetrievalHit) : Prop :=
  ∀ before aspect after, queryAspects query = before ++ aspect :: after →
    earlierFailure py aspect hits = none →
    laterFailure py gate aspect hits = none ∨ (∀ other ∈ before, AspectCovered py gate other hits) →
    (valuesFound py aspect hits = true ↔ valuesFound py aspect hits' = true)

theorem assess_unsupportedAspects (hids : (hits.map RetrievalHit.chunkId).Nodup) (hne : hits ≠ [])
    (haspects : queryAspects query ≠ []) :
    (assess py gate query hits).unsupportedAspects =
      (queryAspects query).filter fun aspect => (aspectFailure py gate aspect hits).isSome := by
  rw [assess_eq py gate hne haspects, uniqueHits_eq_self hids]
  split
  · rfl
  · next hnone =>
      refine (List.filter_eq_nil_iff.mpr fun aspect ha => ?_).symm
      rw [List.findSome?_eq_none_iff.mp hnone aspect ha]
      decide

/-- The reason is that of the first aspect that fails. -/
theorem assess_reason (hids : (hits.map RetrievalHit.chunkId).Nodup) (hne : hits ≠ [])
    {before after : List Text} {reason : Reason}
    (hsplit : queryAspects query = before ++ aspect :: after)
    (hbefore : ∀ other ∈ before, aspectFailure py gate other hits = none)
    (hfailure : aspectFailure py gate aspect hits = some reason) :
    (assess py gate query hits).reason = reason := by
  have haspects : queryAspects query ≠ [] := by
    rw [hsplit]
    simp
  have hfirst : (queryAspects query).findSome? (fun aspect => aspectFailure py gate aspect hits) =
      some reason :=
    List.findSome?_eq_some_iff.mpr ⟨before, aspect, after, hsplit, hfailure, hbefore⟩
  rw [assess_eq py gate hne haspects, uniqueHits_eq_self hids, hfirst]

theorem queryConfidence_perm (h : hits.Perm hits') (hne : hits ≠ []) :
    queryConfidence py query hits = queryConfidence py query hits' := by
  unfold queryConfidence
  rw [List.map_congr_left fun aspect _ => aspectConfidence_perm h hne]

theorem assess_of_no_aspects (hne : hits ≠ []) (haspects : queryAspects query = []) :
    assess py gate query hits =
      ⟨false, 0, .queryHasNoSubstantiveAspects, [], [cleanDisplay query]⟩ := by
  rw [assess, if_neg (mt uniqueHits_eq_nil_iff.mp hne), if_pos haspects]

/-- Where the same aspects are unsupported, the same aspects fail. -/
theorem isSome_aspectFailure_eq
    (hunsupported : ((queryAspects query).filter fun aspect =>
        (aspectFailure py gate aspect hits).isSome) =
      (queryAspects query).filter fun aspect => (aspectFailure py gate aspect hits').isSome) :
    ∀ aspect ∈ queryAspects query, (aspectFailure py gate aspect hits).isSome =
      (aspectFailure py gate aspect hits').isSome := by
  intro aspect haspect
  have hiff : aspect ∈ (queryAspects query).filter (fun aspect =>
        (aspectFailure py gate aspect hits).isSome) ↔
      aspect ∈ (queryAspects query).filter fun aspect =>
        (aspectFailure py gate aspect hits').isSome := by rw [hunsupported]
  rw [List.mem_filter, List.mem_filter, and_iff_right haspect, and_iff_right haspect] at hiff
  exact Bool.eq_iff_iff.mpr hiff

theorem aspectFailure_eq_none_of_isSome_eq
    (hsome : (aspectFailure py gate aspect hits).isSome = (aspectFailure py gate aspect hits').isSome)
    (hnone : aspectFailure py gate aspect hits = none) : aspectFailure py gate aspect hits' = none := by
  rw [hnone] at hsome
  exact Option.isNone_iff_eq_none.mp (Option.isSome_eq_false_iff.mp hsome.symm)

/-- Equal outcomes leave the verdict nowhere on exact values that only one order has. -/
theorem orderSafe_of_sameOutcome (h : hits.Perm hits') (hids : (hits.map RetrievalHit.chunkId).Nodup)
    (hne : hits ≠ [])
    (hsame : SameOutcome (assess py gate query hits) (assess py gate query hits')) :
    OrderSafe py gate query hits hits' := by
  have hids' : (hits'.map RetrievalHit.chunkId).Nodup := (h.map _).nodup_iff.mp hids
  have hne' : hits' ≠ [] := mt (nil_iff_of_perm h).mpr hne
  obtain ⟨-, -, hreason, hunsupported, -⟩ := hsame
  intro before aspect after hsplit hearlier hdecisive
  have haspects : queryAspects query ≠ [] := by
    rw [hsplit]
    simp
  have hmem : ∀ other, other ∈ before ∨ other = aspect → other ∈ queryAspects query := by
    intro other hother
    rw [hsplit, List.mem_append, List.mem_cons]
    tauto
  have hearlier' : earlierFailure py aspect hits' = none := earlierFailure_perm h ▸ hearlier
  rw [assess_unsupportedAspects hids hne haspects,
    assess_unsupportedAspects hids' hne' haspects] at hunsupported
  have hsome := isSome_aspectFailure_eq hunsupported
  have hs := hsome aspect (hmem aspect (.inr rfl))
  rcases hdecisive with hnone | hbefore
  · -- Nothing after the exact values fails, so that they alone decide whether the aspect does.
    have hnone' : laterFailure py gate aspect hits' = none := laterFailure_perm h hne ▸ hnone
    rw [aspectFailure_of_earlier gate hearlier, aspectFailure_of_earlier gate hearlier', hnone,
      hnone'] at hs
    cases hv : valuesFound py aspect hits <;> cases hv' : valuesFound py aspect hits' <;>
      simp [hv, hv'] at hs ⊢
  · -- The aspect is the first that can fail, so that its reason is that of the decision.
    have hfirst : ∀ other ∈ before, aspectFailure py gate other hits = none := fun other hother =>
      (aspectFailure_eq_none_iff py gate).mpr (hbefore other hother)
    have hfirst' : ∀ other ∈ before, aspectFailure py gate other hits' = none := fun other hother =>
      aspectFailure_eq_none_of_isSome_eq (hsome other (hmem other (.inl hother))) (hfirst other hother)
    have hreasons : ∀ reason reason', aspectFailure py gate aspect hits = some reason →
        aspectFailure py gate aspect hits' = some reason' → reason = reason' := by
      intro reason reason' hf hf'
      rw [← assess_reason hids hne hsplit hfirst hf, ← assess_reason hids' hne' hsplit hfirst' hf',
        hreason]
    exact ⟨valuesFound_of_same hearlier hearlier' (fun _ => hs) hreasons,
      valuesFound_of_same hearlier' hearlier (fun _ => hs.symm)
        fun reason reason' hf' hf => (hreasons reason' reason hf hf').symm⟩

/-- If the verdict rests nowhere on such values, each aspect is supported in both orders or in
neither. -/
theorem OrderSafe.isSome_aspectFailure (h : hits.Perm hits') (hne : hits ≠ [])
    (hsafe : OrderSafe py gate query hits hits') :
    ∀ aspect ∈ queryAspects query, (aspectFailure py gate aspect hits).isSome =
      (aspectFailure py gate aspect hits').isSome := by
  intro aspect hmem
  obtain ⟨before, after, hsplit⟩ := List.append_of_mem hmem
  exact isSome_aspectFailure_perm h hne fun hearlier hlater =>
    hsafe before aspect after hsplit hearlier (.inl hlater)

/-- And the first aspect that fails fails for the same reason. -/
theorem OrderSafe.findSome?_aspectFailure (h : hits.Perm hits') (hne : hits ≠ [])
    (hsafe : OrderSafe py gate query hits hits') :
    ((queryAspects query).findSome? fun aspect => aspectFailure py gate aspect hits') =
      (queryAspects query).findSome? fun aspect => aspectFailure py gate aspect hits := by
  have hsome := hsafe.isSome_aspectFailure h hne
  cases hfirst : (queryAspects query).findSome? fun aspect => aspectFailure py gate aspect hits with
  | none =>
      have hnone := List.findSome?_eq_none_iff.mp hfirst
      exact List.findSome?_eq_none_iff.mpr fun aspect hmem =>
        aspectFailure_eq_none_of_isSome_eq (hsome aspect hmem) (hnone aspect hmem)
  | some reason =>
      obtain ⟨before, aspect, after, hsplit, hfailure, hbefore⟩ :=
        List.findSome?_eq_some_iff.mp hfirst
      have hbefore' : ∀ other ∈ before, aspectFailure py gate other hits' = none := by
        intro other hother
        have hmem : other ∈ queryAspects query := by
          rw [hsplit]
          exact List.mem_append_left _ hother
        exact aspectFailure_eq_none_of_isSome_eq (hsome other hmem) (hbefore other hother)
      have hsame : aspectFailure py gate aspect hits = aspectFailure py gate aspect hits' :=
        aspectFailure_perm h hne fun hearlier =>
          hsafe before aspect after hsplit hearlier (.inr fun other hother =>
            (aspectFailure_eq_none_iff py gate).mp (hbefore other hother))
      exact List.findSome?_eq_some_iff.mpr
        ⟨before, aspect, after, hsplit, hsame ▸ hfailure, hbefore'⟩

theorem sameOutcome_of_orderSafe (h : hits.Perm hits') (hids : (hits.map RetrievalHit.chunkId).Nodup)
    (hne : hits ≠ []) (haspects : queryAspects query ≠ [])
    (hsafe : OrderSafe py gate query hits hits') :
    SameOutcome (assess py gate query hits) (assess py gate query hits') := by
  have hids' : (hits'.map RetrievalHit.chunkId).Nodup := (h.map _).nodup_iff.mp hids
  have hne' : hits' ≠ [] := mt (nil_iff_of_perm h).mpr hne
  have hunsupported : ((queryAspects query).filter fun aspect =>
        (aspectFailure py gate aspect hits).isSome) =
      (queryAspects query).filter fun aspect => (aspectFailure py gate aspect hits').isSome :=
    List.filter_congr (hsafe.isSome_aspectFailure h hne)
  rw [assess_eq py gate hne haspects, assess_eq py gate hne' haspects, uniqueHits_eq_self hids,
    uniqueHits_eq_self hids', ← queryConfidence_perm h hne, hunsupported,
    hsafe.findSome?_aspectFailure h hne]
  cases (queryAspects query).findSome? fun aspect => aspectFailure py gate aspect hits with
  | some reason => exact ⟨rfl, rfl, rfl, rfl, fun _ => Iff.rfl⟩
  | none =>
      refine ⟨rfl, rfl, rfl, rfl, fun id => ?_⟩
      show id ∈ firsts _ ↔ id ∈ firsts _
      rw [mem_firsts, mem_firsts, List.mem_flatMap, List.mem_flatMap]
      exact exists_congr fun aspect => and_congr_right fun _ => (supportingIds_perm h).mem_iff

/-- The outcome does not depend on the order exactly if nowhere the verdict rests on exact values that
only one order has. -/
theorem assess_perm_iff (h : hits.Perm hits') (hids : (hits.map RetrievalHit.chunkId).Nodup) :
    SameOutcome (assess py gate query hits) (assess py gate query hits') ↔
      OrderSafe py gate query hits hits' := by
  by_cases hne : hits = []
  · have hnil : hits' = [] := (nil_iff_of_perm h).mp hne
    subst hne hnil
    exact ⟨fun _ _ _ _ _ _ _ => Iff.rfl, fun _ => ⟨rfl, rfl, rfl, rfl, fun _ => Iff.rfl⟩⟩
  constructor
  · exact orderSafe_of_sameOutcome h hids hne
  intro hsafe
  by_cases haspects : queryAspects query = []
  · rw [assess_of_no_aspects hne haspects,
      assess_of_no_aspects (mt (nil_iff_of_perm h).mpr hne) haspects]
    exact ⟨rfl, rfl, rfl, rfl, fun _ => Iff.rfl⟩
  · exact sameOutcome_of_orderSafe h hids hne haspects hsafe

/-! ## Neighbours -/

theorem amountQuery_refused :
    (assess .basic .default amountQuery [unitHit, numberHit]).sufficient = false := by
  decide +kernel

/-- The number and the unit of two hits make up the amount in one order only. -/
theorem refused_in_other_order :
    [numberHit, unitHit].Perm [unitHit, numberHit] ∧
      ([numberHit, unitHit].map RetrievalHit.chunkId).Nodup ∧
      (assess .basic .default amountQuery [numberHit, unitHit]).sufficient = true ∧
      (assess .basic .default amountQuery [unitHit, numberHit]).sufficient = false :=
  ⟨List.Perm.swap _ _ _, by decide, amountQuery_sufficient, amountQuery_refused⟩

/-- The two orders agree exactly if the amount is found in both. -/
theorem assess_perm_iff_amountQuery :
    SameOutcome (assess .basic .default amountQuery [numberHit, unitHit])
        (assess .basic .default amountQuery [unitHit, numberHit]) ↔
      OrderSafe .basic .default amountQuery [numberHit, unitHit] [unitHit, numberHit] :=
  assess_perm_iff (List.Perm.swap _ _ _) (by decide)

end Odirag.Rag
