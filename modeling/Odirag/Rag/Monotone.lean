import Odirag.Rag.Verdict

/-!
# More evidence

Reference: `EvidenceSufficiencyGate` of `backend/app/rag/evidence.py`.

What one hit satisfies does not depend on the others, and what joined lines show only grows with the
hits. Two things do not grow. The hits that count for an aspect are those that satisfy its constraints
only once there are some, and all hits before (`Switched`). And the exact values are searched in a
text without blanks, where a hit in between separates what stood side by side. `assess_sublist_iff`
says that nothing else keeps more evidence from answering what less evidence answered.
-/

namespace Odirag.Rag

open Retrieval

variable (py : Python) (gate : EvidenceSufficiencyGate)

/-- No hit of the smaller list satisfies the constraints of the aspect, but one of the larger does. -/
def Switched (aspect : Text) (hits hits' : List RetrievalHit) : Prop :=
  constraintHits py aspect hits = [] ∧ constraintHits py aspect hits' ≠ []

variable {py} {aspect : Text} {hits hits' : List RetrievalHit}

theorem constraintHits_sublist (h : hits.Sublist hits') :
    (constraintHits py aspect hits).Sublist (constraintHits py aspect hits') := by
  rw [constraintHits_eq, constraintHits_eq]
  exact h.filter _

/-- Without a switch the hits used only grow. -/
theorem usedHits_sublist (h : hits.Sublist hits') (hswitch : ¬ Switched py aspect hits hits') :
    (usedHits py aspect hits).Sublist (usedHits py aspect hits') := by
  have hsub : (constraintHits py aspect hits).Sublist (constraintHits py aspect hits') :=
    constraintHits_sublist h
  unfold usedHits
  by_cases hnil : constraintHits py aspect hits = []
  · have hnil' : constraintHits py aspect hits' = [] := by
      by_contra hne
      exact hswitch ⟨hnil, hne⟩
    rw [if_pos hnil, if_pos hnil']
    exact h
  · have hne' : constraintHits py aspect hits' ≠ [] := fun hnil' =>
      hnil (List.sublist_nil.mp (hnil' ▸ hsub))
    rw [if_neg hnil, if_neg hne']
    exact hsub

/-- After a switch none of the old hits is used. -/
theorem Switched.not_mem (hswitch : Switched py aspect hits hits') {hit : RetrievalHit}
    (hmem : hit ∈ hits) : hit ∉ usedHits py aspect hits' := by
  intro hused
  rw [usedHits, if_neg hswitch.2] at hused
  have hsatisfies := ((mem_constraintHits py).mp hused).2
  have hnew := (mem_constraintHits py).mpr ⟨hmem, hsatisfies⟩
  rw [hswitch.1] at hnew
  cases hnew

theorem Switched.usedHits_eq (hswitch : Switched py aspect hits hits') :
    usedHits py aspect hits = hits := if_pos hswitch.1

/-! ## One aspect -/

section

variable {gate}

theorem AspectCovered.hits_ne_nil (h : AspectCovered py gate aspect hits) : hits ≠ [] := by
  rintro rfl
  have hused : usedHits py aspect [] = [] := if_pos rfl
  have hcounted := h.counted
  rw [supportingIds, hused] at hcounted
  exact hcounted rfl

/-- The checks that look at lines, and those that look at single hits, are passed by more hits. -/
theorem AspectCovered.of_sublist (h : hits.Sublist hits') (hcovered : AspectCovered py gate aspect hits)
    (hvalues : valuesFound py aspect hits' = true)
    (hshape : answerShapeSupported py aspect (evidenceText py (usedHits py aspect hits')) = true)
    (hcounted : supportingIds py gate aspect hits' ≠ []) : AspectCovered py gate aspect hits' := by
  have hlines : LinesLE (evidenceText py hits) (evidenceText py hits') :=
    evidenceText_linesLE py hcovered.hits_ne_nil fun hit hmem => h.mem hmem
  have hterms : (aspectTerms py aspect).WithinLines := weightedTerms_withinLines py _
  refine ⟨hcovered.terms, hcovered.answerable, fun hrequired hnil => ?_, fun hrequired hnil => ?_,
    hvalues, hshape, ?_, ?_, hcounted⟩
  · exact hcovered.relation hrequired (List.sublist_nil.mp (hnil ▸ h.filter _))
  · exact hcovered.scope hrequired (List.sublist_nil.mp (hnil ▸ h.filter _))
  · exact hcovered.confidence.trans (coverage_mono hterms hlines)
  · have hstrong := hcovered.strong
    have hmono := strongMatchCount_mono hterms hlines
    omega

theorem supportingIds_sublist (h : hits.Sublist hits') (hswitch : ¬ Switched py aspect hits hits') :
    (supportingIds py gate aspect hits).Sublist (supportingIds py gate aspect hits') :=
  ((usedHits_sublist h hswitch).filter _).map _

/-- Without a switch, only the exact values can be lost. -/
theorem AspectCovered.of_sublist_of_not_switched (h : hits.Sublist hits')
    (hcovered : AspectCovered py gate aspect hits) (hswitch : ¬ Switched py aspect hits hits')
    (hvalues : valuesFound py aspect hits' = true) : AspectCovered py gate aspect hits' := by
  have hused := usedHits_sublist h hswitch
  have hlines : LinesLE (evidenceText py (usedHits py aspect hits))
      (evidenceText py (usedHits py aspect hits')) :=
    evidenceText_linesLE py (usedHits_ne_nil py hcovered.hits_ne_nil) fun hit hmem => hused.mem hmem
  refine hcovered.of_sublist h hvalues (answerShapeSupported_mono py hlines hcovered.shape) ?_
  intro hnil
  exact hcovered.counted (List.sublist_nil.mp (hnil ▸ supportingIds_sublist h hswitch))

end

/-! ## Whole queries -/

variable (py) in
/-- What more hits must leave in place. -/
structure KeepsSupport (query : Text) (hits hits' : List RetrievalHit) : Prop where
  /-- The exact values of each aspect are still found. -/
  values : ∀ aspect ∈ queryAspects query, valuesFound py aspect hits' = true
  /-- Where the hits used are switched, the new ones have the shape of an answer and one of them
  contributes. -/
  switched : ∀ aspect ∈ queryAspects query, Switched py aspect hits hits' →
    answerShapeSupported py aspect (evidenceText py (constraintHits py aspect hits')) = true ∧
      ∃ hit ∈ constraintHits py aspect hits', contributes py gate (aspectTerms py aspect) hit = true
  /-- And what they counted before is counted for another aspect, where they are not switched. -/
  counted : ∀ aspect ∈ queryAspects query, Switched py aspect hits hits' →
    ∀ hit ∈ hits, contributes py gate (aspectTerms py aspect) hit = true →
      ∃ other ∈ queryAspects query, ¬ Switched py other hits hits' ∧
        hit ∈ usedHits py other hits ∧ contributes py gate (aspectTerms py other) hit = true

variable {query : Text}

theorem uniqueHits_eq_self (hids : (hits.map RetrievalHit.chunkId).Nodup) : uniqueHits hits = hits :=
  firstsBy_eq_self hids

theorem mem_supportingIds {id : String} :
    id ∈ supportingIds py gate aspect hits ↔
      ∃ hit ∈ usedHits py aspect hits,
        contributes py gate (aspectTerms py aspect) hit = true ∧ hit.chunkId = id := by
  unfold supportingIds
  rw [List.mem_map]
  constructor
  · rintro ⟨hit, hhit, rfl⟩
    obtain ⟨hused, hcontributes⟩ := List.mem_filter.mp hhit
    exact ⟨hit, hused, hcontributes, rfl⟩
  · rintro ⟨hit, hused, hcontributes, rfl⟩
    exact ⟨hit, List.mem_filter.mpr ⟨hused, hcontributes⟩, rfl⟩

/-- A hit that is used among more hits is used among fewer. -/
theorem mem_usedHits_of_sublist (h : hits.Sublist hits') {hit : RetrievalHit} (hmem : hit ∈ hits)
    (hused : hit ∈ usedHits py aspect hits') : hit ∈ usedHits py aspect hits := by
  unfold usedHits at hused ⊢
  split at hused
  · next hnil' =>
      have hsub : (constraintHits py aspect hits).Sublist [] := hnil' ▸ constraintHits_sublist h
      rw [if_pos (List.sublist_nil.mp hsub)]
      exact hmem
  · have hconstraint := (mem_constraintHits py).mpr ⟨hmem, ((mem_constraintHits py).mp hused).2⟩
    rw [if_neg (List.ne_nil_of_mem hconstraint)]
    exact hconstraint

/-- What is kept if the larger list is sufficient and counts what the smaller one counted. -/
theorem keepsSupport_of_covers (h : hits.Sublist hits') (hids : (hits'.map RetrievalHit.chunkId).Nodup)
    (hcovers : Covers py gate query hits) (hcovers' : Covers py gate query hits')
    (hkept : ∀ id ∈ (assess py gate query hits).supportedChunkIds,
      id ∈ (assess py gate query hits').supportedChunkIds) :
    KeepsSupport py gate query hits hits' := by
  have hunique := uniqueHits_eq_self ((h.map RetrievalHit.chunkId).nodup hids)
  have hunique' := uniqueHits_eq_self hids
  have hcovered' := hcovers'.covered
  rw [hunique'] at hcovered'
  refine ⟨fun aspect ha => (hcovered' aspect ha).values, fun aspect ha hswitch => ?_,
    fun aspect ha hswitch hit hhit hcontributes => ?_⟩
  · have hused : usedHits py aspect hits' = constraintHits py aspect hits' := if_neg hswitch.2
    have hnew := hcovered' aspect ha
    obtain ⟨id, hid⟩ := List.exists_mem_of_ne_nil _ hnew.counted
    obtain ⟨hit, hhit, hcontributes, -⟩ := (mem_supportingIds gate).mp hid
    rw [hused] at hhit
    exact ⟨hused ▸ hnew.shape, hit, hhit, hcontributes⟩
  · have hid : hit.chunkId ∈ (assess py gate query hits).supportedChunkIds := by
      rw [mem_supportedChunkIds py gate hcovers, hunique]
      refine ⟨aspect, ha, (mem_supportingIds gate).mpr ⟨hit, ?_, hcontributes, rfl⟩⟩
      rw [hswitch.usedHits_eq]
      exact hhit
    have hid' := hkept _ hid
    rw [mem_supportedChunkIds py gate hcovers', hunique'] at hid'
    obtain ⟨other, hother, hcounted⟩ := hid'
    obtain ⟨hit', hused, hcontributes', hsame⟩ := (mem_supportingIds gate).mp hcounted
    obtain rfl : hit' = hit :=
      List.inj_on_of_nodup_map hids (mem_of_mem_usedHits py hused) (h.mem hhit) hsame
    exact ⟨other, hother, fun hswitch' => hswitch'.not_mem hhit hused,
      mem_usedHits_of_sublist h hhit hused, hcontributes'⟩

theorem KeepsSupport.covers (h : hits.Sublist hits') (hids : (hits'.map RetrievalHit.chunkId).Nodup)
    (hcovers : Covers py gate query hits) (hkeeps : KeepsSupport py gate query hits hits') :
    Covers py gate query hits' := by
  have hcovered := hcovers.covered
  rw [uniqueHits_eq_self ((h.map RetrievalHit.chunkId).nodup hids)] at hcovered
  refine ⟨fun hnil => hcovers.retrieved (List.sublist_nil.mp (hnil ▸ h)), hcovers.substantive,
    fun aspect ha => ?_⟩
  rw [uniqueHits_eq_self hids]
  by_cases hswitch : Switched py aspect hits hits'
  · have hused : usedHits py aspect hits' = constraintHits py aspect hits' := if_neg hswitch.2
    obtain ⟨hshape, hit, hhit, hcontributes⟩ := hkeeps.switched aspect ha hswitch
    refine (hcovered aspect ha).of_sublist h (hkeeps.values aspect ha) (hused ▸ hshape) ?_
    exact List.ne_nil_of_mem ((mem_supportingIds gate).mpr ⟨hit, hused ▸ hhit, hcontributes, rfl⟩)
  · exact (hcovered aspect ha).of_sublist_of_not_switched h hswitch (hkeeps.values aspect ha)

/-- What an aspect counted is counted again, for it or for another one. -/
theorem KeepsSupport.counted_again (h : hits.Sublist hits')
    (hkeeps : KeepsSupport py gate query hits hits') {id : String} (ha : aspect ∈ queryAspects query)
    (hid : id ∈ supportingIds py gate aspect hits) :
    ∃ other ∈ queryAspects query, id ∈ supportingIds py gate other hits' := by
  by_cases hswitch : Switched py aspect hits hits'
  · obtain ⟨hit, hused, hcontributes, rfl⟩ := (mem_supportingIds gate).mp hid
    rw [hswitch.usedHits_eq] at hused
    obtain ⟨other, hother, hnot, hmem, hcontributes'⟩ :=
      hkeeps.counted aspect ha hswitch hit hused hcontributes
    exact ⟨other, hother, (mem_supportingIds gate).mpr
      ⟨hit, (usedHits_sublist h hnot).mem hmem, hcontributes', rfl⟩⟩
  · exact ⟨aspect, ha, (supportingIds_sublist h hswitch).mem hid⟩

/-- More evidence keeps an answerable query answerable, and what was counted for it counted, exactly
if it leaves the exact values and the switched aspects in place. -/
theorem assess_sublist_iff (h : hits.Sublist hits') (hids : (hits'.map RetrievalHit.chunkId).Nodup)
    (hsufficient : (assess py gate query hits).sufficient = true) :
    ((assess py gate query hits').sufficient = true ∧
        ∀ id ∈ (assess py gate query hits).supportedChunkIds,
          id ∈ (assess py gate query hits').supportedChunkIds) ↔
      KeepsSupport py gate query hits hits' := by
  have hcovers := (assess_sufficient_iff py gate).mp hsufficient
  have hunique := uniqueHits_eq_self ((h.map RetrievalHit.chunkId).nodup hids)
  have hunique' := uniqueHits_eq_self hids
  constructor
  · rintro ⟨hsufficient', hkept⟩
    exact keepsSupport_of_covers gate h hids hcovers ((assess_sufficient_iff py gate).mp hsufficient')
      hkept
  · intro hkeeps
    have hcovers' : Covers py gate query hits' := hkeeps.covers gate h hids hcovers
    refine ⟨(assess_sufficient_iff py gate).mpr hcovers', fun id hid => ?_⟩
    rw [mem_supportedChunkIds py gate hcovers, hunique] at hid
    rw [mem_supportedChunkIds py gate hcovers', hunique']
    obtain ⟨aspect, ha, hid⟩ := hid
    exact hkeeps.counted_again gate h ha hid

/-! ## A hit in between -/

/-- A hit whose text ends in the number of an amount. -/
def numberHit : RetrievalHit where
  chunkId := "number"
  documentId := "1"
  content := str "企业补贴5"
  title := str "通知"
  sourceUrl := []
  score := .finite 1
  source := str "bm25"
  metadata := []

/-- A hit whose text starts with the unit of an amount. -/
def unitHit : RetrievalHit :=
  { numberHit with chunkId := "unit", content := str "企业", title := str "万元" }

/-- A hit without either. -/
def plainHit : RetrievalHit := { numberHit with chunkId := "plain", content := str "补贴" }

/-- A query for an amount that no hit states. -/
def amountQuery : Text := str "企业补贴5万元"

theorem amountQuery_sufficient :
    (assess .basic .default amountQuery [numberHit, unitHit]).sufficient = true := by
  decide +kernel

/-- The number and the unit of two neighbours make up the amount, until a hit comes in between. -/
theorem refused_with_more_evidence :
    [numberHit, unitHit].Sublist [numberHit, plainHit, unitHit] ∧
      ([numberHit, plainHit, unitHit].map RetrievalHit.chunkId).Nodup ∧
      (assess .basic .default amountQuery [numberHit, unitHit]).sufficient = true ∧
      (assess .basic .default amountQuery [numberHit, plainHit, unitHit]).sufficient = false := by
  refine ⟨?_, by decide, amountQuery_sufficient, by decide +kernel⟩
  exact (List.Sublist.refl [unitHit]).cons plainHit |>.cons_cons numberHit

/-- The two evidence lists of the amount keep the support exactly if the amount is found in both. -/
theorem assess_sublist_iff_amountQuery :
    ((assess .basic .default amountQuery [numberHit, plainHit, unitHit]).sufficient = true ∧
        ∀ id ∈ (assess .basic .default amountQuery [numberHit, unitHit]).supportedChunkIds,
          id ∈ (assess .basic .default amountQuery
            [numberHit, plainHit, unitHit]).supportedChunkIds) ↔
      KeepsSupport .basic .default amountQuery [numberHit, unitHit] [numberHit, plainHit, unitHit] :=
  assess_sublist_iff .default
    ((List.Sublist.refl [unitHit]).cons plainHit |>.cons_cons numberHit) (by decide)
    amountQuery_sufficient

end Odirag.Rag
