import Odirag.Rag.Monotone
import Odirag.Rag.ExactValues

/-!
# Some of the hits

Reference: `EvidenceSufficiencyGate` of `backend/app/rag/evidence.py`.

What hits cover, some of them need not cover. They do for an aspect that one of them covers by itself
(`AspectCovered.of_alone`), and for one that loses none of the hits it uses and none of its terms
(`AspectCovered.of_untouched`). Where no hit that is left states the relation or the scope of the
aspect, or none contributes enough, the aspect is lost (`Lost.not_covered`).
-/

namespace Odirag.Rag

open Retrieval

variable {py : Python} {gate : EvidenceSufficiencyGate} {aspect : Text} {hits : List RetrievalHit}

/-- A word is in the evidence text exactly if it is in the text of a hit. -/
theorem contains_evidenceText {word : Text} (hword : '\n' ∉ word) (hne : hits ≠ []) :
    (evidenceText py hits).contains word = true ↔
      ∃ hit ∈ hits, (hitText py hit).contains word = true := by
  rw [evidenceText_eq py hne, Text.joinLines_iff (P := fun text => text.contains word = true)
    (fun a b => by simp only [Text.contains_iff]; exact Text.infix_append_cons hword)
    (by simpa using hne)]
  simp only [List.mem_map, exists_exists_and_eq_and]

/-! ## A hit that covers an aspect by itself -/

/-- The compared text of a hit is a part of that of all hits. -/
theorem normalizeValue_hitText_within {hit : RetrievalHit} (hhit : hit ∈ hits) :
    normalizeValue py (hitText py hit) <:+: normalizeValue py (evidenceText py hits) := by
  have htext : normalizeValue py (evidenceText py hits) =
      ((hits.map searchableText).map (comparedField py)).flatten := by
    rw [evidenceText, normalizeValue_lower, filter_lower_joinLines]
  obtain ⟨before, after, rfl⟩ := List.append_of_mem hhit
  rw [htext, List.map_append, List.map_append, List.flatten_append, List.map_cons, List.map_cons,
    List.flatten_cons]
  exact ⟨_, _, by rw [List.append_assoc]; rfl⟩

/-- A hit that covers an aspect satisfies its constraints. -/
theorem AspectCovered.constraintHits_singleton {hit : RetrievalHit}
    (h : AspectCovered py gate aspect [hit]) : constraintHits py aspect [hit] = [hit] := by
  rw [constraintHits, List.filter_singleton, cond_eq_ite, if_pos]
  rw [Bool.and_eq_true, Bool.or_eq_true, Bool.or_eq_true, decide_eq_true_iff, decide_eq_true_iff]
  constructor
  · by_cases hrequired : relationRequired py aspect = true
    · obtain ⟨other, hother⟩ := List.exists_mem_of_ne_nil _ (h.relation hrequired)
      have hsame : other = hit := List.mem_singleton.mp (List.mem_of_mem_filter hother)
      exact .inr (hsame ▸ hother)
    · exact .inl (by rw [Bool.not_eq_true] at hrequired; rw [hrequired]; rfl)
  · by_cases hrequired : (scopeTarget aspect).isSome = true
    · obtain ⟨other, hother⟩ := List.exists_mem_of_ne_nil _ (h.scope hrequired)
      have hsame : other = hit := List.mem_singleton.mp (List.mem_of_mem_filter hother)
      exact .inr (hsame ▸ hother)
    · exact .inl (Option.not_isSome_iff_eq_none.mp hrequired ▸ rfl)

/-- An aspect that one hit covers is covered by all hits with it. -/
theorem AspectCovered.of_alone {hit : RetrievalHit} (hhit : hit ∈ hits)
    (h : AspectCovered py gate aspect [hit]) : AspectCovered py gate aspect hits := by
  have hsub : [hit].Sublist hits := List.singleton_sublist.mpr hhit
  have hconstraint : constraintHits py aspect [hit] = [hit] := h.constraintHits_singleton
  have hused : usedHits py aspect [hit] = [hit] := by
    rw [usedHits, hconstraint, if_neg (List.cons_ne_nil _ _)]
  have hswitch : ¬ Switched py aspect [hit] hits := fun hswitch =>
    List.cons_ne_nil _ _ (hconstraint.symm.trans hswitch.1)
  have hmem : hit ∈ usedHits py aspect hits := by
    refine (usedHits_sublist hsub hswitch).mem ?_
    rw [hused]
    exact List.mem_singleton_self hit
  refine h.of_sublist_of_not_switched hsub hswitch (List.all_eq_true.mpr fun value hvalue => ?_)
  -- The value is in the text of the hit, which is a part of the text that is searched.
  have hfound := List.all_eq_true.mp h.values value hvalue
  have hself : evidenceText py [hit] = hitText py hit :=
    (evidenceText_eq py (List.cons_ne_nil hit [])).trans (Text.joinLines_singleton _)
  rw [hused, hself, Text.contains_iff] at hfound
  rw [Text.contains_iff]
  exact hfound.trans (normalizeValue_hitText_within hmem)

/-! ## An aspect that loses nothing -/

variable {p : RetrievalHit → Bool}

/-- An aspect whose hits all stay uses the same hits. -/
theorem usedHits_filter (h : ∀ hit ∈ usedHits py aspect hits, p hit = true) :
    usedHits py aspect (hits.filter p) = usedHits py aspect hits := by
  have hcomm : constraintHits py aspect (hits.filter p) = (constraintHits py aspect hits).filter p := by
    rw [constraintHits_eq, constraintHits_eq, List.filter_filter, List.filter_filter]
    exact List.filter_congr fun hit _ => Bool.and_comm _ _
  unfold usedHits at h ⊢
  by_cases hnil : constraintHits py aspect hits = []
  · rw [if_pos hnil] at h
    rw [hcomm, hnil, List.filter_nil, if_pos rfl, if_pos rfl]
    exact List.filter_eq_self.mpr h
  · rw [if_neg hnil] at h
    rw [hcomm, List.filter_eq_self.mpr h, if_neg hnil, if_neg hnil]

/-- The hits that are left out are not used for the aspect, and its terms are found without them. -/
structure Untouched (py : Python) (aspect : Text) (p : RetrievalHit → Bool)
    (hits : List RetrievalHit) : Prop where
  used : ∀ hit ∈ usedHits py aspect hits, p hit = true
  terms : ∀ term ∈ aspectTerms py aspect, ∀ hit ∈ hits, (hitText py hit).contains term.1 = true →
    ∃ other ∈ hits, p other = true ∧ (hitText py other).contains term.1 = true

theorem AspectCovered.of_untouched (h : AspectCovered py gate aspect hits)
    (huntouched : Untouched py aspect p hits) : AspectCovered py gate aspect (hits.filter p) := by
  have hused : usedHits py aspect (hits.filter p) = usedHits py aspect hits :=
    usedHits_filter huntouched.used
  have hne : hits.filter p ≠ [] := by
    obtain ⟨hit, hhit⟩ := List.exists_mem_of_ne_nil _ (usedHits_ne_nil py h.hits_ne_nil)
    exact List.ne_nil_of_mem (List.mem_filter.mpr
      ⟨mem_of_mem_usedHits py hhit, huntouched.used hit hhit⟩)
  have hterms : ∀ term ∈ aspectTerms py aspect, (evidenceText py hits).contains term.1 = true →
      (evidenceText py (hits.filter p)).contains term.1 = true := by
    intro term hterm hfound
    have hline : '\n' ∉ term.1 := weightedTerms_withinLines py _ term hterm
    obtain ⟨hit, hhit, hcontains⟩ := (contains_evidenceText hline h.hits_ne_nil).mp hfound
    obtain ⟨other, hother, hp, hcontains'⟩ := huntouched.terms term hterm hit hhit hcontains
    exact (contains_evidenceText hline hne).mpr ⟨other, List.mem_filter.mpr ⟨hother, hp⟩, hcontains'⟩
  by_cases hnil : constraintHits py aspect hits = []
  · -- All hits are used, so that all stay.
    have hall : usedHits py aspect hits = hits := if_pos hnil
    have hself : hits.filter p = hits :=
      List.filter_eq_self.mpr fun hit hhit => huntouched.used hit (hall.symm ▸ hhit)
    rwa [hself]
  -- A hit that satisfies the constraints is used, so that it stays.
  obtain ⟨hit, hhit⟩ := List.exists_mem_of_ne_nil _ hnil
  have hkept : hit ∈ hits.filter p := by
    refine List.mem_filter.mpr ⟨List.mem_of_mem_filter hhit, huntouched.used hit ?_⟩
    rwa [usedHits, if_neg hnil]
  obtain ⟨hrelation, hscope⟩ := ((mem_constraintHits py).mp hhit).2
  have hstrong := h.strong
  have hmore := strongMatchCount_le hterms
  exact
    { terms := h.terms
      answerable := h.answerable
      relation := fun hrequired => List.ne_nil_of_mem (List.mem_filter.mpr
        ⟨hkept, Option.isNone_iff_eq_none.mpr (hrelation (Option.isSome_iff_ne_none.mp hrequired))⟩)
      scope := fun hrequired => List.ne_nil_of_mem (List.mem_filter.mpr
        ⟨hkept, hscope (Option.isSome_iff_ne_none.mp hrequired)⟩)
      values := by
        have hvalues := h.values
        unfold valuesFound at hvalues ⊢
        rwa [hused]
      shape := hused.symm ▸ h.shape
      confidence := h.confidence.trans (coverage_le hterms)
      strong := by omega
      counted := by
        have hcounted := h.counted
        unfold supportingIds at hcounted ⊢
        rwa [hused] }

/-! ## An aspect that is lost -/

/-- None of the hits states what the aspect requires, or none contributes enough to it. -/
def Lost (py : Python) (gate : EvidenceSufficiencyGate) (aspect : Text)
    (hits : List RetrievalHit) : Prop :=
  (∀ hit ∈ hits, ¬ SatisfiesRelation py aspect hit) ∨ (∀ hit ∈ hits, ¬ SatisfiesScope py aspect hit) ∨
    ∀ hit ∈ hits, contributes py gate (aspectTerms py aspect) hit = false

theorem Lost.not_covered (h : Lost py gate aspect hits) : ¬ AspectCovered py gate aspect hits := by
  intro hcovered
  rcases h with hrelation | hscope | hcontributes
  · obtain ⟨hit, hhit⟩ := List.exists_mem_of_ne_nil _ hcovered.hits_ne_nil
    have hrequired : relationFailure py aspect [] ≠ none := fun hnone =>
      hrelation hit hhit fun hsome => absurd hnone hsome
    obtain ⟨other, hother⟩ := List.exists_mem_of_ne_nil _
      (hcovered.relation (Option.isSome_iff_ne_none.mpr hrequired))
    obtain ⟨hmem, hstates⟩ := List.mem_filter.mp hother
    exact hrelation other hmem fun _ => Option.isNone_iff_eq_none.mp hstates
  · obtain ⟨hit, hhit⟩ := List.exists_mem_of_ne_nil _ hcovered.hits_ne_nil
    have hrequired : scopeTarget aspect ≠ none := fun hnone =>
      hscope hit hhit fun hsome => absurd hnone hsome
    obtain ⟨other, hother⟩ := List.exists_mem_of_ne_nil _
      (hcovered.scope (Option.isSome_iff_ne_none.mpr hrequired))
    obtain ⟨hmem, hstates⟩ := List.mem_filter.mp hother
    exact hscope other hmem fun _ => hstates
  · refine hcovered.counted ?_
    rw [supportingIds, List.filter_eq_nil_iff.mpr, List.map_nil]
    intro hit hhit
    rw [hcontributes hit (mem_of_mem_usedHits py hhit)]
    exact Bool.false_ne_true

end Odirag.Rag
