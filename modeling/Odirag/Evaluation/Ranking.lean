import Mathlib.Analysis.SpecialFunctions.Log.Base
import Odirag.Evaluation.Metrics
import Odirag.Foundations.Gain

/-!
# Ranking metrics

Reference: `_recall`, `_reciprocal_rank` and `_ndcg` of `backend/app/evaluation/metrics.py`.

The measures of a ranking in exact arithmetic, with any discount in place of the logarithmic one.
The doubles of the two former are these numbers rounded.
-/

namespace Odirag.Evaluation

/-- `1.0 / math.log2(rank + 1)`. -/
noncomputable def logDiscount : Discount ℝ where
  worth rank := 1 / Real.logb 2 (rank + 1)
  pos rank hrank := by
    have hone : (1 : ℝ) < rank + 1 := by
      have : (0 : ℝ) < rank := by exact_mod_cast hrank
      linarith
    exact one_div_pos.mpr (Real.logb_pos one_lt_two hone)
  anti rank later hrank hlater := by
    have hpos : (0 : ℝ) < rank := by exact_mod_cast hrank
    have hlt : (rank : ℝ) < later := by exact_mod_cast hlater
    exact one_div_lt_one_div_of_lt (Real.logb_pos one_lt_two (by linarith))
      (Real.logb_lt_logb one_lt_two (by linarith) (by linarith))

/-! ## Definitions -/

section

variable (K : Type*) [Field K] [LinearOrder K]

/-- `_recall`. -/
def exactRecall (sample : EvaluationSample) (k : ℕ) : K :=
  let (retrieved, relevant) := rankingSets sample
  if relevant = ∅ then 1
  else ((retrieved.take k).toFinset ∩ relevant).card / relevant.card

/-- `_reciprocal_rank`. -/
def exactReciprocalRank (sample : EvaluationSample) : K :=
  let (retrieved, relevant) := rankingSets sample
  match (firsts retrieved).findIdx? (fun item => decide (item ∈ relevant)) with
  | some index => 1 / (index + 1 : ℕ)
  | none => if relevant = ∅ then 1 else 0

variable {K}

/-- `_ndcg`. -/
def ndcg (discount : Discount K) (sample : EvaluationSample) (k : ℕ) : K :=
  let (retrieved, relevant) := rankingSets sample
  let ranked := (firsts retrieved).take k
  let dcg := discount.gain 1 (ranked.map fun item => decide (item ∈ relevant))
  let idealLength := min k relevant.card
  let idcg := discount.ideal 1 idealLength
  if idcg ≠ 0 then dcg / idcg else 1

end

/-! ## Laws -/

section

variable {K : Type*} [Field K] [LinearOrder K] [IsStrictOrderedRing K] {retrieved : List Text}
  {relevant : Finset Text}

theorem card_quotient_mem_unit {m n : ℕ} (h : m ≤ n) : (m : K) / n ∈ Set.Icc 0 1 :=
  ⟨by positivity, div_le_one_of_le₀ (by exact_mod_cast h) (by positivity)⟩

theorem exactRecall_mem_unit (sample : EvaluationSample) (k : ℕ) :
    exactRecall K sample k ∈ Set.Icc 0 1 := by
  unfold exactRecall
  dsimp only
  split
  · exact Set.right_mem_Icc.mpr zero_le_one
  · exact card_quotient_mem_unit (Finset.card_le_card Finset.inter_subset_right)

/-- More of a list recalls no less. -/
theorem exactRecall_mono (sample : EvaluationSample) : Monotone (exactRecall K sample) := by
  intro j k hjk
  unfold exactRecall
  dsimp only
  split
  · exact le_refl 1
  · have hinitial : (rankingSets sample).1.take j <+: (rankingSets sample).1.take k :=
      List.take_prefix_take_left hjk
    have hsubset : ((rankingSets sample).1.take j).toFinset ∩ (rankingSets sample).2 ⊆
        ((rankingSets sample).1.take k).toFinset ∩ (rankingSets sample).2 := by
      refine Finset.inter_subset_inter_right fun item hitem => ?_
      exact List.mem_toFinset.mpr (hinitial.subset (List.mem_toFinset.mp hitem))
    exact div_le_div_of_nonneg_right (by exact_mod_cast Finset.card_le_card hsubset)
      (Nat.cast_nonneg _)

theorem exactReciprocalRank_mem_unit (sample : EvaluationSample) :
    exactReciprocalRank K sample ∈ Set.Icc 0 1 := by
  unfold exactReciprocalRank
  dsimp only
  split
  · next index hindex =>
      have hquotient := card_quotient_mem_unit (K := K) (Nat.succ_pos index)
      rwa [Nat.cast_one] at hquotient
  · split
    · exact Set.right_mem_Icc.mpr zero_le_one
    · exact Set.left_mem_Icc.mpr zero_le_one

/-- Among `k` different items there are no more relevant ones than there are. -/
theorem count_hits_le (retrieved : List Text) (relevant : Finset Text) (k : ℕ) :
    (((firsts retrieved).take k).map fun item => decide (item ∈ relevant)).count true ≤
      min k relevant.card := by
  rw [List.count_eq_countP, List.countP_map]
  refine le_min ?_ ?_
  · exact List.countP_le_length.trans (List.length_take_le k _)
  · have hnodup : (((firsts retrieved).take k).filter fun item => item ∈ relevant).Nodup :=
      ((nodup_firsts retrieved).sublist (List.take_sublist k _)).filter _
    have hsubset : (((firsts retrieved).take k).filter fun item => item ∈ relevant).toFinset ⊆
        relevant := by
      intro item hitem
      simpa using (List.mem_filter.mp (List.mem_toFinset.mp hitem)).2
    have hcard := Finset.card_le_card hsubset
    rw [List.toFinset_card_of_nodup hnodup, ← List.countP_eq_length_filter] at hcard
    simpa [Function.comp_def] using hcard

/-- The list begins with `m` relevant items. -/
theorem replicate_prefix_iff {ranked : List Text} {m : ℕ} :
    (List.replicate m true <+: ranked.map fun item => decide (item ∈ relevant)) ↔
      m ≤ ranked.length ∧ ∀ item ∈ ranked.take m, item ∈ relevant := by
  rw [List.prefix_iff_eq_take, List.length_replicate, eq_comm, List.eq_replicate_iff,
    ← List.map_take, List.length_map, List.length_take, List.forall_mem_map]
  simp

/-- The gain of the first `k` different items, and when it is the ideal one. -/
theorem gain_first (discount : Discount K) (retrieved : List Text) (relevant : Finset Text)
    (k : ℕ) :
    discount.gain 1 (((firsts retrieved).take k).map fun item => decide (item ∈ relevant)) ∈
        Set.Icc 0 (discount.ideal 1 (min k relevant.card)) ∧
      (discount.gain 1 (((firsts retrieved).take k).map fun item => decide (item ∈ relevant)) =
          discount.ideal 1 (min k relevant.card) ↔
        min k relevant.card ≤ (firsts retrieved).length ∧
          ∀ item ∈ (firsts retrieved).take (min k relevant.card), item ∈ relevant) := by
  have hcount := count_hits_le retrieved relevant k
  refine ⟨⟨Discount.gain_nonneg Nat.one_pos _, Discount.gain_le_ideal Nat.one_pos hcount⟩, ?_⟩
  rw [Discount.gain_eq_ideal_iff Nat.one_pos hcount, replicate_prefix_iff, List.length_take,
    List.take_take, min_eq_left (min_le_left k relevant.card), le_min_iff,
    and_iff_right (min_le_left k relevant.card)]

theorem ndcg_mem_unit (discount : Discount K) (sample : EvaluationSample) (k : ℕ) :
    ndcg discount sample k ∈ Set.Icc 0 1 := by
  unfold ndcg
  dsimp only
  split
  · obtain ⟨hnonneg, hle⟩ :=
      (gain_first discount (rankingSets sample).1 (rankingSets sample).2 k).1
    exact ⟨div_nonneg hnonneg (hnonneg.trans hle), div_le_one_of_le₀ hle (hnonneg.trans hle)⟩
  · exact Set.right_mem_Icc.mpr zero_le_one

theorem ndcg_eq_one_iff (discount : Discount K) (sample : EvaluationSample) (k : ℕ) :
    ndcg discount sample k = 1 ↔
      min k (rankingSets sample).2.card ≤ (firsts (rankingSets sample).1).length ∧
        ∀ item ∈ (firsts (rankingSets sample).1).take (min k (rankingSets sample).2.card),
          item ∈ (rankingSets sample).2 := by
  rw [← (gain_first discount (rankingSets sample).1 (rankingSets sample).2 k).2]
  unfold ndcg
  dsimp only
  split
  · next hne => exact div_eq_one_iff_eq hne
  · next hzero =>
      rw [not_not] at hzero
      obtain ⟨hnonneg, hle⟩ :=
        (gain_first discount (rankingSets sample).1 (rankingSets sample).2 k).1
      rw [hzero] at hle ⊢
      exact ⟨fun _ => le_antisymm hle hnonneg, fun _ => rfl⟩

/-- The laws of the ranking metrics. -/
theorem ranking_laws (discount : Discount K) (sample : EvaluationSample) :
    (∀ k, exactRecall K sample k ∈ Set.Icc 0 1) ∧
      exactReciprocalRank K sample ∈ Set.Icc 0 1 ∧
      (∀ k, ndcg discount sample k ∈ Set.Icc 0 1) ∧
      (∀ j k, j ≤ k → exactRecall K sample j ≤ exactRecall K sample k) ∧
      ∀ k, ndcg discount sample k = 1 ↔
        min k (rankingSets sample).2.card ≤ (firsts (rankingSets sample).1).length ∧
          ∀ item ∈ (firsts (rankingSets sample).1).take (min k (rankingSets sample).2.card),
            item ∈ (rankingSets sample).2 :=
  ⟨exactRecall_mem_unit sample, exactReciprocalRank_mem_unit sample, ndcg_mem_unit discount sample,
    fun _ _ hjk => exactRecall_mono sample hjk, ndcg_eq_one_iff discount sample⟩

end

/-- A list that repeats its first item and has both relevant ones before the others. -/
def repeatedSample : EvaluationSample where
  retrievedIds := strs ["a", "a", "b", "c"]
  relevantIds := {str "b", str "a"}

theorem ranking_laws_repeated :
    ndcg logDiscount repeatedSample 3 = 1 ∧ ndcg logDiscount repeatedSample 1 ≤ 1 ∧
      exactRecall ℝ repeatedSample 2 ≤ exactRecall ℝ repeatedSample 3 :=
  ⟨((ranking_laws logDiscount repeatedSample).2.2.2.2 3).mpr (by decide),
    ((ranking_laws logDiscount repeatedSample).2.2.1 1).2,
    (ranking_laws logDiscount repeatedSample).2.2.2.1 2 3 (by decide)⟩

/-! ## The doubles -/

/-- What is computed is the exact recall rounded. -/
theorem recallAt_eq_round (sample : EvaluationSample) (k : ℕ) :
    recallAt sample k = Binary64.round (exactRecall ℚ sample k) := by
  unfold recallAt exactRecall
  dsimp only
  split
  · exact Binary64.round_one.symm
  · rfl

theorem reciprocalRank_eq_round (sample : EvaluationSample) :
    reciprocalRank sample = Binary64.round (exactReciprocalRank ℚ sample) := by
  unfold reciprocalRank exactReciprocalRank
  dsimp only
  cases (firsts (rankingSets sample).1).findIdx? fun item => decide (item ∈ (rankingSets sample).2)
  with
  | some index =>
      dsimp only
      rw [Binary64.div, Nat.cast_add, Nat.cast_one]
  | none =>
      dsimp only
      split
      · exact Binary64.round_one.symm
      · exact Binary64.round_zero.symm

/-- Rounding keeps what a longer part of the list recalls above what a shorter one does. -/
theorem recallAt_mono (sample : EvaluationSample) : Monotone (recallAt sample) := by
  intro j k hjk
  rw [recallAt_eq_round, recallAt_eq_round]
  exact Binary64.round_mono (exactRecall_mem_unit sample j).1 (exactRecall_mono sample hjk)

theorem recallAt_mem_unit (sample : EvaluationSample) (k : ℕ) :
    recallAt sample k ∈ Set.Icc 0 1 := by
  have hunit := exactRecall_mem_unit (K := ℚ) sample k
  rw [recallAt_eq_round]
  refine ⟨Binary64.round_nonneg hunit.1, ?_⟩
  calc Binary64.round (exactRecall ℚ sample k) ≤ Binary64.round 1 :=
        Binary64.round_mono hunit.1 hunit.2
    _ = 1 := Binary64.round_one

end Odirag.Evaluation
