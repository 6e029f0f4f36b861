import Mathlib.Algebra.Order.BigOperators.Group.List
import Mathlib.Algebra.Order.Field.Basic
import Mathlib.Data.List.Range

/-!
# Discounted gain

The gain of a list of hits where a hit is worth less the later it comes. The most that `m` hits are
worth is what they are worth at the first `m` ranks (`gain_le_ideal`), and no other list of at most
`m` hits is worth as much (`gain_eq_ideal_iff`).
-/

namespace Odirag

/-- What a hit is worth at each rank, from 1 on. -/
structure Discount (K : Type*) [Zero K] [LT K] where
  worth : ℕ → K
  pos : ∀ rank, 0 < rank → 0 < worth rank
  anti : ∀ rank later, 0 < rank → rank < later → worth later < worth rank

namespace Discount

variable {K : Type*} [Field K] [LinearOrder K] (d : Discount K)

/-- The gain of hits that stand at the ranks from `start` on. -/
def gain (start : ℕ) (hits : List Bool) : K :=
  ((hits.zipIdx start).map fun hit => if hit.1 then d.worth hit.2 else 0).sum

/-- The gain of `m` hits in a row. -/
def ideal (start m : ℕ) : K := ((List.range' start m).map d.worth).sum

@[simp] theorem gain_nil (start : ℕ) : d.gain start [] = 0 := rfl

@[simp] theorem gain_cons (start : ℕ) (hit : Bool) (hits : List Bool) :
    d.gain start (hit :: hits) =
      (if hit then d.worth start else 0) + d.gain (start + 1) hits := by
  rw [gain, List.zipIdx_cons, List.map_cons, List.sum_cons, gain]

@[simp] theorem ideal_zero (start : ℕ) : d.ideal start 0 = 0 := rfl

@[simp] theorem ideal_succ (start m : ℕ) :
    d.ideal start (m + 1) = d.worth start + d.ideal (start + 1) m := by
  rw [ideal, List.range'_succ, List.map_cons, List.sum_cons, ideal]

variable {d} [IsStrictOrderedRing K] {start : ℕ}

theorem gain_nonneg (hstart : 0 < start) (hits : List Bool) : 0 ≤ d.gain start hits := by
  induction hits generalizing start with
  | nil => exact le_refl 0
  | cons hit hits ih =>
      rw [gain_cons]
      refine add_nonneg ?_ (ih (Nat.succ_pos start))
      split
      · exact (d.pos start hstart).le
      · exact le_refl 0

theorem ideal_pos (hstart : 0 < start) {m : ℕ} (hm : 0 < m) : 0 < d.ideal start m := by
  induction m generalizing start with
  | zero => exact absurd hm (Nat.lt_irrefl 0)
  | succ m ih =>
      rw [ideal_succ]
      rcases Nat.eq_zero_or_pos m with rfl | hpos
      · rw [ideal_zero, add_zero]
        exact d.pos start hstart
      · exact add_pos (d.pos start hstart) (ih (Nat.succ_pos start) hpos)

/-- Hits in a row are worth less one rank later. -/
theorem ideal_later (hstart : 0 < start) (m : ℕ) : d.ideal (start + 1) m ≤ d.ideal start m := by
  induction m generalizing start with
  | zero => exact le_refl 0
  | succ m ih =>
      rw [ideal_succ, ideal_succ]
      exact add_le_add (d.anti start (start + 1) hstart (Nat.lt_succ_self start)).le
        (ih (Nat.succ_pos start))

theorem ideal_later_lt (hstart : 0 < start) {m : ℕ} (hm : 0 < m) :
    d.ideal (start + 1) m < d.ideal start m := by
  obtain ⟨m, rfl⟩ := Nat.exists_eq_succ_of_ne_zero hm.ne'
  rw [Nat.succ_eq_add_one, ideal_succ, ideal_succ]
  exact add_lt_add_of_lt_of_le (d.anti start (start + 1) hstart (Nat.lt_succ_self start))
    (ideal_later (Nat.succ_pos start) m)

/-- At most `m` hits are worth at most as much as `m` hits in a row, and as much only if the list
begins with these. -/
theorem gain_compare (hstart : 0 < start) {hits : List Bool} {m : ℕ}
    (hcount : hits.count true ≤ m) :
    d.gain start hits ≤ d.ideal start m ∧
      (d.gain start hits = d.ideal start m ↔ List.replicate m true <+: hits) := by
  induction hits generalizing start m with
  | nil =>
      rw [gain_nil, List.prefix_nil, List.replicate_eq_nil_iff]
      rcases Nat.eq_zero_or_pos m with rfl | hm
      · exact ⟨le_refl 0, by simp⟩
      · have hpos := ideal_pos (d := d) hstart hm
        exact ⟨hpos.le, ⟨fun h => absurd h hpos.ne, fun h => absurd h hm.ne'⟩⟩
  | cons hit hits ih =>
      have hnext : 0 < start + 1 := Nat.succ_pos start
      cases hit with
      | true =>
          rw [List.count_cons_self] at hcount
          obtain ⟨m, rfl⟩ : ∃ m', m = m' + 1 := ⟨m - 1, by omega⟩
          obtain ⟨hle, heq⟩ := ih hnext (by omega : hits.count true ≤ m)
          rw [gain_cons, if_pos rfl, ideal_succ, List.replicate_succ, List.prefix_cons_inj]
          exact ⟨by gcongr, by rw [add_right_inj, heq]⟩
      | false =>
          rw [List.count_cons_of_ne (by decide)] at hcount
          obtain ⟨hle, heq⟩ := ih hnext hcount
          rw [gain_cons, if_neg Bool.false_ne_true, zero_add]
          refine ⟨hle.trans (ideal_later hstart m), ?_⟩
          rcases Nat.eq_zero_or_pos m with rfl | hm
          · -- Without hits nothing is gained.
            rw [ideal_zero] at heq ⊢
            rw [heq]
            simp
          · -- A row that begins one rank later is worth less.
            have hlt := hle.trans_lt (ideal_later_lt hstart hm)
            obtain ⟨m, rfl⟩ := Nat.exists_eq_succ_of_ne_zero hm.ne'
            refine ⟨fun h => absurd h hlt.ne, fun h => ?_⟩
            rw [Nat.succ_eq_add_one, List.replicate_succ, List.cons_prefix_cons] at h
            exact absurd h.1 (by decide)

theorem gain_le_ideal (hstart : 0 < start) {hits : List Bool} {m : ℕ}
    (hcount : hits.count true ≤ m) : d.gain start hits ≤ d.ideal start m :=
  (gain_compare hstart hcount).1

theorem gain_eq_ideal_iff (hstart : 0 < start) {hits : List Bool} {m : ℕ}
    (hcount : hits.count true ≤ m) :
    d.gain start hits = d.ideal start m ↔ List.replicate m true <+: hits :=
  (gain_compare hstart hcount).2

end Discount

end Odirag
