import Mathlib.Data.List.Sort
import Mathlib.Order.Basic

/-!
# The best of a list

The elements of a list in the order of a key, and the first of them. When the keys differ the order
does not depend on how the elements stood (`sortedBy_eq_of_perm`), and what is cut off comes after
everything that is kept (`lt_of_not_mem_take`).
-/

namespace Odirag

variable {α κ : Type*} [LinearOrder κ] {key : α → κ} {xs ys : List α} {x y : α} {k : ℕ}

/-- The elements in the order of their keys. -/
def sortedBy (key : α → κ) (xs : List α) : List α := xs.mergeSort fun x y => decide (key x ≤ key y)

theorem sortedBy_perm (key : α → κ) (xs : List α) : (sortedBy key xs).Perm xs :=
  List.mergeSort_perm _ _

@[simp] theorem mem_sortedBy : x ∈ sortedBy key xs ↔ x ∈ xs := (sortedBy_perm key xs).mem_iff

@[simp] theorem length_sortedBy : (sortedBy key xs).length = xs.length :=
  (sortedBy_perm key xs).length_eq

theorem pairwise_sortedBy (key : α → κ) (xs : List α) :
    (sortedBy key xs).Pairwise fun x y => key x ≤ key y := by
  have hsorted : (xs.mergeSort fun x y => decide (key x ≤ key y)).Pairwise
      fun x y => decide (key x ≤ key y) = true := List.pairwise_mergeSort
    (fun a b c hab hbc => by simpa using le_trans (by simpa using hab) (by simpa using hbc))
    (fun a b => by simpa using le_total (key a) (key b)) xs
  exact hsorted.imp fun h => by simpa using h

/-- Different keys come in strict order. -/
theorem pairwise_sortedBy_lt (hnodup : (xs.map key).Nodup) :
    (sortedBy key xs).Pairwise fun x y => key x < key y := by
  have hne : (sortedBy key xs).Pairwise fun x y => key x ≠ key y := by
    rw [← List.pairwise_map]
    exact ((sortedBy_perm key xs).map key).nodup_iff.mpr hnodup
  exact ((pairwise_sortedBy key xs).and hne).imp fun h => lt_of_le_of_ne h.1 h.2

/-- The order does not depend on how the elements stood. -/
theorem sortedBy_eq_of_perm (hperm : xs.Perm ys) (hnodup : (xs.map key).Nodup) :
    sortedBy key xs = sortedBy key ys := by
  have hlt := pairwise_sortedBy_lt hnodup
  have hlt' := pairwise_sortedBy_lt ((hperm.map key).nodup_iff.mp hnodup)
  exact List.Perm.eq_of_pairwise (fun a b _ _ hab hba => absurd hba (lt_asymm hab)) hlt hlt'
    ((sortedBy_perm key xs).trans (hperm.trans (sortedBy_perm key ys).symm))

/-- What is cut off comes after what is kept. -/
theorem lt_of_not_mem_take (hnodup : (xs.map key).Nodup) (hx : x ∈ xs)
    (hcut : x ∉ (sortedBy key xs).take k) (hy : y ∈ (sortedBy key xs).take k) : key y < key x := by
  have hpair := pairwise_sortedBy_lt hnodup
  rw [← List.take_append_drop k (sortedBy key xs), List.pairwise_append] at hpair
  refine hpair.2.2 y hy x ?_
  have hmem : x ∈ (sortedBy key xs).take k ++ (sortedBy key xs).drop k := by
    rw [List.take_append_drop]
    exact mem_sortedBy.mpr hx
  exact (List.mem_append.mp hmem).resolve_left hcut

end Odirag
