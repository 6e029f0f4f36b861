import Mathlib.Data.List.Perm.Subperm
import Mathlib.Order.Lattice
import Odirag.Foundations.Except

/-!
# Sorting with a comparison that may fail

A sort asks the comparison of the elements whether one is less than another, and fails where the
comparison does. What is sorted has the elements that were given (`sortBy_perm`), and where the
comparison is that of keys in a linear order the sort succeeds (`exists_sortBy`).
-/

namespace Odirag

variable {ε α κ : Type}

/-- Insert an element before the first one that it is less than. -/
def insertBy (less : α → α → Except ε Bool) (x : α) : List α → Except ε (List α)
  | [] => .ok [x]
  | y :: ys => do
      if ← less x y then return x :: y :: ys
      else return y :: (← insertBy less x ys)

/-- Insert the elements one after another, so that equal ones stay in their order. -/
def sortBy (less : α → α → Except ε Bool) (xs : List α) : Except ε (List α) :=
  xs.foldlM (fun sorted x => insertBy less x sorted) []

variable {less : α → α → Except ε Bool}

theorem insertBy_perm {x : α} {ys zs : List α} (h : insertBy less x ys = .ok zs) :
    zs.Perm (x :: ys) := by
  induction ys generalizing zs with
  | nil =>
      cases h
      exact List.Perm.refl _
  | cons y ys ih =>
      obtain ⟨before, -, h⟩ := bind_eq_ok.mp h
      cases before with
      | true =>
          cases h
          exact List.Perm.refl _
      | false =>
          obtain ⟨rest, hrest, h⟩ := bind_eq_ok.mp h
          cases h
          exact ((ih hrest).cons y).trans (List.Perm.swap x y ys)

theorem foldlM_insertBy_perm {xs ys zs : List α}
    (h : xs.foldlM (fun sorted x => insertBy less x sorted) ys = .ok zs) : zs.Perm (xs ++ ys) := by
  induction xs generalizing ys with
  | nil =>
      cases h
      exact List.Perm.refl _
  | cons x xs ih =>
      rw [List.foldlM_cons] at h
      obtain ⟨sorted, hsorted, h⟩ := bind_eq_ok.mp h
      exact (ih h).trans (((insertBy_perm hsorted).append_left xs).trans List.perm_middle)

/-- No element is lost, and none comes in. -/
theorem sortBy_perm {xs ys : List α} (h : sortBy less xs = .ok ys) : ys.Perm xs := by
  have hperm := foldlM_insertBy_perm h
  rwa [List.append_nil] at hperm

variable [LinearOrder κ] {key : α → κ}

theorem exists_insertBy {x : α} {ys : List α}
    (hless : ∀ y ∈ ys, less x y = .ok (decide (key x < key y)))
    (hsorted : ys.Pairwise fun a b => key a ≤ key b) :
    ∃ zs, insertBy less x ys = .ok zs ∧ zs.Pairwise fun a b => key a ≤ key b := by
  induction ys with
  | nil => exact ⟨[x], rfl, List.pairwise_singleton _ _⟩
  | cons y ys ih =>
      obtain ⟨hy, hys⟩ := List.pairwise_cons.mp hsorted
      obtain ⟨zs, hzs, hpairs⟩ := ih (fun z hz => hless z (List.mem_cons_of_mem y hz)) hys
      rw [insertBy, hless y List.mem_cons_self]
      by_cases hlt : key x < key y
      · refine ⟨x :: y :: ys, by rw [decide_eq_true hlt]; rfl, ?_⟩
        refine List.pairwise_cons.mpr ⟨fun z hz => ?_, hsorted⟩
        rcases List.mem_cons.mp hz with rfl | hz
        · exact le_of_lt hlt
        · exact le_trans (le_of_lt hlt) (hy z hz)
      · refine ⟨y :: zs, by rw [decide_eq_false hlt, hzs]; rfl, ?_⟩
        refine List.pairwise_cons.mpr ⟨fun z hz => ?_, hpairs⟩
        rcases List.mem_cons.mp ((insertBy_perm hzs).mem_iff.mp hz) with rfl | hz
        · exact not_lt.mp hlt
        · exact hy z hz

theorem exists_foldlM_insertBy {xs ys : List α}
    (hless : ∀ x ∈ xs, ∀ y ∈ xs ++ ys, less x y = .ok (decide (key x < key y)))
    (hsorted : ys.Pairwise fun a b => key a ≤ key b) :
    ∃ zs, xs.foldlM (fun sorted x => insertBy less x sorted) ys = .ok zs ∧
      zs.Pairwise fun a b => key a ≤ key b := by
  induction xs generalizing ys with
  | nil => exact ⟨ys, rfl, hsorted⟩
  | cons x xs ih =>
      obtain ⟨sorted, hins, hpairs⟩ := exists_insertBy
        (fun y hy => hless x List.mem_cons_self y (List.mem_append_right _ hy)) hsorted
      have hperm := insertBy_perm hins
      have hlater : ∀ a ∈ xs, ∀ b ∈ xs ++ sorted, less a b = .ok (decide (key a < key b)) := by
        intro a ha b hb
        refine hless a (List.mem_cons_of_mem x ha) b ?_
        rcases List.mem_append.mp hb with hb | hb
        · exact List.mem_append_left _ (List.mem_cons_of_mem x hb)
        · rcases List.mem_cons.mp (hperm.mem_iff.mp hb) with rfl | hb
          · exact List.mem_append_left _ List.mem_cons_self
          · exact List.mem_append_right _ hb
      obtain ⟨zs, hzs, hordered⟩ := ih hlater hpairs
      refine ⟨zs, ?_, hordered⟩
      rw [List.foldlM_cons, hins]
      exact hzs

/-- Where the keys of a linear order are compared, the sort succeeds, and its result ascends. -/
theorem exists_sortBy {xs : List α}
    (hless : ∀ x ∈ xs, ∀ y ∈ xs, less x y = .ok (decide (key x < key y))) :
    ∃ ys, sortBy less xs = .ok ys ∧ ys.Pairwise fun a b => key a ≤ key b :=
  exists_foldlM_insertBy (fun x hx y hy => hless x hx y (by simpa using hy)) List.Pairwise.nil

end Odirag
