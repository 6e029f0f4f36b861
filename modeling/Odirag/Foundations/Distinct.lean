import Mathlib.Data.List.Induction
import Mathlib.Data.List.Nodup

/-!
# The first of each key

What a loop with a set of seen keys keeps of a list, and with the identity as key what the keys of an
insertion-ordered dictionary are.
-/

namespace Odirag

variable {α β : Type*} [DecidableEq β]

/-- Keep the first element of each key. -/
def firstsBy (key : α → β) (xs : List α) : List α :=
  xs.foldl (fun seen x => if key x ∈ seen.map key then seen else seen ++ [x]) []

/-- Keep the first of equal elements. -/
def firsts (xs : List β) : List β := firstsBy id xs

theorem firstsBy_concat (key : α → β) (xs : List α) (x : α) :
    firstsBy key (xs ++ [x]) =
      if key x ∈ (firstsBy key xs).map key then firstsBy key xs else firstsBy key xs ++ [x] := by
  simp [firstsBy]

theorem mem_of_mem_firstsBy {key : α → β} {xs : List α} {x : α} (h : x ∈ firstsBy key xs) :
    x ∈ xs := by
  induction xs using List.reverseRecOn with
  | nil => exact h
  | append_singleton xs y ih =>
      rw [firstsBy_concat] at h
      split at h
      · exact List.mem_append_left _ (ih h)
      · rcases List.mem_append.mp h with h | h
        · exact List.mem_append_left _ (ih h)
        · exact List.mem_append_right _ h

theorem firstsBy_sublist (key : α → β) (xs : List α) : (firstsBy key xs).Sublist xs := by
  induction xs using List.reverseRecOn with
  | nil => exact List.Sublist.refl _
  | append_singleton xs y ih =>
      rw [firstsBy_concat]
      split
      · exact ih.trans (List.sublist_append_left xs [y])
      · exact ih.append (List.Sublist.refl [y])

theorem nodup_firstsBy (key : α → β) (xs : List α) : ((firstsBy key xs).map key).Nodup := by
  induction xs using List.reverseRecOn with
  | nil => exact List.nodup_nil
  | append_singleton xs y ih =>
      rw [firstsBy_concat]
      split
      · exact ih
      · next h =>
          rw [List.map_append, List.nodup_append]
          refine ⟨ih, List.nodup_singleton _, fun a ha b hb => ?_⟩
          rw [List.map_singleton, List.mem_singleton] at hb
          rintro rfl
          exact h (hb ▸ ha)

/-- No key is lost. -/
theorem key_mem_firstsBy {key : α → β} {xs : List α} {k : β} :
    k ∈ (firstsBy key xs).map key ↔ k ∈ xs.map key := by
  induction xs using List.reverseRecOn with
  | nil => exact Iff.rfl
  | append_singleton xs y ih =>
      rw [firstsBy_concat, List.map_append, List.mem_append, ← ih]
      split
      · next h =>
          constructor
          · exact .inl
          · rintro (hk | hk)
            · exact hk
            · rwa [List.mem_singleton.mp hk]
      · rw [List.map_append, List.mem_append]

/-- Nothing is dropped from a list with distinct keys. -/
theorem firstsBy_eq_self {key : α → β} {xs : List α} (h : (xs.map key).Nodup) :
    firstsBy key xs = xs := by
  induction xs using List.reverseRecOn with
  | nil => rfl
  | append_singleton xs y ih =>
      rw [List.map_append, List.nodup_append] at h
      have hxs : firstsBy key xs = xs := ih h.1
      rw [firstsBy_concat, hxs, if_neg]
      intro hy
      exact h.2.2 _ hy _ (List.mem_singleton_self _) rfl

theorem firstsBy_eq_nil_iff {key : α → β} {xs : List α} : firstsBy key xs = [] ↔ xs = [] := by
  constructor
  · intro h
    cases xs with
    | nil => rfl
    | cons x xs =>
        have hx : key x ∈ (firstsBy key (x :: xs)).map key :=
          key_mem_firstsBy.mpr (List.mem_map_of_mem List.mem_cons_self)
        rw [h] at hx
        cases hx
  · rintro rfl
    rfl

/-- It makes no difference whether keys are left out before or after. -/
theorem firstsBy_filter (key : α → β) (p : β → Bool) (xs : List α) :
    firstsBy key (xs.filter fun x => p (key x)) = (firstsBy key xs).filter fun x => p (key x) := by
  induction xs using List.reverseRecOn with
  | nil => rfl
  | append_singleton xs x ih =>
      rw [List.filter_append, firstsBy_concat]
      cases hp : p (key x) with
      | false =>
          rw [List.filter_singleton, hp, cond_false, List.append_nil, ih]
          split
          · rfl
          · rw [List.filter_append, List.filter_singleton, hp, cond_false, List.append_nil]
      | true =>
          have hkept : key x ∈ ((firstsBy key xs).filter fun x => p (key x)).map key ↔
              key x ∈ (firstsBy key xs).map key := by
            simp only [List.mem_map, List.mem_filter]
            constructor
            · rintro ⟨y, ⟨hy, -⟩, hkey⟩
              exact ⟨y, hy, hkey⟩
            · rintro ⟨y, hy, hkey⟩
              exact ⟨y, ⟨hy, hkey ▸ hp⟩, hkey⟩
          rw [List.filter_singleton, hp, cond_true, firstsBy_concat, ih]
          simp only [hkept]
          split
          · rfl
          · rw [List.filter_append, List.filter_singleton, hp, cond_true]

@[simp] theorem mem_firsts {xs : List β} {x : β} : x ∈ firsts xs ↔ x ∈ xs := by
  have h : x ∈ (firstsBy id xs).map id ↔ x ∈ xs.map id := key_mem_firstsBy
  rwa [List.map_id, List.map_id] at h

theorem nodup_firsts (xs : List β) : (firsts xs).Nodup := by
  have h := nodup_firstsBy id xs
  rwa [List.map_id] at h

theorem firsts_concat (xs : List β) (x : β) :
    firsts (xs ++ [x]) = if x ∈ firsts xs then firsts xs else firsts xs ++ [x] := by
  have h := firstsBy_concat id xs x
  rwa [List.map_id] at h

/-- Repetitions may be dropped from the parts first. -/
theorem firsts_append_firsts (xs ys : List β) : firsts (xs ++ firsts ys) = firsts (xs ++ ys) := by
  induction ys using List.reverseRecOn with
  | nil => rfl
  | append_singleton ys y ih =>
      rw [firsts_concat ys, ← List.append_assoc, firsts_concat (xs ++ ys)]
      split
      · next hy =>
          rw [if_pos (by simpa using .inr (mem_firsts.mp hy)), ih]
      · rw [← List.append_assoc, firsts_concat (xs ++ firsts ys), ih]

theorem firsts_firsts (xs : List β) : firsts (firsts xs) = firsts xs := by
  simpa using firsts_append_firsts [] xs

theorem firsts_firsts_append (xs ys : List β) : firsts (firsts xs ++ ys) = firsts (xs ++ ys) := by
  induction ys using List.reverseRecOn with
  | nil => simpa using firsts_firsts xs
  | append_singleton ys y ih =>
      rw [← List.append_assoc, ← List.append_assoc, firsts_concat, firsts_concat, ih]

theorem firsts_eq_nil_iff {xs : List β} : firsts xs = [] ↔ xs = [] := firstsBy_eq_nil_iff

/-- A list without repetitions whose elements are all equal has one element at most. -/
theorem length_le_one_of_nodup {α : Type*} {xs : List α} (hnodup : xs.Nodup)
    (h : ∀ x ∈ xs, ∀ y ∈ xs, x = y) : xs.length ≤ 1 := by
  match xs, hnodup with
  | [], _ => exact Nat.zero_le _
  | [_], _ => exact Nat.le_refl _
  | x :: y :: rest, hnodup =>
      have heq : x = y := h x List.mem_cons_self y (List.mem_cons_of_mem x List.mem_cons_self)
      exact absurd (heq ▸ List.mem_cons_self) (List.nodup_cons.mp hnodup).1

/-- What is found for each element in turn, at most once each, comes in the order of the elements. -/
theorem sublist_map_flatMap {α β : Type*} {f : α → List β} {key : β → α} {xs : List α}
    (h : ∀ x ∈ xs, (f x).length ≤ 1 ∧ ∀ y ∈ f x, key y = x) :
    ((xs.flatMap f).map key).Sublist xs := by
  induction xs with
  | nil => exact List.Sublist.refl _
  | cons x xs ih =>
      obtain ⟨hlength, hkey⟩ := h x List.mem_cons_self
      have hrest := ih fun y hy => h y (List.mem_cons_of_mem x hy)
      rw [List.flatMap_cons, List.map_append]
      cases hf : f x with
      | nil => exact hrest.cons x
      | cons y ys =>
          have hys : ys = [] := List.eq_nil_of_length_eq_zero (by
            rw [hf, List.length_cons] at hlength
            omega)
          have hy : key y = x := hkey y (hf ▸ List.mem_cons_self)
          rw [hys, List.map_singleton, hy]
          exact hrest.cons_cons x

end Odirag
