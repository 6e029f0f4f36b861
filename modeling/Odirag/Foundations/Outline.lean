import Mathlib.Data.Finset.Card
import Mathlib.Data.List.Induction
import Mathlib.Order.Interval.Finset.Nat

/-!
# Outlines

Items with levels, where an item encloses what follows it up to the next item of the same or a
smaller level. The enclosing items have increasing levels and end in the last item. A stack that is
cut at the level, as if no level had ever been skipped, holds the enclosing items exactly as long as
no item closes another while a smaller level is missing (`forall_cuts_iff`).
-/

namespace Odirag.Outline

variable {α : Type*} (level : α → ℕ)

/-- The items that no later one closes. -/
def enclosing : List α → List α
  | [] => []
  | x :: later =>
      if later.all fun y => level x < level y then x :: enclosing later else enclosing later

/-- The stack after an item: what stands below its level, and the item. -/
def cut (stack : List α) (x : α) : List α := stack.take (level x - 1) ++ [x]

/-- The stack after these items. -/
def cuts (items : List α) : List α := items.foldl (cut level) []

/-- An item that closes another one comes while all smaller levels are there. -/
def Fits (stack : List α) (x : α) : Prop :=
  (∃ y ∈ stack, level x ≤ level y) → ∀ l, 0 < l → l < level x → ∃ y ∈ stack, level y = l

/-- No item closes another while a smaller level is missing. -/
def Nested (items : List α) : Prop :=
  ∀ before x, before ++ [x] <+: items → Fits level (enclosing level before) x

variable {level}

theorem enclosing_concat (items : List α) (x : α) :
    enclosing level (items ++ [x]) =
      ((enclosing level items).filter fun y => level y < level x) ++ [x] := by
  induction items with
  | nil => rfl
  | cons y items ih =>
      rw [List.cons_append, enclosing, List.all_append, ih, enclosing]
      by_cases hlater : (items.all fun z => level y < level z) = true
      · by_cases hx : level y < level x
        · simp [hlater, hx]
        · simp [hlater, hx]
      · simp [hlater]

theorem enclosing_sublist (items : List α) : (enclosing level items).Sublist items := by
  induction items with
  | nil => exact List.Sublist.refl []
  | cons x items ih =>
      rw [enclosing]
      split
      · exact ih.cons_cons x
      · exact ih.cons x

/-- The levels of the enclosing items increase. -/
theorem enclosing_pairwise (items : List α) :
    (enclosing level items).Pairwise fun x y => level x < level y := by
  induction items with
  | nil => exact List.Pairwise.nil
  | cons x items ih =>
      rw [enclosing]
      split
      · next hall =>
          refine List.pairwise_cons.mpr ⟨fun y hy => ?_, ih⟩
          simpa using List.all_eq_true.mp hall y ((enclosing_sublist items).subset hy)
      · exact ih

@[simp] theorem cuts_concat (items : List α) (x : α) :
    cuts level (items ++ [x]) = cut level (cuts level items) x := by
  rw [cuts, List.foldl_append, List.foldl_cons, List.foldl_nil, cuts]

section

variable {stack : List α} {x : α}

/-- The items below a level stand at the bottom of a stack of increasing levels. -/
theorem filter_initial (hstack : stack.Pairwise fun a b => level a < level b) (l : ℕ) :
    (stack.filter fun y => level y < l) <+: stack := by
  induction stack with
  | nil => exact List.prefix_rfl
  | cons y stack ih =>
      obtain ⟨hy, hrest⟩ := List.pairwise_cons.mp hstack
      by_cases hlevel : level y < l
      · rw [List.filter_cons_of_pos (by simpa using hlevel)]
        exact (List.prefix_cons_inj y).mpr (ih hrest)
      · have hnone : (stack.filter fun z => level z < l) = [] := by
          refine List.filter_eq_nil_iff.mpr fun z hz => ?_
          have hz' := hy z hz
          simp only [decide_eq_true_eq]
          omega
        rw [List.filter_cons_of_neg (by simpa using hlevel), hnone]
        exact List.nil_prefix

theorem length_eq_card (hstack : stack.Pairwise fun a b => level a < level b) :
    stack.length = (stack.map level).toFinset.card := by
  have hnodup : (stack.map level).Nodup :=
    (List.pairwise_map.mpr hstack).imp fun {a b} (hab : a < b) => hab.ne
  rw [List.toFinset_card_of_nodup hnodup, List.length_map]

/-- What is cut off are the items that are closed, exactly if the item fits. -/
theorem length_take_eq_iff (hstack : stack.Pairwise fun a b => level a < level b)
    (hpos : ∀ y ∈ stack, 0 < level y) :
    (stack.take (level x - 1)).length = (stack.filter fun y => level y < level x).length ↔
      Fits level stack x := by
  have hbelow : ((stack.filter fun y => level y < level x).map level).toFinset ⊆
      Finset.Ico 1 (level x) := by
    intro l hl
    obtain ⟨y, hy, rfl⟩ := List.mem_map.mp (List.mem_toFinset.mp hl)
    obtain ⟨hmem, hlt⟩ := List.mem_filter.mp hy
    exact Finset.mem_Ico.mpr ⟨hpos y hmem, by simpa using hlt⟩
  have hlength := length_eq_card (hstack.sublist List.filter_sublist :
    (stack.filter fun y => level y < level x).Pairwise fun a b => level a < level b)
  have hcard := Finset.card_le_card hbelow
  rw [Nat.card_Ico] at hcard
  rw [List.length_take]
  constructor
  · rintro htake ⟨y, hy, hclosed⟩ l hlpos hl
    -- Something is closed, so the levels below are as many as there can be.
    have hshort : (stack.filter fun y => level y < level x).length < stack.length := by
      refine List.length_filter_lt_length_iff_exists.mpr ⟨y, hy, ?_⟩
      simpa using hclosed
    have hall := Finset.eq_of_subset_of_card_le hbelow (by rw [Nat.card_Ico]; omega)
    have hmem : l ∈ ((stack.filter fun y => level y < level x).map level).toFinset := by
      rw [hall]
      exact Finset.mem_Ico.mpr ⟨hlpos, hl⟩
    obtain ⟨z, hz, rfl⟩ := List.mem_map.mp (List.mem_toFinset.mp hmem)
    exact ⟨z, (List.mem_filter.mp hz).1, rfl⟩
  · intro hfits
    by_cases hclosed : ∃ y ∈ stack, level x ≤ level y
    · have hall : ((stack.filter fun y => level y < level x).map level).toFinset =
          Finset.Ico 1 (level x) := by
        refine Finset.Subset.antisymm hbelow fun l hl => ?_
        obtain ⟨hlpos, hlt⟩ := Finset.mem_Ico.mp hl
        obtain ⟨y, hy, rfl⟩ := hfits hclosed l hlpos hlt
        refine List.mem_toFinset.mpr (List.mem_map.mpr ⟨y, List.mem_filter.mpr ⟨hy, ?_⟩, rfl⟩)
        simpa using hlt
      have hle := (List.length_filter_le (fun y => decide (level y < level x)) stack)
      rw [hall, Nat.card_Ico] at hlength
      omega
    · have hkept : (stack.filter fun y => level y < level x) = stack := by
        refine List.filter_eq_self.mpr fun y hy => ?_
        have hlt : ¬ level x ≤ level y := fun hle => hclosed ⟨y, hy, hle⟩
        simpa using hlt
      rw [hkept] at hlength hcard ⊢
      omega

theorem cut_eq_of_fits (hstack : stack.Pairwise fun a b => level a < level b)
    (hpos : ∀ y ∈ stack, 0 < level y) (hfits : Fits level stack x) :
    cut level stack x = (stack.filter fun y => level y < level x) ++ [x] := by
  have hlength := (length_take_eq_iff hstack hpos).mpr hfits
  have hinitial := List.prefix_of_prefix_length_le (List.take_prefix (level x - 1) stack)
    (filter_initial hstack (level x)) hlength.le
  rw [cut, hinitial.eq_of_length hlength]

end

section

variable {items : List α}

theorem cuts_eq_of_nested (hpos : ∀ x ∈ items, 0 < level x) (h : Nested level items)
    (before : List α) (hbefore : before <+: items) :
    cuts level before = enclosing level before := by
  induction before using List.reverseRecOn with
  | nil => rfl
  | append_singleton before x ih =>
      have hinitial : before <+: items := (List.prefix_append before [x]).trans hbefore
      have hpos' : ∀ y ∈ enclosing level before, 0 < level y := fun y hy =>
        hpos y (hinitial.subset ((enclosing_sublist before).subset hy))
      rw [cuts_concat, ih hinitial, enclosing_concat,
        cut_eq_of_fits (enclosing_pairwise before) hpos' (h before x hbefore)]

/-- Where the stack has the right height after each item, each item fits. -/
theorem nested_of_length (hpos : ∀ x ∈ items, 0 < level x)
    (h : ∀ before, before <+: items →
      (cuts level before).length = (enclosing level before).length) : Nested level items := by
  have hcuts : ∀ before, before <+: items → cuts level before = enclosing level before ∧
      ∀ before' x, before' ++ [x] <+: before → Fits level (enclosing level before') x := by
    intro before
    induction before using List.reverseRecOn with
    | nil =>
        intro _
        exact ⟨rfl, fun before' x hx => by simp at hx⟩
    | append_singleton before x ih =>
        intro hbefore
        have hinitial : before <+: items := (List.prefix_append before [x]).trans hbefore
        obtain ⟨heq, hfits⟩ := ih hinitial
        have hpos' : ∀ y ∈ enclosing level before, 0 < level y := fun y hy =>
          hpos y (hinitial.subset ((enclosing_sublist before).subset hy))
        have hlength := h (before ++ [x]) hbefore
        rw [cuts_concat, heq, enclosing_concat, cut, List.length_append, List.length_append,
          Nat.add_right_cancel_iff, length_take_eq_iff (enclosing_pairwise before) hpos'] at hlength
        constructor
        · rw [cuts_concat, heq, enclosing_concat,
            cut_eq_of_fits (enclosing_pairwise before) hpos' hlength]
        · intro before' y hy
          rcases List.prefix_concat_iff.mp hy with hlast | hy
          · obtain ⟨rfl, hxy⟩ := List.append_inj' hlast rfl
            obtain rfl := List.singleton_inj.mp hxy
            exact hlength
          · exact hfits before' y hy
  intro before x hx
  exact (hcuts items List.prefix_rfl).2 before x hx

/-- What is read off the stack is read off the enclosing items after each item, exactly if no item
closes another while a smaller level is missing. -/
theorem forall_cuts_iff {β : Type*} (f : α → β) (hpos : ∀ x ∈ items, 0 < level x) :
    (∀ before, before <+: items →
        (cuts level before).map f = (enclosing level before).map f) ↔ Nested level items := by
  constructor
  · intro h
    refine nested_of_length hpos fun before hbefore => ?_
    have hlength := congrArg List.length (h before hbefore)
    rwa [List.length_map, List.length_map] at hlength
  · intro h before hbefore
    rw [cuts_eq_of_nested hpos h before hbefore]

end

end Odirag.Outline
