import Mathlib.Algebra.BigOperators.Group.List.Basic
import Mathlib.Algebra.Order.BigOperators.Group.List
import Mathlib.Data.List.Sort

/-!
# Rank aggregation by position

Rankings are lists. Each gives an element the weight of the place where the element first stands, and
the elements are listed by their totals (`inOrder`), the better one first and equal ones by name. The
listing does not depend on the order of the rankings (`total_perm`, `inOrder_congr`), and what all
rankings agree on it keeps (`total_lt`, `idxOf_inOrder_lt`).
-/

namespace Odirag.Positional

/-! ## Totals -/

section Totals

variable {α M : Type*} [DecidableEq α] [AddCommMonoid M] {w : ℕ → M} {a b : α}

/-- What a ranking gives an element. -/
def share (w : ℕ → M) (ranking : List α) (a : α) : M :=
  if a ∈ ranking then w (ranking.idxOf a) else 0

@[simp] theorem share_nil : share w [] a = 0 := rfl

theorem share_cons (ranking : List α) :
    share w (b :: ranking) a =
      if a = b then w 0 else share (fun place => w (place + 1)) ranking a := by
  by_cases h : a = b
  · simp [share, h]
  · simp [share, h, List.idxOf_cons_ne _ (Ne.symm h)]

/-- What all rankings give an element. -/
def total (w : ℕ → M) (rankings : List (List α)) (a : α) : M :=
  (rankings.map fun ranking => share w ranking a).sum

@[simp] theorem total_nil : total w [] a = 0 := rfl

@[simp] theorem total_cons (ranking : List α) (rankings : List (List α)) :
    total w (ranking :: rankings) a = share w ranking a + total w rankings a := by
  simp [total]

/-- The order of the rankings does not matter. -/
theorem total_perm {rankings rankings' : List (List α)} (h : rankings.Perm rankings') :
    total w rankings a = total w rankings' a :=
  (h.map _).sum_eq

/-- One element stands before another one in every ranking that has one of them. -/
def Precedes (rankings : List (List α)) (a b : α) : Prop :=
  ∀ ranking ∈ rankings, a ∈ ranking ∨ b ∈ ranking → ranking.idxOf a < ranking.idxOf b

variable [PartialOrder M]

theorem share_lt (hw : StrictAnti w) (hpos : ∀ n, 0 < w n) {ranking : List α}
    (h : ranking.idxOf a < ranking.idxOf b) : share w ranking b < share w ranking a := by
  have ha : a ∈ ranking := List.idxOf_lt_length_iff.mp (h.trans_le List.idxOf_le_length)
  unfold share
  rw [if_pos ha]
  split_ifs
  · exact hw h
  · exact hpos _

variable [IsOrderedCancelAddMonoid M]

/-- An element that precedes another one has no smaller total, and a greater one if a ranking has one
of them. -/
theorem total_le_lt (hw : StrictAnti w) (hpos : ∀ n, 0 < w n) {rankings : List (List α)}
    (h : Precedes rankings a b) :
    total w rankings b ≤ total w rankings a ∧
      ((∃ ranking ∈ rankings, a ∈ ranking ∨ b ∈ ranking) →
        total w rankings b < total w rankings a) := by
  induction rankings with
  | nil => simp
  | cons ranking rankings ih =>
      obtain ⟨hle, hlt⟩ := ih fun r hr => h r (List.mem_cons_of_mem _ hr)
      rw [total_cons, total_cons]
      by_cases hmem : a ∈ ranking ∨ b ∈ ranking
      · have hshare := share_lt hw hpos (h ranking List.mem_cons_self hmem)
        exact ⟨(add_lt_add_of_lt_of_le hshare hle).le, fun _ => add_lt_add_of_lt_of_le hshare hle⟩
      · obtain ⟨ha, hb⟩ := not_or.mp hmem
        rw [share, share, if_neg ha, if_neg hb, zero_add, zero_add]
        refine ⟨hle, ?_⟩
        rintro ⟨r, hr, hsome⟩
        rcases List.mem_cons.mp hr with rfl | hr
        · exact absurd hsome hmem
        · exact hlt ⟨r, hr, hsome⟩

/-- An element that precedes another one has the greater total. -/
theorem total_lt (hw : StrictAnti w) (hpos : ∀ n, 0 < w n) {rankings : List (List α)}
    (h : Precedes rankings a b) (hsome : ∃ ranking ∈ rankings, a ∈ ranking ∨ b ∈ ranking) :
    total w rankings b < total w rankings a :=
  (total_le_lt hw hpos h).2 hsome

end Totals

/-! ## Listing -/

section Listing

variable {α M : Type*} [LinearOrder α] [LinearOrder M] {score score' : α → M}

/-- The better one first, and equal ones by name. -/
def Before (score : α → M) (a b : α) : Prop := score b < score a ∨ score a = score b ∧ a ≤ b

instance : DecidableRel (Before score) := fun a b =>
  inferInstanceAs (Decidable (score b < score a ∨ score a = score b ∧ a ≤ b))

instance : Std.Total (Before score) where
  total a b := by
    rcases lt_trichotomy (score a) (score b) with h | h | h
    · exact .inr (.inl h)
    · exact (le_total a b).imp (fun hle => .inr ⟨h, hle⟩) fun hle => .inr ⟨h.symm, hle⟩
    · exact .inl (.inl h)

instance : IsTrans α (Before score) where
  trans a b c hab hbc := by
    rcases hab with hab | ⟨hab, hab'⟩
    · rcases hbc with hbc | ⟨hbc, -⟩
      · exact .inl (hbc.trans hab)
      · exact .inl (hbc ▸ hab)
    · rcases hbc with hbc | ⟨hbc, hbc'⟩
      · exact .inl (hab ▸ hbc)
      · exact .inr ⟨hab.trans hbc, hab'.trans hbc'⟩

instance : Std.Antisymm (Before score) where
  antisymm a b hab hba := by
    rcases hab with hab | ⟨hab, hab'⟩
    · rcases hba with hba | ⟨hba, -⟩
      · exact absurd hba hab.asymm
      · exact absurd hba hab.ne
    · rcases hba with hba | ⟨-, hba'⟩
      · exact absurd hab hba.ne
      · exact le_antisymm hab' hba'

/-- The elements in order. -/
def inOrder (score : α → M) (ids : List α) : List α := ids.insertionSort (Before score)

theorem perm_inOrder (score : α → M) (ids : List α) : (inOrder score ids).Perm ids :=
  List.perm_insertionSort _ _

theorem pairwise_inOrder (score : α → M) (ids : List α) :
    (inOrder score ids).Pairwise (Before score) :=
  List.pairwise_insertionSort _ _

/-- The listing depends on the elements and their scores only. -/
theorem inOrder_congr {ids ids' : List α} (h : ids.Perm ids') (hscore : ∀ a, score a = score' a) :
    inOrder score ids = inOrder score' ids' := by
  obtain rfl : score = score' := funext hscore
  exact ((perm_inOrder score ids).trans (h.trans (perm_inOrder score ids').symm)).eq_of_pairwise'
    (pairwise_inOrder score ids) (pairwise_inOrder score ids')

end Listing

/-! ## Places -/

section Places

variable {α M : Type*} [BEq α] [LawfulBEq α] {a b : α}

/-- An element with a greater score stands before one with a smaller score. -/
theorem idxOf_inOrder_lt [LinearOrder α] [LinearOrder M] {score : α → M} {ids : List α}
    (ha : a ∈ ids) (h : score b < score a) :
    (inOrder score ids).idxOf a < (inOrder score ids).idxOf b := by
  have hpair := pairwise_inOrder score ids
  have hmem := (perm_inOrder score ids).mem_iff.mpr ha
  have hne : a ≠ b := by
    rintro rfl
    exact h.false
  generalize inOrder score ids = list at hpair hmem
  induction list with
  | nil => cases hmem
  | cons c list ih =>
      obtain ⟨hfirst, hrest⟩ := List.pairwise_cons.mp hpair
      by_cases hca : c = a
      · subst hca
        rw [List.idxOf_cons_self, List.idxOf_cons_ne _ hne]
        omega
      · have hmem' : a ∈ list := (List.mem_cons.mp hmem).resolve_left (Ne.symm hca)
        by_cases hcb : c = b
        · subst hcb
          rcases hfirst a hmem' with hlt | ⟨heq, -⟩
          · exact absurd hlt h.asymm
          · exact absurd heq h.ne
        · rw [List.idxOf_cons_ne _ hca, List.idxOf_cons_ne _ hcb]
          exact Nat.succ_lt_succ (ih hrest hmem')

/-- What stands before stays before when the list is cut. -/
theorem idxOf_take_lt {list : List α} (h : list.idxOf a < list.idxOf b) (n : ℕ)
    (hmem : a ∈ list.take n ∨ b ∈ list.take n) :
    (list.take n).idxOf a < (list.take n).idxOf b := by
  have hsplit := List.take_append_drop n list
  have hin : ∀ c, c ∈ list.take n → list.idxOf c = (list.take n).idxOf c := by
    intro c hc
    conv_lhs => rw [← hsplit]
    exact List.idxOf_append_of_mem hc
  have hout : ∀ c, c ∉ list.take n → (list.take n).length ≤ list.idxOf c := by
    intro c hc
    conv_rhs => rw [← hsplit]
    rw [List.idxOf_append_of_notMem hc]
    exact Nat.le_add_right _ _
  by_cases ha : a ∈ list.take n
  · by_cases hb : b ∈ list.take n
    · rwa [← hin a ha, ← hin b hb]
    · rw [List.idxOf_eq_length hb]
      exact List.idxOf_lt_length_of_mem ha
  · have hb := hmem.resolve_left ha
    have hlt : (list.take n).idxOf b < (list.take n).length := List.idxOf_lt_length_of_mem hb
    have hle := hout a ha
    rw [hin b hb] at h
    omega

end Places

/-! ## Cuts -/

section Cuts

variable {α : Type*} {ge : α → α → Prop} {list : List α} {k : ℕ}

/-- Each of the first elements is at least as good as all that stand behind it. -/
def BestFirst (ge : α → α → Prop) (k : ℕ) (list : List α) : Prop :=
  ∀ i j a b, i < j → i < k → list[i]? = some a → list[j]? = some b → ge a b

/-- The first elements are in order, and none of the others is better than one of them, exactly if the
best elements stand first. -/
theorem bestFirst_iff : BestFirst ge k list ↔
    (list.take k).Pairwise ge ∧ ∀ a ∈ list.take k, ∀ b ∈ list.drop k, ge a b := by
  constructor
  · intro h
    refine ⟨List.pairwise_iff_getElem.mpr fun i j hi hj hij => ?_, fun a ha b hb => ?_⟩
    · rw [List.length_take] at hi hj
      rw [List.getElem_take, List.getElem_take]
      exact h i j _ _ hij (by omega) (List.getElem?_eq_getElem _) (List.getElem?_eq_getElem _)
    · obtain ⟨i, hi, rfl⟩ := List.getElem_of_mem ha
      obtain ⟨j, hj, rfl⟩ := List.getElem_of_mem hb
      rw [List.length_take] at hi
      rw [List.length_drop] at hj
      rw [List.getElem_take, List.getElem_drop]
      exact h i (k + j) _ _ (by omega) (by omega) (List.getElem?_eq_getElem _)
        (List.getElem?_eq_getElem _)
  · rintro ⟨hpair, hcut⟩ i j a b hij hik ha hb
    have hin : a ∈ list.take k :=
      List.mem_of_getElem? (i := i) (by rw [List.getElem?_take_of_lt hik, ha])
    by_cases hjk : j < k
    · rw [← List.getElem?_take_of_lt hik] at ha
      rw [← List.getElem?_take_of_lt hjk] at hb
      obtain ⟨hi, rfl⟩ := List.getElem?_eq_some_iff.mp ha
      obtain ⟨hj, rfl⟩ := List.getElem?_eq_some_iff.mp hb
      exact List.pairwise_iff_getElem.mp hpair i j hi hj hij
    · refine hcut a hin b (List.mem_of_getElem? (i := j - k) ?_)
      rw [List.getElem?_drop, Nat.add_sub_cancel' (by omega), hb]

/-- In an ordered list the best elements stand first. -/
theorem BestFirst.of_pairwise (h : list.Pairwise ge) : BestFirst ge k list := by
  intro i j a b hij _ ha hb
  obtain ⟨hi, rfl⟩ := List.getElem?_eq_some_iff.mp ha
  obtain ⟨hj, rfl⟩ := List.getElem?_eq_some_iff.mp hb
  exact List.pairwise_iff_getElem.mp h i j hi hj hij

theorem bestFirst_map {β : Type*} {ge : β → β → Prop} {f : α → β} :
    BestFirst ge k (list.map f) ↔ BestFirst (fun a b => ge (f a) (f b)) k list := by
  simp only [BestFirst, List.getElem?_map, Option.map_eq_some_iff]
  constructor
  · intro h i j a b hij hik ha hb
    exact h i j _ _ hij hik ⟨a, ha, rfl⟩ ⟨b, hb, rfl⟩
  · rintro h i j _ _ hij hik ⟨a, ha, rfl⟩ ⟨b, hb, rfl⟩
    exact h i j a b hij hik ha hb

end Cuts

end Odirag.Positional
