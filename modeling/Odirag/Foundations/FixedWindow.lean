import Mathlib.Data.List.Basic
import Mathlib.Data.List.Count
import Mathlib.Tactic.Linarith

/-!
# The fixed window

Arrivals carry a key and a window. A fixed-window limiter answers each of them from the number of
arrivals that the same key has made in the same window before: the first `limit` are let through
and are told how many are left, the others are turned away. `verdicts_of` says what these answers
look like from one key and one window, and `verdicts_eq_of_simulation` is the rule by which an
implementation with a state of its own is shown to give them.
-/

namespace Odirag.FixedWindow

/-- What an arrival is told. -/
structure Verdict where
  allowed : Bool
  remaining : ℤ
deriving DecidableEq, Repr

/-- The answer to the arrival that `rank` arrivals of its key and window came before. -/
def verdict (limit : ℤ) (rank : ℕ) : Verdict :=
  if rank < limit then ⟨true, limit - (rank + 1)⟩ else ⟨false, 0⟩

variable {κ ω ρ σ : Type*} [DecidableEq κ] [DecidableEq ω]

/-- The answers to a list of arrivals, after those in `past`. -/
def verdictsAfter (limit : κ → ℤ) : List (κ × ω) → List (κ × ω) → List Verdict
  | _, [] => []
  | past, a :: rest =>
      verdict (limit a.1) (past.count a) :: verdictsAfter limit (a :: past) rest

/-- The answers to a list of arrivals. -/
def verdicts (limit : κ → ℤ) (arrivals : List (κ × ω)) : List Verdict :=
  verdictsAfter limit [] arrivals

/-- The entries of `answers` that belong to the elements of `xs` of one class. -/
def answersTo {α β : Type*} (p : α → Bool) (xs : List α) (answers : List β) : List β :=
  ((xs.zip answers).filter fun e => p e.1).map Prod.snd

@[simp] theorem answersTo_nil {α β : Type*} (p : α → Bool) (answers : List β) :
    answersTo p [] answers = [] := rfl

theorem answersTo_cons {α β : Type*} (p : α → Bool) (x : α) (xs : List α) (y : β) (ys : List β) :
    answersTo p (x :: xs) (y :: ys) =
      if p x then y :: answersTo p xs ys else answersTo p xs ys := by
  unfold answersTo
  rw [List.zip_cons_cons, List.filter_cons]
  split <;> rfl

theorem answersTo_map {α α' β β' : Type*} (p : α' → Bool) (f : α → α') (g : β → β') (xs : List α)
    (answers : List β) :
    answersTo p (xs.map f) (answers.map g) = (answersTo (fun x => p (f x)) xs answers).map g := by
  unfold answersTo
  rw [List.zip_map, List.filter_map, List.map_map, List.map_map]
  rfl

/-- The first `limit` of `n` requests are let through. -/
def firstAllowed (limit : ℤ) (n : ℕ) : List Bool :=
  List.replicate (min limit.toNat n) true ++ List.replicate (n - limit.toNat) false

theorem verdict_allowed (limit : ℤ) (rank : ℕ) :
    (verdict limit rank).allowed = decide (rank < limit.toNat) := by
  unfold verdict
  by_cases h : (rank : ℤ) < limit
  · have hnat : rank < limit.toNat := by omega
    simp [h, hnat]
  · have hnat : ¬ rank < limit.toNat := by omega
    simp [h, hnat]

/-- Seen from one key and one window, after `rank` arrivals there. -/
theorem verdictsAfter_of (limit : κ → ℤ) (a : κ × ω) (past arrivals : List (κ × ω)) :
    (answersTo (fun x => decide (x = a)) arrivals (verdictsAfter limit past arrivals)).map
        Verdict.allowed =
      firstAllowed (limit a.1 - past.count a) (arrivals.count a) := by
  induction arrivals generalizing past with
  | nil => simp [firstAllowed]
  | cons x rest ih =>
      rw [verdictsAfter, answersTo_cons]
      by_cases hx : x = a
      · subst hx
        simp only [decide_true, if_true, List.map_cons, List.count_cons_self, ih]
        rw [verdict_allowed]
        by_cases hlt : past.count x < (limit x.1).toNat
        · -- One more is let through, and one less is left.
          obtain ⟨n, hn⟩ : ∃ n, (limit x.1 - past.count x).toNat = n + 1 :=
            ⟨(limit x.1 - past.count x).toNat - 1, by omega⟩
          have hn' : (limit x.1 - ((past.count x + 1 : ℕ) : ℤ)).toNat = n := by omega
          simp only [firstAllowed, hn, hn', hlt, decide_true]
          rw [Nat.add_min_add_right, List.replicate_succ, List.cons_append, Nat.add_sub_add_right]
        · have hn : (limit x.1 - past.count x).toNat = 0 := by omega
          have hn' : (limit x.1 - ((past.count x + 1 : ℕ) : ℤ)).toNat = 0 := by omega
          simp only [firstAllowed, hn, hn', hlt, decide_false, Nat.zero_min, List.replicate_zero,
            List.nil_append, Nat.sub_zero, List.replicate_succ]
      · simp only [hx, decide_false, Bool.false_eq_true, if_false, ih]
        rw [List.count_cons_of_ne hx, List.count_cons_of_ne hx]

/-- Of the arrivals of one key in one window exactly the first `limit` are let through. -/
theorem verdicts_of (limit : κ → ℤ) (a : κ × ω) (arrivals : List (κ × ω)) :
    (answersTo (fun x => decide (x = a)) arrivals (verdicts limit arrivals)).map Verdict.allowed =
      firstAllowed (limit a.1) (arrivals.count a) := by
  simpa [verdicts] using verdictsAfter_of limit a [] arrivals

/-! ## Implementations -/

/-- The answers that a program with a state gives to a list of requests. -/
def run {δ : Type*} (check : σ → ρ → δ × σ) : σ → List ρ → List δ
  | _, [] => []
  | s, r :: rest => (check s r).1 :: run check (check s r).2 rest

/-- A program whose state counts the past, for the requests that may follow this past, answers
like a fixed window. -/
theorem verdictsAfter_eq_of_simulation {δ : Type*} {check : σ → ρ → δ × σ} (view : δ → Verdict)
    (arrival : ρ → κ × ω) (limit : κ → ℤ) {may : ρ → ρ → Prop} {Counts : List ρ → σ → Prop}
    (hstep : ∀ past s r, Counts past s → (∀ r' ∈ past, may r' r) →
      view (check s r).1 = verdict (limit (arrival r).1) ((past.map arrival).count (arrival r)) ∧
        Counts (r :: past) (check s r).2)
    {past rs : List ρ} {s : σ} (hs : Counts past s) (hpast : ∀ r ∈ rs, ∀ r' ∈ past, may r' r)
    (hrs : rs.Pairwise may) :
    (run check s rs).map view = verdictsAfter limit (past.map arrival) (rs.map arrival) := by
  induction rs generalizing past s with
  | nil => rfl
  | cons r rest ih =>
      obtain ⟨hr, hrest⟩ := List.pairwise_cons.mp hrs
      obtain ⟨hview, hcounts⟩ := hstep past s r hs (hpast r List.mem_cons_self)
      rw [run, List.map_cons, hview, List.map_cons, verdictsAfter]
      congr 1
      refine ih hcounts (fun q hq r' hr' => ?_) hrest
      rcases List.mem_cons.mp hr' with rfl | hr'
      · exact hr q hq
      · exact hpast q (List.mem_cons_of_mem _ hq) r' hr'

/-- The same from the start. -/
theorem verdicts_eq_of_simulation {δ : Type*} {check : σ → ρ → δ × σ} (view : δ → Verdict)
    (arrival : ρ → κ × ω) (limit : κ → ℤ) {may : ρ → ρ → Prop} {Counts : List ρ → σ → Prop}
    (hstep : ∀ past s r, Counts past s → (∀ r' ∈ past, may r' r) →
      view (check s r).1 = verdict (limit (arrival r).1) ((past.map arrival).count (arrival r)) ∧
        Counts (r :: past) (check s r).2)
    {rs : List ρ} {s : σ} (hs : Counts [] s) (hrs : rs.Pairwise may) :
    (run check s rs).map view = verdicts limit (rs.map arrival) := by
  have h := verdictsAfter_eq_of_simulation view arrival limit hstep hs (by simp) hrs
  simpa [verdicts] using h

/-! ## Answers from the past -/

/-- The answers to a list of requests when each is answered from those before it, newest first. -/
def answersAfter {δ : Type*} (answer : List ρ → ρ → δ) : List ρ → List ρ → List δ
  | _, [] => []
  | past, r :: rest => answer past r :: answersAfter answer (r :: past) rest

/-- A program whose state stands for the past gives these answers. -/
theorem run_eq_of_simulation {δ : Type*} {check : σ → ρ → δ × σ} (answer : List ρ → ρ → δ)
    {may : ρ → ρ → Prop} {Counts : List ρ → σ → Prop}
    (hstep : ∀ past s r, Counts past s → (∀ r' ∈ past, may r' r) →
      (check s r).1 = answer past r ∧ Counts (r :: past) (check s r).2)
    {past rs : List ρ} {s : σ} (hs : Counts past s) (hpast : ∀ r ∈ rs, ∀ r' ∈ past, may r' r)
    (hrs : rs.Pairwise may) : run check s rs = answersAfter answer past rs := by
  induction rs generalizing past s with
  | nil => rfl
  | cons r rest ih =>
      obtain ⟨hr, hrest⟩ := List.pairwise_cons.mp hrs
      obtain ⟨hanswer, hcounts⟩ := hstep past s r hs (hpast r List.mem_cons_self)
      rw [run, answersAfter, hanswer]
      congr 1
      refine ih hcounts (fun q hq r' hr' => ?_) hrest
      rcases List.mem_cons.mp hr' with rfl | hr'
      · exact hr q hq
      · exact hpast q (List.mem_cons_of_mem _ hq) r' hr'

/-- Requests that are answered from their own class are answered as if there were no others. -/
theorem answersTo_answersAfter {δ : Type*} {answer : List ρ → ρ → δ} {p : ρ → Bool}
    (hown : ∀ past r, p r → answer past r = answer (past.filter p) r) (past rs : List ρ) :
    answersTo p rs (answersAfter answer past rs) =
      answersAfter answer (past.filter p) (rs.filter p) := by
  induction rs generalizing past with
  | nil => rfl
  | cons r rest ih =>
      rw [answersAfter, answersTo_cons, ih, List.filter_cons]
      by_cases hr : p r
      · simp only [hr, if_true, answersAfter, List.filter_cons_of_pos]
        rw [hown past r hr]
      · simp only [hr, Bool.false_eq_true, if_false, List.filter_cons_of_neg, not_false_eq_true]

/-- When a request is let through only as one that counts, after fewer than `n` that count, at most
`n` are let through. -/
theorem countP_answersTo_le {δ : Type*} {answer : List ρ → ρ → δ} {passed : δ → Bool}
    {p : ρ → Bool} {n : ℕ} (counts : ρ → Bool)
    (hpassed : ∀ past r, p r → passed (answer past r) → counts r ∧ past.countP counts < n)
    (past rs : List ρ) :
    (answersTo p rs (answersAfter answer past rs)).countP passed ≤ n - past.countP counts := by
  induction rs generalizing past with
  | nil => simp
  | cons r rest ih =>
      rw [answersAfter, answersTo_cons]
      have hrest := ih (r :: past)
      rw [List.countP_cons] at hrest
      split
      · next hr =>
          rw [List.countP_cons]
          split
          · next hpass =>
              obtain ⟨hcounts, hlt⟩ := hpassed past r hr hpass
              rw [if_pos hcounts] at hrest
              omega
          · omega
      · omega

/-- The answers to some of the requests, counted among all. -/
theorem countP_answersTo {α β : Type*} (p : α → Bool) (q : β → Bool) (xs : List α)
    (answers : List β) :
    (answersTo p xs answers).countP q = (xs.zip answers).countP fun e => q e.2 && p e.1 := by
  unfold answersTo
  rw [List.countP_map, List.countP_filter]
  rfl

end Odirag.FixedWindow
