import Mathlib.Algebra.BigOperators.Group.List.Basic
import Mathlib.Algebra.Order.Ring.Rat
import Mathlib.Data.List.Count
import Mathlib.Tactic.Push

/-!
# Confusion matrices

Decisions are pairs of what was expected and what was predicted. A matrix counts the four kinds of
decisions; every other count that a report uses is a sum of its cells (`countP_expected`,
`countP_predicted`, `countP_correct`, `length_eq_total`), so two reports that tally the same
decisions give the same figures.
-/

namespace Odirag

/-- How many decisions there are of each kind. -/
structure Confusion where
  neither : ℕ
  onlyPredicted : ℕ
  onlyExpected : ℕ
  both : ℕ
deriving DecidableEq, Repr

namespace Confusion

/-- Count the decisions, each a pair of what was expected and what was predicted. -/
def tally (decisions : List (Bool × Bool)) : Confusion where
  neither := decisions.countP fun d => !d.1 && !d.2
  onlyPredicted := decisions.countP fun d => !d.1 && d.2
  onlyExpected := decisions.countP fun d => d.1 && !d.2
  both := decisions.countP fun d => d.1 && d.2

/-- How often it was predicted. -/
def predicted (m : Confusion) : ℕ := m.onlyPredicted + m.both

/-- How often it was expected. -/
def expected (m : Confusion) : ℕ := m.onlyExpected + m.both

/-- How often it was not expected. -/
def notExpected (m : Confusion) : ℕ := m.neither + m.onlyPredicted

/-- How often the prediction was right. -/
def correct (m : Confusion) : ℕ := m.neither + m.both

/-- The number of decisions. -/
def total (m : Confusion) : ℕ := m.neither + m.onlyPredicted + m.onlyExpected + m.both

/-- A count splits into the counts on the two sides of a test. -/
theorem countP_split {α : Type*} (p q : α → Bool) (l : List α) :
    l.countP p = l.countP (fun a => p a && q a) + l.countP (fun a => p a && !q a) := by
  induction l with
  | nil => rfl
  | cons a l ih =>
      simp only [List.countP_cons, ih]
      cases p a <;> cases q a <;> simp <;> omega

theorem countP_predicted (decisions : List (Bool × Bool)) :
    decisions.countP (·.2) = (tally decisions).predicted := by
  rw [countP_split _ (fun d => d.1), predicted, tally, Nat.add_comm]
  simp only [Bool.and_comm]

theorem countP_expected (decisions : List (Bool × Bool)) :
    decisions.countP (·.1) = (tally decisions).expected := by
  rw [countP_split _ (fun d => d.2), expected, tally, Nat.add_comm]

theorem countP_notExpected (decisions : List (Bool × Bool)) :
    decisions.countP (fun d => !d.1) = (tally decisions).notExpected := by
  rw [countP_split _ (fun d => d.2), notExpected, tally, Nat.add_comm]

theorem countP_correct (decisions : List (Bool × Bool)) :
    decisions.countP (fun d => d.2 == d.1) = (tally decisions).correct := by
  rw [countP_split _ (fun d => d.2), correct, tally, Nat.add_comm]
  congr 1 <;> exact congrArg (decisions.countP ·) (funext fun d => by cases d.1 <;> cases d.2 <;> rfl)

theorem length_eq_total (decisions : List (Bool × Bool)) :
    decisions.length = (tally decisions).total := by
  have hsplit : decisions.length
      = decisions.countP (·.1) + decisions.countP (fun d => !d.1) := by
    rw [← congrFun List.countP_true decisions, countP_split _ (fun d => d.1)]
    simp only [Bool.true_and]
  rw [hsplit, countP_expected, countP_notExpected]
  unfold total expected notExpected
  omega

/-- The sum of the outcomes of a test, each counted as one or zero. -/
theorem sum_indicator {α : Type*} (p : α → Bool) (l : List α) :
    (l.map fun a => if p a then (1 : ℚ) else 0).sum = l.countP p := by
  induction l with
  | nil => rfl
  | cons a l ih =>
      rw [List.map_cons, List.sum_cons, ih, List.countP_cons]
      cases p a <;> simp [add_comm]

end Confusion

end Odirag
