import Odirag.Foundations.Text
import Mathlib.Algebra.Group.Nat.Defs
import Mathlib.Order.Nat

/-!
# Calendar dates and their ISO texts

A date is written with a fixed number of digits for the year, the month and the day, so the texts
are in the lexicographic order of their characters exactly as the dates are in time.
-/

namespace Odirag

/-! ## Decimal texts of a fixed width -/

/-- The last `width` decimal digits of a number. -/
def decimal : ℕ → ℕ → Text
  | 0, _ => []
  | width + 1, n => decimal width (n / 10) ++ [Nat.digitChar (n % 10)]

/-- The value of a digit. -/
def digitValue (c : Char) : ℕ := c.toNat - '0'.toNat

/-- The number that some digits denote. -/
def ofDecimal (digits : Text) : ℕ := digits.foldl (fun n c => 10 * n + digitValue c) 0

@[simp] theorem length_decimal (width n : ℕ) : (decimal width n).length = width := by
  induction width generalizing n with
  | zero => rfl
  | succ width ih => simp [decimal, ih]

theorem digitChar_lt_iff {a b : ℕ} (ha : a < 10) (hb : b < 10) :
    Nat.digitChar a < Nat.digitChar b ↔ a < b := by
  have hall : ∀ a < 10, ∀ b < 10, (Nat.digitChar a < Nat.digitChar b ↔ a < b) := by decide
  exact hall a ha b hb

theorem digitValue_digitChar {a : ℕ} (ha : a < 10) : digitValue (Nat.digitChar a) = a := by
  have hall : ∀ a < 10, digitValue (Nat.digitChar a) = a := by decide
  exact hall a ha

theorem digitChar_ne_dash {a : ℕ} (ha : a < 10) : Nat.digitChar a ≠ '-' := by
  have hall : ∀ a < 10, Nat.digitChar a ≠ '-' := by decide
  exact hall a ha

/-- Reading the digits gives the number back. -/
theorem ofDecimal_decimal {width n : ℕ} (h : n < 10 ^ width) : ofDecimal (decimal width n) = n := by
  induction width generalizing n with
  | zero =>
      have hzero : n = 0 := by simpa using h
      rw [hzero]
      rfl
  | succ width ih =>
      have hdiv : n / 10 < 10 ^ width := by
        rw [Nat.pow_succ] at h
        omega
      have hread := ih hdiv
      unfold ofDecimal at hread ⊢
      rw [decimal, List.foldl_append, hread]
      simp only [List.foldl_cons, List.foldl_nil]
      rw [digitValue_digitChar (Nat.mod_lt n (by decide))]
      omega

theorem dash_notMem_decimal (width n : ℕ) : '-' ∉ decimal width n := by
  induction width generalizing n with
  | zero => simp [decimal]
  | succ width ih =>
      simp only [decimal, List.mem_append, List.mem_singleton, not_or]
      exact ⟨ih (n / 10), (digitChar_ne_dash (Nat.mod_lt n (by decide))).symm⟩

theorem decimal_injective {width m n : ℕ} (hm : m < 10 ^ width) (hn : n < 10 ^ width) :
    decimal width m = decimal width n ↔ m = n := by
  constructor
  · intro h
    rw [← ofDecimal_decimal hm, h, ofDecimal_decimal hn]
  · rintro rfl
    rfl

/-- Texts with prefixes of one length are compared by the prefixes first. -/
theorem append_lt_append_iff {a b x y : Text} (h : a.length = b.length) :
    a ++ x < b ++ y ↔ a < b ∨ a = b ∧ x < y := by
  induction a generalizing b with
  | nil =>
      have hb : b = [] := List.eq_nil_of_length_eq_zero h.symm
      simp [hb]
  | cons c a ih =>
      cases b with
      | nil => cases h
      | cons d b =>
          rw [List.cons_append, List.cons_append, List.cons_lt_cons_iff, List.cons_lt_cons_iff,
            ih (by simpa using h), List.cons.injEq]
          tauto

/-- Texts of one width are in the order of their numbers. -/
theorem decimal_lt_iff {width m n : ℕ} (hm : m < 10 ^ width) (hn : n < 10 ^ width) :
    decimal width m < decimal width n ↔ m < n := by
  induction width generalizing m n with
  | zero =>
      simp only [Nat.pow_zero, Nat.lt_one_iff] at hm hn
      simp [decimal, hm, hn]
  | succ width ih =>
      have hm' : m / 10 < 10 ^ width := by
        rw [Nat.pow_succ] at hm
        omega
      have hn' : n / 10 < 10 ^ width := by
        rw [Nat.pow_succ] at hn
        omega
      rw [decimal, decimal, append_lt_append_iff (by simp), ih hm' hn', decimal_injective hm' hn',
        List.cons_lt_cons_iff, digitChar_lt_iff (Nat.mod_lt m (by decide)) (Nat.mod_lt n (by decide))]
      simp only [List.not_lt_nil, and_false, or_false]
      omega

/-! ## Dates -/

/-- The days of a month. -/
def daysInMonth (year month : ℕ) : ℕ :=
  match month with
  | 2 => if year % 4 = 0 ∧ (year % 100 = 0 → year % 400 = 0) then 29 else 28
  | 4 | 6 | 9 | 11 => 30
  | _ => 31

theorem daysInMonth_le (year month : ℕ) : daysInMonth year month ≤ 31 := by
  unfold daysInMonth
  split
  · split <;> omega
  · omega
  · omega
  · omega
  · omega
  · omega

/-- `datetime.date`. -/
structure Date where
  year : ℕ
  month : ℕ
  day : ℕ
  year_range : 1 ≤ year ∧ year ≤ 9999 := by decide
  month_range : 1 ≤ month ∧ month ≤ 12 := by decide
  day_range : 1 ≤ day ∧ day ≤ daysInMonth year month := by decide
deriving DecidableEq

namespace Date

/-- The year, the month and the day in one number. -/
def number (d : Date) : ℕ := (d.year * 100 + d.month) * 100 + d.day

instance : LE Date := ⟨fun a b => a.number ≤ b.number⟩

instance (a b : Date) : Decidable (a ≤ b) := inferInstanceAs (Decidable (a.number ≤ b.number))

/-- `date.isoformat`. -/
def isoformat (d : Date) : Text :=
  decimal 4 d.year ++ '-' :: decimal 2 d.month ++ '-' :: decimal 2 d.day

variable {a b : Date}

theorem bounds (d : Date) : d.year < 10 ^ 4 ∧ d.month < 10 ^ 2 ∧ d.day < 10 ^ 2 := by
  have hyear := d.year_range.2
  have hmonth := d.month_range.2
  have hday := d.day_range.2.trans (daysInMonth_le d.year d.month)
  omega

/-- ISO texts are in the order of their dates. -/
theorem isoformat_lt_iff : a.isoformat < b.isoformat ↔ ¬ b ≤ a := by
  obtain ⟨hyear, hmonth, hday⟩ := a.bounds
  obtain ⟨hyear', hmonth', hday'⟩ := b.bounds
  unfold isoformat
  rw [List.append_assoc, List.append_assoc, append_lt_append_iff (by simp),
    decimal_lt_iff hyear hyear', decimal_injective hyear hyear', List.cons_append, List.cons_append,
    List.cons_lt_cons_iff, append_lt_append_iff (by simp), decimal_lt_iff hmonth hmonth',
    decimal_injective hmonth hmonth', List.cons_lt_cons_iff, decimal_lt_iff hday hday']
  simp only [Char.lt_irrefl, false_or, true_and]
  change _ ↔ ¬ b.number ≤ a.number
  unfold number
  omega

/-- The number of a date of the form `YYYY-MM-DD`. -/
def parseNumber (text : Text) : Option ℕ :=
  match text.splitOn '-' with
  | [year, month, day] =>
      if year.length = 4 ∧ month.length = 2 ∧ day.length = 2 then
        some ((ofDecimal year * 100 + ofDecimal month) * 100 + ofDecimal day)
      else none
  | _ => none

/-- The parts of an ISO text. -/
theorem splitOn_isoformat (d : Date) :
    d.isoformat.splitOn '-' = [decimal 4 d.year, decimal 2 d.month, decimal 2 d.day] := by
  unfold isoformat
  rw [List.append_assoc, List.cons_append,
    List.splitOn_append_cons_self_of_not_mem (dash_notMem_decimal 4 d.year),
    List.splitOn_append_cons_self_of_not_mem (dash_notMem_decimal 2 d.month),
    List.splitOn_eq_singleton (dash_notMem_decimal 2 d.day)]

theorem parseNumber_isoformat (d : Date) : parseNumber d.isoformat = some d.number := by
  obtain ⟨hyear, hmonth, hday⟩ := d.bounds
  unfold parseNumber
  rw [splitOn_isoformat]
  simp only [length_decimal, and_self, if_true, ofDecimal_decimal hyear, ofDecimal_decimal hmonth,
    ofDecimal_decimal hday]
  rfl

/-- Dates with one ISO text have one number. -/
theorem number_eq_of_isoformat (h : a.isoformat = b.isoformat) : a.number = b.number := by
  have hnumber := parseNumber_isoformat a
  rw [h, parseNumber_isoformat] at hnumber
  exact (Option.some.inj hnumber).symm

end Date

end Odirag
