import Mathlib.Data.Int.Log
import Mathlib.Data.Rat.Floor
import Mathlib.Tactic.Linarith
import Mathlib.Tactic.NormNum

/-!
# Rounding to double precision

Non-negative numbers in the normal range of IEEE double precision, as rationals: the nearest number
with 53 significant bits, and of two nearest ones the one with an even last bit. Both steps are
monotone (`nearest_mono`, `round_mono`), so that comparisons between quotients survive the rounding.
-/

namespace Odirag.Binary64

/-- The nearest integer, and the even one of two. -/
def nearest (x : ℚ) : ℤ :=
  if x - ⌊x⌋ < 1 / 2 then ⌊x⌋
  else if 1 / 2 < x - ⌊x⌋ then ⌊x⌋ + 1
  else if ⌊x⌋ % 2 = 0 then ⌊x⌋
  else ⌊x⌋ + 1

/-- The distance between neighbours at `x`. -/
def ulp (x : ℚ) : ℚ := 2 ^ (Int.log 2 x - 52)

/-- The nearest number with 53 significant bits. -/
def round (x : ℚ) : ℚ := nearest (x / ulp x) * ulp x

/-- The quotient of two numbers. -/
def div (x y : ℚ) : ℚ := round (x / y)

/-- The difference of two numbers. -/
def sub (x y : ℚ) : ℚ := if y ≤ x then round (x - y) else -round (y - x)

/-- The nearest number to a decimal number with this many digits after the point. -/
def roundDigits (digits : ℕ) (x : ℚ) : ℚ := round (nearest (x * 10 ^ digits) / 10 ^ digits)

theorem floor_le_nearest (x : ℚ) : ⌊x⌋ ≤ nearest x := by
  unfold nearest
  split_ifs <;> omega

theorem nearest_le_floor_add_one (x : ℚ) : nearest x ≤ ⌊x⌋ + 1 := by
  unfold nearest
  split_ifs <;> omega

@[simp] theorem nearest_intCast (z : ℤ) : nearest z = z := by
  simp [nearest]

theorem nearest_mono {x y : ℚ} (h : x ≤ y) : nearest x ≤ nearest y := by
  rcases (Int.floor_le_floor h).lt_or_eq with hlt | heq
  · -- An integer lies between the two numbers.
    have hx := nearest_le_floor_add_one x
    have hy := floor_le_nearest y
    omega
  · have hfrac : x - ⌊x⌋ ≤ y - ⌊y⌋ := by
      rw [heq]
      linarith
    unfold nearest
    rw [heq] at hfrac ⊢
    split_ifs <;> first | omega | (exfalso; linarith)

theorem ulp_pos (x : ℚ) : 0 < ulp x := zpow_pos (by norm_num) _

theorem round_nonneg {x : ℚ} (h : 0 ≤ x) : 0 ≤ round x := by
  have hq : (0 : ℤ) ≤ nearest (x / ulp x) := by
    calc (0 : ℤ) = nearest ((0 : ℤ) : ℚ) := (nearest_intCast 0).symm
      _ ≤ nearest (x / ulp x) := nearest_mono (by
          rw [Int.cast_zero]
          exact div_nonneg h (ulp_pos x).le)
  exact mul_nonneg (by exact_mod_cast hq) (ulp_pos x).le

@[simp] theorem round_zero : round 0 = 0 := by
  have h : nearest 0 = 0 := by
    rw [← Int.cast_zero]
    exact nearest_intCast 0
  simp [round, h]

/-- A number below a power of two is not rounded above it. -/
theorem round_le_zpow (x : ℚ) : round x ≤ 2 ^ (Int.log 2 x + 1) := by
  have hpow : (2 : ℚ) ^ (Int.log 2 x + 1) = ((2 ^ 53 : ℤ) : ℚ) * ulp x := by
    unfold ulp
    rw [show ((2 ^ 53 : ℤ) : ℚ) = (2 : ℚ) ^ (53 : ℤ) by norm_num, ← zpow_add₀ (by norm_num)]
    congr 1
    omega
  have hlt : x / ulp x ≤ ((2 ^ 53 : ℤ) : ℚ) := by
    rw [div_le_iff₀ (ulp_pos x), ← hpow]
    exact (Int.lt_zpow_succ_log_self (by norm_num) x).le
  have hn : nearest (x / ulp x) ≤ 2 ^ 53 := by
    have h := nearest_mono hlt
    rwa [nearest_intCast] at h
  rw [hpow]
  exact mul_le_mul_of_nonneg_right (by exact_mod_cast hn) (ulp_pos x).le

/-- A number from a power of two on is not rounded below it. -/
theorem zpow_le_round {x : ℚ} (h : 0 < x) : 2 ^ Int.log 2 x ≤ round x := by
  have hpow : (2 : ℚ) ^ Int.log 2 x = ((2 ^ 52 : ℤ) : ℚ) * ulp x := by
    unfold ulp
    rw [show ((2 ^ 52 : ℤ) : ℚ) = (2 : ℚ) ^ (52 : ℤ) by norm_num, ← zpow_add₀ (by norm_num)]
    congr 1
    omega
  have hle : ((2 ^ 52 : ℤ) : ℚ) ≤ x / ulp x := by
    rw [le_div_iff₀ (ulp_pos x), ← hpow]
    exact Int.zpow_log_le_self (by norm_num) h
  have hn : 2 ^ 52 ≤ nearest (x / ulp x) := by
    have h := nearest_mono hle
    rwa [nearest_intCast] at h
  rw [hpow]
  exact mul_le_mul_of_nonneg_right (by exact_mod_cast hn) (ulp_pos x).le

theorem round_pos {x : ℚ} (h : 0 < x) : 0 < round x :=
  (zpow_pos (by norm_num) _).trans_le (zpow_le_round h)

theorem round_mono {x y : ℚ} (hx : 0 ≤ x) (h : x ≤ y) : round x ≤ round y := by
  rcases hx.eq_or_lt with rfl | hpos
  · rw [round_zero]
    exact round_nonneg h
  rcases (Int.log_mono_right hpos h : Int.log 2 x ≤ Int.log 2 y).lt_or_eq with hlt | heq
  · calc round x ≤ 2 ^ (Int.log 2 x + 1) := round_le_zpow x
      _ ≤ 2 ^ Int.log 2 y := zpow_le_zpow_right₀ (by norm_num) (by omega)
      _ ≤ round y := zpow_le_round (hpos.trans_le h)
  · have hulp : ulp x = ulp y := by rw [ulp, ulp, heq]
    unfold round
    rw [hulp]
    refine mul_le_mul_of_nonneg_right ?_ (ulp_pos y).le
    exact_mod_cast nearest_mono (div_le_div_of_nonneg_right h (ulp_pos y).le)

@[simp] theorem sub_self (x : ℚ) : sub x x = 0 := by
  simp [sub]

/-- A difference the other way has the other sign. -/
theorem neg_sub (x y : ℚ) : -sub x y = sub y x := by
  unfold sub
  rcases lt_trichotomy x y with h | rfl | h
  · rw [if_neg (not_le.mpr h), if_pos h.le, neg_neg]
  · simp
  · rw [if_pos h.le, if_neg (not_le.mpr h)]

/-- A larger numerator gives no smaller quotient. -/
theorem div_mono {x y d : ℚ} (hx : 0 ≤ x) (hd : 0 ≤ d) (h : x ≤ y) : div x d ≤ div y d :=
  round_mono (div_nonneg hx hd) (div_le_div_of_nonneg_right h hd)

@[simp] theorem round_one : round 1 = 1 := by
  have hulp : 1 / ulp 1 = ((2 ^ 52 : ℤ) : ℚ) := by
    rw [ulp, Int.log_one_right]
    norm_num
  rw [round, hulp, nearest_intCast, ← hulp, div_mul_cancel₀ _ (ulp_pos 1).ne']

/-- Decimal rounding stays between 0 and 1. -/
theorem roundDigits_mem_unit {x : ℚ} (hx : 0 ≤ x ∧ x ≤ 1) (digits : ℕ) :
    0 ≤ roundDigits digits x ∧ roundDigits digits x ≤ 1 := by
  have hpow : (0 : ℚ) < 10 ^ digits := by positivity
  have hlow : (0 : ℤ) ≤ nearest (x * 10 ^ digits) := by
    calc (0 : ℤ) = nearest ((0 : ℤ) : ℚ) := (nearest_intCast 0).symm
      _ ≤ nearest (x * 10 ^ digits) := nearest_mono (by
          rw [Int.cast_zero]
          exact mul_nonneg hx.1 hpow.le)
  have hhigh : nearest (x * 10 ^ digits) ≤ 10 ^ digits := by
    calc nearest (x * 10 ^ digits) ≤ nearest ((10 ^ digits : ℤ) : ℚ) := nearest_mono (by
          rw [Int.cast_pow, Int.cast_ofNat]
          exact mul_le_of_le_one_left hpow.le hx.2)
      _ = 10 ^ digits := nearest_intCast _
  have hquotient : (0 : ℚ) ≤ nearest (x * 10 ^ digits) / 10 ^ digits :=
    div_nonneg (by exact_mod_cast hlow) hpow.le
  refine ⟨round_nonneg hquotient, ?_⟩
  rw [← round_one]
  refine round_mono hquotient ((div_le_one hpow).mpr ?_)
  exact_mod_cast hhigh

end Odirag.Binary64
