import Mathlib.Algebra.Order.Archimedean.Basic
import Mathlib.Algebra.Order.Field.Rat
import Mathlib.Data.Int.Log
import Mathlib.Data.Rat.Floor
import Mathlib.Tactic.Linarith
import Mathlib.Tactic.Ring

/-!
# Rounding to significant digits

A number rounded to some number of significant digits: to the nearest one with so many digits, and
to the one with an even last digit if there are two. In base 10 this is what a formatted output
prints, and with 53 digits in base 2 it is the arithmetic of `double`, as long as nothing overflows
or underflows.

* `toDigits_eq_self_iff` — the numbers with no more digits are left alone, and nothing else is
* `toDigits_toDigits` — rounding again changes nothing
* `toDigits_pos` — what is positive stays positive
* `abs_toDigits_sub_le` — the relative error
* `le_toDigits` — an integer that has so many digits is not crossed
* `abs_double_sub_le` — the error of a `double`
-/

namespace Infra.Rounding

/-! ## Rounding to an integer -/

/-- The nearest integer, the even one if there are two. -/
def roundHalfEven (x : ℚ) : ℤ :=
  if x - ⌊x⌋ < 1 / 2 then ⌊x⌋
  else if 1 / 2 < x - ⌊x⌋ then ⌊x⌋ + 1
  else if ⌊x⌋ % 2 = 0 then ⌊x⌋ else ⌊x⌋ + 1

@[simp] theorem roundHalfEven_intCast (n : ℤ) : roundHalfEven n = n := by
  rw [roundHalfEven, Int.floor_intCast, if_pos (by norm_num)]

theorem roundHalfEven_near (x : ℚ) :
    x - 1 / 2 ≤ roundHalfEven x ∧ (roundHalfEven x : ℚ) ≤ x + 1 / 2 := by
  have hle := Int.floor_le x
  have hlt := Int.lt_floor_add_one x
  rw [roundHalfEven]
  split
  · constructor <;> linarith
  · split
    · push_cast
      constructor <;> linarith
    · split
      · constructor <;> linarith
      · push_cast
        constructor <;> linarith

theorem roundHalfEven_le {x : ℚ} {n : ℤ} (h : x ≤ n) : roundHalfEven x ≤ n := by
  have hnear := (roundHalfEven_near x).2
  have hlt : (roundHalfEven x : ℚ) < n + 1 := by linarith
  exact Int.lt_add_one_iff.mp (by exact_mod_cast hlt)

theorem le_roundHalfEven {x : ℚ} {n : ℤ} (h : (n : ℚ) ≤ x) : n ≤ roundHalfEven x := by
  have hnear := (roundHalfEven_near x).1
  have hlt : (n : ℚ) < roundHalfEven x + 1 := by linarith
  exact Int.lt_add_one_iff.mp (by exact_mod_cast hlt)

/-! ## Rounding to digits -/

variable {b : ℕ} [hb : b.AtLeastTwo] {digits : ℕ} {x : ℚ}

/-- The value of the last of the digits. -/
def lastPlace (b digits : ℕ) (x : ℚ) : ℚ := b ^ (Int.log b |x| + 1 - digits)

/-- `x` with so many significant digits. -/
def toDigits (b digits : ℕ) (x : ℚ) : ℚ :=
  roundHalfEven (x / lastPlace b digits x) * lastPlace b digits x

/-- A number with at most so many digits. -/
def HasDigits (b digits : ℕ) (x : ℚ) : Prop :=
  ∃ k j : ℤ, |k| ≤ (b : ℤ) ^ digits ∧ x = k * (b : ℚ) ^ j

include hb in
theorem one_lt_base : 1 < b := hb.prop

include hb in
theorem base_pos : (0 : ℚ) < b := by exact_mod_cast Nat.zero_lt_of_lt (one_lt_base (b := b))

include hb in
theorem one_le_base : (1 : ℚ) ≤ b := by exact_mod_cast (one_lt_base (b := b)).le

theorem lastPlace_pos (digits : ℕ) (x : ℚ) : 0 < lastPlace b digits x := zpow_pos base_pos _

theorem abs_lt_lastPlace (digits : ℕ) (x : ℚ) :
    |x| < (b : ℚ) ^ digits * lastPlace b digits x := by
  have h := Int.lt_zpow_succ_log_self (one_lt_base (b := b)) |x|
  rw [lastPlace, ← zpow_natCast, ← zpow_add₀ base_pos.ne', add_sub_cancel]
  exact h

/-- The last of so many digits is that much smaller than the number. -/
theorem pow_mul_lastPlace_le (hx : x ≠ 0) :
    (b : ℚ) ^ digits * lastPlace b digits x ≤ b * |x| := by
  have h := Int.zpow_log_le_self (one_lt_base (b := b)) (abs_pos.mpr hx)
  rw [lastPlace, ← zpow_natCast, ← zpow_add₀ base_pos.ne', add_sub_cancel, zpow_add_one₀ base_pos.ne',
    mul_comm]
  exact mul_le_mul_of_nonneg_left h base_pos.le

theorem lastPlace_le_abs (hd : 0 < digits) (hx : x ≠ 0) : lastPlace b digits x ≤ |x| := by
  have h := Int.zpow_log_le_self (one_lt_base (b := b)) (abs_pos.mpr hx)
  refine le_trans (zpow_le_zpow_right₀ one_le_base ?_) h
  omega

theorem toDigits_hasDigits (digits : ℕ) (x : ℚ) : HasDigits b digits (toDigits b digits x) := by
  refine ⟨_, _, ?_, rfl⟩
  have hpos := lastPlace_pos (b := b) digits x
  have habs := abs_lt.mp (abs_lt_lastPlace (b := b) digits x)
  rw [abs_le]
  constructor
  · refine le_roundHalfEven ?_
    rw [le_div_iff₀ hpos]
    push_cast
    linarith [habs.1]
  · refine roundHalfEven_le ?_
    rw [div_le_iff₀ hpos]
    push_cast
    exact habs.2.le

/-- A multiple of its last place is left alone. -/
theorem toDigits_of_multiple {n : ℤ} (h : x = n * lastPlace b digits x) :
    toDigits b digits x = x := by
  have hdiv : x / lastPlace b digits x = n := by
    rw [div_eq_iff (lastPlace_pos digits x).ne']
    exact h
  rw [toDigits, hdiv, roundHalfEven_intCast, ← h]

omit hb in
@[simp] theorem toDigits_zero (digits : ℕ) : toDigits b digits 0 = 0 := by
  rw [toDigits, zero_div, show (0 : ℚ) = ((0 : ℤ) : ℚ) by norm_num, roundHalfEven_intCast]
  norm_num

theorem toDigits_of_lt {k j : ℤ} (hk : |k| < (b : ℤ) ^ digits) (hx : x = k * (b : ℚ) ^ j) :
    toDigits b digits x = x := by
  by_cases hzero : x = 0
  · rw [hzero, toDigits_zero]
  · have habs : |x| < (b : ℚ) ^ (digits + j : ℤ) := by
      rw [hx, abs_mul, abs_of_pos (zpow_pos base_pos j), zpow_add₀ base_pos.ne', zpow_natCast]
      refine mul_lt_mul_of_pos_right ?_ (zpow_pos base_pos j)
      exact_mod_cast hk
    have hlog := (Int.lt_zpow_iff_log_lt one_lt_base (abs_pos.mpr hzero)).mp habs
    obtain ⟨m, hm⟩ := Int.eq_ofNat_of_zero_le
      (show 0 ≤ j - (Int.log b |x| + 1 - digits) by omega)
    refine toDigits_of_multiple (n := k * b ^ m) ?_
    conv_lhs => rw [hx, show j = m + (Int.log b |x| + 1 - digits) by omega]
    rw [lastPlace, zpow_add₀ base_pos.ne', zpow_natCast]
    push_cast
    ring

/-- **What rounding leaves alone are the numbers with at most so many digits.** -/
theorem toDigits_eq_self_iff (hd : 0 < digits) :
    toDigits b digits x = x ↔ HasDigits b digits x := by
  constructor
  · intro h
    rw [← h]
    exact toDigits_hasDigits digits x
  · rintro ⟨k, j, hk, hx⟩
    rcases lt_or_eq_of_le hk with hlt | heq
    · exact toDigits_of_lt hlt hx
    · -- a power of the base has one digit
      have hone : |Int.sign k| < (b : ℤ) ^ digits := by
        have hk0 : k ≠ 0 := by
          rintro rfl
          rw [abs_zero] at heq
          exact (pow_pos (by exact_mod_cast base_pos (b := b)) digits).ne heq
        rw [Int.abs_sign_of_ne_zero hk0]
        exact one_lt_pow₀ (by exact_mod_cast one_lt_base (b := b)) hd.ne'
      refine toDigits_of_lt (j := digits + j) hone ?_
      have hkeq : (k : ℚ) = Int.sign k * (b : ℚ) ^ digits := by
        have := Int.sign_mul_abs k
        rw [heq] at this
        exact_mod_cast this.symm
      rw [hx, hkeq, zpow_add₀ base_pos.ne', zpow_natCast]
      ring

/-- Rounding again changes nothing. -/
theorem toDigits_toDigits (hd : 0 < digits) (x : ℚ) :
    toDigits b digits (toDigits b digits x) = toDigits b digits x :=
  (toDigits_eq_self_iff hd).mpr (toDigits_hasDigits digits x)

/-- Integers with so many digits are left alone. -/
theorem toDigits_intCast {n : ℤ} (hn : |n| < (b : ℤ) ^ digits) :
    toDigits b digits (n : ℚ) = n :=
  toDigits_of_lt (j := 0) hn (by rw [zpow_zero, mul_one])

theorem toDigits_pos (hd : 0 < digits) (hx : 0 < x) : 0 < toDigits b digits x := by
  have hpos := lastPlace_pos (b := b) digits x
  have hle := lastPlace_le_abs (b := b) hd hx.ne'
  rw [abs_of_pos hx] at hle
  have hround : 1 ≤ roundHalfEven (x / lastPlace b digits x) := by
    refine le_roundHalfEven ?_
    rw [Int.cast_one, one_le_div hpos]
    exact hle
  exact mul_pos (by exact_mod_cast hround) hpos

theorem toDigits_nonneg (hd : 0 < digits) (hx : 0 ≤ x) : 0 ≤ toDigits b digits x := by
  rcases hx.eq_or_lt with rfl | hx
  · rw [toDigits_zero]
  · exact (toDigits_pos hd hx).le

/-! ## The error -/

/-- Rounding moves a number by half of its last place at most. -/
theorem abs_toDigits_sub_le_lastPlace (digits : ℕ) (x : ℚ) :
    |toDigits b digits x - x| ≤ lastPlace b digits x / 2 := by
  have hpos := lastPlace_pos (b := b) digits x
  obtain ⟨hlo, hhi⟩ := roundHalfEven_near (x / lastPlace b digits x)
  have hx : x = x / lastPlace b digits x * lastPlace b digits x :=
    (div_mul_cancel₀ x hpos.ne').symm
  have hlo' := mul_le_mul_of_nonneg_right hlo hpos.le
  have hhi' := mul_le_mul_of_nonneg_right hhi hpos.le
  rw [sub_mul, ← hx] at hlo'
  rw [add_mul, ← hx] at hhi'
  rw [toDigits, abs_le]
  constructor <;> linarith

/-- **The relative error of a rounding.** -/
theorem abs_toDigits_sub_le (digits : ℕ) (x : ℚ) :
    |toDigits b digits x - x| * (2 * (b : ℚ) ^ digits) ≤ b * |x| := by
  by_cases hx : x = 0
  · rw [hx, toDigits_zero]
    norm_num
  · have hpow : (0 : ℚ) < (b : ℚ) ^ digits := pow_pos base_pos _
    calc |toDigits b digits x - x| * (2 * (b : ℚ) ^ digits)
        ≤ lastPlace b digits x / 2 * (2 * (b : ℚ) ^ digits) :=
          mul_le_mul_of_nonneg_right (abs_toDigits_sub_le_lastPlace digits x) (by linarith)
      _ = (b : ℚ) ^ digits * lastPlace b digits x := by ring
      _ ≤ b * |x| := pow_mul_lastPlace_le hx

/-- A number keeps its first digit. -/
theorem zpow_log_le_toDigits (hd : 0 < digits) (hx : 0 < x) :
    (b : ℚ) ^ Int.log b x ≤ toDigits b digits x := by
  have hpos := lastPlace_pos (b := b) digits x
  obtain ⟨m, rfl⟩ : ∃ m, digits = m + 1 := ⟨digits - 1, by omega⟩
  have hfirst : (b : ℚ) ^ Int.log b x = ((b ^ m : ℤ) : ℚ) * lastPlace b (m + 1) x := by
    rw [lastPlace, abs_of_pos hx]
    push_cast
    rw [← zpow_natCast, ← zpow_add₀ base_pos.ne']
    congr 1
    omega
  rw [hfirst, toDigits]
  refine mul_le_mul_of_nonneg_right (Int.cast_le.mpr (le_roundHalfEven ?_)) hpos.le
  rw [le_div_iff₀ hpos, ← hfirst]
  exact Int.zpow_log_le_self one_lt_base hx

/-- **Rounding does not cross an integer** that has so many digits. -/
theorem le_toDigits (hd : 0 < digits) {n : ℤ} (hx : 0 < x) (hn : n ≤ (b : ℤ) ^ digits)
    (h : (n : ℚ) ≤ x) : (n : ℚ) ≤ toDigits b digits x := by
  have hpos := lastPlace_pos (b := b) digits x
  by_cases hlog : Int.log b |x| + 1 ≤ digits
  · -- the integer is a multiple of the last place
    obtain ⟨m, hm⟩ := Int.eq_ofNat_of_zero_le (show 0 ≤ digits - (Int.log b |x| + 1) by omega)
    have hmultiple : (n : ℚ) / lastPlace b digits x = ((n * b ^ m : ℤ) : ℚ) := by
      rw [lastPlace, div_eq_mul_inv, ← zpow_neg, neg_sub, hm, zpow_natCast]
      push_cast
      rfl
    rw [toDigits, ← div_le_iff₀ hpos, hmultiple]
    refine Int.cast_le.mpr (le_roundHalfEven ?_)
    rw [← hmultiple]
    exact div_le_div_of_nonneg_right h hpos.le
  · -- the number has a digit more than the integer
    rw [abs_of_pos hx] at hlog
    have hpow : (b : ℚ) ^ digits ≤ (b : ℚ) ^ Int.log b x := by
      rw [← zpow_natCast]
      exact zpow_le_zpow_right₀ one_le_base (by omega)
    calc (n : ℚ) ≤ (b : ℚ) ^ digits := by exact_mod_cast hn
      _ ≤ (b : ℚ) ^ Int.log b x := hpow
      _ ≤ toDigits b digits x := zpow_log_le_toDigits hd hx

/-! ## Doubles -/

/-- The `double` nearest to `x`. -/
def double (x : ℚ) : ℚ := toDigits 2 53 x

/-- The conversion to an integer drops the fraction. -/
def truncate (x : ℚ) : ℤ := x.num.tdiv x.den

omit hb in
theorem truncate_eq_floor (hx : 0 ≤ x) : truncate x = ⌊x⌋ := by
  rw [truncate, Int.tdiv_eq_ediv_of_nonneg (Rat.num_nonneg.mpr hx), Rat.floor_def']

theorem double_nonneg (hx : 0 ≤ x) : 0 ≤ double x := toDigits_nonneg (by decide) hx

theorem double_intCast {n : ℤ} (hn : |n| < 2 ^ 53) : double n = n := toDigits_intCast hn

theorem abs_double_sub_le (x : ℚ) : |double x - x| ≤ |x| / 2 ^ 53 := by
  have h := abs_toDigits_sub_le (b := 2) 53 x
  rw [le_div_iff₀ (by norm_num)]
  push_cast at h
  rw [double]
  linarith

/-- Half of a number is always kept. -/
theorem half_le_double (hx : 0 ≤ x) : x / 2 ≤ double x := by
  have h := (abs_le.mp (abs_double_sub_le x)).1
  rw [abs_of_nonneg hx] at h
  linarith

end Infra.Rounding
