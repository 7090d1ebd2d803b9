import Mathlib.Data.Int.Log
import Mathlib.Data.Rat.Floor

/-!
# Go's float64 rounding, as far as the services use it

Go computes `time.Duration.Seconds()` in float64, and converts the result with `int32(...)`
in `auth/cache.go`. A float64 value is rational, so a float64 operation here is the exact
rational result rounded to float64 (`roundFloat64`): to the nearest value with a 53-bit
significand, the one with an even significand on a tie, as IEEE 754 and Go round.

Two facts about that rounding carry every later result: it moves a value by at most half the
spacing of float64 values there (`roundFloat64_le`), and it never crosses an integer that
lies below the value, while that spacing is at most 1 (`le_roundFloat64`). The values the
services round stay far inside the float64 range, so overflow to infinity is left out.
-/

set_option autoImplicit false

namespace ServiceLayer
namespace Go

/-- Round half to even: the integer nearest `m`, the even one of the two on a tie. -/
def roundHalfEven (m : ℚ) : ℤ :=
  if m - ⌊m⌋ < 1 / 2 then ⌊m⌋
  else if 1 / 2 < m - ⌊m⌋ then ⌊m⌋ + 1
  else if ⌊m⌋ % 2 = 0 then ⌊m⌋ else ⌊m⌋ + 1

/-- The spacing of float64 values at `x ≥ 0`: `2^(e - 52)` for `2^e ≤ x < 2^(e + 1)`, and
    `2^-1074` among the subnormals. -/
def ulp (x : ℚ) : ℚ := 2 ^ max (Int.log 2 x - 52) (-1074)

/-- `x` rounded to float64: to nearest, ties to even. -/
def roundFloat64 (x : ℚ) : ℚ :=
  if x < 0 then -(roundHalfEven (-x / ulp (-x)) * ulp (-x))
  else roundHalfEven (x / ulp x) * ulp x

/-- `int32(f)` for a float64 `f`: the fraction is discarded, toward zero. When the result
    does not fit in an int32 the Go spec leaves it to the implementation (`outOfRange`). -/
def float64ToInt32 (outOfRange : ℤ) (f : ℚ) : ℤ :=
  let t : ℤ := if 0 ≤ f then ⌊f⌋ else -⌊-f⌋
  if -2147483648 ≤ t ∧ t ≤ 2147483647 then t else outOfRange

/-! ## Rounding to an integer -/

theorem floor_le_roundHalfEven (m : ℚ) : ⌊m⌋ ≤ roundHalfEven m := by
  unfold roundHalfEven; split_ifs <;> omega

theorem roundHalfEven_le (m : ℚ) : (roundHalfEven m : ℚ) ≤ m + 1 / 2 := by
  have h := Int.floor_le m
  unfold roundHalfEven
  split_ifs with h₁ h₂ <;> push_cast <;> linarith

theorem roundHalfEven_zero : roundHalfEven 0 = 0 := by
  simp [roundHalfEven]

theorem roundHalfEven_of_half_lt {m : ℚ} {n : ℤ} (hf : ⌊m⌋ = n) (h : 1 / 2 < m - n) :
    roundHalfEven m = n + 1 := by
  rw [roundHalfEven, hf, if_neg (by linarith), if_pos h]

/-! ## The spacing of float64 values -/

theorem ulp_pos (x : ℚ) : 0 < ulp x := zpow_pos (by norm_num) _

theorem log_two_eq {x : ℚ} {k : ℤ} (h₁ : (2 : ℚ) ^ k ≤ x) (h₂ : x < 2 ^ (k + 1)) :
    Int.log 2 x = k := by
  have hx : 0 < x := lt_of_lt_of_le (zpow_pos (by norm_num) k) h₁
  have hle := (Int.zpow_le_iff_le_log (b := 2) (by norm_num) hx).mp (by exact_mod_cast h₁)
  have hlt := (Int.lt_zpow_iff_log_lt (b := 2) (by norm_num) hx).mp (by exact_mod_cast h₂)
  omega

/-- Below `2^j`, float64 values are at most `2^(j - 53)` apart. -/
theorem ulp_le {x : ℚ} {j : ℤ} (hx : 0 ≤ x) (hj : 1 ≤ j) (hlt : x < 2 ^ j) :
    ulp x ≤ 2 ^ (j - 53) := by
  have hlog : Int.log 2 x ≤ j - 1 := by
    rcases hx.lt_or_eq with hx | rfl
    · have := (Int.lt_zpow_iff_log_lt (b := 2) (by norm_num) hx).mp (by exact_mod_cast hlt)
      omega
    · rw [Int.log_of_right_le_zero _ le_rfl]; omega
  exact zpow_le_zpow_right₀ (by norm_num) (by omega)

/-! ## Rounding to float64 -/

theorem roundFloat64_of_nonneg {x : ℚ} (hx : 0 ≤ x) :
    roundFloat64 x = roundHalfEven (x / ulp x) * ulp x := by
  rw [roundFloat64, if_neg (not_lt.mpr hx)]

theorem roundFloat64_neg (x : ℚ) : roundFloat64 (-x) = -roundFloat64 x := by
  rcases lt_trichotomy x 0 with h | rfl | h
  · rw [roundFloat64_of_nonneg (by linarith), roundFloat64, if_pos h, neg_neg]
  · simp [roundFloat64, roundHalfEven_zero]
  · rw [roundFloat64, if_pos (by linarith), neg_neg, roundFloat64_of_nonneg h.le]

/-- Rounding moves a value by at most half the spacing there. -/
theorem roundFloat64_le {x : ℚ} (hx : 0 ≤ x) : roundFloat64 x ≤ x + ulp x / 2 := by
  have hu := ulp_pos x
  rw [roundFloat64_of_nonneg hx]
  calc (roundHalfEven (x / ulp x) : ℚ) * ulp x ≤ (x / ulp x + 1 / 2) * ulp x :=
        mul_le_mul_of_nonneg_right (roundHalfEven_le _) hu.le
    _ = x + ulp x / 2 := by field_simp; ring

/-- Rounding never goes below an integer below the value, where float64 values are at most
    1 apart: every integer is a float64 value there. -/
theorem le_roundFloat64 {x : ℚ} (hx : 0 ≤ x) {n : ℤ} (hn : (n : ℚ) ≤ x) (hu : ulp x ≤ 1) :
    (n : ℚ) ≤ roundFloat64 x := by
  obtain ⟨k, hk⟩ : ∃ k : ℕ, ulp x = 2 ^ (-(k : ℤ)) := by
    have hle : max (Int.log 2 x - 52) (-1074) ≤ 0 := by
      by_contra h
      have : (1 : ℚ) < ulp x := one_lt_zpow₀ (by norm_num) (by omega)
      linarith
    exact ⟨(-max (Int.log 2 x - 52) (-1074)).toNat, by rw [ulp]; congr 1; omega⟩
  have hmul : ulp x * 2 ^ k = 1 := by
    rw [hk, zpow_neg, zpow_natCast, inv_mul_cancel₀ (by positivity)]
  -- so `n` is the whole number `n * 2^k` of spacings
  have hn' : (n : ℚ) = ((n * 2 ^ k : ℤ) : ℚ) * ulp x := by
    push_cast; rw [mul_assoc, mul_comm (2 ^ k : ℚ), hmul, mul_one]
  have hz : ((n * 2 ^ k : ℤ) : ℚ) ≤ x / ulp x := by
    rw [le_div_iff₀ (ulp_pos x), ← hn']; exact hn
  have hr : n * 2 ^ k ≤ roundHalfEven (x / ulp x) :=
    (Int.le_floor.mpr hz).trans (floor_le_roundHalfEven _)
  rw [roundFloat64_of_nonneg hx, hn']
  exact mul_le_mul_of_nonneg_right (by exact_mod_cast hr) (ulp_pos x).le

/-- `int32(f)` and `int32(-f)` for an `f` between the whole number `a` and `a + 1`. -/
theorem float64ToInt32_of_floor {o : ℤ} {f : ℚ} {a : ℤ} (ha : 0 ≤ a) (ha' : a ≤ 2147483647)
    (h₁ : (a : ℚ) ≤ f) (h₂ : f < a + 1) :
    float64ToInt32 o f = a ∧ float64ToInt32 o (-f) = -a := by
  have hf : 0 ≤ f := (Int.cast_nonneg.mpr ha).trans h₁
  have hfl : ⌊f⌋ = a := Int.floor_eq_iff.mpr ⟨h₁, h₂⟩
  refine ⟨by simp only [float64ToInt32, if_pos hf, hfl]; rw [if_pos (by omega)], ?_⟩
  by_cases hf0 : 0 ≤ -f
  · obtain rfl : a = 0 := by
      have : (a : ℚ) ≤ 0 := by linarith
      exact le_antisymm (by exact_mod_cast this) ha
    simp [float64ToInt32, show f = 0 by linarith]
  · simp only [float64ToInt32, if_neg hf0, neg_neg, hfl]
    rw [if_pos (by omega)]

end Go
end ServiceLayer
