import Mathlib.Data.Int.Log
import Mathlib.Data.Rat.Floor
import Mathlib.Tactic.FieldSimp
import Mathlib.Tactic.Linarith
import Mathlib.Tactic.Positivity
import Mathlib.Tactic.Ring

/-!
# Rounding to binary64

A binary64 number has 53 binary digits.  `binary64 x` is the one nearest to `x`,
and of two that are equally near the one whose last digit is even; `x` is a
number of the normal range, so its exponent is not at stake.

The quotient of two integers is close enough for its ceiling while the dividend
has no more digits than a binary64 number.
-/

namespace ProdkitStorage.Foundation

/-- The integer nearest to a number, the even one of two. -/
def roundHalfEven (x : ℚ) : ℤ :=
  if x - ⌊x⌋ < 1 / 2 then ⌊x⌋
  else if 1 / 2 < x - ⌊x⌋ then ⌊x⌋ + 1
  else if ⌊x⌋ % 2 = 0 then ⌊x⌋ else ⌊x⌋ + 1

/-- The exponent of the last of the 53 digits of a number. -/
def lastExponent (x : ℚ) : ℤ := Int.log 2 |x| - 52

/-- The binary64 number nearest to a number. -/
def binary64 (x : ℚ) : ℚ := roundHalfEven (x / 2 ^ lastExponent x) * 2 ^ lastExponent x

theorem roundHalfEven_intCast (n : ℤ) : roundHalfEven n = n := by
  rw [roundHalfEven, Int.floor_intCast, sub_self, if_pos (by norm_num)]

theorem abs_roundHalfEven_sub_le (x : ℚ) : |(roundHalfEven x : ℚ) - x| ≤ 1 / 2 := by
  have hfloor := Int.floor_le x
  have hlt := Int.lt_floor_add_one x
  rw [abs_le]
  unfold roundHalfEven
  split
  · constructor <;> linarith
  · split
    · push_cast
      constructor <;> linarith
    · split
      · constructor <;> linarith
      · push_cast
        constructor <;> linarith

/-- A number is rounded by at most half a unit of its last digit. -/
theorem abs_binary64_sub_le {x : ℚ} (hx : 0 < x) : |binary64 x - x| ≤ x / 2 ^ 53 := by
  have hunit : (0 : ℚ) < 2 ^ lastExponent x := zpow_pos (by norm_num) _
  have hlog : (2 : ℚ) ^ Int.log 2 x ≤ x := Int.zpow_log_le_self (by norm_num) hx
  have hdigits : (2 : ℚ) ^ lastExponent x * 2 ^ 52 ≤ x := by
    refine le_of_eq_of_le ?_ hlog
    rw [lastExponent, abs_of_pos hx, zpow_sub₀ (by norm_num)]
    norm_num
  have herror : binary64 x - x =
      (roundHalfEven (x / 2 ^ lastExponent x) - x / 2 ^ lastExponent x) * 2 ^ lastExponent x := by
    rw [binary64, sub_mul, div_mul_cancel₀ x hunit.ne']
  calc |binary64 x - x|
      = |(roundHalfEven (x / 2 ^ lastExponent x) : ℚ) - x / 2 ^ lastExponent x| *
          2 ^ lastExponent x := by rw [herror, abs_mul, abs_of_pos hunit]
    _ ≤ 1 / 2 * 2 ^ lastExponent x := by gcongr; exact abs_roundHalfEven_sub_le _
    _ ≤ x / 2 ^ 53 := by linarith

/-- An integer of 53 digits is a binary64 number. -/
theorem binary64_natCast {n : ℕ} (hn : n < 2 ^ 53) : binary64 n = n := by
  have hexponent : lastExponent n ≤ 0 := by
    rw [lastExponent, Nat.abs_cast, Int.log_natCast]
    have hlog : Nat.log 2 n < 53 := by
      rcases Nat.eq_zero_or_pos n with rfl | hpos
      · norm_num
      · exact (Nat.log_lt_iff_lt_pow (by norm_num) hpos.ne').mpr hn
    omega
  obtain ⟨k, hk⟩ := Int.eq_ofNat_of_zero_le (neg_nonneg.mpr hexponent)
  have hscaled : (n : ℚ) / 2 ^ lastExponent n = ((n * 2 ^ k : ℕ) : ℤ) := by
    rw [div_eq_mul_inv, ← zpow_neg, hk, zpow_natCast]
    push_cast
    rfl
  rw [binary64, hscaled, roundHalfEven_intCast, ← hscaled, div_mul_cancel₀]
  exact (zpow_pos (by norm_num) _).ne'

/-- The ceiling of a rounded quotient is that of the quotient. -/
theorem ceil_binary64_div {n d : ℕ} (hn : n < 2 ^ 53) (hd : 0 < d) :
    ⌈binary64 ((n : ℚ) / d)⌉ = (((n + d - 1) / d : ℕ) : ℤ) := by
  have hpos : (0 : ℚ) < d := by exact_mod_cast hd
  obtain ⟨m, r, hr, rfl⟩ : ∃ m r, r < d ∧ n = d * m + r :=
    ⟨n / d, n % d, Nat.mod_lt n hd, (Nat.div_add_mod n d).symm⟩
  have hquotient : ((d * m + r : ℕ) : ℚ) / d = m + r / d := by
    push_cast
    field_simp
  rcases Nat.eq_zero_or_pos r with rfl | hrest
  · -- A multiple of the divisor: the quotient is an integer and keeps its digits.
    have hm : m < 2 ^ 53 := lt_of_le_of_lt (Nat.le_mul_of_pos_left m hd) hn
    have hceil : (d * m + 0 + d - 1) / d = m := by
      rw [add_zero, Nat.add_sub_assoc hd, Nat.mul_add_div hd, Nat.div_eq_of_lt (by omega), add_zero]
    rw [hquotient, hceil, Nat.cast_zero, zero_div, add_zero, binary64_natCast hm, Int.ceil_natCast]
  · -- The quotient is at least `1 / d` away from the integers next to it, the error is smaller.
    have hceil : (d * m + r + d - 1) / d = m + 1 := by
      have hsplit : d * m + r + d - 1 = d * (m + 1) + (r - 1) := by
        rw [Nat.mul_add]
        omega
      rw [hsplit, Nat.mul_add_div hd, Nat.div_eq_of_lt (by omega), add_zero]
    have hx : (0 : ℚ) < ((d * m + r : ℕ) : ℚ) / d := div_pos (by exact_mod_cast (by omega)) hpos
    have herror : |binary64 (((d * m + r : ℕ) : ℚ) / d) - ((d * m + r : ℕ) : ℚ) / d| < 1 / d := by
      refine lt_of_le_of_lt (abs_binary64_sub_le hx) ?_
      rw [div_right_comm]
      refine div_lt_div_of_pos_right ?_ hpos
      rw [div_lt_one (by norm_num)]
      exact_mod_cast hn
    have hlow : (1 : ℚ) / d ≤ r / d := by
      gcongr
      exact_mod_cast hrest
    have hhigh : (r : ℚ) / d + 1 / d ≤ 1 := by
      rw [← add_div, div_le_one hpos]
      exact_mod_cast hr
    rw [hceil, Int.ceil_eq_iff]
    rw [hquotient] at herror ⊢
    obtain ⟨hleft, hright⟩ := abs_lt.mp herror
    push_cast
    constructor <;> linarith

end ProdkitStorage.Foundation
