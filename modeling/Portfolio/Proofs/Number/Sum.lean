import Mathlib.Algebra.Order.Field.Rat
import Mathlib.Tactic.FieldSimp
import Mathlib.Tactic.Linarith
import Mathlib.Tactic.Positivity
import Portfolio.Number.Decimal

/-! # Sums that are too large

The sum of two decimals is missing exactly where its size rounds to `2 ^ 96` or more without
places, a half included (`Decimal.add?_eq_none_iff`). -/

namespace Portfolio

namespace Binary64

/-- A number of halves is at most twice a number exactly where the quotient is large enough, or
one too small with a remainder of a half or more. -/
theorem odd_mul_le_iff {n m d : Nat} (hd : 0 < d) (hn : 0 < n) :
    (2 * n - 1) * d ≤ 2 * m ↔ n ≤ m / d ∨ m / d + 1 = n ∧ d ≤ 2 * (m % d) := by
  have hdiv := Nat.div_add_mod m d
  have hmod := Nat.mod_lt m hd
  generalize m / d = q at hdiv ⊢
  generalize m % d = r at hdiv hmod ⊢
  rcases Nat.lt_trichotomy (q + 1) n with hlt | heq | hgt
  · have hmul : (2 * q + 3) * d ≤ (2 * n - 1) * d := Nat.mul_le_mul_right d (by omega)
    rw [Nat.add_mul, Nat.mul_assoc, Nat.mul_comm q d] at hmul
    omega
  · have hmul : (2 * n - 1) * d = 2 * (d * q) + d := by
      rw [show 2 * n - 1 = 2 * q + 1 by omega, Nat.add_mul, Nat.mul_assoc, Nat.mul_comm q d,
        Nat.one_mul]
    omega
  · have hmul : (2 * n - 1) * d ≤ 2 * q * d := Nat.mul_le_mul_right d (by omega)
    rw [Nat.mul_assoc, Nat.mul_comm q d] at hmul
    omega

/-- The quotient rounds to an even number or more where it is half a unit below it or more. -/
theorem le_divHalfEven_iff {n m d : Nat} (hd : 0 < d) (heven : n % 2 = 0) (hn : 0 < n) :
    n ≤ divHalfEven m d ↔ (2 * n - 1) * d ≤ 2 * m := by
  rw [odd_mul_le_iff hd hn]
  unfold divHalfEven half
  rcases Nat.lt_trichotomy (2 * (m % d)) d with hlt | heq | hgt
  · rw [Nat.compare_eq_lt.2 hlt]
    simp only
    omega
  · -- one below an even number the quotient is odd, so a half goes up
    rw [Nat.compare_eq_eq.2 heq]
    simp only
    split <;> omega
  · rw [Nat.compare_eq_gt.2 hgt]
    simp only
    omega

end Binary64

namespace Decimal

theorem ofParts?_eq_none_iff {negative : Bool} {mantissa scale : Nat} (hscale : scale ≤ 28) :
    ofParts? negative mantissa scale = none ↔ Word.count 96 ≤ mantissa := by
  unfold ofParts?
  split <;> simp <;> omega

/-- However many places there are to lose, a number fits unless its whole part does not. -/
theorem fit?_eq_none_iff {negative : Bool} {mantissa scale : Nat} (hscale : scale ≤ 28)
    (dropped : Nat) :
    fit? negative mantissa scale dropped = none ↔
      (2 * Word.count 96 - 1) * 10 ^ (scale + dropped) ≤ 2 * mantissa := by
  induction scale generalizing dropped with
  | zero =>
    rw [fit?, ofParts?_eq_none_iff hscale, Nat.zero_add]
    exact Binary64.le_divHalfEven_iff (Nat.pow_pos (by decide)) (by decide) (by decide)
  | succ scale ih =>
    have hrest := ih (by omega) (dropped + 1)
    rw [show scale + (dropped + 1) = scale + 1 + dropped by omega] at hrest
    rw [fit?]
    split
    · exact hrest
    · next hsmall =>
      split
      · -- with a place left over the number is far below the bound
        simp only [reduceCtorEq, false_iff, Nat.not_le]
        have hlt : mantissa < Word.count 96 * 10 ^ dropped :=
          (Nat.div_lt_iff_lt_mul (Nat.pow_pos (by decide))).1 (Nat.not_le.1 hsmall)
        have hplace : 10 * 10 ^ dropped ≤ 10 ^ (scale + 1 + dropped) := by
          rw [← Nat.pow_succ']
          exact Nat.pow_le_pow_right (by decide) (by omega)
        have hbound := Nat.mul_le_mul_left (2 * Word.count 96 - 1) hplace
        rw [show Word.count 96 = 79228162514264337593543950336 by decide] at *
        omega
      · exact hrest

/-! ## The number that a decimal stands for -/

/-- The number that a decimal stands for. -/
def value (d : Decimal) : ℚ :=
  (if d.negative then -1 else 1) * d.mantissa / 10 ^ d.scale

/-- At a larger scale the mantissa stands for the same number. -/
theorem aligned_eq {d : Decimal} {scale : Nat} (h : d.scale ≤ scale) :
    (d.aligned scale : ℚ) = d.value * 10 ^ scale := by
  obtain ⟨more, rfl⟩ := Nat.exists_eq_add_of_le h
  unfold aligned value
  rw [Nat.add_sub_cancel_left, show Nat.pow 10 more = 10 ^ more from rfl, pow_add]
  split <;> push_cast <;> field_simp

theorem abs_value_lt (d : Decimal) : |d.value| < 2 ^ 96 - 1 / 2 := by
  have hmantissa : (d.mantissa : ℚ) ≤ 2 ^ 96 - 1 := by
    have := d.mantissa_lt
    have hcount : Word.count 96 = 2 ^ 96 := by decide
    have : (d.mantissa : ℚ) + 1 ≤ 2 ^ 96 := by exact_mod_cast (by omega : d.mantissa + 1 ≤ 2 ^ 96)
    linarith
  have habs : |d.value| = d.mantissa / 10 ^ d.scale := by
    unfold value
    rw [abs_div, abs_mul, abs_pow, Nat.abs_cast]
    split <;> norm_num
  have hunit : (1 : ℚ) ≤ 10 ^ d.scale := one_le_pow₀ (by norm_num)
  rw [habs]
  have hle : (d.mantissa : ℚ) / 10 ^ d.scale ≤ d.mantissa := div_le_self (by positivity) hunit
  linarith

/-- Two decimals have no sum exactly where the size of their sum is `2 ^ 96 - 1 / 2` or more. -/
theorem add?_eq_none_iff (a b : Decimal) :
    a.add? b = none ↔ (2 : ℚ) ^ 96 - 1 / 2 ≤ |a.value + b.value| := by
  unfold add?
  by_cases ha : a.mantissa = 0
  · have hvalue : a.value = 0 := by simp [value, ha]
    rw [if_pos ha, hvalue, zero_add]
    simp only [reduceCtorEq, false_iff, not_le]
    exact b.abs_value_lt
  by_cases hb : b.mantissa = 0
  · have hvalue : b.value = 0 := by simp [value, hb]
    rw [if_neg ha, if_pos hb, hvalue, add_zero]
    simp only [reduceCtorEq, false_iff, not_le]
    exact a.abs_value_lt
  rw [if_neg ha, if_neg hb]
  simp only
  generalize hscale : max a.scale b.scale = scale
  have hle : scale ≤ 28 := by
    have := a.scale_le
    have := b.scale_le
    omega
  rw [fit?_eq_none_iff hle, Nat.add_zero]
  have hsum : ((a.aligned scale + b.aligned scale).natAbs : ℚ) =
      |a.value + b.value| * 10 ^ scale := by
    rw [Nat.cast_natAbs, Int.cast_abs, Int.cast_add, aligned_eq (by omega), aligned_eq (by omega),
      ← add_mul, abs_mul, abs_of_pos (by positivity : (0 : ℚ) < 10 ^ scale)]
  have hunit : (0 : ℚ) < 10 ^ scale := by positivity
  rw [← Nat.cast_le (α := ℚ), Nat.cast_mul, Nat.cast_mul, hsum,
    show 2 * Word.count 96 - 1 = 2 ^ 97 - 1 by decide]
  push_cast
  constructor
  · intro h
    have h : (2 ^ 97 - 1) / 2 * (10 : ℚ) ^ scale ≤ |a.value + b.value| * 10 ^ scale := by linarith
    have := le_of_mul_le_mul_right h hunit
    linarith
  · intro h
    have := mul_le_mul_of_nonneg_right h hunit.le
    linarith

end Decimal

end Portfolio
