import Portfolio.Proofs.Number.Canonical

/-! # Sums and differences are rounded once

A mantissa that is shifted keeps a round bit and a sticky bit, which stand for what was shifted out
(`Represents`), so half a unit is the most that is rounded away. Numbers of smaller units are
smaller, so the result is the nearest number of all (`nearest_of_half`). The sum and the difference
of two finite numbers are therefore the exact ones after one rounding (`rounds_add`,
`rounds_sub`). -/

namespace Portfolio.Binary64

open Float.Model Float.Model.UnpackedFloat

/-! ## The nearest number -/

/-- No number on the grid is nearer to the first number than the second, which is on it. -/
structure Nearest (q z : ℚ) : Prop where
  onGrid : OnGrid z
  le : ∀ g, OnGrid g → |z - q| ≤ |g - q|

theorem nearest_self {q : ℚ} (h : OnGrid q) : Nearest q q :=
  ⟨h, fun g _ => by rw [sub_self, abs_zero]; exact abs_nonneg _⟩

/-- Of the multiples of a unit one within half a unit is the nearest. -/
theorem abs_sub_le_of_half {n i t : ℤ} {q : ℚ} (hhalf : |n * 2 ^ t - q| ≤ 2 ^ t / 2) :
    |n * 2 ^ t - q| ≤ |i * 2 ^ t - q| := by
  have hunit : (0 : ℚ) < 2 ^ t := zpow_pos two_pos t
  by_cases hi : i = n
  · rw [hi]
  · have hone : (1 : ℚ) ≤ |(i : ℚ) - n| := by
      exact_mod_cast Int.one_le_abs (sub_ne_zero.2 hi)
    have hapart : (2 : ℚ) ^ t ≤ |(i * 2 ^ t - n * 2 ^ t : ℚ)| := by
      rw [← sub_mul, abs_mul, abs_of_pos hunit]
      exact le_mul_of_one_le_left hunit.le hone
    have htriangle := abs_sub_le (i * 2 ^ t : ℚ) q (n * 2 ^ t)
    rw [abs_sub_comm q] at htriangle
    linarith

/-- A multiple of the unit within half a unit is the nearest number, as the numbers of smaller units
are smaller. -/
theorem nearest_of_half {n t : ℤ} {q : ℚ} (hgrid : OnGrid (n * 2 ^ t))
    (hhalf : |n * 2 ^ t - q| ≤ 2 ^ t / 2) (hsize : t = -1074 ∨ 2 ^ (t + 52) ≤ |q|) :
    Nearest q (n * 2 ^ t) := by
  refine ⟨hgrid, ?_⟩
  rintro g ⟨k, j, hk, hj, rfl⟩
  rcases le_or_gt t j with htj | hjt
  · have hmultiple : (k * 2 ^ j : ℚ) = (k * 2 ^ (j - t).toNat : ℤ) * 2 ^ t := by
      rw [Int.cast_mul, Int.cast_pow, Int.cast_ofNat, mul_assoc, ← zpow_natCast,
        Int.toNat_of_nonneg (by omega), ← zpow_add₀ two_ne_zero, Int.sub_add_cancel]
    rw [hmultiple]
    exact abs_sub_le_of_half hhalf
  · have hq := hsize.resolve_left (by omega)
    have hsmall : |(k * 2 ^ j : ℚ)| ≤ 2 ^ (t + 52) := by
      have hplaces : |(k : ℚ)| ≤ 2 ^ (53 : ℤ) := by
        rw [← Int.cast_abs, Int.abs_eq_natAbs]
        exact_mod_cast hk.le
      have hunit : (0 : ℚ) < 2 ^ j := zpow_pos two_pos j
      calc |(k * 2 ^ j : ℚ)| = |(k : ℚ)| * 2 ^ j := by rw [abs_mul, abs_of_pos hunit]
        _ ≤ (2 : ℚ) ^ (53 : ℤ) * 2 ^ j := mul_le_mul_of_nonneg_right hplaces hunit.le
        _ = (2 : ℚ) ^ (53 + j) := (zpow_add₀ two_ne_zero _ _).symm
        _ ≤ 2 ^ (t + 52) := zpow_le_zpow_right₀ one_le_two (by omega)
    -- the multiple of the unit that lies between the two
    have hbound : (2 : ℚ) ^ (t + 52) = (2 ^ 52 : ℤ) * 2 ^ t := by
      rw [zpow_add₀ two_ne_zero, mul_comm]
      norm_num
    rw [hbound] at hq hsmall
    obtain ⟨hlower, hupper⟩ := abs_le.1 hsmall
    rcases le_total 0 q with hpos | hneg
    · rw [abs_of_nonneg hpos] at hq
      refine (abs_sub_le_of_half (i := 2 ^ 52) hhalf).trans ?_
      rw [abs_of_nonpos (by linarith), abs_of_nonpos (by linarith)]
      linarith
    · rw [abs_of_nonpos hneg] at hq
      refine (abs_sub_le_of_half (i := -2 ^ 52) hhalf).trans ?_
      rw [Int.cast_neg, neg_mul, abs_of_nonneg (by linarith), abs_of_nonneg (by linarith)]
      linarith

/-! ## What was shifted out -/

/-- The mantissa with its two further bits stands for the number: the round bit for a half, and the
sticky bit for something less than a half. -/
def Represents (em : ExtendedMantissa) (x : ℚ) : Prop :=
  ∃ rest : ℚ, x = em.mantissa + (if em.roundBit then 1 / 2 else 0) + rest ∧ 0 ≤ rest ∧
    rest < 1 / 2 ∧ (em.stickyBit = true ↔ rest ≠ 0)

theorem represents_exact (m : Nat) :
    Represents (ExtendedMantissa.ofMantissaAndAccuracy m .exact) m :=
  ⟨0, by simp [ExtendedMantissa.ofMantissaAndAccuracy], le_rfl, by norm_num,
    by simp [ExtendedMantissa.ofMantissaAndAccuracy]⟩

theorem Represents.shiftRightOne {em : ExtendedMantissa} {x : ℚ} (h : Represents em x) :
    Represents em.shiftRightOne (x / 2) := by
  obtain ⟨rest, rfl, hpos, hlt, hsticky⟩ := h
  obtain ⟨m, roundBit, stickyBit⟩ := em
  have hm : (m : ℚ) = 2 * (m / 2 : ℕ) + (m % 2 : ℕ) := by exact_mod_cast (Nat.div_add_mod m 2).symm
  refine ⟨((if roundBit then 1 / 2 else 0) + rest) / 2, ?_, ?_, ?_, ?_⟩
  · simp only [ExtendedMantissa.shiftRightOne, hm]
    rcases Nat.mod_two_eq_zero_or_one m with h | h
    · simp [h]
      ring
    · simp [h]
      ring
  · split <;> linarith
  · split <;> linarith
  · simp only [ExtendedMantissa.shiftRightOne, Bool.or_eq_true, hsticky]
    cases roundBit with
    | true => simp; linarith
    | false => simp

theorem Represents.shiftRight {em : ExtendedMantissa} {x : ℚ} (h : Represents em x) (k : Nat) :
    Represents (em >>> k) (x / 2 ^ k) := by
  induction k with
  | zero => rwa [pow_zero, div_one]
  | succ k ih =>
    rw [pow_succ, ← div_div]
    exact ih.shiftRightOne

/-- A half is the most that is rounded away. -/
theorem Represents.abs_roundedMantissa_sub_le {em : ExtendedMantissa} {x : ℚ}
    (h : Represents em x) : |em.roundedMantissa - x| ≤ 1 / 2 := by
  obtain ⟨rest, rfl, hpos, hlt, hsticky⟩ := h
  obtain ⟨m, roundBit, stickyBit⟩ := em
  rw [abs_le]
  cases roundBit with
  | false =>
    have hround : (ExtendedMantissa.mk m false stickyBit).roundedMantissa = m := by
      cases stickyBit <;> rfl
    simp only [hround]
    constructor <;> simp <;> linarith
  | true =>
    cases stickyBit with
    | true =>
      have hround : (ExtendedMantissa.mk m true true).roundedMantissa = m + 1 := rfl
      simp only [hround]
      push_cast
      constructor <;> simp <;> linarith
    | false =>
      have hrest : rest = 0 := by simpa using hsticky
      have hround : (ExtendedMantissa.mk m true false).roundedMantissa = m + m % 2 := rfl
      simp only [hround, hrest]
      rcases Nat.mod_two_eq_zero_or_one m with h | h
      · norm_num [h]
      · norm_num [h]

/-! ## Rounding -/

/-- A rounded mantissa has 53 places or one more, and fewer only where there were fewer. -/
theorem rounded_bounds {r m k : Nat} (hhalf : |(r : ℚ) - m / 2 ^ k| ≤ 1 / 2) :
    (m.log2 < 53 + k → r ≤ 2 ^ 53) ∧ (m ≠ 0 → 52 + k ≤ m.log2 → 2 ^ 52 ≤ r) := by
  have hunit : (0 : ℚ) < 2 ^ k := pow_pos two_pos k
  obtain ⟨hlower, hupper⟩ := abs_le.1 hhalf
  constructor
  · intro hlog
    have hlt : m < 2 ^ (53 + k) :=
      lt_of_lt_of_le Nat.lt_log2_self (Nat.pow_le_pow_right two_pos hlog)
    have hdiv : (m / 2 ^ k : ℚ) < 2 ^ 53 := by
      rw [div_lt_iff₀ hunit, ← pow_add]
      exact_mod_cast hlt
    have hr : (r : ℚ) < 2 ^ 53 + 1 := by linarith
    exact Nat.lt_succ_iff.1 (by exact_mod_cast hr)
  · intro hm hlog
    have hle : 2 ^ (52 + k) ≤ m :=
      le_trans (Nat.pow_le_pow_right two_pos hlog) (Nat.log2_self_le hm)
    have hdiv : (2 ^ 52 : ℚ) ≤ m / 2 ^ k := by
      rw [le_div_iff₀ hunit, ← pow_add]
      exact_mod_cast hle
    have hr : (2 ^ 52 : ℚ) < r + 1 := by linarith
    exact Nat.lt_succ_iff.1 (by exact_mod_cast hr)

/-- A rounded mantissa has one place too many at most, and that is a zero. -/
theorem excess_rounded {r : Nat} {t : Int} (hr : r ≤ 2 ^ 53) (ht : -1074 ≤ t)
    (hplaces : 2 ^ 52 ≤ r ∨ t = -1074) :
    r / 2 ^ excess r t * 2 ^ excess r t = r ∧ r / 2 ^ excess r t < 2 ^ 53 ∧
      (2 ^ 52 ≤ r / 2 ^ excess r t ∨ t + excess r t = -1074) := by
  rcases hr.lt_or_eq with hlt | rfl
  · have hlog := log2_lt_of_lt (by decide) hlt
    have hnone : excess r t = 0 := by
      unfold excess
      omega
    rw [hnone]
    simpa using ⟨hlt, hplaces⟩
  · have hone : excess (2 ^ 53) t = 1 := by
      unfold excess
      rw [Nat.log2_two_pow]
      omega
    rw [hone]
    exact ⟨by decide, by decide, .inl (by decide)⟩

/-- The second shift takes off that zero and changes no number. -/
theorem canonical_shifted (s : Sign) {r : Nat} {t : Int} (hr : r ≤ 2 ^ 53) (ht : -1074 ≤ t)
    (hplaces : 2 ^ 52 ≤ r ∨ t = -1074) :
    let shifted := shiftToTargetExponent .binary64 r t .exact
    let f : UnpackedFloat := if h : shifted.1.mantissa = 0 then .zero s
      else .finite s shifted.1.mantissa shifted.2 (Nat.pos_of_ne_zero h)
    Canonical f ∧ unpackedValue f = scaled s r t := by
  obtain ⟨hexact, hfits, hfull⟩ := excess_rounded hr ht hplaces
  obtain ⟨hmantissa, hexponent⟩ := shiftToTargetExponent_eq r t .exact
  generalize shiftToTargetExponent .binary64 r t .exact = shifted at *
  have hvalue : scaled s shifted.1.mantissa shifted.2 = scaled s r t := by
    rw [hmantissa, hexponent, ← scaled_mul_two_pow, hexact]
  dsimp only
  split
  · next hzero =>
    refine ⟨trivial, ?_⟩
    rw [← hvalue, hzero]
    cases s <;> simp [unpackedValue, scaled, Sign.apply]
  · refine ⟨⟨hmantissa ▸ hfits, ?_, ?_⟩, hvalue⟩
    · omega
    · rwa [hmantissa, hexponent]

/-- A mantissa that was shifted by its excess and rounded is the nearest number. -/
theorem nearest_scaled (s : Sign) {m r : Nat} {e t : Int} (hm : m ≠ 0) (ht : t = e + excess m e)
    (htarget : t = max ((m.log2 : Int) + 1 + e - 53) (-1074))
    (hhalf : |(r : ℚ) - m / 2 ^ excess m e| ≤ 1 / 2) (hgrid : OnGrid (scaled s r t)) :
    Nearest (scaled s m e) (scaled s r t) := by
  have hunit : (0 : ℚ) < 2 ^ t := zpow_pos two_pos t
  refine nearest_of_half hgrid ?_ ?_
  · have hscale : (m : ℚ) * 2 ^ e = m / 2 ^ excess m e * 2 ^ t := by
      rw [ht, zpow_add₀ two_ne_zero, zpow_natCast]
      field_simp
    have habs : |scaled s r t - scaled s m e| ≤ 2 ^ t / 2 := by
      rw [abs_scaled_sub_scaled, hscale, ← sub_mul, abs_mul, abs_of_pos hunit]
      linarith [mul_le_mul_of_nonneg_right hhalf hunit.le]
    exact habs
  · by_cases hmin : t = -1074
    · exact .inl hmin
    · refine .inr ?_
      have hle : (2 : ℚ) ^ (52 + excess m e) ≤ m := by
        exact_mod_cast le_trans (Nat.pow_le_pow_right two_pos (by omega)) (Nat.log2_self_le hm)
      have hplaces : t + 52 = (52 + excess m e : ℕ) + e := by omega
      rw [abs_scaled, hplaces, zpow_add₀ two_ne_zero, zpow_natCast]
      exact mul_le_mul_of_nonneg_right hle (zpow_pos two_pos e).le

/-- Rounding gives the nearest number, in the form in which it is packed. -/
theorem nearest_roundWithAccuracy (s : Sign) {m : Nat} {e : Int} (hm : m ≠ 0)
    (he : e ≤ max ((m.log2 : Int) + 1 + e - 53) (-1074)) :
    Canonical (roundWithAccuracy .binary64 s m e .exact) ∧
      Nearest (scaled s m e) (unpackedValue (roundWithAccuracy .binary64 s m e .exact)) := by
  have hrepresents : Represents (shiftToTargetExponent .binary64 m e .exact).1
      (m / 2 ^ excess m e) := (represents_exact m).shiftRight (excess m e)
  have hexponent : (shiftToTargetExponent .binary64 m e .exact).2 = e + excess m e := rfl
  have htarget : e + excess m e = max ((m.log2 : Int) + 1 + e - 53) (-1074) := by
    unfold excess
    omega
  have hhalf := hrepresents.abs_roundedMantissa_sub_le
  unfold roundWithAccuracy
  generalize shiftToTargetExponent .binary64 m e .exact = first at *
  obtain ⟨em, t⟩ := first
  dsimp only at *
  generalize em.roundedMantissa = r at *
  obtain ⟨hmost, hleast⟩ := rounded_bounds hhalf
  have hplaces : 2 ^ 52 ≤ r ∨ t = -1074 := by
    by_cases ht : t = -1074
    · exact .inr ht
    · exact .inl (hleast hm (by omega))
  obtain ⟨hcanonical, hvalue⟩ := canonical_shifted s (hmost (by omega)) (by omega) hplaces
  refine ⟨hcanonical, ?_⟩
  rw [hvalue]
  exact nearest_scaled s hm hexponent (by omega) hhalf (hvalue ▸ hcanonical.onGrid)

theorem nearest_round (s : Sign) {m : Nat} {e : Int} (hm : m ≠ 0) :
    Canonical (UnpackedFloat.round .binary64 s m e) ∧
      Nearest (scaled s m e) (unpackedValue (UnpackedFloat.round .binary64 s m e)) := by
  have htarget : Format.binary64.targetExponent (totalExponent m e) =
      max ((m.log2 : Int) + 1 + e - 53) (-1074) := rfl
  let k := (e - Format.binary64.targetExponent (totalExponent m e)).toNat
  have hlog := log2_shiftLeft k hm
  have hrounded := nearest_roundWithAccuracy s (m := m <<< k) (e := e - k)
    (by simpa using hm) (by rw [hlog]; push_cast; omega)
  have hvalue : scaled s (m <<< k) (e - k) = scaled s m e := by
    rw [Nat.shiftLeft_eq, scaled_mul_two_pow, Int.sub_add_cancel]
  rw [hvalue] at hrounded
  exact hrounded

theorem nearest_exact {f : UnpackedFloat} {q : ℚ} (hf : Canonical f) (h : unpackedValue f = q) :
    Canonical f ∧ Nearest q (unpackedValue f) :=
  ⟨hf, h ▸ nearest_self hf.onGrid⟩

theorem nearest_normalize (m e : Int) (zeroSign : Sign) :
    Canonical (UnpackedFloat.normalize .binary64 m e zeroSign) ∧
      Nearest (m * 2 ^ e) (unpackedValue (UnpackedFloat.normalize .binary64 m e zeroSign)) := by
  unfold UnpackedFloat.normalize
  split
  · next h =>
    have hlt : m < 0 := Int.compare_eq_lt.1 h
    have hround := nearest_round .negative (m := (-m).toNat) (e := e) (by omega)
    have hm : Sign.negative.apply ((-m).toNat : ℤ) = m := by
      show -(((-m).toNat : ℕ) : ℤ) = m
      omega
    rwa [scaled, hm] at hround
  · next h =>
    refine nearest_exact trivial ?_
    rw [Int.compare_eq_eq.1 h, Int.cast_zero, zero_mul]
    rfl
  · next h =>
    have hgt : 0 < m := Int.compare_eq_gt.1 h
    have hround := nearest_round .positive (m := m.toNat) (e := e) (by omega)
    have hm : Sign.positive.apply (m.toNat : ℤ) = m := by
      show ((m.toNat : ℕ) : ℤ) = m
      omega
    rwa [scaled, hm] at hround

/-! ## Sums and differences -/

/-- A mantissa at the smaller of two exponents. -/
theorem apply_shiftLeft (s : Sign) (m : Nat) {e t : Int} (h : t ≤ e) :
    ((s.apply (m <<< (e - t).toNat : ℕ) : ℤ) : ℚ) * 2 ^ t = scaled s m e := by
  rw [Nat.shiftLeft_eq]
  refine (scaled_mul_two_pow s m (e - t).toNat t).trans ?_
  rw [Int.toNat_of_nonneg (by omega), Int.add_comm, Int.sub_add_cancel]

theorem nearest_add {x y : UnpackedFloat} (hx : Canonical x) (hy : Canonical y) :
    Canonical (UnpackedFloat.add .binary64 x y) ∧ Nearest (unpackedValue x + unpackedValue y)
      (unpackedValue (UnpackedFloat.add .binary64 x y)) := by
  cases x with
  | infinity | notANumber => exact hx.elim
  | zero s =>
    cases y with
    | infinity | notANumber => exact hy.elim
    | zero t =>
      simp only [UnpackedFloat.add]
      split <;> exact nearest_exact trivial (add_zero 0).symm
    | finite => exact nearest_exact hy (zero_add _).symm
  | finite s₁ m₁ e₁ hm₁ =>
    cases y with
    | infinity | notANumber => exact hy.elim
    | zero => exact nearest_exact hx (add_zero _).symm
    | finite s₂ m₂ e₂ hm₂ =>
      have hsum := nearest_normalize (s₁.apply (m₁ <<< (e₁ - min e₁ e₂).toNat : ℕ) +
        s₂.apply (m₂ <<< (e₂ - min e₁ e₂).toNat : ℕ)) (min e₁ e₂) .positive
      rw [Int.cast_add, add_mul, apply_shiftLeft s₁ m₁ (min_le_left _ _),
        apply_shiftLeft s₂ m₂ (min_le_right _ _)] at hsum
      exact hsum

theorem nearest_sub {x y : UnpackedFloat} (hx : Canonical x) (hy : Canonical y) :
    Canonical (UnpackedFloat.sub .binary64 x y) ∧ Nearest (unpackedValue x - unpackedValue y)
      (unpackedValue (UnpackedFloat.sub .binary64 x y)) := by
  cases x with
  | infinity | notANumber => exact hx.elim
  | zero s =>
    cases y with
    | infinity | notANumber => exact hy.elim
    | zero t =>
      simp only [UnpackedFloat.sub]
      split <;> exact nearest_exact trivial (sub_zero 0).symm
    | finite t m e hm =>
      refine nearest_exact (f := .finite (-t) m e hm) hy ?_
      have hneg : (-t).apply m = -t.apply m := by
        cases t with
        | positive => rfl
        | negative => exact (Int.neg_neg _).symm
      rw [unpackedValue, scaled, hneg, Int.cast_neg, neg_mul]
      exact (zero_sub _).symm
  | finite s₁ m₁ e₁ hm₁ =>
    cases y with
    | infinity | notANumber => exact hy.elim
    | zero => exact nearest_exact hx (sub_zero _).symm
    | finite s₂ m₂ e₂ hm₂ =>
      have hsum := nearest_normalize (s₁.apply (m₁ <<< (e₁ - min e₁ e₂).toNat : ℕ) -
        s₂.apply (m₂ <<< (e₂ - min e₁ e₂).toNat : ℕ)) (min e₁ e₂) .positive
      rw [Int.cast_sub, sub_mul, apply_shiftLeft s₁ m₁ (min_le_left _ _),
        apply_shiftLeft s₂ m₂ (min_le_right _ _)] at hsum
      exact hsum

/-! ## Rounded results -/

/-- The float is the exact result after rounding: no finite number is nearer to it, and a float that
is not finite is an infinity, whose exact result is too large by half a unit or more. -/
structure Rounds (q : ℚ) (x : Float) : Prop where
  nearest : isFinite x = true → ∀ y, isFinite y = true → |value x - q| ≤ |value y - q|
  overflow : isFinite x = false → Infinite x ∧ 2 ^ 1024 - 2 ^ 970 ≤ |q|

theorem rounds_value {x : Float} (hx : isFinite x = true) : Rounds (value x) x where
  nearest _ y _ := by
    rw [sub_self, abs_zero]
    exact abs_nonneg _
  overflow h := by
    rw [hx] at h
    cases h

/-- Less than half a unit above the greatest finite number that one is still the nearest. -/
theorem le_abs_of_nearest {q z : ℚ} (h : Nearest q z) (hz : 2 ^ 1024 ≤ |z|) :
    2 ^ 1024 - 2 ^ 970 ≤ |q| := by
  have hgreatest : OnGrid (2 ^ 1024 - 2 * 2 ^ 970) := by
    have hlast : (2 : ℚ) ^ (971 : ℤ) = 2 * 2 ^ 970 := by rw [zpow_ofNat, ← pow_succ']
    have htop : (2 : ℚ) ^ 1024 = 2 ^ 53 * (2 * 2 ^ 970) := by rw [← pow_succ', ← pow_add]
    refine ⟨2 ^ 53 - 1, 971, by decide, by decide, ?_⟩
    rw [htop, hlast]
    generalize (2 : ℚ) ^ 970 = half
    push_cast
    ring
  have hhalf : (0 : ℚ) < 2 ^ 970 := pow_pos two_pos _
  have hpos := h.le _ hgreatest
  have hneg := h.le _ hgreatest.neg
  generalize (2 : ℚ) ^ 1024 = top at *
  generalize (2 : ℚ) ^ 970 = half at *
  by_contra hlt
  obtain ⟨hlower, hupper⟩ := abs_lt.1 (not_le.1 hlt)
  rcases le_abs.1 hz with hz | hz
  · rw [abs_of_pos (by linarith)] at hpos
    rcases abs_cases (top - 2 * half - q) with ⟨heq, -⟩ | ⟨heq, -⟩ <;> linarith
  · rw [abs_of_neg (by linarith)] at hneg
    rcases abs_cases (-(top - 2 * half) - q) with ⟨heq, -⟩ | ⟨heq, -⟩ <;> linarith

theorem rounds_pack {f : UnpackedFloat} {q : ℚ} (hf : Canonical f)
    (hq : Nearest q (unpackedValue f)) : Rounds q (Float.ofModel (Float.Model.pack f)) := by
  have hunpack : (Float.ofModel (Float.Model.pack f)).toModel.unpack =
      UnpackedFloat.unpack .binary64 (UnpackedFloat.pack .binary64 f) := rfl
  generalize Float.ofModel (Float.Model.pack f) = x at *
  rcases unpack_pack_of_canonical hf with hsame | ⟨⟨s, hinfinity⟩, hlarge⟩
  · rw [hsame] at hunpack
    have hfinite : isFinite x = true := isFinite_iff_canonical.2 (hunpack ▸ hf)
    refine ⟨fun _ y hy => ?_, fun hnot => ?_⟩
    · rw [value, hunpack]
      exact hq.le _ (isFinite_iff_canonical.1 hy).onGrid
    · rw [hfinite] at hnot
      cases hnot
  · have hx : Infinite x := ⟨s, hunpack.trans hinfinity⟩
    refine ⟨fun hfinite => ?_, fun _ => ⟨hx, le_abs_of_nearest hq hlarge⟩⟩
    rw [hx.not_isFinite] at hfinite
    cases hfinite

theorem rounds_add {x y : Float} (hx : isFinite x = true) (hy : isFinite y = true) :
    Rounds (value x + value y) (x + y) := by
  obtain ⟨hf, hq⟩ := nearest_add (isFinite_iff_canonical.1 hx) (isFinite_iff_canonical.1 hy)
  exact rounds_pack hf hq

theorem rounds_sub {x y : Float} (hx : isFinite x = true) (hy : isFinite y = true) :
    Rounds (value x - value y) (x - y) := by
  obtain ⟨hf, hq⟩ := nearest_sub (isFinite_iff_canonical.1 hx) (isFinite_iff_canonical.1 hy)
  exact rounds_pack hf hq

end Portfolio.Binary64
