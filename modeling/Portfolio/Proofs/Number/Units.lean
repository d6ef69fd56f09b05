import Portfolio.Proofs.Number.Canonical

/-! # Whole units of a number

Finite numbers are in the order of what they stand for (`Binary64.lt_iff_value_lt`): of two packed
in the one form, that with the greater exponent is the greater. The count of units of a number is
the natural number nearest to it, which is the only one (`Binary64.nearestNat_units`,
`Binary64.NearestNat.eq`). -/

namespace Portfolio.Binary64

open Float.Model Float.Model.UnpackedFloat

/-! ## The order -/

section
variable {m n : Nat} {e t : Int}

/-- With 53 places, a number at a greater exponent is the greater. -/
theorem magnitude_lt (hm : m < 2 ^ 53) (he : -1074 ≤ e) (hn : 2 ^ 52 ≤ n ∨ t = -1074)
    (h : e < t) : (m * 2 ^ e : ℚ) < n * 2 ^ t := by
  have hplaces : (2 ^ 52 : ℚ) ≤ n := by exact_mod_cast hn.resolve_right (by omega)
  have hm : (m : ℚ) < 2 ^ 53 := by exact_mod_cast hm
  have hunit : (0 : ℚ) < 2 ^ e := zpow_pos two_pos e
  calc (m * 2 ^ e : ℚ) < 2 ^ 53 * 2 ^ e := mul_lt_mul_of_pos_right hm hunit
    _ = 2 ^ 52 * 2 ^ (e + 1) := by rw [zpow_add_one₀ two_ne_zero]; ring
    _ ≤ n * 2 ^ t :=
      mul_le_mul hplaces (zpow_le_zpow_right₀ one_le_two h) (by positivity) (by positivity)

/-- Magnitudes are compared by their exponents first and by their mantissas next. -/
theorem compare_magnitudes (hm : m < 2 ^ 53 ∧ -1074 ≤ e ∧ (2 ^ 52 ≤ m ∨ e = -1074))
    (hn : n < 2 ^ 53 ∧ -1074 ≤ t ∧ (2 ^ 52 ≤ n ∨ t = -1074)) :
    (compare e t).then (compare m n) = compare (m * 2 ^ e : ℚ) (n * 2 ^ t) := by
  rcases lt_trichotomy e t with h | rfl | h
  · rw [Int.compare_eq_lt.2 h, compare_lt_iff_lt.2 (magnitude_lt hm.1 hm.2.1 hn.2.2 h)]
    rfl
  · have hunit : (0 : ℚ) < 2 ^ e := zpow_pos two_pos e
    rw [Int.compare_eq_eq.2 rfl]
    rcases lt_trichotomy m n with h | rfl | h
    · have hlt : (m * 2 ^ e : ℚ) < n * 2 ^ e :=
        mul_lt_mul_of_pos_right (by exact_mod_cast h) hunit
      rw [Nat.compare_eq_lt.2 h, compare_lt_iff_lt.2 hlt]
      rfl
    · rw [Nat.compare_eq_eq.2 rfl, compare_eq_iff_eq.2 rfl]
      rfl
    · have hlt : (n * 2 ^ e : ℚ) < m * 2 ^ e :=
        mul_lt_mul_of_pos_right (by exact_mod_cast h) hunit
      rw [Nat.compare_eq_gt.2 h, compare_gt_iff_gt.2 hlt]
      rfl
  · rw [Int.compare_eq_gt.2 h, compare_gt_iff_gt.2 (magnitude_lt hn.1 hn.2.1 hm.2.2 h)]
    rfl

end

theorem scaled_positive (m : Nat) (e : Int) : scaled .positive m e = m * 2 ^ e := rfl

theorem scaled_negative (m : Nat) (e : Int) : scaled .negative m e = -(m * 2 ^ e) := by
  simp [scaled, Sign.apply]

/-- Signs are compared before magnitudes, and a zero is between the numbers of either sign. -/
theorem lt_iff_of_canonical {f g : UnpackedFloat} (hf : Canonical f) (hg : Canonical g) :
    f.lt g = true ↔ unpackedValue f < unpackedValue g := by
  have hpos {m : Nat} (e : Int) (hm : 0 < m) : (0 : ℚ) < m * 2 ^ e :=
    mul_pos (by exact_mod_cast hm) (zpow_pos two_pos e)
  have hlt (o : Ordering) : (some o == some Ordering.lt) = true ↔ o = .lt := by
    cases o <;> decide
  cases f with
  | infinity | notANumber => exact hf.elim
  | zero s =>
    cases g with
    | infinity | notANumber => exact hg.elim
    | zero t => exact iff_of_false Bool.false_ne_true (lt_irrefl _)
    | finite t n j hn =>
      have hright := hpos j hn
      simp only [unpackedValue]
      cases t with
      | positive => exact iff_of_true rfl hright
      | negative =>
        rw [scaled_negative]
        exact iff_of_false Bool.false_ne_true (by linarith)
  | finite s m e hm =>
    have hleft := hpos e hm
    cases g with
    | infinity | notANumber => exact hg.elim
    | zero t =>
      simp only [unpackedValue]
      cases s with
      | positive =>
        rw [scaled_positive]
        exact iff_of_false Bool.false_ne_true (by linarith)
      | negative =>
        rw [scaled_negative]
        exact iff_of_true rfl (by linarith)
    | finite t n j hn =>
      have hright := hpos j hn
      have hcompare := compare_magnitudes hf hg
      simp only [unpackedValue]
      cases s with
      | positive =>
        cases t with
        | positive =>
          refine (hlt _).trans ?_
          rw [hcompare, scaled_positive, scaled_positive, compare_lt_iff_lt]
        | negative =>
          rw [scaled_positive, scaled_negative]
          exact iff_of_false Bool.false_ne_true (by linarith)
      | negative =>
        cases t with
        | positive =>
          rw [scaled_positive, scaled_negative]
          exact iff_of_true rfl (by linarith)
        | negative =>
          refine (hlt _).trans ?_
          rw [hcompare, scaled_negative, scaled_negative, Ordering.swap_eq_lt, compare_gt_iff_gt,
            neg_lt_neg_iff]

/-- Finite numbers are in the order of what they stand for. -/
theorem lt_iff_value_lt {x y : Float} (hx : isFinite x = true) (hy : isFinite y = true) :
    x < y ↔ value x < value y := by
  have hlt : x < y ↔ x.toModel.unpack.lt y.toModel.unpack = true := decide_eq_true_iff
  rw [hlt, lt_iff_of_canonical (isFinite_iff_canonical.1 hx) (isFinite_iff_canonical.1 hy)]
  rfl

/-! ## The parts of a number -/

theorem fractionBits_eq (x : Float) :
    fractionBits x = (@unpackMantissa .binary64 x.toModel.toBits.toBitVec).toNat := by
  rw [unpackMantissa_def, BitVec.extractLsb'_toNat, Nat.shiftRight_zero]
  rfl

theorem abs_unpackedValue_packComponents (s : Sign) {e : BitVec 11} (m : BitVec 52)
    (hmax : e ≠ -1#11) :
    |unpackedValue (UnpackedFloat.unpack .binary64 (packComponents .binary64 s e m))| =
      if e.toNat = 0 then (m.toNat : ℚ) * 2 ^ (-1074 : ℤ)
      else ((m.toNat + Word.count 52 : ℕ) : ℚ) * 2 ^ ((e.toNat : ℤ) - 1075) := by
  simp only [UnpackedFloat.unpack, unpackExponent_packComponents, unpackMantissa_packComponents]
  rw [if_neg hmax]
  split
  · next hzero =>
    have hzero : e.toNat = 0 := by simp [hzero]
    rw [if_pos hzero]
    split
    · next hm => simp [unpackedValue, hm]
    · rw [unpackedValue, abs_scaled, hzero]
      rfl
  · next hnormal =>
    have hne : e.toNat ≠ 0 := fun h => hnormal (BitVec.eq_of_toNat_eq h)
    have hmantissa : (1#1 ++ m).toNat = m.toNat + Word.count 52 :=
      (toNat_one_append m).trans (Nat.add_comm ..)
    rw [if_neg hne, unpackedValue, abs_scaled, hmantissa]
    rfl

/-- The magnitude that the parts of a finite number are taken for. -/
theorem abs_value_eq {x : Float} (hx : isFinite x = true) :
    |value x| = (parts x).mantissa * 2 ^ (parts x).exponent := by
  have hfinite : @unpackExponent .binary64 x.toModel.toBits.toBitVec ≠ -1#11 := by
    intro h
    rw [isFinite, exponentBits_eq, h] at hx
    exact absurd hx (by decide)
  have hpattern := @packComponents_unpackSign_unpackExponent_unpackMantissa .binary64
    x.toModel.toBits.toBitVec
  show |unpackedValue (UnpackedFloat.unpack .binary64 x.toModel.toBits.toBitVec)| = _
  rw [← hpattern, abs_unpackedValue_packComponents _ _ hfinite, parts, exponentBits_eq,
    fractionBits_eq]
  split <;> rfl

/-! ## The nearest natural number -/

/-- A natural number within half a unit, and the even one if two are. -/
structure NearestNat (q : ℚ) (n : Nat) : Prop where
  le : |q - n| ≤ 1 / 2
  even : |q - n| = 1 / 2 → n % 2 = 0

/-- There is one nearest natural number. -/
theorem NearestNat.eq {q : ℚ} {m n : Nat} (hm : NearestNat q m) (hn : NearestNat q n) : m = n := by
  by_contra hne
  wlog hlt : m < n generalizing m n
  · exact this hn hm (Ne.symm hne) (by omega)
  -- both are half a unit away, so they are neighbours and both even
  obtain ⟨-, hupper⟩ := abs_le.1 hm.le
  obtain ⟨hlower, -⟩ := abs_le.1 hn.le
  have hle : (m : ℚ) + 1 ≤ n := by exact_mod_cast hlt
  have hm' : q - m = 1 / 2 := by linarith
  have hn' : q - n = -(1 / 2) := by linarith
  have hnext : (n : ℚ) = m + 1 := by linarith
  have hnext : n = m + 1 := by exact_mod_cast hnext
  have hevenm := hm.even (by rw [hm']; norm_num)
  have hevenn := hn.even (by rw [hn']; norm_num)
  omega

theorem nearestNat_natCast (n : Nat) : NearestNat n n := by
  constructor <;> norm_num

/-- A quotient is its whole part and what the remainder is of the divisor. -/
theorem natCast_div_eq (n : Nat) {d : Nat} (hd : 0 < d) :
    (n / d : ℚ) = (n / d : ℕ) + (n % d : ℕ) / d := by
  have hd : (d : ℚ) ≠ 0 := by exact_mod_cast hd.ne'
  have hdiv : (n : ℚ) = d * (n / d : ℕ) + (n % d : ℕ) := by
    exact_mod_cast (Nat.div_add_mod n d).symm
  field_simp
  exact hdiv

theorem nearestNat_divHalfEven (n : Nat) {d : Nat} (hd : 0 < d) :
    NearestNat (n / d) (divHalfEven n d) := by
  have hd' : (0 : ℚ) < d := by exact_mod_cast hd
  have hrest : (0 : ℚ) ≤ (n % d : ℕ) / d := by positivity
  have hone : ((n % d : ℕ) : ℚ) / d < 1 := by
    rw [div_lt_one hd']
    exact_mod_cast Nat.mod_lt n hd
  rw [natCast_div_eq n hd]
  unfold divHalfEven half
  rcases Nat.lt_trichotomy (2 * (n % d)) d with hlt | heq | hgt
  · have hhalf : ((n % d : ℕ) : ℚ) / d < 1 / 2 := by
      have hlt : 2 * ((n % d : ℕ) : ℚ) < d := by exact_mod_cast hlt
      rw [div_lt_iff₀ hd']
      linarith
    rw [Nat.compare_eq_lt.2 hlt]
    have habs : |((n / d : ℕ) : ℚ) + (n % d : ℕ) / d - (n / d : ℕ)| < 1 / 2 := by
      rwa [add_sub_cancel_left, abs_of_nonneg hrest]
    exact ⟨habs.le, fun h => absurd h habs.ne⟩
  · have hhalf : ((n % d : ℕ) : ℚ) / d = 1 / 2 := by
      have heq : 2 * ((n % d : ℕ) : ℚ) = d := by exact_mod_cast heq
      rw [div_eq_iff hd'.ne']
      linarith
    rw [Nat.compare_eq_eq.2 heq, hhalf]
    dsimp only
    split
    · next heven => exact ⟨by norm_num, fun _ => heven⟩
    · next hodd =>
      refine ⟨?_, fun _ => by omega⟩
      push_cast
      rw [add_sub_add_left_eq_sub]
      norm_num
  · have hhalf : 1 / 2 < ((n % d : ℕ) : ℚ) / d := by
      have hgt : (d : ℚ) < 2 * ((n % d : ℕ) : ℚ) := by exact_mod_cast hgt
      rw [lt_div_iff₀ hd']
      linarith
    rw [Nat.compare_eq_gt.2 hgt]
    have habs : |((n / d : ℕ) : ℚ) + (n % d : ℕ) / d - (n / d + 1 : ℕ)| < 1 / 2 := by
      push_cast
      rw [add_sub_add_left_eq_sub, abs_of_neg (by linarith)]
      linarith
    exact ⟨habs.le, fun h => absurd h habs.ne⟩

theorem nearestNat_units {x : Float} (hx : isFinite x = true) (perOne : Nat) :
    NearestNat (|value x| * perOne) (units x perOne) := by
  rw [abs_value_eq hx]
  unfold units
  extract_lets p
  split
  · next hpos =>
    have hwhole : (p.mantissa * 2 ^ p.exponent * perOne : ℚ) =
        (p.mantissa * Nat.pow 2 p.exponent.toNat * perOne : ℕ) := by
      have hpower : (2 : ℚ) ^ p.exponent = (2 ^ p.exponent.toNat : ℕ) := by
        rw [Nat.cast_pow, Nat.cast_ofNat, ← zpow_natCast, Int.toNat_of_nonneg hpos]
      rw [hpower, ← Nat.cast_mul, ← Nat.cast_mul]
      rfl
    rw [hwhole]
    exact nearestNat_natCast _
  · next hneg =>
    have hquotient : (p.mantissa * 2 ^ p.exponent * perOne : ℚ) =
        (p.mantissa * perOne : ℕ) / (Nat.pow 2 (-p.exponent).toNat : ℕ) := by
      have hpower : (2 : ℚ) ^ p.exponent = ((2 ^ (-p.exponent).toNat : ℕ) : ℚ)⁻¹ := by
        rw [Nat.cast_pow, Nat.cast_ofNat, ← zpow_natCast, Int.toNat_of_nonneg (by omega),
          zpow_neg, inv_inv]
      rw [hpower, mul_right_comm, ← Nat.cast_mul, ← div_eq_mul_inv]
      rfl
    rw [hquotient]
    exact nearestNat_divHalfEven _ (Nat.pow_pos (by decide))

/-! ## The size of a count -/

theorem divHalfEven_le (n d : Nat) : divHalfEven n d ≤ n / d + 1 := by
  unfold divHalfEven
  split
  · exact Nat.le_succ _
  · split
    · exact Nat.le_succ _
    · exact Nat.le_refl _
  · exact Nat.le_refl _

/-- A count of units is as far below a power of two as its number is, if the power has room for
every mantissa: what has a fraction is rounded up by less than it lacks. -/
theorem units_lt {x : Float} (hx : isFinite x = true) {k perOne : Nat} (hk : 53 ≤ k)
    (hunit : 0 < perOne) (h : |value x| < 2 ^ k) : units x perOne < 2 ^ k * perOne := by
  rw [abs_value_eq hx] at h
  have hm := mantissa_parts_lt x
  unfold units
  extract_lets p
  split
  · next hpos =>
    have hpower : (2 : ℚ) ^ p.exponent = (2 ^ p.exponent.toNat : ℕ) := by
      rw [Nat.cast_pow, Nat.cast_ofNat, ← zpow_natCast, Int.toNat_of_nonneg hpos]
    rw [hpower, ← Nat.cast_mul] at h
    exact Nat.mul_lt_mul_of_pos_right (by exact_mod_cast h) hunit
  · next hneg =>
    have hdivisor : 2 ≤ Nat.pow 2 (-p.exponent).toNat :=
      Nat.le_self_pow (by omega) 2
    have hhalf : p.mantissa * perOne / Nat.pow 2 (-p.exponent).toNat ≤ p.mantissa * perOne / 2 :=
      Nat.div_le_div_left hdivisor (by decide)
    have hlt : p.mantissa * perOne < 2 ^ k * perOne :=
      Nat.mul_lt_mul_of_pos_right (hm.trans_le (Nat.pow_le_pow_right (by decide) hk)) hunit
    have hle := divHalfEven_le (p.mantissa * perOne) (Nat.pow 2 (-p.exponent).toNat)
    have htwo : 2 ≤ 2 ^ k * perOne :=
      (Nat.le_self_pow (by omega) 2).trans (Nat.le_mul_of_pos_right _ hunit)
    omega

end Portfolio.Binary64
