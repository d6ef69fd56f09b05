import Portfolio.Proofs.Number.Overflow

/-! # What binary64 numbers stand for

A finite number is packed in one form, with 53 places or at the least exponent (`Canonical`), and
stands for a rational number on a grid (`OnGrid`). Packing a number in that form gives it back, or
an infinity where it is too large (`unpack_pack_of_canonical`). -/

namespace Portfolio.Binary64

open Float.Model Float.Model.UnpackedFloat

/-! ## Values -/

/-- A mantissa with a sign, at an exponent. -/
def scaled (s : Sign) (m : Nat) (e : Int) : ℚ :=
  (s.apply m : ℤ) * 2 ^ e

/-- The number that an unpacked number stands for, zero for one that stands for none. -/
def unpackedValue : UnpackedFloat → ℚ
  | .finite s m e _ => scaled s m e
  | .zero _ | .infinity _ | .notANumber => 0

/-- The number that a finite binary64 number stands for. -/
def value (x : Float) : ℚ :=
  unpackedValue x.toModel.unpack

theorem abs_scaled (s : Sign) (m : Nat) (e : Int) : |scaled s m e| = m * 2 ^ e := by
  have hsign : |((s.apply m : ℤ) : ℚ)| = m := by
    rw [← Int.cast_abs, Int.abs_eq_natAbs, natAbs_apply, Int.cast_natCast]
  rw [scaled, abs_mul, hsign, abs_of_pos (zpow_pos two_pos e)]

/-- Two numbers of one sign are as far apart as their magnitudes. -/
theorem abs_scaled_sub_scaled (s : Sign) (m n : Nat) (e t : Int) :
    |scaled s m e - scaled s n t| = |(m * 2 ^ e - n * 2 ^ t : ℚ)| := by
  cases s with
  | positive => rfl
  | negative =>
    simp only [scaled, Sign.apply, Int.cast_neg, Int.cast_natCast, neg_mul]
    rw [neg_sub_neg, abs_sub_comm]

/-- At a smaller exponent the mantissa has that many places more. -/
theorem scaled_mul_two_pow (s : Sign) (m k : Nat) (t : Int) :
    scaled s (m * 2 ^ k) t = scaled s m (t + k) := by
  unfold scaled
  rw [zpow_add₀ two_ne_zero, zpow_natCast]
  cases s <;> push_cast [Sign.apply] <;> ring

/-! ## The grid -/

/-- A number of 53 places, none of them below the least one, and of any size. -/
def OnGrid (q : ℚ) : Prop :=
  ∃ n e : ℤ, n.natAbs < 2 ^ 53 ∧ -1074 ≤ e ∧ q = n * 2 ^ e

theorem OnGrid.neg {q : ℚ} (h : OnGrid q) : OnGrid (-q) := by
  obtain ⟨n, e, hn, he, rfl⟩ := h
  exact ⟨-n, e, by rwa [Int.natAbs_neg], he, by rw [Int.cast_neg, neg_mul]⟩

/-- The form in which numbers are packed: of 53 places, or at the least exponent. -/
def Canonical : UnpackedFloat → Prop
  | .zero _ => True
  | .finite _ m e _ => m < 2 ^ 53 ∧ -1074 ≤ e ∧ (2 ^ 52 ≤ m ∨ e = -1074)
  | .infinity _ | .notANumber => False

theorem Canonical.onGrid {f : UnpackedFloat} (h : Canonical f) : OnGrid (unpackedValue f) := by
  cases f with
  | infinity | notANumber => exact h.elim
  | zero s => exact ⟨0, 0, by decide, by decide, by simp [unpackedValue]⟩
  | finite s m e hm => exact ⟨s.apply m, e, by rw [natAbs_apply]; exact h.1, h.2.1, rfl⟩

/-! ## Unpacking -/

theorem toNat_one_append (m : BitVec 52) : (1#1 ++ m).toNat = 2 ^ 52 + m.toNat := by
  rw [BitVec.toNat_append, ← Nat.shiftLeft_add_eq_or_of_lt m.isLt]
  rfl

theorem canonical_unpack_packComponents (s : Sign) {e : BitVec 11} (m : BitVec 52)
    (hmax : e ≠ -1#11) :
    Canonical (UnpackedFloat.unpack .binary64 (packComponents .binary64 s e m)) := by
  simp only [UnpackedFloat.unpack, unpackExponent_packComponents, unpackMantissa_packComponents]
  rw [if_neg hmax]
  have hm : m.toNat < 2 ^ 52 := m.isLt
  split
  · next h0 =>
    have hzero : e.toNat = 0 := by simp [h0]
    split
    · trivial
    · simp only [Canonical, Format.exponentBias, hzero]
      omega
  · next h0 =>
    have hpos : e.toNat ≠ 0 := fun h => h0 (BitVec.eq_of_toNat_eq (by simpa using h))
    simp only [Canonical, Format.exponentBias, toNat_one_append]
    omega

theorem isFinite_iff_canonical {x : Float} : isFinite x = true ↔ Canonical x.toModel.unpack := by
  constructor
  · intro hx
    have hgreatest : (-1#11 : BitVec 11).toNat = 2047 := by decide
    have he : @unpackExponent .binary64 x.toModel.toBits.toBitVec ≠ -1#11 := by
      rwa [isFinite, bne_iff_ne, exponentBits_eq, ← hgreatest, ne_eq, BitVec.toNat_inj] at hx
    have hpattern := @packComponents_unpackSign_unpackExponent_unpackMantissa .binary64
      x.toModel.toBits.toBitVec
    show Canonical (UnpackedFloat.unpack .binary64 x.toModel.toBits.toBitVec)
    rw [← hpattern]
    exact canonical_unpack_packComponents _ _ he
  · intro h
    by_contra hx
    have hnan : x ≠ Float.nan := by
      rintro rfl
      rw [unpack_eq_notANumber_iff.2 rfl] at h
      exact h
    obtain ⟨s, hs⟩ := infinite_of_not_isFinite (Bool.not_eq_true _ ▸ hx) hnan
    rw [hs] at h
    exact h

/-! ## Packing -/

theorem unpack_pack_normal (s : Sign) {m : Nat} {e : Int} (hm : 0 < m) (hle : 2 ^ 52 ≤ m)
    (hlt : m < 2 ^ 53) (hmin : -1074 ≤ e) (hmax : e ≤ 971) :
    UnpackedFloat.unpack .binary64 (UnpackedFloat.pack .binary64 (.finite s m e hm)) =
      .finite s m e hm := by
  have hbias : e + Format.binary64.exponentBias + (52 : Nat) = e + 1075 := by
    rw [Int.add_assoc]
    rfl
  have hlog : m.log2 = 52 := (Nat.log2_eq_iff (by omega)).2 ⟨hle, hlt⟩
  have hexponent : (BitVec.ofNat 11 (e + 1075).toNat).toNat = (e + 1075).toNat := by
    rw [BitVec.toNat_ofNat, Nat.mod_eq_of_lt (by omega)]
  have hfinite : BitVec.ofNat 11 (e + 1075).toNat ≠ -1#11 := by
    intro h
    have hgreatest : (BitVec.ofNat 11 (e + 1075).toNat).toNat = 2047 := congrArg BitVec.toNat h
    omega
  have hnormal : BitVec.ofNat 11 (e + 1075).toNat ≠ 0#11 := by
    intro h
    have hleast : (BitVec.ofNat 11 (e + 1075).toNat).toNat = 0 := congrArg BitVec.toNat h
    omega
  simp only [UnpackedFloat.pack, hbias]
  rw [if_neg (by omega), if_pos (by rw [hlog]; rfl)]
  simp only [UnpackedFloat.unpack, unpackExponent_packComponents, unpackMantissa_packComponents,
    unpackSign_packComponents, Sign.ofBitVec_toBitVec]
  rw [if_neg hfinite, if_neg hnormal]
  congr 1
  · rw [toNat_one_append, BitVec.toNat_ofNat]
    omega
  · rw [hexponent]
    simp only [Format.exponentBias]
    omega

theorem unpack_pack_subnormal (s : Sign) {m : Nat} (hm : 0 < m) (hlt : m < 2 ^ 52) :
    UnpackedFloat.unpack .binary64 (UnpackedFloat.pack .binary64 (.finite s m (-1074) hm)) =
      .finite s m (-1074) hm := by
  have hlog : m.log2 < 52 := (Nat.log2_lt (by omega)).2 hlt
  have hplaces : m.log2 + 1 ≠ Format.binary64.mantissaBits := by
    simp only [Format.mantissaBits]
    omega
  have hmantissa : (BitVec.ofNat 52 m).toNat = m := by
    rw [BitVec.toNat_ofNat, Nat.mod_eq_of_lt hlt]
  have hne : BitVec.ofNat 52 m ≠ 0#52 := by
    intro h
    have hzero : (BitVec.ofNat 52 m).toNat = 0 := congrArg BitVec.toNat h
    omega
  simp only [UnpackedFloat.pack]
  rw [if_neg (by decide), if_neg hplaces]
  simp only [UnpackedFloat.unpack, unpackExponent_packComponents, unpackMantissa_packComponents,
    unpackSign_packComponents, Sign.ofBitVec_toBitVec]
  rw [if_neg (by decide), if_pos trivial, dif_neg hne]
  congr 1

/-- Packing keeps a number as it is, or makes an infinity of it if it is too large. -/
theorem unpack_pack_of_canonical {f : UnpackedFloat} (h : Canonical f) :
    UnpackedFloat.unpack .binary64 (UnpackedFloat.pack .binary64 f) = f ∨
      (∃ s, UnpackedFloat.unpack .binary64 (UnpackedFloat.pack .binary64 f) = .infinity s) ∧
        2 ^ 1024 ≤ |unpackedValue f| := by
  cases f with
  | infinity | notANumber => exact h.elim
  | zero s => exact .inl (by simp [UnpackedFloat.pack])
  | finite s m e hm =>
    obtain ⟨hlt, hmin, hplaces⟩ := h
    by_cases hmax : e ≤ 971
    · refine .inl ?_
      by_cases hle : 2 ^ 52 ≤ m
      · exact unpack_pack_normal s hm hle hlt hmin hmax
      · obtain rfl := hplaces.resolve_left hle
        exact unpack_pack_subnormal s hm (by omega)
    · refine .inr ⟨⟨s, ?_⟩, ?_⟩
      · have hpack : UnpackedFloat.pack .binary64 (.finite s m e hm) =
            packedInfinity .binary64 s := by
          simp only [UnpackedFloat.pack, Format.exponentBias]
          exact if_pos (by omega)
        rw [hpack]
        simp [packedInfinity, UnpackedFloat.unpack]
      · have hle : (2 ^ 52 : ℚ) ≤ m := by exact_mod_cast hplaces.resolve_right (by omega)
        have hpower : (2 : ℚ) ^ (972 : ℤ) ≤ 2 ^ e := zpow_le_zpow_right₀ one_le_two (by omega)
        calc (2 : ℚ) ^ 1024 = (2 : ℚ) ^ 52 * (2 : ℚ) ^ (972 : ℤ) := by
              rw [zpow_ofNat, ← pow_add]
          _ ≤ (m : ℚ) * 2 ^ e := mul_le_mul hle hpower (by positivity) (by positivity)
          _ = |unpackedValue (.finite s m e hm)| := (abs_scaled s m e).symm

end Portfolio.Binary64
