import Mathlib
import Portfolio.Number.Binary64

/-! # The size of binary64 results

`Below n x`: the unpacked number `x` is less than `2 ^ n` in magnitude, and has no more places than
that size needs. An operation raises the bound by what its result can grow and by one more for the
rounding (`below_roundWithAccuracy`, the only place where a result is not exact), and packing keeps
it (`below_unpack_pack`). A float is finite if it is below `2 ^ 1024` (`isFinite_iff`), and the sum
and the difference of two finite ones are never NaN (`add_ne_nan`, `sub_ne_nan`). -/

namespace Portfolio.Binary64

open Float.Model Float.Model.UnpackedFloat

/-- Less than `2 ^ n` in magnitude, with no more places than that size needs. -/
def Below (n : Int) : UnpackedFloat → Prop
  | .zero _ => True
  | .finite _ m e _ => (m.log2 : Int) + 1 + e ≤ n ∧ e + 53 ≤ n
  | .infinity _ | .notANumber => False

instance (n : Int) : DecidablePred (Below n)
  | .zero _ => .isTrue trivial
  | .finite _ m e _ => inferInstanceAs (Decidable ((m.log2 : Int) + 1 + e ≤ n ∧ e + 53 ≤ n))
  | .infinity _ | .notANumber => .isFalse id

theorem Below.mono {n k : Int} {x : UnpackedFloat} (h : Below n x) (hk : n ≤ k) : Below k x := by
  cases x with
  | zero => trivial
  | finite s m e hm => exact ⟨by have := h.1; omega, by have := h.2; omega⟩
  | infinity | notANumber => exact h

/-! ## Rounding -/

theorem mantissa_shiftRight (em : ExtendedMantissa) (k : Nat) :
    (em >>> k).mantissa = em.mantissa / 2 ^ k := by
  induction k with
  | zero => exact (Nat.div_one _).symm
  | succ k ih =>
    show (em >>> k).mantissa / 2 = _
    rw [ih, Nat.div_div_eq_div_mul, Nat.pow_succ]

theorem roundedMantissa_le (em : ExtendedMantissa) : em.roundedMantissa ≤ em.mantissa + 1 := by
  unfold ExtendedMantissa.roundedMantissa Accuracy.roundToNearestEven
  split <;> omega

/-- The number of places that a mantissa has too many for its size. -/
def excess (m : Nat) (e : Int) : Nat :=
  (max ((m.log2 : Int) + 1 + e - 53) (-1074) - e).toNat

theorem shiftToTargetExponent_eq (m : Nat) (e : Int) (a : Accuracy) :
    (shiftToTargetExponent .binary64 m e a).1.mantissa = m / 2 ^ excess m e ∧
      (shiftToTargetExponent .binary64 m e a).2 = e + excess m e := by
  have hmantissa : (ExtendedMantissa.ofMantissaAndAccuracy m a).mantissa = m := by
    cases a with
    | exact => rfl
    | inexact o => cases o <;> rfl
  refine ⟨?_, rfl⟩
  show (ExtendedMantissa.ofMantissaAndAccuracy m a >>> excess m e).mantissa = _
  rw [mantissa_shiftRight, hmantissa]

theorem log2_div_add_le {m n : Nat} (h : m / n ≠ 0) : (m / n).log2 + n.log2 ≤ m.log2 := by
  obtain ⟨hn, hle⟩ : 0 < n ∧ n ≤ m := Nat.div_ne_zero_iff.1 h |>.imp_left Nat.pos_of_ne_zero
  rw [Nat.le_log2 (by omega), Nat.pow_add]
  calc 2 ^ (m / n).log2 * 2 ^ n.log2 ≤ m / n * n :=
        Nat.mul_le_mul (Nat.log2_self_le h) (Nat.log2_self_le (by omega))
    _ ≤ m := Nat.div_mul_le_self m n

theorem log2_shiftLeft {m : Nat} (k : Nat) (h : m ≠ 0) : (m <<< k).log2 = m.log2 + k := by
  have hk : m <<< k ≠ 0 := by simpa using h
  rw [Nat.log2_eq_iff hk, Nat.shiftLeft_eq, Nat.pow_add, Nat.add_right_comm, Nat.pow_add]
  have hpos : 0 < 2 ^ k := Nat.two_pow_pos k
  exact ⟨Nat.mul_le_mul_right _ (Nat.log2_self_le h),
    Nat.mul_lt_mul_of_pos_right Nat.lt_log2_self hpos⟩

/-- One more than a mantissa of so many places has one place more at most. -/
theorem log2_div_succ_le {m k j : Nat} (h : m.log2 + 1 ≤ j + k) : (m / 2 ^ k + 1).log2 ≤ j := by
  have hlt : m / 2 ^ k < 2 ^ j := by
    rw [Nat.div_lt_iff_lt_mul (Nat.two_pow_pos k), ← Nat.pow_add]
    exact Nat.lt_of_lt_of_le Nat.lt_log2_self (Nat.pow_le_pow_right (by decide) h)
  have hle : (m / 2 ^ k + 1).log2 < j + 1 := by
    rw [Nat.log2_lt (Nat.succ_ne_zero _), Nat.pow_succ]
    have := Nat.two_pow_pos j
    omega
  omega

theorem log2_mono {m n : Nat} (h : m ≤ n) : m.log2 ≤ n.log2 := by
  by_cases hm : m = 0
  · subst hm; simp
  · exact (Nat.le_log2 (by omega)).2 (Nat.le_trans (Nat.log2_self_le hm) h)

/-- A result is rounded to less than twice its size. -/
theorem below_roundWithAccuracy {n : Int} (hn : -1021 ≤ n) (s : Sign) {m : Nat} {e : Int}
    (a : Accuracy) (hsize : (m.log2 : Int) + 1 + e ≤ n) (hplaces : e + 52 ≤ n) :
    Below (n + 1) (roundWithAccuracy .binary64 s m e a) := by
  obtain ⟨hm₁, he₁⟩ := shiftToTargetExponent_eq m e a
  unfold roundWithAccuracy
  generalize shiftToTargetExponent .binary64 m e a = first at hm₁ he₁ ⊢
  obtain ⟨em, e₁⟩ := first
  dsimp only at hm₁ he₁ ⊢
  have hround : em.roundedMantissa.log2 ≤ (n - e₁).toNat := by
    refine Nat.le_trans (log2_mono (roundedMantissa_le em)) ?_
    rw [hm₁]
    refine log2_div_succ_le ?_
    simp only [excess] at he₁ ⊢
    omega
  obtain ⟨hm₂, he₂⟩ := shiftToTargetExponent_eq em.roundedMantissa e₁ .exact
  generalize shiftToTargetExponent .binary64 em.roundedMantissa e₁ .exact = second at hm₂ he₂ ⊢
  obtain ⟨em₂, e₂⟩ := second
  dsimp only at hm₂ he₂ ⊢
  split
  · trivial
  · next hne =>
    rw [hm₂] at hne
    have hlog := log2_div_add_le hne
    rw [← hm₂, Nat.log2_two_pow] at hlog
    simp only [excess] at he₁ he₂ hlog
    constructor <;> omega

theorem below_round {n : Int} (hn : -1021 ≤ n) (s : Sign) {m : Nat} {e : Int} (hm : m ≠ 0)
    (hsize : (m.log2 : Int) + 1 + e ≤ n) : Below (n + 1) (UnpackedFloat.round .binary64 s m e) := by
  unfold UnpackedFloat.round decreaseExponent
  refine below_roundWithAccuracy hn s .exact ?_ ?_
  · rw [log2_shiftLeft _ hm]
    omega
  · simp only [Format.targetExponent, totalExponent, Format.mantissaBits, Format.minExponent]
    omega

theorem below_normalize {n : Int} (hn : -1021 ≤ n) {m e : Int} (s : Sign)
    (hsize : (m.natAbs.log2 : Int) + 1 + e ≤ n) :
    Below (n + 1) (UnpackedFloat.normalize .binary64 m e s) := by
  unfold UnpackedFloat.normalize
  split
  · next h =>
    have hlt : m < 0 := Int.compare_eq_lt.1 h
    have hm : (-m).toNat = m.natAbs := by omega
    rw [hm]
    exact below_round hn _ (by omega) hsize
  · trivial
  · next h =>
    have hgt : 0 < m := Int.compare_eq_gt.1 h
    have hm : m.toNat = m.natAbs := by omega
    rw [hm]
    exact below_round hn _ (by omega) hsize

/-! ## Operations -/

theorem natAbs_apply (s : Sign) (m : Nat) : (s.apply m).natAbs = m := by
  cases s <;> simp [Sign.apply]

/-- Two mantissas at their smaller exponent, added or subtracted. -/
theorem below_normalize_pair {n : Int} (hn : -1021 ≤ n) {m₁ m₂ : Nat} {e₁ e₂ m : Int}
    (hm₁ : m₁ ≠ 0) (hm₂ : m₂ ≠ 0) (h₁ : (m₁.log2 : Int) + 1 + e₁ ≤ n)
    (h₂ : (m₂.log2 : Int) + 1 + e₂ ≤ n)
    (hm : m.natAbs ≤ m₁ <<< (e₁ - min e₁ e₂).toNat + m₂ <<< (e₂ - min e₁ e₂).toNat) :
    Below (n + 2) (UnpackedFloat.normalize .binary64 m (min e₁ e₂) .positive) := by
  have hlt {k : Nat} {e : Int} (hk : k ≠ 0) (he : (k.log2 : Int) + 1 + e ≤ n)
      (hmin : min e₁ e₂ ≤ e) :
      k <<< (e - min e₁ e₂).toNat < 2 ^ (n - min e₁ e₂).toNat := by
    rw [← Nat.log2_lt (by simpa using hk), log2_shiftLeft _ hk]
    omega
  have hlt₁ := hlt hm₁ h₁ (min_le_left _ _)
  have hlt₂ := hlt hm₂ h₂ (min_le_right _ _)
  have hsum : m.natAbs < 2 ^ ((n - min e₁ e₂).toNat + 1) := by
    rw [Nat.pow_succ]
    omega
  have hlog : m.natAbs.log2 < (n - min e₁ e₂).toNat + 1 := by
    by_cases hz : m.natAbs = 0
    · simp [hz]
    · exact (Nat.log2_lt hz).2 hsum
  have hrounded := below_normalize (n := n + 1) (by omega) (e := min e₁ e₂) (m := m) .positive
    (by omega)
  rwa [Int.add_assoc] at hrounded

theorem below_add {n : Int} (hn : -1021 ≤ n) {x y : UnpackedFloat} (hx : Below n x)
    (hy : Below n y) : Below (n + 2) (UnpackedFloat.add .binary64 x y) := by
  cases x with
  | infinity | notANumber => exact hx.elim
  | zero s =>
    cases y with
    | infinity | notANumber => exact hy.elim
    | zero t =>
      simp only [UnpackedFloat.add]
      split <;> trivial
    | finite => exact hy.mono (by omega)
  | finite s₁ m₁ e₁ hm₁ =>
    cases y with
    | infinity | notANumber => exact hy.elim
    | zero => exact hx.mono (by omega)
    | finite s₂ m₂ e₂ hm₂ =>
      refine below_normalize_pair hn (by omega) (by omega) hx.1 hy.1 ?_
      refine Nat.le_trans (Int.natAbs_add_le _ _) ?_
      rw [natAbs_apply, natAbs_apply]

theorem below_sub {n : Int} (hn : -1021 ≤ n) {x y : UnpackedFloat} (hx : Below n x)
    (hy : Below n y) : Below (n + 2) (UnpackedFloat.sub .binary64 x y) := by
  cases x with
  | infinity | notANumber => exact hx.elim
  | zero s =>
    cases y with
    | infinity | notANumber => exact hy.elim
    | zero t =>
      simp only [UnpackedFloat.sub]
      split <;> trivial
    | finite => exact Below.mono (n := n) ⟨hy.1, hy.2⟩ (by omega)
  | finite s₁ m₁ e₁ hm₁ =>
    cases y with
    | infinity | notANumber => exact hy.elim
    | zero => exact hx.mono (by omega)
    | finite s₂ m₂ e₂ hm₂ =>
      refine below_normalize_pair hn (by omega) (by omega) hx.1 hy.1 ?_
      refine Nat.le_trans (Int.natAbs_sub_le _ _) ?_
      rw [natAbs_apply, natAbs_apply]

theorem log2_mul_le (m n : Nat) : (m * n).log2 ≤ m.log2 + n.log2 + 1 := by
  by_cases h : m * n = 0
  · simp [h]
  · have hlt : m * n < 2 ^ (m.log2 + n.log2 + 2) := by
      have hpow : 2 ^ (m.log2 + n.log2 + 2) = 2 ^ (m.log2 + 1) * 2 ^ (n.log2 + 1) := by
        rw [← Nat.pow_add]
        congr 1
        omega
      rw [hpow]
      exact Nat.mul_lt_mul'' Nat.lt_log2_self Nat.lt_log2_self
    have := (Nat.log2_lt h).2 hlt
    omega

theorem below_mul {n k : Int} (hn : -1021 ≤ n + k) {x y : UnpackedFloat} (hx : Below n x)
    (hy : Below k y) : Below (n + k + 1) (UnpackedFloat.mul .binary64 x y) := by
  cases x with
  | infinity | notANumber => exact hx.elim
  | zero s =>
    cases y with
    | infinity | notANumber => exact hy.elim
    | zero | finite => trivial
  | finite s₁ m₁ e₁ hm₁ =>
    cases y with
    | infinity | notANumber => exact hy.elim
    | zero => trivial
    | finite s₂ m₂ e₂ hm₂ =>
      obtain ⟨hsize₁, hplaces₁⟩ := hx
      obtain ⟨hsize₂, hplaces₂⟩ := hy
      have hlog := log2_mul_le m₁ m₂
      exact below_roundWithAccuracy hn _ .exact (by omega) (by omega)

/-- One or more in magnitude. -/
def AtLeastOne : UnpackedFloat → Prop
  | .finite _ m e _ => 0 ≤ (m.log2 : Int) + e
  | .zero _ | .infinity _ | .notANumber => False

instance : DecidablePred AtLeastOne
  | .finite _ m e _ => inferInstanceAs (Decidable (0 ≤ (m.log2 : Int) + e))
  | .zero _ | .infinity _ | .notANumber => .isFalse id

theorem below_div {n : Int} (hn : -1021 ≤ n) {x y : UnpackedFloat} (hx : Below n x)
    (hy : AtLeastOne y) : Below (n + 1) (UnpackedFloat.div .binary64 x y) := by
  cases y with
  | infinity | notANumber | zero => exact hy.elim
  | finite s₂ m₂ e₂ hm₂ =>
    cases x with
    | infinity | notANumber => exact hx.elim
    | zero => trivial
    | finite s₁ m₁ e₁ hm₁ =>
      obtain ⟨hsize, hplaces⟩ := hx
      have hone : 0 ≤ (m₂.log2 : Int) + e₂ := hy
      obtain ⟨m, e, a, hcore, hlog, he⟩ : ∃ m e a, divCore .binary64 m₁ e₁ m₂ e₂ = (m, e, a) ∧
          (m ≠ 0 → (m.log2 : Int) + 1 + e ≤ n) ∧ e + 52 ≤ n := by
        refine ⟨_, _, _, rfl, fun hm => ?_, ?_⟩
        · have hquotient := log2_div_add_le hm
          rw [log2_shiftLeft _ (by omega)] at hquotient
          simp only [Format.targetExponent, totalExponent, Format.mantissaBits,
            Format.minExponent] at hquotient ⊢
          omega
        · simp only [Format.targetExponent, totalExponent, Format.mantissaBits,
            Format.minExponent]
          omega
      simp only [UnpackedFloat.div, hcore]
      refine below_roundWithAccuracy hn _ a ?_ he
      by_cases hm : m = 0
      · subst hm
        rw [Nat.log2_zero]
        omega
      · exact hlog hm

/-! ## Packing -/

theorem log2_lt_of_lt {m k : Nat} (hk : 0 < k) (h : m < 2 ^ k) : m.log2 < k := by
  by_cases hm : m = 0
  · rwa [hm, Nat.log2_zero]
  · exact (Nat.log2_lt hm).2 h

/-- A pattern whose exponent is not the greatest is a number of that exponent's size. -/
theorem below_unpack_packComponents {n : Int} (hn : -1021 ≤ n) (s : Sign) {e : BitVec 11}
    (m : BitVec 52) (hmax : e ≠ -1#11) (he : (e.toNat : Int) ≤ n + 1022) :
    Below n (UnpackedFloat.unpack .binary64 (packComponents .binary64 s e m)) := by
  simp only [UnpackedFloat.unpack, unpackExponent_packComponents, unpackMantissa_packComponents]
  rw [if_neg hmax]
  split
  · next h0 =>
    have hzero : e.toNat = 0 := by simp [h0]
    have hlog := log2_lt_of_lt (by decide) m.isLt
    split
    · trivial
    · constructor <;> simp only [Format.exponentBias, hzero] <;> omega
  · have hlog := log2_lt_of_lt (by decide) (1#1 ++ m).isLt
    constructor <;> simp only [Format.exponentBias] <;> omega

/-- A number is packed as an infinity if it is too long, and else under its exponent or under the
least one. -/
theorem pack_finite (s : Sign) (m : Nat) (e : Int) (hm : 0 < m) :
    (UnpackedFloat.pack .binary64 (.finite s m e hm) = packedInfinity .binary64 s ∧ 972 ≤ e) ∨
    ∃ (exponent : BitVec 11) (mantissa : BitVec 52),
      UnpackedFloat.pack .binary64 (.finite s m e hm) =
        packComponents .binary64 s exponent mantissa ∧ exponent ≠ -1#11 ∧
          (exponent.toNat : Int) ≤ max (e + 1075) 0 := by
  have hbias : e + Format.binary64.exponentBias + (52 : Nat) = e + 1075 := by
    rw [Int.add_assoc]
    rfl
  simp only [UnpackedFloat.pack, hbias]
  split
  · next hlong => exact .inl ⟨rfl, by omega⟩
  · next hfits =>
    refine .inr ?_
    split
    · have hexponent : (BitVec.ofNat 11 (e + 1075).toNat).toNat = (e + 1075).toNat := by
        rw [BitVec.toNat_ofNat, Nat.mod_eq_of_lt (by omega)]
      refine ⟨_, _, rfl, fun he => ?_, ?_⟩
      · have hgreatest : (BitVec.ofNat 11 (e + 1075).toNat).toNat = 2047 := congrArg BitVec.toNat he
        omega
      · omega
    · exact ⟨0#11, _, rfl, by decide, Int.le_max_right _ _⟩

theorem below_unpack_pack {n : Int} (hn : -1021 ≤ n) (hmax : n ≤ 1024) {x : UnpackedFloat}
    (h : Below n x) :
    Below n (UnpackedFloat.unpack .binary64 (UnpackedFloat.pack .binary64 x)) := by
  cases x with
  | infinity | notANumber => exact h.elim
  | zero s =>
    simp only [UnpackedFloat.pack, unpack_packedZero]
    trivial
  | finite s m e hm =>
    obtain ⟨hsize, hplaces⟩ := h
    obtain ⟨-, hlong⟩ | ⟨exponent, mantissa, hpack, hne, hle⟩ := pack_finite s m e hm
    · omega
    · rw [hpack]
      exact below_unpack_packComponents hn s mantissa hne (by omega)

theorem unpack_pack_ne_notANumber {x : UnpackedFloat} (h : x ≠ .notANumber) :
    UnpackedFloat.unpack .binary64 (UnpackedFloat.pack .binary64 x) ≠ .notANumber := by
  have hinfinity (s : Sign) :
      UnpackedFloat.unpack .binary64 (packedInfinity .binary64 s) ≠ .notANumber := by
    simp [packedInfinity, UnpackedFloat.unpack]
  cases x with
  | notANumber => exact absurd rfl h
  | infinity s => exact hinfinity s
  | zero s => simp [UnpackedFloat.pack]
  | finite s m e hm =>
    obtain ⟨hpack, -⟩ | ⟨exponent, mantissa, hpack, hne, hle⟩ := pack_finite s m e hm
    · rw [hpack]
      exact hinfinity s
    · rw [hpack]
      intro hnan
      have hlt : exponent.toNat < 2 ^ 11 := exponent.isLt
      have hbelow : Below 1025 _ :=
        below_unpack_packComponents (by decide) s mantissa hne (by omega)
      rw [hnan] at hbelow
      exact hbelow

/-! ## Binary64 numbers -/

/-- A finite number less than `2 ^ n` in magnitude. -/
def LessThanTwoPow (n : Int) (x : Float) : Prop :=
  Below n x.toModel.unpack

instance (n : Int) (x : Float) : Decidable (LessThanTwoPow n x) :=
  inferInstanceAs (Decidable (Below n _))

variable {n k : Int} {x y : Float}

theorem LessThanTwoPow.mono (h : LessThanTwoPow n x) (hk : n ≤ k) : LessThanTwoPow k x :=
  Below.mono h hk

theorem LessThanTwoPow.add (hn : -1021 ≤ n) (hmax : n ≤ 1022) (hx : LessThanTwoPow n x)
    (hy : LessThanTwoPow n y) : LessThanTwoPow (n + 2) (x + y) :=
  below_unpack_pack (by omega) (by omega) (below_add hn hx hy)

theorem LessThanTwoPow.mul (hn : -1021 ≤ n + k) (hmax : n + k ≤ 1023) (hx : LessThanTwoPow n x)
    (hy : LessThanTwoPow k y) : LessThanTwoPow (n + k + 1) (x * y) :=
  below_unpack_pack (by omega) (by omega) (below_mul hn hx hy)

theorem LessThanTwoPow.div (hn : -1021 ≤ n) (hmax : n ≤ 1023) (hx : LessThanTwoPow n x)
    (hy : AtLeastOne y.toModel.unpack) : LessThanTwoPow (n + 1) (x / y) :=
  below_unpack_pack (by omega) (by omega) (below_div hn hx hy)

theorem LessThanTwoPow.neg (hn : -1021 ≤ n) (hmax : n ≤ 1024) (hx : LessThanTwoPow n x) :
    LessThanTwoPow n (-x) := by
  refine below_unpack_pack hn hmax ?_
  unfold LessThanTwoPow at hx
  cases h : x.toModel.unpack with
  | infinity | notANumber => rw [h] at hx; exact hx.elim
  | zero => trivial
  | finite => rw [h] at hx; exact hx

theorem below_ofNat {m n : Nat} (h0 : m ≠ 0) (hm : m < 2 ^ n) :
    Below (n + 1) (UnpackedFloat.ofNat .binary64 m) := by
  have hlog : m.log2 < n := (Nat.log2_lt h0).2 hm
  refine below_normalize (by omega) .positive ?_
  rw [Int.natAbs_natCast]
  omega

/-- A natural number in binary64. Long ones go another way than short ones. -/
theorem lessThanTwoPow_ofNat {m n : Nat} (hmax : n ≤ 1000) (hm : m < 2 ^ n) :
    LessThanTwoPow (n + 3) (Float.ofNat m) := by
  by_cases h0 : m = 0
  · subst h0
    exact LessThanTwoPow.mono (show LessThanTwoPow 0 (Float.ofNat 0) by decide) (by omega)
  have hlog : m.log2 < n := (Nat.log2_lt h0).2 hm
  show LessThanTwoPow (n + 3) (Float.ofScientific m false 0)
  unfold Float.ofScientific
  split
  · next h =>
    have hone : LessThanTwoPow 1 Float.exactlyRepresentablePowersOfTen[0] := by decide
    have hword : m.toUInt64.toNat = m := Nat.mod_eq_of_lt (Nat.lt_trans h.1 (by decide))
    have hnat : LessThanTwoPow (n + 1) m.toUInt64.toFloat := by
      refine below_unpack_pack (by omega) (by omega) ?_
      show Below (n + 1) (UnpackedFloat.ofNat .binary64 m.toUInt64.toNat)
      rw [hword]
      exact below_ofNat h0 hm
    exact (hnat.mul (by omega) (by omega) hone).mono (by omega)
  · refine below_unpack_pack (by omega) (by omega) ?_
    show Below (n + 3) (UnpackedFloat.ofScientific .binary64 m 0)
    unfold UnpackedFloat.ofScientific
    have hpowers : ¬(0 : Int) < -((2 ^ Format.binary64.exponentBits : Int) + m.log2) := by
      have : (0 : Int) < 2 ^ Format.binary64.exponentBits := by decide
      omega
    rw [dif_neg h0, if_neg (by decide), if_neg hpowers, if_pos (Int.le_refl 0)]
    have hlong :
        (m <<< Format.binary64.mantissaBits * 10 ^ (0 : Int).toNat).log2 = m.log2 + 53 := by
      rw [Int.toNat_zero, Nat.pow_zero, Nat.mul_one]
      exact log2_shiftLeft 53 h0
    have hplaces : -(Format.binary64.mantissaBits : Int) + 0 = -53 := by decide
    simp only [UnpackedFloat.mul, hplaces]
    generalize m <<< Format.binary64.mantissaBits * 10 ^ (0 : Int).toNat = long at hlong ⊢
    have hrounded : Below (n + 1) (roundWithAccuracy .binary64 _ long (-53) .exact) :=
      below_roundWithAccuracy (by omega) (.positive * .positive) .exact (by omega) (by omega)
    exact hrounded.mono (by omega)

/-! ## Numbers that are finite, and numbers that are none -/

theorem mantissa_parts_lt (x : Float) : (parts x).mantissa < 2 ^ 53 := by
  have hbits : fractionBits x < 2 ^ 52 := Nat.mod_lt _ (by decide)
  unfold parts
  split
  · exact Nat.lt_trans hbits (by decide)
  · exact Nat.add_lt_add_right hbits (2 ^ 52)

theorem exponentBits_eq (x : Float) :
    exponentBits x = (@unpackExponent .binary64 x.toModel.toBits.toBitVec).toNat := by
  rw [unpackExponent_def, BitVec.extractLsb'_toNat, Nat.shiftRight_eq_div_pow]
  rfl

theorem isFinite_iff : isFinite x = true ↔ LessThanTwoPow 1024 x := by
  have hgreatest : (-1#11 : BitVec 11).toNat = 2047 := by decide
  have hfinite : isFinite x = true ↔
      @unpackExponent .binary64 x.toModel.toBits.toBitVec ≠ -1#11 := by
    rw [isFinite, bne_iff_ne, exponentBits_eq, ← hgreatest, ne_eq, BitVec.toNat_inj]
  rw [hfinite]
  constructor
  · intro he
    have hpattern := @packComponents_unpackSign_unpackExponent_unpackMantissa .binary64
      x.toModel.toBits.toBitVec
    have hlt : (@unpackExponent .binary64 x.toModel.toBits.toBitVec).toNat < 2 ^ 11 :=
      BitVec.isLt _
    have hne : (@unpackExponent .binary64 x.toModel.toBits.toBitVec).toNat ≠ 2047 := by
      rwa [← hgreatest, ne_eq, BitVec.toNat_inj]
    show Below 1024 (UnpackedFloat.unpack .binary64 x.toModel.toBits.toBitVec)
    rw [← hpattern]
    exact below_unpack_packComponents (by decide) _ _ he (by omega)
  · intro hx he
    have hbelow : Below 1024 (UnpackedFloat.unpack .binary64 x.toModel.toBits.toBitVec) := hx
    simp only [UnpackedFloat.unpack, he, if_true] at hbelow
    split at hbelow
    · exact hbelow
    · exact hbelow

theorem isFinite_of_lessThanTwoPow (hn : n ≤ 1024) (h : LessThanTwoPow n x) : isFinite x = true :=
  isFinite_iff.2 (h.mono hn)

theorem ne_nan_of_unpack {f : UnpackedFloat} (h : f ≠ .notANumber) :
    Float.ofModel (Float.Model.pack f) ≠ Float.nan := by
  have hnan : (Float.ofModel (Float.Model.pack f)).isNaN = false := by
    have hf := unpack_pack_ne_notANumber h
    rw [ne_eq, ← isNaN_iff, Bool.not_eq_true] at hf
    exact hf
  rw [Float.isNaN_eq_decide_eq_nan] at hnan
  exact of_decide_eq_false hnan

theorem unpack_eq_notANumber_iff : x.toModel.unpack = .notANumber ↔ x = Float.nan := by
  rw [← isNaN_iff, ← decide_eq_true_iff (p := x = Float.nan), ← Float.isNaN_eq_decide_eq_nan]
  exact Iff.rfl

theorem ne_notANumber_of_below {f : UnpackedFloat} (h : Below n f) : f ≠ .notANumber := by
  rintro rfl
  exact h

theorem add_ne_nan (hx : isFinite x = true) (hy : isFinite y = true) : x + y ≠ Float.nan :=
  ne_nan_of_unpack (ne_notANumber_of_below
    (below_add (by decide) (isFinite_iff.1 hx) (isFinite_iff.1 hy)))

theorem sub_ne_nan (hx : isFinite x = true) (hy : isFinite y = true) : x - y ≠ Float.nan :=
  ne_nan_of_unpack (ne_notANumber_of_below
    (below_sub (by decide) (isFinite_iff.1 hx) (isFinite_iff.1 hy)))

theorem ne_nan_of_isFinite (hx : isFinite x = true) : x ≠ Float.nan := by
  rintro rfl
  exact absurd hx (by decide)

theorem zero_lt_iff_not_le (f : UnpackedFloat) :
    (zero .positive).lt f = true ↔ ¬ f.le (zero .positive) = true ∧ f ≠ .notANumber := by
  cases f with
  | notANumber | zero => simp [UnpackedFloat.lt, UnpackedFloat.le, UnpackedFloat.compare]
  | finite s | infinity s =>
    cases s <;> simp [UnpackedFloat.lt, UnpackedFloat.le, UnpackedFloat.compare]

/-- NaN is neither at most zero nor more, and every other number is one of the two. -/
theorem pos_iff : 0.0 < x ↔ ¬ x ≤ 0.0 ∧ x ≠ Float.nan := by
  have hlt : 0.0 < x ↔ (zero .positive).lt x.toModel.unpack = true := decide_eq_true_iff
  have hle : x ≤ 0.0 ↔ x.toModel.unpack.le (zero .positive) = true := decide_eq_true_iff
  rw [hlt, hle, zero_lt_iff_not_le, ne_eq, unpack_eq_notANumber_iff]

end Portfolio.Binary64
