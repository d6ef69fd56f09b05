import Portfolio.Json.Value
import Portfolio.Number.Decimal
import Portfolio.Proofs.Number.Magnitude

/-! # Amounts are finite

Whatever decimal a text holds, its binary64 number is finite (`Decimal.isFinite_toFloat`), and so is
the number of a document whose whole numbers have sixty-four bits at most
(`Json.Number.isFinite_toFloat`). -/

namespace Portfolio

namespace Binary64

/-- The powers of ten by which a decimal is scaled. -/
theorem power_ten {n : Nat} (hn : n ≤ 28) :
    LessThanTwoPow 95 (power 10.0 n) ∧ AtLeastOne (power 10.0 n).toModel.unpack ∧
      AtLeastOne (Float.ofNat (10 ^ n)).toModel.unpack := by
  have hall : ∀ n < 29, LessThanTwoPow 95 (power 10.0 n) ∧
      AtLeastOne (power 10.0 n).toModel.unpack ∧
        AtLeastOne (Float.ofNat (10 ^ n)).toModel.unpack := by decide +kernel
  exact hall n (Nat.lt_succ_of_le hn)

theorem divHalfUp_le (n d : Nat) : divHalfUp n d ≤ n + 1 := by
  have hdiv : n / d ≤ n := Nat.div_le_self n d
  unfold divHalfUp
  split <;> omega

theorem LessThanTwoPow.ite {n : Int} {x y : Float} {c : Prop} [Decidable c]
    (hx : LessThanTwoPow n x) (hy : LessThanTwoPow n y) :
    LessThanTwoPow n (if c then x else y) := by
  split
  · exact hx
  · exact hy

/-- Rounding to a whole number makes nothing large. -/
theorem LessThanTwoPow.round {n : Int} {x : Float} (hn : 57 ≤ n) (hmax : n ≤ 1024)
    (hx : LessThanTwoPow n x) : LessThanTwoPow n (Binary64.round x) := by
  have hmantissa := mantissa_parts_lt x
  have hwhole : LessThanTwoPow n
      (Float.ofNat (divHalfUp (parts x).mantissa (Nat.pow 2 (-(parts x).exponent).toNat))) := by
    have hle := divHalfUp_le (parts x).mantissa (Nat.pow 2 (-(parts x).exponent).toNat)
    have hlt : divHalfUp (parts x).mantissa (Nat.pow 2 (-(parts x).exponent).toNat) < 2 ^ 54 := by
      omega
    exact (lessThanTwoPow_ofNat (by decide) hlt).mono (by omega)
  exact .ite hx (.ite (hwhole.neg (by omega) hmax) hwhole)

end Binary64

open Binary64

/-- Every decimal has a finite binary64 number. -/
theorem Decimal.isFinite_toFloat (d : Decimal) : isFinite d.toFloat = true := by
  have hmantissa : d.mantissa < 2 ^ 96 := d.mantissa_lt
  suffices h : LessThanTwoPow 199 d.toFloat from isFinite_of_lessThanTwoPow (by decide) h
  unfold Decimal.toFloat
  split
  · have hx : LessThanTwoPow 199 (Float.ofNat d.mantissa) :=
      (lessThanTwoPow_ofNat (by decide) hmantissa).mono (by decide)
    exact .ite (hx.neg (by decide) (by decide)) hx
  · obtain ⟨hr, hrOne, hunit⟩ := power_ten d.scale_le
    extract_lets unit whole fraction r x
    have hwhole : LessThanTwoPow 100 whole :=
      (lessThanTwoPow_ofNat (by decide)
        (Nat.lt_of_le_of_lt (Nat.div_le_self _ _) hmantissa)).mono (by decide)
    have hrest : LessThanTwoPow 99 (Float.ofNat (d.mantissa % unit)) :=
      lessThanTwoPow_ofNat (by decide) (Nat.lt_of_le_of_lt (Nat.mod_le _ _) hmantissa)
    have hfraction : LessThanTwoPow 100 fraction := hrest.div (by decide) (by decide) hunit
    have hscaled : LessThanTwoPow 198 (Binary64.round ((whole + fraction) * r)) :=
      ((hwhole.add (by decide) (by decide) hfraction).mul (by decide) (by decide) hr).round
        (by decide) (by decide)
    have hx : LessThanTwoPow 199 x :=
      .ite (hwhole.mono (by decide)) (hscaled.div (by decide) (by decide) hrOne)
    exact .ite (hx.neg (by decide) (by decide)) hx

/-- The number of a document is finite: a whole number of sixty-four bits, signed or unsigned, or
a finite binary64 number. -/
def Json.Number.IsFinite : Json.Number → Prop
  | .int n => Word.Holds 64 n
  | .float x => isFinite x = true

theorem Json.Number.isFinite_toFloat {n : Json.Number} (h : n.IsFinite) :
    isFinite n.toFloat = true := by
  cases n with
  | float x => exact h
  | int n =>
    have hcount : (Word.count 64 : Int) = 2 ^ 64 := by decide
    have hleast : Word.least 64 = -2 ^ 63 := by decide
    obtain ⟨hle, hlt⟩ := h
    have hx : LessThanTwoPow 1000 (Float.ofNat n.natAbs) :=
      (lessThanTwoPow_ofNat (n := 64) (by decide) (by omega)).mono (by decide)
    exact isFinite_of_lessThanTwoPow (by decide) (.ite (hx.neg (by decide) (by decide)) hx)

end Portfolio
