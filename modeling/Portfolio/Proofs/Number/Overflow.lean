import Portfolio.Proofs.Number.Magnitude

/-! # Sums that overflow

A binary64 number is finite, an infinity or NaN. An infinity stays as it is when finite numbers are
added to it (`Binary64.add_of_infinite`), so a sum of finite numbers is finite at its end only if it
was finite all along, and it is never NaN. -/

namespace Portfolio.Binary64

open Float.Model Float.Model.UnpackedFloat

variable {x y : Float}

/-- One of the two infinities. -/
def Infinite (x : Float) : Prop :=
  ∃ s, x.toModel.unpack = .infinity s

theorem ofModel_pack_unpack (x : Float) :
    Float.ofModel (Float.Model.pack x.toModel.unpack) = x := by
  obtain ⟨⟨bits, hvalid⟩⟩ := x
  have hbits : UnpackedFloat.pack .binary64 (UnpackedFloat.unpack .binary64 bits.toBitVec) =
      bits.toBitVec := pack_unpack_of_valid hvalid
  simp only [Float.Model.pack, Float.Model.unpack, hbits]

theorem infinite_of_not_isFinite (hx : isFinite x = false) (hnan : x ≠ Float.nan) :
    Infinite x := by
  have hexponent : @unpackExponent .binary64 x.toModel.toBits.toBitVec = -1#11 := by
    have hgreatest : (-1#11 : BitVec 11).toNat = 2047 := by decide
    rw [← BitVec.toNat_inj, hgreatest, ← exponentBits_eq]
    simpa [isFinite] using hx
  have hnumber : x.toModel.unpack ≠ .notANumber :=
    mt unpack_eq_notANumber_iff.1 hnan
  have hcases : x.toModel.unpack =
      if @unpackMantissa .binary64 x.toModel.toBits.toBitVec = 0#52 then
        .infinity (Sign.ofBitVec (@unpackSign .binary64 x.toModel.toBits.toBitVec))
      else .notANumber := by
    show UnpackedFloat.unpack .binary64 x.toModel.toBits.toBitVec = _
    simp only [UnpackedFloat.unpack, hexponent, if_true]
  rw [hcases] at hnumber
  split at hnumber
  · next h => exact ⟨_, by rw [hcases, if_pos h]⟩
  · exact absurd rfl hnumber

theorem Infinite.not_isFinite (h : Infinite x) : isFinite x = false := by
  obtain ⟨s, hs⟩ := h
  rw [← Bool.not_eq_true, isFinite_iff, LessThanTwoPow, hs]
  exact id

theorem Infinite.ne_nan (h : Infinite x) : x ≠ Float.nan := by
  obtain ⟨s, hs⟩ := h
  rw [← ofModel_pack_unpack x, hs]
  exact ne_nan_of_unpack nofun

/-- There are two infinities. -/
theorem Infinite.eq_or_eq (h : Infinite x) : x = infinity ∨ x = -infinity := by
  obtain ⟨s, hs⟩ := h
  rw [← ofModel_pack_unpack x, hs]
  cases s with
  | positive => exact .inl (by decide)
  | negative => exact .inr (by decide)

/-- Finite numbers do not change an infinity. -/
theorem add_of_infinite (hx : Infinite x) (hy : isFinite y = true) : x + y = x := by
  obtain ⟨s, hs⟩ := hx
  have hbelow : Below 1024 y.toModel.unpack := isFinite_iff.1 hy
  have hadd : UnpackedFloat.add .binary64 x.toModel.unpack y.toModel.unpack =
      x.toModel.unpack := by
    rw [hs]
    cases hu : y.toModel.unpack with
    | zero | finite => rfl
    | infinity | notANumber =>
      rw [hu] at hbelow
      exact hbelow.elim
  calc x + y
      = Float.ofModel (Float.Model.pack
          (UnpackedFloat.add .binary64 x.toModel.unpack y.toModel.unpack)) := rfl
    _ = x := by rw [hadd, ofModel_pack_unpack]

end Portfolio.Binary64
