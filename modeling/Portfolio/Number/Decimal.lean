import Portfolio.Number.FloatText

/-! # Decimals of ninety-six bits

A decimal is a sign, a mantissa below `2 ^ 96` and a scale of at most twenty-eight places; it
stands for `mantissa / 10 ^ scale`, and keeps the zeros at its end. -/

namespace Portfolio

/-- A signed mantissa and the number of places after the point. -/
structure Decimal where
  negative : Bool
  mantissa : Nat
  scale : Nat
  mantissa_lt : mantissa < Word.count 96 := by decide
  scale_le : scale ≤ 28 := by decide
  deriving DecidableEq, Repr

namespace Decimal

def zero : Decimal := { negative := false, mantissa := 0, scale := 0 }

instance : Inhabited Decimal := ⟨zero⟩

/-- The decimal of the three parts, if they are in range. -/
def ofParts? (negative : Bool) (mantissa scale : Nat) : Option Decimal :=
  if h : mantissa < Word.count 96 ∧ scale ≤ 28 then some ⟨negative, mantissa, scale, h.1, h.2⟩
  else none

/-- Removes as few places as make the mantissa fit, the removed part rounded to the nearest, a half
to the even neighbour. Nothing is left when no place remains. -/
def fit? (negative : Bool) (mantissa : Nat) : Nat → Nat → Option Decimal
  | 0, dropped => ofParts? negative (Binary64.divHalfEven mantissa (Nat.pow 10 dropped)) 0
  | scale + 1, dropped =>
    if Word.count 96 ≤ mantissa / Nat.pow 10 dropped then fit? negative mantissa scale (dropped + 1)
    else
      match ofParts? negative (Binary64.divHalfEven mantissa (Nat.pow 10 dropped)) (scale + 1) with
      | some d => some d
      | none => fit? negative mantissa scale (dropped + 1)

/-- The signed mantissa at a scale that is not smaller. -/
def aligned (d : Decimal) (scale : Nat) : Int :=
  let n : Int := d.mantissa * Nat.pow 10 (scale - d.scale)
  if d.negative then -n else n

/-- The sum at the larger scale. A zero gives way to the other operand, scale and all; a sum that
does not fit loses places, and there is none if it does not fit without places. -/
def add? (a b : Decimal) : Option Decimal :=
  if a.mantissa = 0 then some b
  else if b.mantissa = 0 then some a
  else
    let scale := max a.scale b.scale
    let sum := a.aligned scale + b.aligned scale
    fit? (decide (sum < 0)) sum.natAbs scale 0

/-- The nearest binary64 number of a whole decimal; otherwise the fraction is added in binary64 and
the sum rounded to the decimal's places once more. -/
def toFloat (d : Decimal) : Float :=
  if d.scale = 0 then
    let x := Float.ofNat d.mantissa
    if d.negative && d.mantissa != 0 then -x else x
  else
    let unit := Nat.pow 10 d.scale
    let whole := Float.ofNat (d.mantissa / unit)
    let fraction := Float.ofNat (d.mantissa % unit) / Float.ofNat unit
    let x :=
      if fraction == 0.0 then whole
      else
        let r := Binary64.power 10.0 d.scale
        Binary64.round ((whole + fraction) * r) / r
    if d.negative then -x else x

/-! ## Text -/

/-- The last `width` decimal digits of a number. -/
def places : Nat → Nat → List Char
  | 0, _ => []
  | width + 1, n => places width (n / 10) ++ [Nat.digitChar (n % 10)]

/-- The digits with exactly `scale` places; zero has no sign. -/
def render (d : Decimal) : List Char :=
  let unit := Nat.pow 10 d.scale
  let whole := Nat.toDigits 10 (d.mantissa / unit)
  let fraction := if d.scale = 0 then [] else '.' :: places d.scale (d.mantissa % unit)
  (if d.negative && d.mantissa != 0 then ['-'] else []) ++ whole ++ fraction

end Decimal

end Portfolio
