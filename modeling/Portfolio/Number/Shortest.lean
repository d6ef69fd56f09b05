import Portfolio.Number.Binary64

/-! # The shortest decimal that reads back

`shortest x` gives the fewest decimal digits that a correctly rounding reader turns back into `x`,
and of those the nearest to `x`. The reals that round to `x` form an interval around it, closed if
the mantissa is even; on the grid of `n` digits only the two neighbours of `x` need a test, since
the interval holds a point of the grid only if it holds one of them. -/

namespace Portfolio.Binary64

/-- `digits * 10 ^ exponent`, the digits not ending in zero unless they are zero. -/
structure Digits where
  digits : Nat
  exponent : Int
  deriving DecidableEq, Repr

/-- The interval that rounds to a number: `low`, `mid`, `high` over a common denominator. -/
structure Interval where
  low : Nat
  mid : Nat
  high : Nat
  denominator : Nat
  closed : Bool

/-- The interval of a positive number. Below a power of two the neighbour is half as far. -/
def Interval.ofParts (p : Parts) : Interval :=
  let below := if p.mantissa = Word.count 52 ∧ -1074 < p.exponent then 1 else 2
  let scale := p.exponent - 2
  let up := Nat.pow 2 scale.toNat
  { low := (4 * p.mantissa - below) * up
    mid := 4 * p.mantissa * up
    high := (4 * p.mantissa + 2) * up
    denominator := Nat.pow 2 (-scale).toNat
    closed := p.mantissa % 2 = 0 }

/-- `d * unit` lies in the interval, all over the denominator. -/
def Interval.holds (i : Interval) (v : Nat) : Bool :=
  if i.closed then i.low ≤ v && v ≤ i.high else i.low < v && v < i.high

/-- The interval with its bounds multiplied by `10 ^ k`, or divided for a negative `k`. -/
def Interval.shift (i : Interval) (k : Int) : Interval :=
  let up := Nat.pow 10 k.toNat
  { i with
    low := i.low * up
    mid := i.mid * up
    high := i.high * up
    denominator := i.denominator * Nat.pow 10 (-k).toNat }

/-- The nearer of the two neighbours of the middle on the grid of whole numbers, if one lies in the
interval. -/
def Interval.pick (i : Interval) : Option Nat :=
  let d := i.mid / i.denominator
  let down := i.holds (d * i.denominator)
  let up := i.holds ((d + 1) * i.denominator)
  match down, up with
  | true, true => some (divHalfEven i.mid i.denominator)
  | true, false => some d
  | false, true => some (d + 1)
  | false, false => none

/-- The least `e` with the middle below `10 ^ e`, searched upwards from an estimate. -/
def Interval.magnitude (i : Interval) : Int :=
  let guess := ((Nat.log2 i.mid : Int) - (Nat.log2 i.denominator : Int) - 1) * 30103 / 100000
  let below (e : Int) : Bool := i.mid * Nat.pow 10 (-e).toNat < i.denominator * Nat.pow 10 e.toNat
  if below guess then guess
  else if below (guess + 1) then guess + 1
  else if below (guess + 2) then guess + 2
  else guess + 3

/-- Zeros at the end go into the exponent. -/
def stripZeros : Nat → Nat → Int → Digits
  | 0, d, e => ⟨d, e⟩
  | fuel + 1, d, e => if d ≠ 0 ∧ d % 10 = 0 then stripZeros fuel (d / 10) (e + 1) else ⟨d, e⟩

/-- The first grid of `n, n + 1, …` digits on which a number in the interval lies. -/
def Interval.search (i : Interval) (magnitude : Int) : Nat → Nat → Digits
  | 0, _ => ⟨i.mid / i.denominator, 0⟩
  | fuel + 1, n =>
    match (i.shift (n - magnitude)).pick with
    | some d => stripZeros 20 d (magnitude - n)
    | none => i.search magnitude fuel (n + 1)

/-- The shortest digits of the magnitude of a finite number. Seventeen digits always suffice. -/
def shortest (x : Float) : Digits :=
  let p := parts x
  if p.mantissa = 0 then ⟨0, 0⟩
  else
    let i := Interval.ofParts p
    i.search i.magnitude 17 1

example : shortest 0.1 = ⟨1, -1⟩ ∧ shortest 1e23 = ⟨1, 23⟩ ∧ shortest 5e-324 = ⟨5, -324⟩ := by
  decide +kernel
example : shortest 0.30000000000000004 = ⟨30000000000000004, -17⟩ := by decide +kernel
example : shortest 1024.0 = ⟨1024, 0⟩ ∧ shortest 9007199254740993.0 = ⟨9007199254740992, 0⟩ := by
  decide +kernel

end Portfolio.Binary64
