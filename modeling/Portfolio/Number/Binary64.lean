import Portfolio.Number.Word

/-! # Binary64 numbers taken apart

A finite binary64 number is a sign, a mantissa below `2 ^ 53` and a power of two. `parts` reads the
three off the bit pattern; rounding to an integer and to a whole count of units are then exact
arithmetic on naturals. -/

namespace Portfolio.Binary64

/-- `mantissa * 2 ^ exponent`, with a sign. -/
structure Parts where
  negative : Bool
  mantissa : Nat
  exponent : Int
  deriving DecidableEq, Repr

/-- The bits below the sign and the exponent. -/
def fractionBits (x : Float) : Nat :=
  x.toBits.toNat % Word.count 52

def exponentBits (x : Float) : Nat :=
  x.toBits.toNat / Word.count 52 % Word.count 11

/-- The sign bit, which zero and NaN have too. -/
def signBit (x : Float) : Bool :=
  Word.count 63 ≤ x.toBits.toNat

/-- The parts of a finite number, and the pattern's own reading for the others. -/
def parts (x : Float) : Parts :=
  if exponentBits x = 0 then ⟨signBit x, fractionBits x, -1074⟩
  else ⟨signBit x, fractionBits x + Word.count 52, (exponentBits x : Int) - 1075⟩

/-- Neither a NaN nor an infinity. -/
def isFinite (x : Float) : Bool :=
  exponentBits x != 2047

/-- The NaN that a text or a document can name. -/
def nan : Float :=
  Float.ofBits 0x7ff8000000000000

def infinity : Float :=
  Float.ofBits 0x7ff0000000000000

/-- The quotient of two naturals and whether a half was passed, met or not reached. -/
inductive Half where
  | below
  | exact
  | above
  deriving DecidableEq, Repr

/-- Where the remainder of `n / d` lies against a half. -/
def half (n d : Nat) : Half :=
  match compare (2 * (n % d)) d with
  | .lt => .below
  | .eq => .exact
  | .gt => .above

/-- The natural nearest to `n / d`, a half going away from zero. -/
def divHalfUp (n d : Nat) : Nat :=
  match half n d with
  | .below => n / d
  | _ => n / d + 1

/-- The natural nearest to `n / d`, a half going to the even neighbour. -/
def divHalfEven (n d : Nat) : Nat :=
  match half n d with
  | .below => n / d
  | .exact => if n / d % 2 = 0 then n / d else n / d + 1
  | .above => n / d + 1

/-- The whole number nearest to a finite `x`, a half going away from zero. -/
def round (x : Float) : Float :=
  let p := parts x
  if !isFinite x || 0 ≤ p.exponent then x
  else
    let n := Float.ofNat (divHalfUp p.mantissa (Nat.pow 2 (-p.exponent).toNat))
    if p.negative then -n else n

/-- The count of units nearest to the magnitude of a finite `x`, with `perOne` units in one; a half
goes to the even neighbour. -/
def units (x : Float) (perOne : Nat) : Nat :=
  let p := parts x
  if 0 ≤ p.exponent then p.mantissa * Nat.pow 2 p.exponent.toNat * perOne
  else divHalfEven (p.mantissa * perOne) (Nat.pow 2 (-p.exponent).toNat)

/-- `digits * 10 ^ exponent`, correctly rounded. The bounds keep the power small: beyond them the
number is an infinity or zero. -/
def ofDigits (digits : Nat) (exponent : Int) : Float :=
  let size : Int := exponent + (Nat.log2 digits : Nat) * 30103 / 100000
  if digits = 0 ∨ size < -330 then 0.0
  else if 310 < size then infinity
  else if 0 ≤ exponent then Float.ofScientific digits false exponent.toNat
  else Float.ofScientific digits true (-exponent).toNat

/-- `x` multiplied by itself `n` times over, by squaring, each product rounded. -/
def power (x : Float) (n : Nat) : Float :=
  go n x n 1.0
where
  /-- `acc * x ^ n` with `fuel ≥ n`. -/
  go : Nat → Float → Nat → Float → Float
    | 0, _, _, acc => acc
    | fuel + 1, x, n, acc =>
      let acc := if n % 2 = 1 then acc * x else acc
      if n / 2 = 0 then acc else go fuel (x * x) (n / 2) acc

example : parts 1.5 = ⟨false, 3 * 2 ^ 51, -52⟩ := by decide
example : parts (-0.0) = ⟨true, 0, -1074⟩ := by decide
example : units 2.5 1 = 2 ∧ units 3.5 1 = 4 ∧ units 0.1 1000 = 100 := by decide +kernel
example : divHalfUp 5 2 = 3 ∧ divHalfEven 5 2 = 2 ∧ divHalfEven 7 2 = 4 := by decide

end Portfolio.Binary64
