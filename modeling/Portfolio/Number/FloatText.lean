import Portfolio.Number.Shortest

/-! # Binary64 numbers as text

Reading: an optional sign, digits with at most one point and at least one digit, an optional
exponent; the value is rounded correctly. The words `inf`, `infinity` and `nan` are read in any
case. Writing: the shortest digits, laid out as a `FloatStyle` says. -/

namespace Portfolio

/-- `digits * 10 ^ exponent`, as a text spells it. -/
structure Numeral where
  negative : Bool
  digits : Nat
  exponent : Int
  deriving DecidableEq, Repr

namespace Numeral

/-- A leading sign, and the rest. -/
def sign : List Char → Bool × List Char
  | '-' :: cs => (true, cs)
  | '+' :: cs => (false, cs)
  | cs => (false, cs)

/-- The digits at the start, and the rest. -/
def run (cs : List Char) : List Char × List Char :=
  (cs.takeWhile Char.isDigit, cs.dropWhile Char.isDigit)

/-- A whole number: an optional sign and at least one digit, to the end. -/
def integer? (cs : List Char) : Option Int :=
  let (negative, cs) := sign cs
  match run cs with
  | ([], _) | (_, _ :: _) => none
  | (ds, []) =>
    let n : Int := Nat.ofDigitChars 10 ds 0
    some (if negative then -n else n)

/-- The digits on both sides of the point, and the rest. -/
def mantissa (cs : List Char) : List Char × List Char × List Char :=
  let (whole, cs) := run cs
  match cs with
  | '.' :: cs =>
    let (fraction, cs) := run cs
    (whole, fraction, cs)
  | cs => (whole, [], cs)

/-- The exponent that ends a numeral, zero if there is none. -/
def exponent? : List Char → Option Int
  | [] => some 0
  | 'e' :: cs | 'E' :: cs => integer? cs
  | _ => none

/-- Reads a numeral that fills the whole text. -/
def ofChars? (cs : List Char) : Option Numeral :=
  let (negative, cs) := sign cs
  let (whole, fraction, cs) := mantissa cs
  if whole = [] ∧ fraction = [] then none
  else (exponent? cs).map fun e =>
    ⟨negative, Nat.ofDigitChars 10 (whole ++ fraction) 0, e - fraction.length⟩

/-- The number that the numeral denotes, correctly rounded. -/
def toFloat (n : Numeral) : Float :=
  let x := Binary64.ofDigits n.digits n.exponent
  if n.negative then -x else x

end Numeral

namespace FloatText

/-- The words for the values that no numeral denotes. -/
def word? (cs : List Char) : Option Float :=
  let (negative, cs) := Numeral.sign cs
  let low := cs.map Char.toLower
  let value :=
    if low = "inf".toList ∨ low = "infinity".toList then some Binary64.infinity
    else if low = "nan".toList then some Binary64.nan
    else none
  value.map fun x => if negative then -x else x

/-- Reads a number that fills the whole text. -/
def read? (cs : List Char) : Option Float :=
  ((Numeral.ofChars? cs).map Numeral.toFloat).or (word? cs)

end FloatText

/-- How the shortest digits of a number are laid out. -/
structure FloatStyle where
  /-- The least power of ten whose multiples are written without an exponent; `none`: all. -/
  lowest : Option Int
  /-- The least power of ten that needs an exponent; `none`: no power does. -/
  highest : Option Int
  /-- A whole number keeps a point and a zero. -/
  point : Bool
  /-- A positive exponent has a sign. -/
  plus : Bool

namespace FloatStyle

/-- No exponent and no point after a whole number. -/
def plain : FloatStyle := ⟨none, none, false, false⟩

/-- Always recognisable as a number with a fraction. -/
def detailed : FloatStyle := ⟨some (-4), some 16, true, false⟩

/-- The digits with a point, and zeros where the digits do not reach. -/
def positional (s : FloatStyle) (ds : List Char) (exponent : Int) : List Char :=
  if 0 ≤ exponent then
    ds ++ List.replicate exponent.toNat '0' ++ (if s.point then ['.', '0'] else [])
  else
    let places := (-exponent).toNat
    if places < ds.length then ds.take (ds.length - places) ++ '.' :: ds.drop (ds.length - places)
    else '0' :: '.' :: (List.replicate (places - ds.length) '0' ++ ds)

/-- One digit before the point and the power of ten at the end. -/
def scientific (s : FloatStyle) (ds : List Char) (power : Int) : List Char :=
  let mark := if power < 0 then ['e', '-'] else if s.plus then ['e', '+'] else ['e']
  let head := match ds with
    | [] => []
    | [d] => [d]
    | d :: rest => d :: '.' :: rest
  head ++ mark ++ Nat.toDigits 10 power.natAbs

def magnitude (s : FloatStyle) (x : Float) : List Char :=
  let d := Binary64.shortest x
  let ds := Nat.toDigits 10 d.digits
  let power := d.exponent + ds.length - 1
  let low := match s.lowest with
    | some l => l ≤ power || d.digits = 0
    | none => true
  let high := match s.highest with
    | some h => power < h
    | none => true
  if low && high then s.positional ds d.exponent else s.scientific ds power

def render (s : FloatStyle) (x : Float) : String :=
  if x.isNaN then "NaN"
  else
    let mag := if Binary64.isFinite x then s.magnitude x else ['i', 'n', 'f']
    String.ofList (if Binary64.signBit x then '-' :: mag else mag)

end FloatStyle

/-- The bit pattern as sixteen hexadecimal digits, one text for every NaN. -/
def Binary64.pattern (x : Float) : String :=
  if x.isNaN then "NaN"
  else
    let ds := Nat.toDigits 16 x.toBits.toNat
    String.ofList (List.replicate (16 - ds.length) '0' ++ ds)

example : FloatStyle.plain.render 1e20 = "100000000000000000000" := by decide +kernel
example : FloatStyle.plain.render (-0.000000001) = "-0.000000001" := by decide +kernel
example : FloatStyle.detailed.render 0.0 = "0.0" ∧ FloatStyle.detailed.render 1e16 = "1e16" := by
  decide +kernel
example : Numeral.ofChars? "-12.50e+3".toList = some ⟨true, 1250, 1⟩ := by decide +kernel
example : Binary64.pattern 1.0 = "3ff0000000000000" := by decide +kernel

end Portfolio
