import Portfolio.Number.Decimal

/-! # Reading decimals

Digits with at most one point, an optional sign in front, and underscores anywhere after the first
digit. Fraction digits are taken while there is room: up to twenty-eight places and as long as the
mantissa stays below `2 ^ 96`. The first digit without room rounds the mantissa, and what follows
it only has to be made of digits and underscores. A text that is no plain decimal may be one times a
power of ten. -/

namespace Portfolio.Decimal

/-- A plain decimal while its digits are taken. -/
structure Partial where
  mantissa : Nat
  scale : Nat
  point : Bool
  any : Bool
  /-- The mantissa outgrew a machine word before the last place, so that underscores no longer end
  it. -/
  wide : Bool
  deriving DecidableEq, Repr

def Partial.start : Partial := ⟨0, 0, false, false, false⟩

/-- From here on a mantissa may not fit sixty-four bits together with one more digit. -/
def wordLimit : Nat := (Word.count 64 - 1) / 10 - 255

/-- What may follow the digit that rounded. -/
def isTail (c : Char) : Bool :=
  c.isDigit || c == '_'

/-- The finished decimal, if a digit was seen. -/
def Partial.finish? (p : Partial) (negative : Bool) : Option Decimal :=
  if p.any then ofParts? (negative && p.mantissa != 0) p.mantissa p.scale else none

/-- Rounds by the first digit without room. A mantissa that becomes `2 ^ 96` gives up a place. -/
def Partial.round? (p : Partial) (negative : Bool) (digit : Nat) : Option Decimal :=
  if digit < 5 then p.finish? negative
  else if p.mantissa + 1 < Word.count 96 then { p with mantissa := p.mantissa + 1 }.finish? negative
  else if p.scale = 0 then none
  else { p with mantissa := (p.mantissa + 5) / 10, scale := p.scale - 1 }.finish? negative

def Partial.push (p : Partial) (digit : Nat) : Partial :=
  let mantissa := p.mantissa * 10 + digit
  let scale := if p.point then p.scale + 1 else p.scale
  { p with mantissa, scale, any := true, wide := p.wide || wordLimit ≤ mantissa && scale != 28 }

def digitOf (c : Char) : Nat :=
  c.toNat - '0'.toNat

/-- Takes the digits of an unsigned plain decimal. -/
def Partial.take? (negative : Bool) : Partial → List Char → Option Decimal
  | p, [] => p.finish? negative
  | p, c :: cs =>
    if c.isDigit then
      if p.point && p.scale == 28 then
        if cs.all isTail then p.round? negative (digitOf c) else none
      else if p.mantissa * 10 + digitOf c < Word.count 96 then
        take? negative (p.push (digitOf c)) cs
      else if p.point then
        if cs.all isTail then p.round? negative (digitOf c) else none
      else none
    else if c == '.' && !p.point then take? negative { p with point := true } cs
    else if c == '_' && p.any then
      if p.point && p.scale == 28 && !p.wide then
        if cs.all isTail then p.finish? negative else none
      else take? negative p cs
    else none

/-- A plain decimal that fills the whole text. -/
def plain? (cs : List Char) : Option Decimal :=
  let (negative, cs) := Numeral.sign cs
  Partial.start.take? negative cs

/-- The mantissa without the zeros at the end of its fraction. -/
def stripped : Nat → Nat → Nat × Nat
  | m, 0 => (m, 0)
  | m, scale + 1 => if m % 10 = 0 then stripped (m / 10) scale else (m, scale + 1)

/-- Divided by `10 ^ n`: more places, or a rounding to the places that remain. -/
def shiftDown? (d : Decimal) (n : Nat) : Option Decimal :=
  if 28 < n then none
  else if d.scale + n ≤ 28 then ofParts? d.negative d.mantissa (d.scale + n)
  else
    let dropped := d.scale - (28 - n)
    ofParts? d.negative (Binary64.divHalfUp d.mantissa (Nat.pow 10 dropped)) 28

/-- Multiplied by `10 ^ n`, in steps of at most nineteen powers of ten, each rounded to fit. -/
def timesPower? (d : Decimal) (n : Nat) : Option Decimal :=
  if n ≤ 19 then fit? d.negative (d.mantissa * Nat.pow 10 n) d.scale 0
  else
    (fit? d.negative (d.mantissa * Nat.pow 10 19) d.scale 0).bind fun e =>
      fit? e.negative (e.mantissa * Nat.pow 10 (n - 19)) e.scale 0

/-- Multiplied by `10 ^ n`: fewer places while there are some, then a longer mantissa without zeros
at the end of its fraction. -/
def shiftUp? (d : Decimal) (n : Nat) : Option Decimal :=
  if n ≤ d.scale then ofParts? d.negative d.mantissa (d.scale - n)
  else if 28 < n then none
  else if d.mantissa = 0 then some zero
  else
    (timesPower? d n).bind fun p =>
      let (m, s) := stripped p.mantissa p.scale
      ofParts? p.negative m s

/-- An unsigned number of thirty-two bits, with an optional plus sign. -/
def word32? (cs : List Char) : Option Nat :=
  let ds := match cs with
    | '+' :: cs => cs
    | cs => cs
  if ds = [] ∨ !ds.all Char.isDigit then none
  else
    let n := Nat.ofDigitChars 10 ds 0
    if n < Word.count 32 then some n else none

/-- A plain decimal, `e` or `E`, and the power of ten. -/
def scientific? (cs : List Char) : Option Decimal :=
  let isMark (c : Char) : Bool := c == 'e' || c == 'E'
  match cs.dropWhile (!isMark ·) with
  | [] => none
  | _ :: power =>
    (plain? (cs.takeWhile (!isMark ·))).bind fun d =>
      match power with
      | '-' :: power => (word32? power).bind d.shiftDown?
      | power => (word32? power).bind d.shiftUp?

/-- Reads a decimal that fills the whole text. -/
def ofChars? (cs : List Char) : Option Decimal :=
  (plain? cs).or (scientific? cs)

example : (ofChars? "1_0.50".toList).map render = some "10.50".toList := by decide +kernel
example : (ofChars? "-0.0".toList).map render = some "0.0".toList := by decide +kernel
example : (ofChars? "79228162514264337593543950335.4".toList).isSome := by decide +kernel
example : (ofChars? "79228162514264337593543950335.5".toList).isNone := by decide +kernel
example : (ofChars? "1.5e3".toList).map render = some "1500".toList := by decide +kernel

end Portfolio.Decimal
