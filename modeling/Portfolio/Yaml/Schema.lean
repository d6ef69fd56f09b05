import Portfolio.Number.FloatText
import Portfolio.Text.Hex

/-! # What plain scalars mean

The words for nothing, truth values and numbers in the core schema. -/

namespace Portfolio.Yaml.Schema

def isNull (cs : List Char) : Bool :=
  ["null", "Null", "NULL", "~"].contains (String.ofList cs)

def bool? (cs : List Char) : Option Bool :=
  if ["true", "True", "TRUE"].contains (String.ofList cs) then some true
  else if ["false", "False", "FALSE"].contains (String.ofList cs) then some false
  else none

/-- The number that digits of a base spell. -/
def digits? (base : Nat) (cs : List Char) : Option Nat :=
  if cs.isEmpty then none
  else cs.foldlM (fun n c =>
    (Hex.digit? c).bind fun d => if d < base then some (n * base + d) else none) 0

/-- Several digits of which the first is a zero spell no number. -/
def isZeroPadded (cs : List Char) : Bool :=
  match (Numeral.sign cs).2 with
  | '0' :: d :: ds => (d :: ds).all Char.isDigit
  | _ => false

/-- A whole number without a sign: in base ten, or in another base after its mark. -/
def magnitude? : List Char → Option Nat
  | '0' :: 'x' :: cs => digits? 16 cs
  | '0' :: 'o' :: cs => digits? 8 cs
  | '0' :: 'b' :: cs => digits? 2 cs
  | cs => if isZeroPadded cs then none else digits? 10 cs

def integer? (cs : List Char) : Option Int :=
  let (negative, cs) := Numeral.sign cs
  (magnitude? cs).map fun n => if negative then -(n : Int) else n

/-- A whole number without a minus sign. -/
def natural? (cs : List Char) : Option Nat :=
  if cs.head? = some '-' then none else (integer? cs).map Int.toNat

/-- The words for the infinities and the value that is no number. -/
def specialFloat? (cs : List Char) : Option Float :=
  let word := String.ofList cs
  if [".inf", ".Inf", ".INF", "+.inf", "+.Inf", "+.INF"].contains word then some Binary64.infinity
  else if ["-.inf", "-.Inf", "-.INF"].contains word then some (-Binary64.infinity)
  else if [".nan", ".NaN", ".NAN"].contains word then some Binary64.nan
  else none

/-- A number with or without a fraction. Numerals too large for binary64 are none. -/
def float? (cs : List Char) : Option Float :=
  (specialFloat? cs).or
    (((Numeral.ofChars? cs).map Numeral.toFloat).filter Binary64.isFinite)

example : integer? "-0x1F".toList = some (-31) ∧ integer? "017".toList = none := by decide +kernel
example : natural? "+5".toList = some 5 ∧ natural? "-5".toList = none := by decide +kernel

end Portfolio.Yaml.Schema
