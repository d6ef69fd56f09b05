import Portfolio.Number.FloatText
import Portfolio.Text.Blank
import Portfolio.Text.Alphabetic

/-! # Durations

A duration is a whole number of nanoseconds, less than `2 ^ 64` seconds. A text is a number with an
optional unit (`ms`, `us`, `ns`, `h`, `m`, `s`), and the empty text is no time at all. -/

namespace Portfolio

/-- A length of time, in nanoseconds. -/
structure Duration where
  count : Fin 18446744073709551616000000000
  deriving DecidableEq, Repr, Inhabited

/-- Why a text or a number is no duration; the texts are the trimmed ones. -/
inductive DurationError where
  /-- No number, or a letter at its end. -/
  | unknownUnit (text : String)
  | invalidNumber (number : String)
  | negative (seconds : Float)
  /-- `2 ^ 64` seconds and more, or not a number. -/
  | tooBig (seconds : Float)

namespace Duration

def nanos (d : Duration) : Nat := d.count

theorem nanos_lt (d : Duration) : d.nanos < Word.count 64 * 1000000000 :=
  d.count.isLt

theorem eq_of_nanos_eq {d e : Duration} (h : d.nanos = e.nanos) : d = e := by
  cases d
  cases e
  exact congrArg Duration.mk (Fin.ext h)

/-- So many nanoseconds, or the longest duration there is. -/
def ofNanos (n : Nat) : Duration :=
  ⟨⟨min n (Word.count 64 * 1000000000 - 1), Nat.lt_of_le_of_lt (Nat.min_le_right ..) (by decide)⟩⟩

theorem nanos_ofNanos {n : Nat} (h : n < Word.count 64 * 1000000000) : (ofNanos n).nanos = n :=
  Nat.min_eq_left (Nat.le_sub_one_of_lt h)

def zero : Duration := ⟨0⟩

def ofMillis (n : Nat) : Duration := .ofNanos (n * 1000000)

def ofSeconds (n : Nat) : Duration := .ofNanos (n * 1000000000)

def seconds (d : Duration) : Nat := d.nanos / 1000000000

/-- The nanoseconds beyond the whole seconds. -/
def subsecond (d : Duration) : Nat := d.nanos % 1000000000

def isZero (d : Duration) : Bool := d.nanos == 0

/-- A number of seconds, to the nearest nanosecond and a half to the even one. -/
def ofFloat (seconds : Float) : Except DurationError Duration :=
  if seconds < 0.0 then .error (.negative seconds)
  else if seconds < 18446744073709551616.0 then .ok (.ofNanos (Binary64.units seconds 1000000000))
  else .error (.tooBig seconds)

/-! ## Text -/

/-- The units and their seconds, those of two letters first so that `ms` is never read as `s`. -/
def timeUnits : List (List Char × Float) :=
  [(['m', 's'], 1e-3), (['u', 's'], 1e-6), (['n', 's'], 1e-9), (['h'], 3600.0), (['m'], 60.0),
   (['s'], 1.0)]

/-- The text without the unit at its end. -/
def withoutUnit? (text unit : List Char) : Option (List Char) :=
  if unit.isSuffixOf text then some (text.take (text.length - unit.length)) else none

/-- The number and the seconds of the unit after it, one if there is none. -/
def splitUnit (text : List Char) : List Char × Float :=
  (timeUnits.findSome? fun u => (withoutUnit? text u.1).map (·, u.2)).getD (text, 1.0)

def ofChars (cs : List Char) : Except DurationError Duration :=
  let text := Text.trim cs
  if text = [] then .ok zero
  else
    let (number, unit) := splitUnit text
    let number := Text.trim number
    match number.getLast? with
    | none => .error (.unknownUnit (String.ofList text))
    | some last =>
      if Text.isAlphabetic last then .error (.unknownUnit (String.ofList text))
      else
        match FloatText.read? number with
        | none => .error (.invalidNumber (String.ofList number))
        | some x => ofFloat (x * unit)

/-- A count of a unit with its fraction, `places` digits of it, without zeros at the end. -/
def renderIn (whole fraction places : Nat) (unit : String) : String :=
  let ds := Nat.toDigits 10 fraction
  let ds := List.replicate (places - ds.length) '0' ++ ds
  let ds := (ds.reverse.dropWhile (· == '0')).reverse
  toString whole ++ (if fraction = 0 then "" else "." ++ String.ofList ds) ++ unit

/-- The largest unit of which there is at least one, with a decimal fraction. -/
def render (d : Duration) : String :=
  let n := d.nanos
  if 1000000000 ≤ n then renderIn (n / 1000000000) (n % 1000000000) 9 "s"
  else if 1000000 ≤ n then renderIn (n / 1000000) (n % 1000000) 6 "ms"
  else if 1000 ≤ n then renderIn (n / 1000) (n % 1000) 3 "µs"
  else renderIn n 0 0 "ns"

end Duration

def DurationError.message : DurationError → String
  | .unknownUnit text => "unknown duration unit in: " ++ text
  | .invalidNumber number => "invalid duration number: " ++ number
  | .negative x =>
    "invalid duration " ++ FloatStyle.plain.render x ++
      ": cannot convert float seconds to Duration: value is negative"
  | .tooBig x =>
    "invalid duration " ++ FloatStyle.plain.render x ++
      ": cannot convert float seconds to Duration: value is either too big or NaN"

example : (Duration.ofChars " 1.5 ms ".toList).toOption = some ⟨1500000⟩ := by decide +kernel
example : Duration.render ⟨1500000000⟩ = "1.5s" ∧ Duration.render ⟨2000⟩ = "2µs" := by
  decide +kernel

end Portfolio
