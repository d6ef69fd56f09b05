import Portfolio.Time.Timestamp
import Portfolio.Text.Blank

/-! # Dates and RFC 3339

The proleptic Gregorian calendar counts days by eras of four hundred years. A timestamp is written
in UTC, with as many groups of three fraction digits as it needs. The reader is lenient: fields may
be short, blanks may stand between them, and a blank may divide date and time; the offset from UTC
is mandatory. -/

namespace Portfolio.Calendar

/-- A day of the proleptic Gregorian calendar. -/
structure Date where
  year : Int
  month : Nat
  day : Nat
  deriving DecidableEq, Repr

/-- Days from the epoch to the date. A year here begins in March, so that its leap day is its last
day. -/
def Date.toDays (d : Date) : Int :=
  let y := if d.month ≤ 2 then d.year - 1 else d.year
  let era := y / 400
  let yearOfEra := y % 400
  let month : Int := (d.month + 9) % 12
  let dayOfYear := (153 * month + 2) / 5 + d.day - 1
  let dayOfEra := yearOfEra * 365 + yearOfEra / 4 - yearOfEra / 100 + dayOfYear
  era * 146097 + dayOfEra - 719468

/-- The date `n` days after the epoch. -/
def Date.ofDays (n : Int) : Date :=
  let z := n + 719468
  let era := z / 146097
  let dayOfEra := z % 146097
  let yearOfEra := (dayOfEra - dayOfEra / 1460 + dayOfEra / 36524 - dayOfEra / 146096) / 365
  let dayOfYear := dayOfEra - (365 * yearOfEra + yearOfEra / 4 - yearOfEra / 100)
  let month := (5 * dayOfYear + 2) / 153
  let day := dayOfYear - (153 * month + 2) / 5 + 1
  let y := yearOfEra + era * 400
  { year := if month < 10 then y else y + 1
    month := (if month < 10 then month + 3 else month - 9).toNat
    day := day.toNat }

def isLeapYear (y : Int) : Bool :=
  y % 4 == 0 && (y % 100 != 0 || y % 400 == 0)

def daysInMonth (y : Int) (m : Nat) : Nat :=
  if m = 2 then if isLeapYear y then 29 else 28
  else if m = 4 ∨ m = 6 ∨ m = 9 ∨ m = 11 then 30
  else 31

/-- The years for which there are dates. -/
def yearLimit : Int := 262142

def Date.isValid (d : Date) : Bool :=
  -yearLimit - 1 ≤ d.year && d.year ≤ yearLimit && 1 ≤ d.month && d.month ≤ 12 && 1 ≤ d.day &&
    d.day ≤ daysInMonth d.year d.month

/-! ## Writing -/

/-- A number with zeros in front up to the width. -/
def padded (width n : Nat) : List Char :=
  let ds := Nat.toDigits 10 n
  List.replicate (width - ds.length) '0' ++ ds

/-- Four digits, or a sign and at least five characters outside of four digits. -/
def renderYear (y : Int) : List Char :=
  if 0 ≤ y ∧ y ≤ 9999 then padded 4 y.toNat
  else (if y < 0 then '-' else '+') :: padded 4 y.natAbs

/-- The fraction of the second in groups of three digits, and nothing for none. -/
def renderFraction (nano : Nat) : List Char :=
  if nano = 0 then []
  else if nano % 1000000 = 0 then '.' :: padded 3 (nano / 1000000)
  else if nano % 1000 = 0 then '.' :: padded 6 (nano / 1000)
  else '.' :: padded 9 nano

/-- RFC 3339 in UTC. A leap second is second sixty. -/
def render (t : Timestamp) : List Char :=
  let date := Date.ofDays (t.second / 86400)
  let clock := (t.second % 86400).toNat
  let leap := t.nano / 1000000000
  renderYear date.year ++ '-' :: padded 2 date.month ++ '-' :: padded 2 date.day ++
    'T' :: padded 2 (clock / 3600) ++ ':' :: padded 2 (clock / 60 % 60) ++
    ':' :: padded 2 (clock % 60 + leap) ++ renderFraction (t.nano % 1000000000) ++ ['Z']

/-! ## Reading -/

/-- A number of one to `width` digits after blanks, and the rest. -/
def number? (width : Nat) (cs : List Char) : Option (Nat × List Char) :=
  let cs := Text.trimLeft cs
  let ds := (cs.take width).takeWhile Char.isDigit
  if ds = [] then none else some (Nat.ofDigitChars 10 ds 0, cs.drop ds.length)

/-- A year: up to four digits, or a sign and any number of digits. -/
def year? (cs : List Char) : Option (Int × List Char) :=
  match Text.trimLeft cs with
  | '-' :: cs => signed cs (-1)
  | '+' :: cs => signed cs 1
  | cs => (number? 4 cs).map fun (n, cs) => ((n : Int), cs)
where
  /-- The digits directly after a sign. -/
  signed (cs : List Char) (factor : Int) : Option (Int × List Char) :=
    let ds := cs.takeWhile Char.isDigit
    if ds = [] then none else some (factor * Nat.ofDigitChars 10 ds 0, cs.drop ds.length)

/-- A given character, after blanks. -/
def mark? (c : Char) (cs : List Char) : Option (List Char) :=
  match Text.trimLeft cs with
  | d :: cs => if d = c then some cs else none
  | [] => none

/-- The fraction of the second in nanoseconds; digits beyond the ninth count for nothing. -/
def fraction? : List Char → Option (Nat × List Char)
  | '.' :: cs =>
    let ds := (cs.take 9).takeWhile Char.isDigit
    if ds = [] then none
    else
      some (Nat.ofDigitChars 10 ds 0 * Nat.pow 10 (9 - ds.length),
        (cs.drop ds.length).dropWhile Char.isDigit)
  | cs => some (0, cs)

def pair? : List Char → Option (Nat × List Char)
  | a :: b :: cs =>
    if a.isDigit && b.isDigit then some (Nat.ofDigitChars 10 [a, b] 0, cs) else none
  | _ => none

/-- The offset from UTC in seconds: `Z`, the word `UTC`, or a sign with hours and minutes. -/
def offset? (cs : List Char) : Option (Int × List Char) :=
  if (cs.take 3).map Char.toUpper = ['U', 'T', 'C'] then some (0, cs.drop 3)
  else
    match cs with
    | 'Z' :: cs | 'z' :: cs => some (0, cs)
    | '+' :: cs => distance cs 1
    | '-' :: cs | '−' :: cs => distance cs (-1)
    | _ => none
where
  /-- Hours and minutes, with colons or blanks between them. -/
  distance (cs : List Char) (factor : Int) : Option (Int × List Char) := do
    let (hours, cs) ← pair? cs
    let (minutes, cs) ← pair? (cs.dropWhile fun c => c == ':' || Text.isBlank c)
    if 60 ≤ minutes then none
    else some (factor * (hours * 3600 + minutes * 60), cs)

/-- Reads a timestamp that fills the whole text but for blanks at its end. -/
def ofChars? (cs : List Char) : Option Timestamp := do
  let (year, cs) ← year? cs
  let cs ← mark? '-' cs
  let (month, cs) ← number? 2 cs
  let cs ← mark? '-' cs
  let (day, cs) ← number? 2 cs
  let cs ← match cs with
    | 'T' :: cs | 't' :: cs | ' ' :: cs => some cs
    | _ => none
  let (hour, cs) ← number? 2 cs
  let cs ← mark? ':' cs
  let (minute, cs) ← number? 2 cs
  let cs ← mark? ':' cs
  let (second, cs) ← number? 2 cs
  let (nano, cs) ← fraction? cs
  let (offset, cs) ← offset? (Text.trimLeft cs)
  let date : Date := ⟨year, month, day⟩
  if Text.trimLeft cs ≠ [] ∨ !date.isValid ∨ 24 ≤ hour ∨ 60 ≤ minute ∨ 61 ≤ second then none
  else if offset ≤ -86400 ∨ 86400 ≤ offset then none
  else
    let leap := second == 60
    let clock : Int := hour * 3600 + minute * 60 + (if leap then 59 else second)
    let total := date.toDays * 86400 + clock - offset
    if !(Date.ofDays (total / 86400)).isValid then none
    else some ⟨total, if leap then nano + 1000000000 else nano⟩

example : Date.ofDays 19417 = ⟨2023, 3, 1⟩ ∧ Date.toDays ⟨2023, 3, 1⟩ = 19417 := by decide
example : (ofChars? "2024-02-29T23:59:59+02:00".toList).map render =
    some "2024-02-29T21:59:59Z".toList := by decide +kernel

end Portfolio.Calendar
