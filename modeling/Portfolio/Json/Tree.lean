import Portfolio.Json.Value
import Portfolio.Text.Hex
import Portfolio.Text.Utf8

/-! # The form of a JSON text

A tree holds the text of every number and the octets of every quoted text as they stand. What a
reader does not look at has to be well formed only: its numbers may be too large and its texts may
hold what is no character. Looking at a leaf (`text?`, `number?`) decides the rest. -/

namespace Portfolio.Json

inductive Tree where
  | null
  | bool (b : Bool)
  | number (text : List Char)
  | string (raw : List UInt8)
  | array (items : List Tree)
  | object (members : List (List UInt8 × Tree))
  deriving Inhabited

/-- The octet of an ASCII character. -/
def octet (c : Char) : UInt8 :=
  UInt8.ofNat c.toNat

/-- The character of an octet, right for ASCII. -/
def ascii (b : UInt8) : Char :=
  Char.ofNat b.toNat

def isSpace (b : UInt8) : Bool :=
  b == octet ' ' || b == octet '\n' || b == octet '\r' || b == octet '\t'

def skipSpace (bs : List UInt8) : List UInt8 :=
  bs.dropWhile isSpace

/-! ## Leaves -/

/-- The octets up to the closing quote, escapes left as they stand, and the rest. -/
def rawString? : List UInt8 → Option (List UInt8 × List UInt8)
  | [] => none
  | b :: bs =>
    if b == octet '"' then some ([], bs)
    else if b == octet '\\' then
      match bs with
      | [] => none
      | e :: bs =>
        if e == octet 'u' then
          match bs with
          | h :: i :: j :: k :: bs =>
            if [h, i, j, k].all fun x => (Hex.digit? (ascii x)).isSome then
              (rawString? bs).map fun (raw, rest) => (b :: e :: h :: i :: j :: k :: raw, rest)
            else none
          | _ => none
        else if "\"\\/bfnrt".toList.any fun c => e == octet c then
          (rawString? bs).map fun (raw, rest) => (b :: e :: raw, rest)
        else none
    else if b < 32 then none
    else (rawString? bs).map fun (raw, rest) => (b :: raw, rest)

/-- The digits at the start, and the rest. -/
def digitRun (bs : List UInt8) : List Char × List UInt8 :=
  ((bs.takeWhile fun b => (ascii b).isDigit).map ascii, bs.dropWhile fun b => (ascii b).isDigit)

/-- Digits without a needless zero in front. -/
def wholePart? (bs : List UInt8) : Option (List Char × List UInt8) :=
  match digitRun bs with
  | ([], _) => none
  | ('0' :: _ :: _, _) => none
  | r => some r

/-- A point and digits, or nothing. -/
def fractionPart? : List UInt8 → Option (List Char × List UInt8)
  | [] => some ([], [])
  | b :: bs =>
    if b == octet '.' then
      match digitRun bs with
      | ([], _) => none
      | (ds, rest) => some ('.' :: ds, rest)
    else some ([], b :: bs)

/-- A mark, an optional sign and digits, or nothing. -/
def exponentPart? : List UInt8 → Option (List Char × List UInt8)
  | [] => some ([], [])
  | b :: bs =>
    if b == octet 'e' || b == octet 'E' then
      let (sign, bs) := match bs with
        | s :: rest => if s == octet '+' || s == octet '-' then ([ascii s], rest) else ([], bs)
        | [] => ([], [])
      match digitRun bs with
      | ([], _) => none
      | (ds, rest) => some ('e' :: sign ++ ds, rest)
    else some ([], b :: bs)

/-- A number, and the rest. -/
def numberText? (bs : List UInt8) : Option (List Char × List UInt8) := do
  let (sign, bs) := match bs with
    | b :: rest => if b == octet '-' then (['-'], rest) else ([], bs)
    | [] => ([], [])
  let (whole, bs) ← wholePart? bs
  let (fraction, bs) ← fractionPart? bs
  let (exponent, bs) ← exponentPart? bs
  pure (sign ++ whole ++ fraction ++ exponent, bs)

/-- The rest after a word. -/
def afterWord? (word : String) (bs : List UInt8) : Option (List UInt8) :=
  let w := word.toList.map octet
  if w.isPrefixOf bs then some (bs.drop w.length) else none

/-! ## The whole text -/

mutual

/-- A value after blanks, and the rest. Every call takes an octet or is inside one that did, so
twice the length of the text is fuel enough. -/
def value? : Nat → List UInt8 → Option (Tree × List UInt8)
  | 0, _ => none
  | fuel + 1, bs =>
    match skipSpace bs with
    | [] => none
    | b :: rest =>
      if b == octet '"' then (rawString? rest).map fun (raw, rest) => (.string raw, rest)
      else if b == octet '[' then
        match skipSpace rest with
        | [] => none
        | c :: after =>
          if c == octet ']' then some (.array [], after)
          else (items? fuel (c :: after)).map fun (vs, rest) => (.array vs, rest)
      else if b == octet '\x7b' then
        match skipSpace rest with
        | [] => none
        | c :: after =>
          if c == octet '\x7d' then some (.object [], after)
          else (members? fuel (c :: after)).map fun (ms, rest) => (.object ms, rest)
      else if b == octet 'n' then (afterWord? "ull" rest).map fun rest => (.null, rest)
      else if b == octet 't' then (afterWord? "rue" rest).map fun rest => (.bool true, rest)
      else if b == octet 'f' then (afterWord? "alse" rest).map fun rest => (.bool false, rest)
      else (numberText? (b :: rest)).map fun (text, rest) => (.number text, rest)

/-- Values with commas between them up to the closing bracket. -/
def items? : Nat → List UInt8 → Option (List Tree × List UInt8)
  | 0, _ => none
  | fuel + 1, bs => do
    let (v, bs) ← value? fuel bs
    match skipSpace bs with
    | [] => none
    | c :: rest =>
      if c == octet ']' then pure ([v], rest)
      else if c == octet ',' then
        let (vs, rest) ← items? fuel rest
        pure (v :: vs, rest)
      else none

/-- Members with commas between them up to the closing brace. -/
def members? : Nat → List UInt8 → Option (List (List UInt8 × Tree) × List UInt8)
  | 0, _ => none
  | fuel + 1, bs =>
    match skipSpace bs with
    | [] => none
    | q :: rest =>
      if q == octet '"' then do
        let (key, rest) ← rawString? rest
        match skipSpace rest with
        | [] => none
        | colon :: rest =>
          if colon == octet ':' then
            let (v, rest) ← value? fuel rest
            match skipSpace rest with
            | [] => none
            | c :: rest =>
              if c == octet '\x7d' then pure ([(key, v)], rest)
              else if c == octet ',' then
                let (ms, rest) ← members? fuel rest
                pure ((key, v) :: ms, rest)
              else none
          else none
      else none

end

/-- The tree of a text that holds one value and blanks. -/
def Tree.ofBytes? (bs : List UInt8) : Option Tree := do
  let (t, rest) ← value? (2 * bs.length + 2) bs
  if skipSpace rest = [] then some t else none

/-! ## Looking at leaves -/

/-- Four hexadecimal digits. -/
def unit? (h i j k : UInt8) : Option Nat :=
  Hex.number? ([h, i, j, k].map ascii)

/-- The octets that the raw ones stand for. A surrogate counts only in a pair. -/
def unescape? : List UInt8 → Option (List UInt8)
  | [] => some []
  | b :: bs =>
    if b != octet '\\' then (unescape? bs).map (b :: ·)
    else
      match bs with
      | [] => none
      | e :: bs =>
        if e != octet 'u' then
          let c :=
            if e == octet 'b' then 8 else if e == octet 'f' then 12 else if e == octet 'n' then 10
            else if e == octet 'r' then 13 else if e == octet 't' then 9 else e
          (unescape? bs).map (c :: ·)
        else
          match bs with
          | h :: i :: j :: k :: bs => do
            let n ← unit? h i j k
            if n < 0xD800 ∨ 0xDFFF < n then
              let rest ← unescape? bs
              pure (Utf8.encode (Char.ofNat n).toString ++ rest)
            else if 0xDC00 ≤ n then none
            else
              match bs with
              | x :: y :: h :: i :: j :: k :: bs =>
                if x == octet '\\' && y == octet 'u' then
                  let m ← unit? h i j k
                  if m < 0xDC00 ∨ 0xDFFF < m then none
                  else
                    let c := Char.ofNat (0x10000 + (n - 0xD800) * 0x400 + (m - 0xDC00))
                    let rest ← unescape? bs
                    pure (Utf8.encode c.toString ++ rest)
                else none
              | _ => none
          | _ => none

def textOf? (raw : List UInt8) : Option String :=
  (unescape? raw).bind fun bs => (Utf8.decode? bs).map String.ofList

/-- The number that a numeral spells: whole if it is written so and fits sixty-four bits. A zero
with a minus sign is not whole, and no number is infinite. -/
def Number.ofText? (text : List Char) : Option Number :=
  let whole := text.all fun c => c.isDigit || c == '-'
  let asFloat : Option Number :=
    (Numeral.ofChars? text).bind fun n =>
      let x := n.toFloat
      if Binary64.isFinite x then some (.float x) else none
  if whole then
    match Numeral.integer? text with
    | some n =>
      if n = 0 ∧ text.head? = some '-' then some (.float (-0.0))
      else if Word.Holds 64 n then some (.int n)
      else asFloat
    | none => none
  else asFloat

mutual

/-- Looks at everything. -/
def Value.ofTree? : Tree → Option Value
  | .null => some .null
  | .bool b => some (.bool b)
  | .number text => (Number.ofText? text).map .number
  | .string raw => (textOf? raw).map .string
  | .array items => (valuesOf? items).map .array
  | .object members => (membersOf? members).map .object

def valuesOf? : List Tree → Option (List Value)
  | [] => some []
  | t :: ts => do
    let v ← Value.ofTree? t
    let vs ← valuesOf? ts
    pure (v :: vs)

def membersOf? : List (List UInt8 × Tree) → Option (List (String × Value))
  | [] => some []
  | (k, t) :: ms => do
    let name ← textOf? k
    let v ← Value.ofTree? t
    let vs ← membersOf? ms
    pure ((name, v) :: vs)

end

def Value.parse? (s : String) : Option Value :=
  (Tree.ofBytes? (Utf8.encode s)).bind Value.ofTree?

end Portfolio.Json
