import Portfolio.Yaml.Source

/-! # Block scalars

A header says whether lines are folded, what becomes of the breaks at the end and, if it likes, how
far the lines are indented; else the first line that is not blank says it. The scalar ends before
the first line that is indented less. -/

namespace Portfolio.Yaml

namespace Block

/-- What becomes of the line breaks at the end. -/
inductive Chomping where
  | strip
  | clip
  | keep
  deriving DecidableEq

/-- The signs after the bar or the angle bracket. -/
structure Header where
  folded : Bool
  chomping : Chomping
  /-- The indentation beyond that of the parent. -/
  increment : Option Nat

/-- The sign for the breaks at the end, and the rest. -/
def chomping? : List Char → Option (Chomping × List Char)
  | '+' :: cs => some (.keep, cs)
  | '-' :: cs => some (.strip, cs)
  | _ => none

/-- The digit for the indentation, if there is one, and the rest; a zero is refused. -/
def increment? : List Char → Option (Option Nat × List Char)
  | [] => some (none, [])
  | c :: cs =>
    if c = '0' then none
    else if c.isDigit then some (some (c.toNat - '0'.toNat), cs)
    else some (none, c :: cs)

/-- The header after its first character, up to the end of its line, with the lines after it. -/
def header? (folded : Bool) (cs : List Char) : Option (Header × List Char) := do
  let (chomp, increment, cs) ← match chomping? cs with
    | some (chomp, cs) => (increment? cs).map fun r => (chomp, r.1, r.2)
    | none => do
      let (increment, cs) ← increment? cs
      match increment, chomping? cs with
      | some n, some (chomp, cs) => pure (chomp, some n, cs)
      | increment, _ => pure (.clip, increment, cs)
  let cs := skipComment (cs.dropWhile isBlank)
  if atBreak cs then some (⟨folded, chomp, increment⟩, cs.drop 1) else none

/-! ## Lines -/

/-- A line and the break that ends it; the last line of a text has none. -/
structure Line where
  chars : List Char
  stop : Option Char

/-- The lines of a text, the last of them without a break. -/
def Line.split : List Char → List Line
  | [] => [⟨[], none⟩]
  | c :: cs =>
    if isBreak c then ⟨[], some c⟩ :: split cs
    else
      match split cs with
      | [] => [⟨[c], none⟩]
      | l :: ls => ⟨c :: l.chars, l.stop⟩ :: ls

namespace Line

def spaces (l : Line) : Nat :=
  (l.chars.takeWhile (· == ' ')).length

/-- The characters with the break. -/
def size (l : Line) : Nat :=
  l.chars.length + l.stop.toList.length

end Line

/-- The indentation that the lines show: that of the first which is not blank, or of a wider blank
line before it. A tab may not indent. -/
def indentation? (widest : Nat) : List Line → Option Nat
  | [] => some widest
  | l :: ls =>
    let widest := max widest l.spaces
    match l.chars.drop l.spaces, l.stop with
    | '\t' :: _, _ => none
    | [], some _ => indentation? widest ls
    | _, _ => some widest

/-- A line with text, and the breaks of the blank lines before it. -/
structure Row where
  before : List Char
  body : List Char
  stop : Option Char

/-- The lines of a scalar: those with text, the breaks of the blank lines at the end, and the number
of characters read. -/
structure Rows where
  rows : List Row
  after : List Char
  size : Nat

/-- The same after one more line. -/
def Rows.past (r : Rows) (l : Line) : Rows :=
  { r with size := r.size + l.size }

/-- Reads lines of the indentation, after blank lines with the given breaks. -/
def Rows.read? (indent : Nat) (before : List Char) : List Line → Option Rows
  | [] => some ⟨[], before, 0⟩
  | l :: ls =>
    let spaces := min indent l.spaces
    match l.chars.drop spaces, l.stop with
    | [], some b => (read? indent (before ++ [b]) ls).map (·.past l)
    | [], none => some ⟨[], before, spaces⟩
    | c :: cs, stop =>
      if spaces < indent then if c = '\t' then none else some ⟨[], before, spaces⟩
      else (read? indent [] ls).map fun r =>
        { r.past l with rows := ⟨before, c :: cs, stop⟩ :: r.rows }

/-! ## The text -/

def Row.isBlank (r : Row) : Bool :=
  r.body.head?.any Yaml.isBlank

/-- What stands between a line and the next. A folded break is a space, unless blank lines follow or
one of the lines starts with a blank. -/
def between (folded : Bool) (r next : Row) : List Char :=
  if folded ∧ r.stop = some '\n' ∧ !r.isBlank ∧ !next.isBlank then
    if next.before.isEmpty then [' '] else next.before
  else r.stop.toList ++ next.before

/-- The lines after a line, that line included, without what stands before it and after the last. -/
def join (folded : Bool) : List Row → List Char
  | [] => []
  | [r] => r.body
  | r :: next :: rs => r.body ++ between folded r next ++ join folded (next :: rs)

/-- The break of the last line. -/
def lastBreak (rs : List Row) : List Char :=
  (rs.getLast?.bind (·.stop)).toList

def Rows.text (h : Header) (r : Rows) : List Char :=
  let first := (r.rows.head?.map (·.before)).getD []
  first ++ join h.folded r.rows ++ match h.chomping with
    | .strip => []
    | .clip => lastBreak r.rows
    | .keep => lastBreak r.rows ++ r.after

/-- Reads a block scalar after its first character; `parent` is the least column of what stands in
the block around it. The text after the scalar is the second part. -/
def read? (folded : Bool) (parent : Option Nat) (cs : List Char) :
    Option (List Char × List Char) := do
  let (h, cs) ← header? folded cs
  let lines := Line.split cs
  let indent ← match h.increment with
    | some n => some (parent.getD 0 + n)
    | none => (indentation? 0 lines).map fun n => max n (max 1 ((parent.map (· + 1)).getD 0))
  let r ← Rows.read? indent [] lines
  pure (r.text h, cs.drop r.size)

end Block

example : (Block.read? true (some 0) "-\n  folded\n  text\nx".toList).map (·.1) =
    some "folded text".toList := by decide +kernel
example : (Block.read? false none " # c\n  a\n\n   b\n\n".toList).map (·.1) =
    some "a\n\n b\n".toList := by decide +kernel

end Portfolio.Yaml
