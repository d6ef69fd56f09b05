import Portfolio.Text.CharRange

/-! # The characters of a YAML stream

Most control characters are refused, and every way to end a line but the two separators of Unicode
becomes `\n`. What follows in this folder reads a stream prepared so. -/

namespace Portfolio.Yaml

/-- The characters that a stream may hold. -/
def allowedRanges : List (Nat × Nat) :=
  [(0x9, 0xa), (0xd, 0xd), (0x20, 0x7e), (0x85, 0x85), (0xa0, 0xd7ff), (0xe000, 0xfffd),
   (0x10000, 0x10ffff)]

/-- One character for every line break of one or two characters. -/
def unifyBreaks : List Char → List Char
  | '\r' :: '\n' :: cs => '\n' :: unifyBreaks cs
  | '\r' :: cs => '\n' :: unifyBreaks cs
  | c :: cs => (if c = '\u0085' then '\n' else c) :: unifyBreaks cs
  | [] => []

/-- The characters of a text as the rest of this folder reads them. -/
def source? (s : String) : Option (List Char) :=
  if s.toList.all fun c => Text.inRanges allowedRanges c.toNat then some (unifyBreaks s.toList)
  else none

def isBreak (c : Char) : Bool :=
  c == '\n' || c == '\u2028' || c == '\u2029'

def isBlank (c : Char) : Bool :=
  c == ' ' || c == '\t'

def isSpace (c : Char) : Bool :=
  isBlank c || isBreak c

/-- Nothing here, or a separator of words. -/
def atSpace : List Char → Bool
  | [] => true
  | c :: _ => isSpace c

/-- Nothing here, or a line break. -/
def atBreak : List Char → Bool
  | [] => true
  | c :: _ => isBreak c

/-- Starts and continues the names of anchors, directives and tag handles. -/
def isNameChar (c : Char) : Bool :=
  c.isAlphanum || c == '-' || c == '_'

/-- Three hyphens stand here alone. -/
def atDocumentStart : List Char → Bool
  | '-' :: '-' :: '-' :: cs => atSpace cs
  | _ => false

/-- Three dots stand here alone. -/
def atDocumentEnd : List Char → Bool
  | '.' :: '.' :: '.' :: cs => atSpace cs
  | _ => false

/-- A document starts or ends here, if a line does. -/
def atMarker (cs : List Char) : Bool :=
  atDocumentStart cs || atDocumentEnd cs

/-- The text after the comment that may start here, up to the line break. -/
def skipComment (cs : List Char) : List Char :=
  if cs.head? = some '#' then cs.dropWhile (!isBreak ·) else cs

/-! ## Places -/

/-- The text still to read and where it starts. -/
structure Cursor where
  rest : List Char
  /-- The characters read. -/
  index : Nat
  line : Nat
  /-- The characters read of the line. -/
  column : Nat
  deriving Repr

namespace Cursor

def start (cs : List Char) : Cursor := ⟨cs, 0, 0, 0⟩

def next (c : Cursor) : Cursor :=
  match c.rest with
  | [] => c
  | x :: xs =>
    if isBreak x then ⟨xs, c.index + 1, c.line + 1, 0⟩ else ⟨xs, c.index + 1, c.line, c.column + 1⟩

def advance (c : Cursor) : Nat → Cursor
  | 0 => c
  | n + 1 => c.next.advance n

/-- At a later part of the text. -/
def goto (c : Cursor) (rest : List Char) : Cursor :=
  c.advance (c.rest.length - rest.length)

end Cursor

example : unifyBreaks "a\r\n\rb\u0085".toList = "a\n\nb\n".toList := by decide +kernel
example : ((Cursor.start "ab\ncd".toList).goto ['d']).column = 1 := by decide +kernel

end Portfolio.Yaml
