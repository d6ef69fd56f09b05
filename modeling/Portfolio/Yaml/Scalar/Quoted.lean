import Portfolio.Yaml.Scalar.Gap
import Portfolio.Text.Hex

/-! # Quoted scalars

Between single quotes two of them stand for one. Between double quotes a backslash starts an escape:
a letter for a control character, digits for a code point, or a line break that is left out. White
space follows the rule of `Gap` in both, and no document may start or end inside. -/

namespace Portfolio.Yaml

/-- The two kinds of quotes. -/
inductive QuoteMark where
  | single
  | double
  deriving DecidableEq

/-- The character that opens and closes. -/
def QuoteMark.char : QuoteMark → Char
  | .single => '\''
  | .double => '"'

namespace Quoted

/-- The characters that a backslash and one character stand for. -/
def shortEscape? : Char → Option Char
  | '0' => some '\x00'
  | 'a' => some '\x07'
  | 'b' => some '\x08'
  | 't' => some '\t'
  | '\t' => some '\t'
  | 'n' => some '\n'
  | 'v' => some '\x0b'
  | 'f' => some '\x0c'
  | 'r' => some '\r'
  | 'e' => some '\x1b'
  | ' ' => some ' '
  | '"' => some '"'
  | '/' => some '/'
  | '\\' => some '\\'
  | 'N' => some '\u0085'
  | '_' => some '\u00a0'
  | 'L' => some '\u2028'
  | 'P' => some '\u2029'
  | _ => none

/-- The number of hexadecimal digits after a backslash and the character. -/
def escapeDigits? : Char → Option Nat
  | 'x' => some 2
  | 'u' => some 4
  | 'U' => some 8
  | _ => none

/-- The character of a code point that is not a surrogate. -/
def scalarValue? (n : Nat) : Option Char :=
  if (0xD800 ≤ n ∧ n ≤ 0xDFFF) ∨ 0x10FFFF < n then none else some (Char.ofNat n)

/-- The character after a backslash and a letter, and what is left of the text. -/
def escape? (c : Char) (cs : List Char) :
    Option (Char × { rest : List Char // rest.length ≤ cs.length }) :=
  match escapeDigits? c with
  | none => (shortEscape? c).map fun d => (d, ⟨cs, Nat.le_refl _⟩)
  | some n =>
    if cs.length < n then none
    else ((Hex.number? (cs.take n)).bind scalarValue?).map fun d => (d, ⟨cs.drop n, by simp⟩)

/-- What the gap before the next character stands for. -/
def gapText (escaped : Bool) (gap : List Char) : List Char :=
  if escaped then Gap.textAfterEscape ⟨gap⟩ else Gap.text ⟨gap⟩

/-- Reads on to the closing quote, after a gap that may be empty and may have begun with an escaped
line break. The text after the quote is the second part. -/
def read? (q : QuoteMark) (escaped : Bool) (gap : List Char) :
    List Char → Option (List Char × List Char)
  | [] => none
  | c :: cs =>
    if isSpace c then read? q escaped (gap ++ [c]) cs
    else if gap ≠ [] ∧ Gap.breaksLine ⟨gap⟩ ∧ Gap.column ⟨gap⟩ = 0 ∧ atMarker (c :: cs) then none
    else
      let spaces := gapText escaped gap
      if c = q.char then
        match q, cs with
        | .single, '\'' :: cs => (read? q false [] cs).map fun r => (spaces ++ '\'' :: r.1, r.2)
        | _, _ => some (spaces, cs)
      else if c = '\\' ∧ q = .double then
        match cs with
        | [] => none
        | d :: ds =>
          if isBreak d then (read? q true [d] ds).map fun r => (spaces ++ r.1, r.2)
          else
            match escape? d ds with
            | none => none
            | some (e, ⟨rest, _⟩) => (read? q false [] rest).map fun r => (spaces ++ e :: r.1, r.2)
      else (read? q false [] cs).map fun r => (spaces ++ c :: r.1, r.2)
  termination_by cs => cs.length
  decreasing_by all_goals simp_all; try omega

end Quoted

end Portfolio.Yaml
