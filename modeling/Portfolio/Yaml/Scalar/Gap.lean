import Portfolio.Yaml.Source

/-! # Gaps

The blanks and line breaks between two words of a plain or quoted scalar. Without a line break they
are kept. With one, the blanks go; the first break becomes a space, or nothing if more breaks
follow, and those are kept. A separator of Unicode is kept even as the first break. -/

namespace Portfolio.Yaml

/-- White space between words, as it is written. -/
structure Gap where
  chars : List Char

namespace Gap

/-- What follows the first break, that break included. -/
def broken (g : Gap) : List Char :=
  g.chars.dropWhile isBlank

/-- It runs over the end of a line. -/
def breaksLine (g : Gap) : Bool :=
  !g.broken.isEmpty

def text (g : Gap) : List Char :=
  match g.broken with
  | [] => g.chars
  | b :: more =>
    let kept := more.filter isBreak
    if b != '\n' then b :: kept
    else if kept.isEmpty then [' ']
    else kept

/-- What it stands for after a backslash has cancelled its first break. -/
def textAfterEscape (g : Gap) : List Char :=
  (g.chars.drop 1).filter isBreak

/-- The blanks at the start of the line on which the gap ends. -/
def column (g : Gap) : Nat :=
  (g.chars.reverse.takeWhile isBlank).length

/-- The lines of the gap after its first break. -/
def lines (g : Gap) : List (List Char) :=
  match g.broken with
  | [] => []
  | _ :: more => more.splitOnP isBreak

/-- A line after the first indents with a tab. -/
def tabIndented (g : Gap) (indent : Nat) : Bool :=
  g.lines.any fun l => (l.take indent).contains '\t'

end Gap

example : Gap.text ⟨" \n  ".toList⟩ = [' '] := by decide +kernel
example : Gap.text ⟨" \n \n ".toList⟩ = ['\n'] := by decide +kernel
example : Gap.column ⟨" \n   ".toList⟩ = 3 := by decide +kernel

end Portfolio.Yaml
