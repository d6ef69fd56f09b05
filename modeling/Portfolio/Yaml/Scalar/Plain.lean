import Portfolio.Yaml.Scalar.Gap

/-! # Plain scalars

A text without quotes ends before a colon and a space, before a hash sign after a gap, before a
bracket, brace or comma within brackets, before a marker at the start of a line and, outside
brackets, before a line that is indented less. -/

namespace Portfolio.Yaml

structure Place where
  /-- Within brackets or braces. -/
  flow : Bool
  /-- The least column of the lines that go on with it. -/
  indent : Nat

/-- A plain scalar that was read, the gap after it, and the text after the gap. -/
structure Plain where
  text : List Char
  gap : Gap
  rest : List Char

namespace Plain

/-- Ends words within brackets. -/
def isFlowIndicator (c : Char) : Bool :=
  c == ',' || c == '[' || c == ']' || c == '\x7b' || c == '\x7d'

def endsWord (flow : Bool) (c : Char) (cs : List Char) : Bool :=
  (c == ':' && atSpace cs) || (flow && isFlowIndicator c)

/-- A colon stands before an indicator, which no scalar within brackets may have. -/
def misplacedColon (flow : Bool) (c : Char) (cs : List Char) : Bool :=
  flow && c == ':' && match cs with
    | d :: _ => isFlowIndicator d || d == '?'
    | [] => false

/-- The scalar does not go on after the gap. -/
def endsAfter (p : Place) (g : Gap) (cs : List Char) : Bool :=
  (g.breaksLine && ((!p.flow && g.column < p.indent) || (g.column == 0 && atMarker cs))) ||
    cs.head? == some '#'

/-- Reads on after a gap that may be empty. -/
def read? (p : Place) (gap : List Char) : List Char → Option Plain
  | [] => if Gap.tabIndented ⟨gap⟩ p.indent then none else some ⟨[], ⟨gap⟩, []⟩
  | c :: cs =>
    if isSpace c then read? p (gap ++ [c]) cs
    else if Gap.tabIndented ⟨gap⟩ p.indent then none
    else if gap ≠ [] ∧ endsAfter p ⟨gap⟩ (c :: cs) then some ⟨[], ⟨gap⟩, c :: cs⟩
    else if misplacedColon p.flow c cs then none
    else if endsWord p.flow c cs then some ⟨[], ⟨gap⟩, c :: cs⟩
    else (read? p [] cs).map fun r => ⟨Gap.text ⟨gap⟩ ++ c :: r.text, r.gap, r.rest⟩

end Plain

example : ((Plain.read? ⟨false, 1⟩ [] "a b\n  c: d".toList).map (·.text)) =
    some "a b c".toList := by decide +kernel
example : ((Plain.read? ⟨true, 0⟩ [] "a#b, c".toList).map (·.rest)) = some ", c".toList := by
  decide +kernel

end Portfolio.Yaml
