import Portfolio.Yaml.Tag

/-! # Tokens

The words and marks of a YAML stream. Those that start and end a block, and the one before a key
without a question mark, are not written: the layout of the stream implies them. -/

namespace Portfolio.Yaml

inductive ScalarStyle where
  | plain
  | quoted
  | literal
  | folded
  deriving DecidableEq, Repr

inductive Token where
  | version (major minor : Nat)
  | handle (name : List Char) (expansion : Tag)
  | documentStart
  | documentEnd
  | blockSequence
  | blockMapping
  | blockEnd
  | flowSequence
  | flowSequenceEnd
  | flowMapping
  | flowMappingEnd
  | blockEntry
  | flowEntry
  | key
  | value
  | reference (name : List Char)
  | anchor (name : List Char)
  | tag (word : TagWord)
  | scalar (style : ScalarStyle) (text : List Char)
  deriving Repr

namespace Token

/-! ## Names -/

/-- The name of an anchor and the text after it. -/
def name? (cs : List Char) : Option (List Char × List Char) :=
  let name := cs.takeWhile isNameChar
  let rest := cs.dropWhile isNameChar
  let ended := atSpace rest || rest.head?.any ("?:,]\x7d%@\x60".toList.contains ·)
  if name.isEmpty || !ended then none else some (name, rest)

/-! ## Directives -/

/-- A number of at most nine digits. -/
def shortNumber? (cs : List Char) : Option (Nat × List Char) :=
  let ds := cs.takeWhile Char.isDigit
  if ds.isEmpty || 9 < ds.length then none
  else some (Nat.ofDigitChars 10 ds 0, cs.dropWhile Char.isDigit)

def version? (cs : List Char) : Option (Token × List Char) := do
  let (major, cs) ← shortNumber? (cs.dropWhile isBlank)
  match cs with
  | '.' :: cs =>
    let (minor, cs) ← shortNumber? cs
    pure (version major minor, cs)
  | _ => none

/-- A handle and what it stands for. -/
def expansion? (cs : List Char) : Option (Token × List Char) := do
  let (name, cs) ← TagWord.handle? true (cs.dropWhile isBlank)
  if cs.head?.any isBlank then
    let (bs, cs) ← TagWord.octets? true 0 (cs.dropWhile isBlank)
    if bs.isEmpty || !atSpace cs then none else pure (handle name ⟨bs⟩, cs)
  else none

/-- The directive after a percent sign, with the line break that ends it. -/
def directive? (cs : List Char) : Option (Token × List Char) := do
  let name := cs.takeWhile isNameChar
  let rest := cs.dropWhile isNameChar
  let (token, rest) ←
    if !atSpace rest then none
    else if name = "YAML".toList then version? rest
    else if name = "TAG".toList then expansion? rest
    else none
  let rest := skipComment (rest.dropWhile isBlank)
  if atBreak rest then pure (token, rest.drop 1) else none

end Token

example : (Token.version? " 1.2 # c".toList).map (·.2) = some " # c".toList := by decide +kernel

end Portfolio.Yaml
