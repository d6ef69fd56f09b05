import Portfolio.Yaml.Source
import Portfolio.Text.Hex
import Portfolio.Text.Utf8

/-! # Tags

A tag is a text of octets that says what a node is. It is written whole, or as a handle that a
directive explains and the rest. -/

namespace Portfolio.Yaml

structure Tag where
  octets : List UInt8
  deriving DecidableEq, Repr

namespace Tag

def ofString (s : String) : Tag := ⟨Utf8.encode s⟩

/-- A tag of the core schema. -/
def core (word : String) : Tag := ofString ("tag:yaml.org,2002:" ++ word)

/-- It stands for itself. -/
def nonspecific : Tag := ofString "!"

/-- It means something to the application only. -/
def isLocal (t : Tag) : Bool :=
  t.octets.head? == some 0x21 && (Utf8.decode? t.octets).isSome

end Tag

inductive TagWord where
  | whole (tag : Tag)
  | shorthand (handle : List Char) (suffix : Tag)
  deriving Repr

namespace TagWord

/-- The handle of one or two exclamation marks, or a name between two of them. Any other name stays
with its mark, which a directive does not allow. -/
def handle? (directive : Bool) : List Char → Option (List Char × List Char)
  | '!' :: cs =>
    let name := cs.takeWhile isNameChar
    match cs.dropWhile isNameChar with
    | '!' :: rest => some ('!' :: name ++ ['!'], rest)
    | rest => if directive && !name.isEmpty then none else some ('!' :: name, rest)
  | _ => none

/-- Stands for itself in a tag. -/
def isTagChar (verbatim : Bool) (c : Char) : Bool :=
  isNameChar c || ";/?:@&=+$.!~*'()".toList.contains c || (verbatim && ",[]".toList.contains c)

/-- The octets of a character of which this is the first, less one. -/
def following? (b : Nat) : Option Nat :=
  if b < 0x80 then some 0
  else if b < 0xC0 then none
  else if b < 0xE0 then some 1
  else if b < 0xF0 then some 2
  else if b < 0xF8 then some 3
  else none

/-- The octets of a tag and the text after it; `owed` octets of a character are still to come, all
of them escaped with a percent sign. -/
def octets? (verbatim : Bool) (owed : Nat) : List Char → Option (List UInt8 × List Char)
  | '%' :: h :: l :: cs => do
    let n ← Hex.number? [h, l]
    let owed ← if owed = 0 then following? n
      else if 0x80 ≤ n ∧ n < 0xC0 then some (owed - 1) else none
    let (bs, rest) ← octets? verbatim owed cs
    pure (UInt8.ofNat n :: bs, rest)
  | c :: cs =>
    if owed ≠ 0 ∨ c = '%' then none
    else if isTagChar verbatim c then do
      let (bs, rest) ← octets? verbatim 0 cs
      pure (UInt8.ofNat c.toNat :: bs, rest)
    else some ([], c :: cs)
  | [] => if owed = 0 then some ([], []) else none

/-- Reads a tag up to the space after it, or to the comma within brackets. -/
def read? (flow : Bool) (cs : List Char) : Option (TagWord × List Char) := do
  let (word, rest) ← match cs with
    | '!' :: '<' :: cs => do
      let (bs, rest) ← octets? true 0 cs
      match rest with
      | '>' :: rest => if bs.isEmpty then none else pure (whole ⟨bs⟩, rest)
      | _ => none
    | cs => do
      let (handle, cs) ← handle? false cs
      let (bs, rest) ← octets? false 0 cs
      if 2 ≤ handle.length ∧ handle.getLast? = some '!' then
        if bs.isEmpty then none else pure (shorthand handle ⟨bs⟩, rest)
      else
        let suffix := (handle.drop 1).map (fun c => UInt8.ofNat c.toNat) ++ bs
        pure (if suffix.isEmpty then whole Tag.nonspecific else shorthand ['!'] ⟨suffix⟩, rest)
  if atSpace rest ∨ (flow ∧ rest.head? = some ',') then pure (word, rest) else none

end TagWord

example : (TagWord.read? false "!!str x".toList).map (·.2) = some " x".toList := by decide +kernel

end Portfolio.Yaml
