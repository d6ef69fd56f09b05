import Portfolio.Config.Environment
import Portfolio.Text.Alphabetic
import Portfolio.Text.Blank
import Portfolio.Text.Numeric

/-! # Files of definitions

A file defines environment variables, one a line: a name, an equals sign and a value. In double
quotes and without quotes a backslash escapes a character and a dollar sign puts a variable in; in
single quotes nothing is special. A line goes on while its quotes are open. What is defined already
stays, and reading stops at the first line that is no definition. -/

namespace Portfolio.Definitions

/-! ## Lines -/

/-- Where a line stands while its end is looked for. -/
inductive LineState where
  | plain
  | blank
  | escape
  | weak
  | weakEscape
  | strong
  | strongEscape
  deriving DecidableEq

namespace LineState

/-- After a character that follows no backslash and stands in no quotes. -/
def outside (c : Char) : LineState :=
  if c = '\\' then escape else if c = '"' then weak else if c = '\'' then strong else plain

/-- After any character. Of several blanks only the first, the third and so on count. -/
def next (s : LineState) (c : Char) : LineState :=
  match s with
  | plain => if Text.isBlank c ∧ c ≠ '\n' ∧ c ≠ '\r' then blank else outside c
  | blank => outside c
  | escape => plain
  | weak => if c = '\\' then weakEscape else if c = '"' then plain else weak
  | weakEscape => weak
  | strong => if c = '\\' then strongEscape else if c = '\'' then plain else strong
  | strongEscape => strong

end LineState

def isComment (line : List Char) : Bool :=
  (Text.trimLeft line).head? == some '#'

/-- The lines of a file, without their comments. A line that is open at the end of the file is left
out, and so is one with a blank there. -/
def lines (s : LineState) (comment : Bool) (line : List Char) : List Char → List (List Char)
  | [] => if comment ∨ isComment line ∨ s = .plain then [line] else []
  | c :: cs =>
    if c = '\n' then
      if comment ∨ isComment line ∨ s.next c = .plain then line :: lines .plain false [] cs
      else lines (s.next c) false (line ++ [c]) cs
    else if comment then lines s true line cs
    else if s = .blank ∧ c = '#' then lines s true line cs
    else lines (s.next c) false (line ++ [c]) cs

/-! ## Values -/

/-- Where a value stands; the flag says that double quotes are open. -/
inductive ValueState where
  | text (weak : Bool)
  | strong
  | escape (weak : Bool)
  /-- In the name of a variable. -/
  | reference (weak : Bool) (name : List Char)
  /-- In the name of a variable between braces. -/
  | braced (weak : Bool) (name : List Char)
  | ended

/-- The character that a backslash and a character stand for. -/
def escape? (c : Char) : Option Char :=
  if c = 'n' then some '\n'
  else if "\\'\"$ ".toList.contains c then some c
  else none

def expand (env : Environment) (name : List Char) : List Char :=
  (env.value (String.ofList name)).toList

/-- Reads a value on to its end. -/
def value? (env : Environment) : ValueState → List Char → Option (List Char)
  | .text weak, [] | .escape weak, [] => if weak then none else some []
  | .strong, [] | .braced .., [] => none
  | .reference weak name, [] => if weak then none else some (expand env name)
  | .ended, [] => some []
  | .ended, c :: cs =>
    if c = ' ' ∨ c = '\t' then value? env .ended cs
    else if c = '#' then some []
    else none
  | .escape weak, c :: cs => do
    let d ← escape? c
    let rest ← value? env (.text weak) cs
    pure (d :: rest)
  | .strong, c :: cs =>
    if c = '\'' then value? env (.text false) cs else (value? env .strong cs).map (c :: ·)
  | .reference weak name, c :: cs =>
    if Text.isAlphanumeric c then value? env (.reference weak (name ++ [c])) cs
    else if c = '\x7b' ∧ name = [] then value? env (.braced weak []) cs
    else if c = '$' then (value? env (.reference weak []) cs).map (expand env name ++ ·)
    else (value? env (.text weak) cs).map fun rest => expand env name ++ c :: rest
  | .braced weak name, c :: cs =>
    if c = '\x7d' then (value? env (.text weak) cs).map (expand env name ++ ·)
    else value? env (.braced weak (name ++ [c])) cs
  | .text weak, c :: cs =>
    if c = '$' then value? env (.reference weak []) cs
    else if c = '\\' then value? env (.escape weak) cs
    else if c = '"' then value? env (.text (!weak)) cs
    else if weak then (value? env (.text true) cs).map (c :: ·)
    else if c = '\'' then value? env .strong cs
    else if c = ' ' ∨ c = '\t' then value? env .ended cs
    else (value? env (.text false) cs).map (c :: ·)

/-! ## Definitions -/

/-- The name at the start of a text, and what follows it without blanks. -/
def name? (cs : List Char) : Option (List Char × List Char) :=
  let isNameChar := fun c : Char => c.isAlphanum || c == '_' || c == '.'
  if cs.head?.any fun c => c.isAlpha || c == '_' then
    some (cs.takeWhile isNameChar, Text.trimLeft (cs.dropWhile isNameChar))
  else none

/-- What follows an equals sign, without blanks. -/
def afterEquals? : List Char → Option (List Char)
  | '=' :: cs => some (Text.trimLeft cs)
  | _ => none

/-- The name that a line defines and the text of its value. The word `export` may stand before the
name. -/
def split? (line : List Char) : Option (List Char × List Char) := do
  let (name, cs) ← name? line
  match afterEquals? cs with
  | some cs => pure (name, cs)
  | none =>
    if name = "export".toList then
      let (name, cs) ← name? cs
      let cs ← afterEquals? cs
      pure (name, cs)
    else none

/-- The variables after a line; none if it is neither a definition nor blank nor a comment. -/
def read? (env : Environment) (line : List Char) : Option Environment :=
  let line := Text.trim line
  if line = [] ∨ isComment line then some env
  else do
    let (name, cs) ← split? line
    let value ← if cs = [] ∨ isComment cs then some [] else value? env (.text false) cs
    pure (env.define (String.ofList name) (String.ofList value))

/-- The variables after lines, up to the first that cannot be read. -/
def readAll (env : Environment) : List (List Char) → Environment
  | [] => env
  | line :: rest =>
    match read? env line with
    | some env => readAll env rest
    | none => env

/-- The variables after a file. A byte order mark at its start is skipped. -/
def apply (env : Environment) (file : String) : Environment :=
  let cs := match file.toList with
    | '\ufeff' :: cs => cs
    | cs => cs
  readAll env (lines .plain false [] cs)

example : apply [("A", "1")] "A=2\nexport B = \"$A b\" # c\n" = [("A", "1"), ("B", "1 b")] := by
  decide +kernel

end Portfolio.Definitions
