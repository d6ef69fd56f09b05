import Portfolio.Yaml.Token
import Portfolio.Yaml.Scalar.Plain
import Portfolio.Yaml.Scalar.Quoted
import Portfolio.Yaml.Scalar.Block

/-! # From text to tokens

The columns of the open blocks are kept, and for each level of brackets the token that turns into a
key if a colon follows on its line. A colon after such a candidate puts a key mark before it and
starts a mapping if the candidate stands farther right than the open block. -/

namespace Portfolio.Yaml

/-- A token that a colon turns into a key. -/
structure Candidate where
  /-- Nothing but a key may stand here. -/
  required : Bool
  /-- The number of tokens before it. -/
  position : Nat
  place : Cursor

/-- It stands on an earlier line or more than 1024 characters back. -/
def Candidate.isStale (c : Candidate) (place : Cursor) : Bool :=
  c.place.line < place.line || c.place.index + 1024 < place.index

/-- The tokens so far and what decides about the next. -/
structure Layout where
  cursor : Cursor
  tokens : List Token
  /-- The columns of the open blocks, innermost first. -/
  blocks : List Nat
  /-- The candidate at the current level of brackets. -/
  candidate : Option Candidate
  /-- The candidates at the levels around it, innermost first. -/
  outer : List (Option Candidate)
  /-- A key may start here. -/
  keyAllowed : Bool

namespace Layout

def start (cs : List Char) : Layout := ⟨.start cs, [], [], none, [], true⟩

/-- Within brackets. -/
def flow (l : Layout) : Bool :=
  !l.outer.isEmpty

def emit (l : Layout) (t : Token) : Layout :=
  { l with tokens := l.tokens ++ [t] }

def goto (l : Layout) (rest : List Char) : Layout :=
  { l with cursor := l.cursor.goto rest }

def skip (l : Layout) (n : Nat) : Layout :=
  { l with cursor := l.cursor.advance n }

/-! ## Blocks -/

/-- The column lies right of the open block. -/
def deeper (l : Layout) (column : Nat) : Bool :=
  match l.blocks with
  | [] => true
  | b :: _ => b < column

/-- Opens a block at a column right of the open one, with its mark before the token of a number. -/
def openBlock (l : Layout) (column position : Nat) (t : Token) : Layout :=
  if !l.flow && l.deeper column then
    { l with blocks := column :: l.blocks, tokens := l.tokens.insertIdx position t }
  else l

/-- Closes the blocks right of a column; all of them without a column. -/
def closeBlocks (l : Layout) (column : Option Nat) : Layout :=
  if l.flow then l
  else
    let closed := l.blocks.takeWhile fun b => column.all (· < b)
    { l with
      blocks := l.blocks.drop closed.length
      tokens := l.tokens ++ closed.map fun _ => .blockEnd }

/-! ## Candidates -/

/-- Gives up the candidate; one that has to be a key may not be given up. -/
def drop? (c : Option Candidate) : Option (Option Candidate) :=
  if c.any (·.required) then none else some none

/-- Gives up a stale candidate. -/
def fresh? (place : Cursor) (c : Option Candidate) : Option (Option Candidate) :=
  if c.any (·.isStale place) then drop? c else some c

/-- Gives up the stale candidates of all levels. -/
def dropStale? (l : Layout) : Option Layout := do
  let candidate ← fresh? l.cursor l.candidate
  let outer ← l.outer.mapM (fresh? l.cursor)
  pure { l with candidate, outer }

/-- Gives up the candidate of this level. -/
def dropCandidate? (l : Layout) : Option Layout :=
  (drop? l.candidate).map fun c => { l with candidate := c }

/-- The next token is a candidate where a key is allowed. -/
def propose? (l : Layout) : Option Layout :=
  if l.keyAllowed then
    let column := l.cursor.column
    let required := !l.flow && l.blocks.head? == some column
    (drop? l.candidate).map fun _ =>
      { l with candidate := some ⟨required, l.tokens.length, l.cursor⟩ }
  else some l

/-- Allows or forbids that a key starts after this. -/
def allowKey (l : Layout) (allowed : Bool) : Layout :=
  { l with keyAllowed := allowed }

/-! ## Marks -/

/-- Ends the blocks of a document. -/
def boundary? (l : Layout) : Option Layout :=
  (l.closeBlocks none).dropCandidate?.map (·.allowKey false)

/-- A directive on the current line. -/
def directive? (l : Layout) : Option Layout := do
  let l ← l.boundary?
  let (t, rest) ← Token.directive? (l.cursor.rest.drop 1)
  pure ((l.emit t).goto rest)

/-- A mark between documents. -/
def marker? (l : Layout) (t : Token) : Option Layout :=
  l.boundary?.map fun l => (l.emit t).skip 3

/-- An opening bracket or brace. -/
def opening? (l : Layout) (t : Token) : Option Layout := do
  let l ← l.propose?
  let l := { l with outer := l.candidate :: l.outer, candidate := none }
  pure (((l.allowKey true).emit t).skip 1)

/-- A closing bracket or brace; one too many is a token too. -/
def closing? (l : Layout) (t : Token) : Option Layout := do
  let l ← l.dropCandidate?
  let l := match l.outer with
    | [] => l
    | c :: outer => { l with candidate := c, outer }
  pure (((l.allowKey false).emit t).skip 1)

/-- A comma within brackets. -/
def comma? (l : Layout) : Option Layout :=
  l.dropCandidate?.map fun l => ((l.allowKey true).emit .flowEntry).skip 1

/-- A mark that opens a block at its own column, where a key is allowed. -/
def openHere? (l : Layout) (t : Token) : Option Layout :=
  if l.flow then some l
  else if l.keyAllowed then some (l.openBlock l.cursor.column l.tokens.length t)
  else none

def hyphen? (l : Layout) : Option Layout := do
  let l ← (← l.openHere? .blockSequence).dropCandidate?
  pure (((l.allowKey true).emit .blockEntry).skip 1)

def question? (l : Layout) : Option Layout := do
  let l ← (← l.openHere? .blockMapping).dropCandidate?
  pure (((l.allowKey (!l.flow)).emit .key).skip 1)

def colon? (l : Layout) : Option Layout := do
  let l ← match l.candidate with
    | some c =>
      let l := { l with tokens := l.tokens.insertIdx c.position .key, candidate := none }
      pure ((l.openBlock c.place.column c.position .blockMapping).allowKey false)
    | none => do
      let l ← l.openHere? .blockMapping
      pure (l.allowKey (!l.flow))
  pure ((l.emit .value).skip 1)

/-! ## Words -/

/-- A token after which no key may start on the same line. -/
def word? (l : Layout) (read : List Char → Option (Token × List Char)) : Option Layout := do
  let l ← l.propose?
  let (t, rest) ← read l.cursor.rest
  pure (((l.allowKey false).emit t).goto rest)

/-- The name of an anchor after its sign. -/
def name? (l : Layout) (t : List Char → Token) : Option Layout :=
  l.word? fun cs => (Token.name? (cs.drop 1)).map fun r => (t r.1, r.2)

def quoted? (l : Layout) (q : QuoteMark) : Option Layout :=
  l.word? fun cs => (Quoted.read? q false [] (cs.drop 1)).map fun r => (.scalar .quoted r.1, r.2)

def block? (l : Layout) (folded : Bool) : Option Layout := do
  let l ← l.dropCandidate?
  let (text, rest) ← Block.read? folded l.blocks.head? (l.cursor.rest.drop 1)
  pure (((l.allowKey true).emit (.scalar (if folded then .folded else .literal) text)).goto rest)

/-- A plain scalar. A key may start after it if it ended with a line. -/
def plain? (l : Layout) : Option Layout := do
  let l ← l.propose?
  let indent := match l.blocks with
    | [] => 0
    | b :: _ => b + 1
  let p ← Plain.read? ⟨l.flow, indent⟩ [] l.cursor.rest
  pure (((l.allowKey p.gap.breaksLine).emit (.scalar .plain p.text)).goto p.rest)

/-- The character may start a plain scalar, whatever follows. -/
def startsPlain (c : Char) : Bool :=
  !isSpace c && !"-?:,[]\x7b\x7d#&*!|>'\"%@\x60".toList.contains c

/-! ## The whole text -/

/-- Past blanks, comments and line breaks. Tabs count as blanks only where no key may start. -/
def skipSpace (fuel : Nat) (l : Layout) : Layout :=
  match fuel with
  | 0 => l
  | fuel + 1 =>
    let l := if l.cursor.index = 0 ∧ l.cursor.rest.head? = some '\ufeff' then l.skip 1 else l
    let tabs := l.flow || !l.keyAllowed
    let blank := fun c => c == ' ' || (tabs && c == '\t')
    let rest := skipComment (l.cursor.rest.dropWhile blank)
    let l := l.goto rest
    if rest.head?.any isBreak then
      ((l.skip 1).allowKey (l.keyAllowed || !l.flow)).skipSpace fuel
    else l

/-- Reads the token that starts here. -/
def token? (l : Layout) : List Char → Option Layout
  | [] => none
  | c :: cs =>
    if l.cursor.column = 0 ∧ c = '%' then l.directive?
    else if l.cursor.column = 0 ∧ atDocumentStart (c :: cs) then l.marker? .documentStart
    else if l.cursor.column = 0 ∧ atDocumentEnd (c :: cs) then l.marker? .documentEnd
    else if c = '[' then l.opening? .flowSequence
    else if c = '\x7b' then l.opening? .flowMapping
    else if c = ']' then l.closing? .flowSequenceEnd
    else if c = '\x7d' then l.closing? .flowMappingEnd
    else if c = ',' then l.comma?
    else if c = '-' ∧ atSpace cs then l.hyphen?
    else if c = '?' ∧ (l.flow ∨ atSpace cs) then l.question?
    else if c = ':' ∧ (l.flow ∨ atSpace cs) then l.colon?
    else if c = '*' then l.name? .reference
    else if c = '&' then l.name? .anchor
    else if c = '!' then l.word? fun cs => (TagWord.read? l.flow cs).map fun r => (.tag r.1, r.2)
    else if c = '|' ∧ !l.flow then l.block? false
    else if c = '>' ∧ !l.flow then l.block? true
    else if c = '\'' then l.quoted? .single
    else if c = '"' then l.quoted? .double
    else if startsPlain c ∨ c = '-' ∨ ((c = '?' ∨ c = ':') ∧ !l.flow) then l.plain?
    else none

/-- Reads on to the end. -/
def run? (fuel : Nat) (l : Layout) : Option (List Token) :=
  match fuel with
  | 0 => none
  | fuel + 1 => do
    let l ← (l.skipSpace (l.cursor.rest.length + 1)).dropStale?
    let l := l.closeBlocks (some l.cursor.column)
    match l.cursor.rest with
    | [] => l.boundary?.map (·.tokens)
    | cs => (← l.token? cs).run? fuel

end Layout

/-- The tokens of a text. -/
def Token.list? (s : String) : Option (List Token) :=
  (source? s).bind fun cs => (Layout.start cs).run? (cs.length + 1)

end Portfolio.Yaml
