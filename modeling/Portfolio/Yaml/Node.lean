import Portfolio.Yaml.Layout

/-! # Documents

A document is a tree of scalars, sequences and mappings. An alias names a node by the number of its
anchor. An anchor is numbered by how many names there are before it; a name that is given again
takes a number anew, so that two anchors can have the same one, and the later is meant. -/

namespace Portfolio.Yaml

/-- A node of a document. -/
inductive Node where
  | scalar (anchor : Option Nat) (tag : Option Tag) (style : ScalarStyle) (text : List Char)
  | sequence (anchor : Option Nat) (items : List Node)
  | mapping (anchor : Option Nat) (members : List (Node × Node))
  | reference (target : Nat)
  deriving Repr

namespace Node

/-- What stands where nothing is written. -/
def empty : Node := scalar none none .plain []

mutual

/-- The last node with an anchor of the number, outside in and in the order of the text. -/
def anchored? (k : Nat) : Node → Option Node
  | n@(scalar anchor ..) => if anchor = some k then some n else none
  | n@(sequence anchor items) =>
    (anchoredItem? k items).or (if anchor = some k then some n else none)
  | n@(mapping anchor members) =>
    (anchoredMember? k members).or (if anchor = some k then some n else none)
  | reference _ => none

/-- The last of the items and of what is in them. -/
def anchoredItem? (k : Nat) : List Node → Option Node
  | [] => none
  | n :: ns => (anchoredItem? k ns).or (n.anchored? k)

/-- The last of the keys and values and of what is in them. -/
def anchoredMember? (k : Nat) : List (Node × Node) → Option Node
  | [] => none
  | (key, value) :: ms => ((anchoredMember? k ms).or (value.anchored? k)).or (key.anchored? k)

end

end Node

/-! ## Properties of nodes -/

/-- What the handles stand for. -/
abbrev Handles := List (List Char × Tag)

namespace Handles

/-- The handles that need no directive. -/
def builtin : Handles :=
  [(['!'], Tag.nonspecific), (['!', '!'], Tag.core "")]

/-- The tag of a word, unless its handle stands for nothing. -/
def resolve? (hs : Handles) : TagWord → Option Tag
  | .whole t => some t
  | .shorthand handle suffix => (hs.lookup handle).map fun t => ⟨t.octets ++ suffix.octets⟩

end Handles

/-- An anchor and a tag, in either order. -/
structure Properties where
  anchor : Option (List Char)
  tag : Option TagWord

/-- The properties before a node and the tokens after them. -/
def Properties.split : List Token → Properties × List Token
  | .anchor a :: .tag t :: ts => (⟨some a, some t⟩, ts)
  | .tag t :: .anchor a :: ts => (⟨some a, some t⟩, ts)
  | .anchor a :: ts => (⟨some a, none⟩, ts)
  | .tag t :: ts => (⟨none, some t⟩, ts)
  | ts => (⟨none, none⟩, ts)

/-- The numbers of the names given so far. -/
abbrev Names := List (List Char × Nat)

/-- Gives a name the next number. -/
def Names.give (names : Names) (name : List Char) : Names :=
  (name, names.length) :: names.filter (·.1 ≠ name)

/-! ## Reading nodes -/

/-- The tokens to read, and the names given so far. -/
structure Unread where
  tokens : List Token
  names : Names

namespace Node

/-- The names after the anchor that a node may have, and its number. -/
def number (names : Names) : Option (List Char) → Names × Option Nat
  | none => (names, none)
  | some a => (names.give a, some names.length)

/-- A scalar that is not left to the schema by its tag has none. -/
def scalarTag (tag : Option Tag) : Option Tag :=
  tag.filter (· ≠ Tag.nonspecific)

/-- A node of which nothing but properties is written. -/
def bare? (anchor : Option Nat) (tag : Option Tag) (u : Unread) : Option (Node × Unread) :=
  if anchor.isSome || tag.isSome then some (.scalar anchor tag .plain [], u) else none

/-- None of these starts the value of an item. -/
def endsItem : List Token → Bool
  | .blockEntry :: _ | .blockEnd :: _ => true
  | _ => false

/-- None of these starts the value of an item without a block of its own. -/
def endsLooseItem : List Token → Bool
  | .blockEntry :: _ | .key :: _ | .value :: _ | .blockEnd :: _ => true
  | _ => false

/-- None of these starts a key or a value of a block. -/
def endsMember : List Token → Bool
  | .key :: _ | .value :: _ | .blockEnd :: _ => true
  | _ => false

/-- None of these starts a key within brackets. -/
def endsFlowKey : List Token → Bool
  | .value :: _ | .flowEntry :: _ | .flowSequenceEnd :: _ => true
  | _ => false

/-- None of these starts a value within brackets. -/
def endsFlowValue : List Token → Bool
  | .flowEntry :: _ | .flowSequenceEnd :: _ => true
  | _ => false

/-- None of these starts a key within braces. -/
def endsBracedKey : List Token → Bool
  | .value :: _ | .flowEntry :: _ | .flowMappingEnd :: _ => true
  | _ => false

/-- None of these starts a value within braces. -/
def endsBracedValue : List Token → Bool
  | .flowEntry :: _ | .flowMappingEnd :: _ => true
  | _ => false

mutual

/-- Reads a node. Blocks may start here if `block` says so, and items of a sequence without a block
of their own if `loose` does. -/
def read? (hs : Handles) (block loose : Bool) : Nat → Unread → Option (Node × Unread)
  | 0, _ => none
  | fuel + 1, u =>
    match u.tokens with
    | .reference name :: ts => (u.names.lookup name).map fun k => (.reference k, ⟨ts, u.names⟩)
    | ts => do
      let (props, ts) := Properties.split ts
      let tag ← match props.tag with
        | none => some none
        | some word => (hs.resolve? word).map some
      let (names, anchor) := number u.names props.anchor
      match ts, block, loose with
      | .scalar style text :: ts, _, _ =>
        pure (.scalar anchor (scalarTag tag) style text, ⟨ts, names⟩)
      | .flowSequence :: ts, _, _ =>
        let (ns, u) ← flowItems? hs true fuel ⟨ts, names⟩
        pure (.sequence anchor ns, u)
      | .flowMapping :: ts, _, _ =>
        let (ms, u) ← flowMembers? hs true fuel ⟨ts, names⟩
        pure (.mapping anchor ms, u)
      | ts@(.blockEntry :: _), _, true =>
        let (ns, u) ← looseItems? hs fuel ⟨ts, names⟩
        pure (.sequence anchor ns, u)
      | .blockSequence :: ts, true, _ =>
        let (ns, u) ← blockItems? hs fuel ⟨ts, names⟩
        pure (.sequence anchor ns, u)
      | .blockMapping :: ts, true, _ =>
        let (ms, u) ← blockMembers? hs fuel ⟨ts, names⟩
        pure (.mapping anchor ms, u)
      | ts, _, _ => bare? anchor tag ⟨ts, names⟩

/-- Reads a node, or nothing where `ended` holds of the tokens. -/
def readUnless? (hs : Handles) (ended : List Token → Bool) (block loose : Bool) :
    Nat → Unread → Option (Node × Unread)
  | 0, _ => none
  | fuel + 1, u => if ended u.tokens then some (empty, u) else read? hs block loose fuel u

/-- Items after hyphens, up to the end of the block. -/
def blockItems? (hs : Handles) : Nat → Unread → Option (List Node × Unread)
  | 0, _ => none
  | fuel + 1, ⟨ts, names⟩ =>
    match ts with
    | .blockEntry :: ts => do
      let (n, u) ← readUnless? hs endsItem true false fuel ⟨ts, names⟩
      let (ns, u) ← blockItems? hs fuel u
      pure (n :: ns, u)
    | .blockEnd :: ts => some ([], ⟨ts, names⟩)
    | _ => none

/-- Items after hyphens, as long as there are any. -/
def looseItems? (hs : Handles) : Nat → Unread → Option (List Node × Unread)
  | 0, _ => none
  | fuel + 1, ⟨ts, names⟩ =>
    match ts with
    | .blockEntry :: ts => do
      let (n, u) ← readUnless? hs endsLooseItem true false fuel ⟨ts, names⟩
      let (ns, u) ← looseItems? hs fuel u
      pure (n :: ns, u)
    | ts => some ([], ⟨ts, names⟩)

/-- Keys and values, up to the end of the block. -/
def blockMembers? (hs : Handles) : Nat → Unread → Option (List (Node × Node) × Unread)
  | 0, _ => none
  | fuel + 1, ⟨ts, names⟩ =>
    match ts with
    | .key :: ts => do
      let (k, u) ← readUnless? hs endsMember true true fuel ⟨ts, names⟩
      let (v, u) ← blockValue? hs fuel u
      let (ms, u) ← blockMembers? hs fuel u
      pure ((k, v) :: ms, u)
    | .blockEnd :: ts => some ([], ⟨ts, names⟩)
    | _ => none

/-- The value after a key of a block. -/
def blockValue? (hs : Handles) : Nat → Unread → Option (Node × Unread)
  | 0, _ => none
  | fuel + 1, ⟨ts, names⟩ =>
    match ts with
    | .value :: ts => readUnless? hs endsMember true true fuel ⟨ts, names⟩
    | ts => some (empty, ⟨ts, names⟩)

/-- Items between brackets; before all but the first there is a comma. -/
def flowItems? (hs : Handles) (first : Bool) : Nat → Unread → Option (List Node × Unread)
  | 0, _ => none
  | fuel + 1, ⟨ts, names⟩ =>
    match ts with
    | .flowSequenceEnd :: ts => some ([], ⟨ts, names⟩)
    | ts => do
      let ts ← match first, ts with
        | true, ts => some ts
        | false, .flowEntry :: ts => some ts
        | false, _ => none
      match ts with
      | .flowSequenceEnd :: ts => pure ([], ⟨ts, names⟩)
      | .key :: ts =>
        let (k, u) ← flowKey? hs fuel ⟨ts, names⟩
        let (v, u) ← flowValue? hs endsFlowValue fuel u
        let (ns, u) ← flowItems? hs false fuel u
        pure (.mapping none [(k, v)] :: ns, u)
      | ts =>
        let (n, u) ← read? hs false false fuel ⟨ts, names⟩
        let (ns, u) ← flowItems? hs false fuel u
        pure (n :: ns, u)

/-- The key of a single pair between brackets. A missing key takes the token after it along. -/
def flowKey? (hs : Handles) : Nat → Unread → Option (Node × Unread)
  | 0, _ => none
  | fuel + 1, ⟨ts, names⟩ =>
    if endsFlowKey ts then some (empty, ⟨ts.drop 1, names⟩)
    else read? hs false false fuel ⟨ts, names⟩

/-- The value after a key, if there is a colon. -/
def flowValue? (hs : Handles) (ended : List Token → Bool) : Nat → Unread → Option (Node × Unread)
  | 0, _ => none
  | fuel + 1, ⟨ts, names⟩ =>
    match ts with
    | .value :: ts => readUnless? hs ended false false fuel ⟨ts, names⟩
    | ts => some (empty, ⟨ts, names⟩)

/-- Keys and values between braces; before all but the first there is a comma. -/
def flowMembers? (hs : Handles) (first : Bool) :
    Nat → Unread → Option (List (Node × Node) × Unread)
  | 0, _ => none
  | fuel + 1, ⟨ts, names⟩ =>
    match ts with
    | .flowMappingEnd :: ts => some ([], ⟨ts, names⟩)
    | ts => do
      let ts ← match first, ts with
        | true, ts => some ts
        | false, .flowEntry :: ts => some ts
        | false, _ => none
      match ts with
      | .flowMappingEnd :: ts => pure ([], ⟨ts, names⟩)
      | .key :: ts =>
        let (k, u) ← readUnless? hs endsBracedKey false false fuel ⟨ts, names⟩
        let (v, u) ← flowValue? hs endsBracedValue fuel u
        let (ms, u) ← flowMembers? hs false fuel u
        pure ((k, v) :: ms, u)
      | ts =>
        let (k, u) ← read? hs false false fuel ⟨ts, names⟩
        let (ms, u) ← flowMembers? hs false fuel u
        pure ((k, empty) :: ms, u)

end

end Node

/-! ## Reading documents -/

/-- The directives before a document. -/
structure Directives where
  versioned : Bool
  handles : Handles

namespace Directives

/-- Reads directives. There is one version at most, 1.1 or 1.2, and one meaning for each handle. -/
def read? (d : Directives) : List Token → Option (Directives × List Token)
  | .version major minor :: ts =>
    if d.versioned || major != 1 || !(minor == 1 || minor == 2) then none
    else read? { d with versioned := true } ts
  | .handle name expansion :: ts =>
    if (d.handles.lookup name).isSome then none
    else read? { d with handles := (name, expansion) :: d.handles } ts
  | ts => some (d, ts)

end Directives

namespace Node

/-- None of these starts the content of a document. -/
def endsDocument : List Token → Bool
  | [] => true
  | .version .. :: _ | .handle .. :: _ | .documentStart :: _ | .documentEnd :: _ => true
  | _ => false

/-- The content of a document; it is marked at the start if there are directives. -/
def content? (ts : List Token) : Option (Node × List Token) := do
  let fuel := 4 * ts.length + 4
  match ts with
  | .version .. :: _ | .handle .. :: _ | .documentStart :: _ =>
    let (d, ts) ← Directives.read? ⟨false, []⟩ ts
    match ts with
    | .documentStart :: ts =>
      let (n, u) ← readUnless? (d.handles ++ Handles.builtin) endsDocument true false fuel ⟨ts, []⟩
      pure (n, u.tokens)
    | _ => none
  | ts =>
    let (n, u) ← read? Handles.builtin true false fuel ⟨ts, []⟩
    pure (n, u.tokens)

/-- Marks the end of a document. -/
def isDocumentEnd : Token → Bool
  | .documentEnd => true
  | _ => false

/-- The only document of a text. -/
def parse? (s : String) : Option Node := do
  let ts ← Token.list? s
  let (n, rest) ← content? ts
  if (rest.dropWhile isDocumentEnd).isEmpty then pure n else none

end Node

end Portfolio.Yaml
