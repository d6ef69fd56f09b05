import Portfolio.Yaml.Node
import Portfolio.Yaml.Schema
import Portfolio.Keyed

/-! # Reading records from YAML

What a scalar is depends on what is wanted. A record is a mapping with no field twice, others beside
them left alone; nothing at all is an empty sequence or mapping. -/

namespace Portfolio.Yaml

/-- A node in its document, in which the aliases have their meaning. -/
structure Entry where
  document : Node
  node : Node

namespace Entry

/-- Another node of the document, or what it is an alias of. -/
def follow (e : Entry) (n : Node) : Entry :=
  match n with
  | .reference k => ⟨e.document, (e.document.anchored? k).getD n⟩
  | n => ⟨e.document, n⟩

/-- The only node of a text at the top. -/
def parse? (s : String) : Option Entry :=
  (Node.parse? s).map fun n => ⟨n, n⟩

/-! ## Scalars -/

/-- A text, however it is written. -/
def text? (e : Entry) : Option String :=
  match e.node with
  | .scalar _ _ _ text => some (String.ofList text)
  | _ => none

/-- A plain scalar, or a literal block with the tag, read by a word of the schema. -/
def word? {α : Type} (tag : String) (read : List Char → Option α) (e : Entry) : Option α :=
  match e.node with
  | .scalar _ t style text =>
    if style = .plain ∨ (style = .literal ∧ t = some (Tag.core tag)) then read text else none
  | _ => none

def bool? (e : Entry) : Option Bool :=
  e.word? "bool" Schema.bool?

/-- A whole number from zero up to, but not including, the limit. -/
def natural? (limit : Nat) (e : Entry) : Option Nat :=
  e.word? "int" fun cs => (Schema.natural? cs).filter (· < limit)

def float? (e : Entry) : Option Float :=
  e.word? "float" Schema.float?

/-- What may be left out. A plain scalar with the tag of nothing has to be a word for it. -/
def optional? {α : Type} (read : Entry → Option α) (e : Entry) : Option (Option α) :=
  match e.node with
  | .scalar _ none .plain text =>
    if text.isEmpty || Schema.isNull text then some none else (read e).map some
  | .scalar _ (some t) .plain text =>
    if t = Tag.core "null" then if Schema.isNull text then some none else none
    else (read e).map some
  | _ => (read e).map some

/-! ## Sequences and mappings -/

def isNothing (e : Entry) : Bool :=
  match e.node with
  | .scalar _ _ .plain text => text.isEmpty
  | _ => false

def list? {α : Type} (read : Entry → Option α) (e : Entry) : Option (List α) :=
  match e.node with
  | .sequence _ items => items.mapM fun n => read (e.follow n)
  | _ => if e.isNothing then some [] else none

/-- The members of a mapping in the order of the text, a repeated name as often as it is there. -/
def members? (e : Entry) : Option (List (String × Entry)) :=
  match e.node with
  | .mapping _ members => members.mapM fun m =>
    ((e.follow m.1).text?).map fun name => (name, e.follow m.2)
  | _ => if e.isNothing then some [] else none

/-- A map of values. Of a repeated name the last value counts, after all of them were read. -/
def map? {α : Type} (read : Entry → Option α) (e : Entry) : Option (List (String × α)) := do
  let members ← e.members?
  let values ← members.mapM fun m => (read m.2).map fun v => (m.1, v)
  pure (Keyed.override [] values)

end Entry

/-! ## Fields -/

/-- The members of a record. -/
abbrev Fields := List (String × Entry)

namespace Fields

/-- The only value under a name, if there is one; none at all if there are two. -/
def single? (fs : Fields) (name : String) : Option (Option Entry) :=
  match fs.filter (·.1 = name) with
  | [] => some none
  | [f] => some (some f.2)
  | _ => none

/-- A field that has to be there. -/
def required? {α : Type} (fs : Fields) (name : String) (read : Entry → Option α) : Option α := do
  let e ← ← fs.single? name
  read e

/-- A field with a value that counts if it is missing. -/
def withDefault? {α : Type} (fs : Fields) (name : String) (value : α) (read : Entry → Option α) :
    Option α := do
  match ← fs.single? name with
  | none => pure value
  | some e => read e

/-- A field that may be missing or hold nothing. -/
def optional? {α : Type} (fs : Fields) (name : String) (read : Entry → Option α) :
    Option (Option α) :=
  fs.withDefault? name none (·.optional? read)

end Fields

end Portfolio.Yaml
