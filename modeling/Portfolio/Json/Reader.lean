import Portfolio.Json.Tree

/-! # Reading records from JSON

A record is an object with every field once, others beside them left alone, or an array with exactly
the fields in their order. -/

namespace Portfolio.Json

namespace Tree

def text? : Tree → Option String
  | string raw => textOf? raw
  | _ => none

/-- A number, whole or not, in binary64. -/
def float? : Tree → Option Float
  | number text => (Number.ofText? text).map Number.toFloat
  | _ => none

/-- A whole number within the bounds. -/
def int? (least greatest : Int) : Tree → Option Int
  | number text =>
    match Number.ofText? text with
    | some (.int n) => if least ≤ n ∧ n ≤ greatest then some n else none
    | _ => none
  | _ => none

/-- The items of an array, each read in the same way. -/
def list? {α : Type} (read : Tree → Option α) : Tree → Option (List α)
  | array items => items.mapM read
  | _ => none

/-- A field that may be missing or `null`. -/
def optional? {α : Type} (read : Tree → Option α) : Option Tree → Option (Option α)
  | none | some null => some none
  | some t => (read t).map some

/-- A field that may be neither. -/
def required? {α : Type} (read : Tree → Option α) (field : Option Tree) : Option α :=
  field.bind read

/-- The only value under a name, if there is one; none at all if there are two. -/
def single? (members : List (String × Tree)) (name : String) : Option (Option Tree) :=
  match members.filter (·.1 == name) with
  | [] => some none
  | [m] => some (some m.2)
  | _ => none

/-- The fields of a record in the order of the names. -/
def fields? (names : List String) : Tree → Option (List (Option Tree))
  | object members => do
    let named ← members.mapM fun m => (textOf? m.1).map (·, m.2)
    names.mapM (single? named)
  | array items => if items.length = names.length then some (items.map some) else none
  | _ => none

end Tree

end Portfolio.Json
