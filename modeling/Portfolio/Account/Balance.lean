import Portfolio.Time.Calendar
import Portfolio.Json.Reader

/-! # Balances

A balance is what an account holds of one currency at one time: the total, the part free for new
orders and the part in use. The amounts are as reported; `free + used = total` is not checked. -/

namespace Portfolio

/-- Which amount of a balance to read. -/
inductive BalanceField where
  /-- Free and used together. -/
  | total
  /-- Available for new orders. -/
  | free
  /-- Locked in open orders or positions. -/
  | used
  deriving DecidableEq, Repr

namespace BalanceField

def name : BalanceField → String
  | total => "total"
  | free => "free"
  | used => "used"

def ofName? (s : String) : Option BalanceField :=
  [total, free, used].find? (·.name == s)

/-- What is said about a name of no field. -/
def unknownMessage (s : String) : String :=
  "unknown balance field: " ++ s ++ " (expected total, free or used)"

/-- A field in a document: its name, or an object with its name over `null`. -/
def ofTree? : Json.Tree → Option BalanceField
  | .string raw => (Json.textOf? raw).bind ofName?
  | .object [(key, .null)] => (Json.textOf? key).bind ofName?
  | _ => none

def toJson (f : BalanceField) : Json.Value := .string f.name

end BalanceField

/-- The amounts of one currency. -/
structure Amounts where
  total : Float
  free : Float
  used : Float
  deriving BEq, Repr, Inhabited

def Amounts.zero : Amounts := ⟨0.0, 0.0, 0.0⟩

/-- The amounts of one currency at one time. -/
structure Balance where
  currency : String
  asOf : Timestamp
  amounts : Amounts
  deriving BEq, Repr, Inhabited

namespace Balance

/-- A placeholder without amounts. -/
def zero (currency : String) (asOf : Timestamp) : Balance :=
  ⟨currency, asOf, .zero⟩

/-- The placeholder of the same currency that was never observed. -/
def emptied (b : Balance) : Balance :=
  zero b.currency .epoch

def amount (b : Balance) : BalanceField → Float
  | .total => b.amounts.total
  | .free => b.amounts.free
  | .used => b.amounts.used

def isOlderThan (b : Balance) (since : Timestamp) : Bool :=
  decide (b.asOf < since)

/-! ## In documents -/

/-- A point in time in a document. -/
def timeToJson (t : Timestamp) : Json.Value :=
  .string (String.ofList (Calendar.render t))

def floatToJson (x : Float) : Json.Value :=
  .number (.float x)

def toJson (b : Balance) : Json.Value :=
  .object [("currency", .string b.currency), ("as_of", timeToJson b.asOf),
    ("total", floatToJson b.amounts.total), ("free", floatToJson b.amounts.free),
    ("used", floatToJson b.amounts.used)]

def ofTree? (t : Json.Tree) : Option Balance := do
  match ← t.fields? ["currency", "as_of", "total", "free", "used"] with
  | [currency, asOf, total, free, used] =>
    let currency ← Json.Tree.required? Json.Tree.text? currency
    let asOf ← Json.Tree.required? Json.Tree.text? asOf
    let asOf ← Calendar.ofChars? asOf.toList
    let total ← Json.Tree.required? Json.Tree.float? total
    let free ← Json.Tree.required? Json.Tree.float? free
    let used ← Json.Tree.required? Json.Tree.float? used
    pure ⟨currency, asOf, ⟨total, free, used⟩⟩
  | _ => none

end Balance

end Portfolio
