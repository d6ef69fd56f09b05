import Portfolio.Account.Strategy

/-! # Balance tables

A table holds one balance a currency. A balance is stored as itself and found by its own currency,
so no balance can sit under another's name. -/

namespace Portfolio

/-- The balances of an account. -/
structure BalanceTable where
  /-- When the table as a whole was last made. -/
  asOf : Timestamp
  /-- The balances in the order in which their currencies first came. -/
  balances : List Balance
  deriving Repr, Inhabited

namespace BalanceTable

/-- No balance, never made. -/
def empty : BalanceTable :=
  ⟨.epoch, []⟩

/-- Replaces the balance of the same currency, or goes to the end. -/
def insertInto (b : Balance) : List Balance → List Balance
  | [] => [b]
  | c :: cs => if c.currency = b.currency then b :: cs else c :: insertInto b cs

/-- Stores a balance under its own currency in place of an earlier one. -/
def insert (t : BalanceTable) (b : Balance) : BalanceTable :=
  { t with balances := insertInto b t.balances }

def get? (t : BalanceTable) (currency : String) : Option Balance :=
  t.balances.find? (·.currency == currency)

/-- The balance of whatever stands for a currency. -/
def lookup (t : BalanceTable) (key : BalanceKey) : Option Balance :=
  t.get? key.code

def size (t : BalanceTable) : Nat :=
  t.balances.length

def isEmpty (t : BalanceTable) : Bool :=
  t.balances.isEmpty

/-- Zeroes every balance and the table's time; the currencies stay. -/
def reset (t : BalanceTable) : BalanceTable :=
  ⟨.epoch, t.balances.map Balance.emptied⟩

/-- Inserts a balance into a list in ascending order of currencies. -/
def insertSorted (b : Balance) : List Balance → List Balance
  | [] => [b]
  | c :: cs => if b.currency < c.currency then b :: c :: cs else c :: insertSorted b cs

def sorted (t : BalanceTable) : List Balance :=
  t.balances.foldr insertSorted []

/-- The same time and equal balances for the same currencies. -/
def sameAs (t u : BalanceTable) : Bool :=
  t.asOf == u.asOf && t.size == u.size &&
    t.balances.all fun b =>
      match u.get? b.currency with
      | some c => b == c
      | none => false

/-- A balance with its fields in ascending order of their names, as everything in a table is. -/
def memberToJson (b : Balance) : Json.Value :=
  .object [("as_of", Balance.timeToJson b.asOf), ("currency", .string b.currency),
    ("free", Balance.floatToJson b.amounts.free), ("total", Balance.floatToJson b.amounts.total),
    ("used", Balance.floatToJson b.amounts.used)]

def toJson (t : BalanceTable) : Json.Value :=
  .object [("as_of", Balance.timeToJson t.asOf),
    ("by_currency", .object (t.sorted.map fun b => (b.currency, memberToJson b)))]

end BalanceTable

end Portfolio
