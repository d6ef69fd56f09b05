import Portfolio.Exchange.Basic
import Portfolio.Json.Reader
import Portfolio.Number.DecimalReader

/-! # Account balances

A body lists accounts of several types, each with the available and the held amount of some
currencies, as texts. The payload has an entry for every currency of the accounts of one type. -/

namespace Portfolio.Poloniex

/-- One currency of an account. -/
structure Holding where
  currency : String
  available : String
  hold : String
  deriving DecidableEq, Repr

structure Account where
  accountType : String
  balances : List Holding
  deriving DecidableEq, Repr

def Holding.ofTree? (t : Json.Tree) : Option Holding := do
  match ← t.fields? ["currency", "available", "hold"] with
  | [currency, available, hold] =>
    let currency ← Json.Tree.required? Json.Tree.text? currency
    let available ← Json.Tree.required? Json.Tree.text? available
    let hold ← Json.Tree.required? Json.Tree.text? hold
    pure { currency, available, hold }
  | _ => none

def Account.ofTree? (t : Json.Tree) : Option Account := do
  match ← t.fields? ["accountType", "balances"] with
  | [accountType, balances] =>
    let accountType ← Json.Tree.required? Json.Tree.text? accountType
    let balances ← Json.Tree.required? (Json.Tree.list? Holding.ofTree?) balances
    pure { accountType, balances }
  | _ => none

def readAccounts? (body : List UInt8) : Option (List Account) :=
  (Json.Tree.ofBytes? body).bind (Json.Tree.list? Account.ofTree?)

/-- A decimal, zero if the text is none. -/
def decimalOf (text : String) : Decimal :=
  (Decimal.ofChars? text.toList).getD .zero

/-- The entry of a currency, if the amounts can be added. -/
def Holding.entry? (h : Holding) : Option Json.Value :=
  let free := decimalOf h.available
  let used := decimalOf h.hold
  let written (d : Decimal) : Json.Value := .string (String.ofList d.render)
  (free.add? used).map fun total =>
    .object [("free", written free), ("used", written used), ("total", written total)]

/-- The holdings of the accounts of a type, in their order. -/
def holdingsOf (accounts : List Account) (accountType : String) : List Holding :=
  (accounts.filter (·.accountType == accountType)).flatMap (·.balances)

/-- The entries of some holdings, a later one of a currency in place of an earlier one. -/
def entries? (holdings : List Holding) : Option (List (String × Json.Value)) :=
  holdings.foldlM (fun acc h => h.entry?.map (Keyed.set acc h.currency)) []

/-- The payload of an account type, unless two amounts cannot be added. -/
def payload? (accounts : List Account) (accountType : String) : Option Json.Value :=
  (entries? (holdingsOf accounts accountType)).map .object

def readPrice? (body : List UInt8) : Option String := do
  match ← (← Json.Tree.ofBytes? body).fields? ["price"] with
  | [price] => Json.Tree.required? Json.Tree.text? price
  | _ => none

end Portfolio.Poloniex
