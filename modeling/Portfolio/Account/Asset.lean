import Portfolio.Account.Balance

/-! # Assets

An asset is a pair that a strategy trades, with the spot holdings that the strategy tracks itself
and the long and the short side of its position. -/

namespace Portfolio

structure PositionSide where
  /-- Size in base currency; zero is a flat side. -/
  amount : Float
  /-- Average entry price in quote currency. -/
  entryPrice : Float
  /-- One for an unleveraged side. -/
  leverage : Float
  deriving BEq, Repr

namespace PositionSide

def flat (leverage : Float) : PositionSide :=
  ⟨0.0, 0.0, leverage⟩

instance : Inhabited PositionSide := ⟨flat 1.0⟩

def isOpen (s : PositionSide) : Bool :=
  s.amount != 0.0

def marketValue (s : PositionSide) (price : Float) : Float :=
  s.amount.abs * price

/-- The divisor of the collateral: the leverage if it is positive, else one. -/
def divisor (s : PositionSide) : Float :=
  if 0.0 < s.leverage then s.leverage else 1.0

/-- Collateral that the side ties up at a price, less the fee at its worst. -/
def collateral (s : PositionSide) (price maxFeeRate : Float) : Float :=
  let notional := s.marketValue price
  (notional - notional * maxFeeRate) / s.divisor

def toJson (s : PositionSide) : Json.Value :=
  .object [("amount", Balance.floatToJson s.amount),
    ("entry_price", Balance.floatToJson s.entryPrice),
    ("leverage", Balance.floatToJson s.leverage)]

def ofTree? (t : Json.Tree) : Option PositionSide := do
  match ← t.fields? ["amount", "entry_price", "leverage"] with
  | [amount, entryPrice, leverage] =>
    let amount ← Json.Tree.required? Json.Tree.float? amount
    let entryPrice ← Json.Tree.required? Json.Tree.float? entryPrice
    let leverage ← Json.Tree.required? Json.Tree.float? leverage
    pure ⟨amount, entryPrice, leverage⟩
  | _ => none

end PositionSide

/-- A tradable pair in a strategy's universe. -/
structure Asset where
  /-- Base and quote with a slash between them. -/
  pair : String
  base : String
  quote : String
  /-- Spot holdings in base currency, as the strategy tracks them. -/
  holdings : Float
  long : PositionSide
  short : PositionSide
  deriving BEq, Repr, Inhabited

namespace Asset

/-- The texts before and after the first slash. -/
def splitPair? (cs : List Char) : Option (List Char × List Char) :=
  match cs.dropWhile (· != '/') with
  | [] => none
  | _ :: quote => some (cs.takeWhile (· != '/'), quote)

/-- The asset of a pair whose base and quote are both something. -/
def ofPair? (pair : String) (leverage : Float) : Option Asset :=
  match splitPair? pair.toList with
  | none => none
  | some (base, quote) =>
    if base = [] ∨ quote = [] then none
    else
      some { pair, base := String.ofList base, quote := String.ofList quote, holdings := 0.0,
             long := .flat leverage, short := .flat leverage }

/-- Entry price of the open side, the long one first. -/
def entryPrice? (a : Asset) : Option Float :=
  if a.long.isOpen then some a.long.entryPrice
  else if a.short.isOpen then some a.short.entryPrice
  else none

def toJson (a : Asset) : Json.Value :=
  .object [("pair", .string a.pair), ("base", .string a.base), ("quote", .string a.quote),
    ("holdings", Balance.floatToJson a.holdings), ("long", a.long.toJson),
    ("short", a.short.toJson)]

def ofTree? (t : Json.Tree) : Option Asset := do
  match ← t.fields? ["pair", "base", "quote", "holdings", "long", "short"] with
  | [pair, base, quote, holdings, long, short] =>
    let pair ← Json.Tree.required? Json.Tree.text? pair
    let base ← Json.Tree.required? Json.Tree.text? base
    let quote ← Json.Tree.required? Json.Tree.text? quote
    let holdings ← Json.Tree.required? Json.Tree.float? holdings
    let long ← Json.Tree.required? PositionSide.ofTree? long
    let short ← Json.Tree.required? PositionSide.ofTree? short
    pure { pair, base, quote, holdings, long, short }
  | _ => none

end Asset

end Portfolio
