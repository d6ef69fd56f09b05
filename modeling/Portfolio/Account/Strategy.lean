import Portfolio.Account.Asset
import Portfolio.Account.Params
import Portfolio.Time.Duration

/-! # Strategies

A strategy settles in a quote currency, trades a universe of assets on one exchange and may track
its cash itself. -/

namespace Portfolio

/-- Cash as the strategy tracks it. -/
structure Cash where
  currency : String
  value : Float
  deriving BEq, Repr, Inhabited

namespace Cash

def toJson (c : Cash) : Json.Value :=
  .object [("currency", .string c.currency), ("value", Balance.floatToJson c.value)]

def ofTree? (t : Json.Tree) : Option Cash := do
  match ← t.fields? ["currency", "value"] with
  | [currency, value] =>
    let currency ← Json.Tree.required? Json.Tree.text? currency
    let value ← Json.Tree.required? Json.Tree.float? value
    pure ⟨currency, value⟩
  | _ => none

end Cash

/-- A trading strategy as balances and valuation see it. -/
structure Strategy where
  name : String
  exchange : String
  /-- The currency that the strategy settles in. -/
  quoteCurrency : String
  /-- How long a caller waits for a refresh in flight before it fetches itself. -/
  balanceTtl : Duration
  /-- Trades with leverage. -/
  margin : Bool
  /-- The worst fee rate, for estimates of collateral. -/
  maxFeeRate : Float
  cash : Cash
  assets : List Asset
  /-- Parameters of balance requests, particular to the exchange. -/
  fetchParams : Params
  deriving Inhabited

namespace Strategy

/-- A strategy without assets, its cash in the quote currency. -/
def new (name exchange quoteCurrency : String) (balanceTtl : Duration) : Strategy :=
  { name, exchange, quoteCurrency, balanceTtl, margin := false, maxFeeRate := 0.0,
    cash := ⟨quoteCurrency, 0.0⟩, assets := [], fetchParams := [] }

/-- The currency is the quote currency or one of an asset's two. -/
def tracks (s : Strategy) (currency : String) : Bool :=
  s.quoteCurrency == currency ||
    s.assets.any fun a => a.base == currency || a.quote == currency

/-- The parameters of a balance request: the strategy's win over the caller's, and the account type
follows from the margin flag if neither names one. -/
def requestParams (s : Strategy) (fallback : Params) : Params :=
  Params.orElse (Keyed.override fallback s.fetchParams) "account_type"
    (if s.margin then "margin" else "spot")

end Strategy

/-- What stands for a currency in a look-up. -/
inductive BalanceKey where
  | currency (code : String)
  /-- Stands for the asset's base currency. -/
  | asset (a : Asset)
  /-- Stands for the currency that the cash is held in. -/
  | cash (c : Cash)
  /-- Stands for the strategy's quote currency. -/
  | strategy (s : Strategy)

def BalanceKey.code : BalanceKey → String
  | currency code => code
  | asset a => a.base
  | cash c => c.currency
  | strategy s => s.quoteCurrency

end Portfolio
