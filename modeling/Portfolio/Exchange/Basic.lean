import Portfolio.Account.Params
import Portfolio.Journal
import Portfolio.Json.Value
import Portfolio.Number.DecimalReader
import Portfolio.Text.Blank

/-! # Exchanges

An exchange answers two questions, the balances of an account and the last price of a pair, each
after some time and possibly with an error. A well-formed balance payload is an object that maps a
currency to its `free`, `used` and `total` amounts. -/

namespace Portfolio

inductive ExchangeError where
  /-- The exchange does not trade the pair. -/
  | pairNotSupported (pair : String)
  | connection (reason : String)
  /-- The exchange answered with an error. -/
  | api (reason : String)
  /-- The local request budget is spent. -/
  | rateLimited (reason : String)
  | internal (reason : String)
  deriving DecidableEq, Repr

def ExchangeError.message : ExchangeError → String
  | .pairNotSupported pair => "pair " ++ pair ++ " is not supported"
  | .connection reason => "connection error: " ++ reason
  | .api reason => "API error: " ++ reason
  | .rateLimited reason => "rate limited: " ++ reason
  | .internal reason => "internal error: " ++ reason

/-- How a call to an exchange ends. -/
inductive Outcome (α : Type) where
  | answer (a : α)
  | failure (e : ExchangeError)
  /-- The caller cannot go on: the fault that stops it. -/
  | crash (fault : String)

/-- The outcome of a call, the nanoseconds until it is there, and what is reported then. -/
structure Reply (α : Type) where
  outcome : Outcome α
  latency : Nat
  events : List Event

/-- Something that can be asked for balances and prices, at a time in nanoseconds since the epoch;
asking may change it. -/
class Exchange (ε : Type) where
  name : ε → String
  fetchBalance : ε → Int → Params → ε × Reply Json.Value
  fetchPrice : ε → Int → String → ε × Reply Float

/-- The symbol of a pair, an underscore for every slash. -/
def pairSymbol (pair : String) : String :=
  String.ofList (pair.toList.map fun c => if c = '/' then '_' else c)

/-- Reads an amount: a number, or a text that is a decimal but for blanks at its ends. -/
def amountOf? : Json.Value → Option Float
  | .number n => some n.toFloat
  | .string s => (Decimal.ofChars? (Text.trim s.toList)).map Decimal.toFloat
  | _ => none

end Portfolio
