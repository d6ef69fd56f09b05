import Portfolio.Exchange.Poloniex.Accounts
import Portfolio.Exchange.Poloniex.Client
import Portfolio.Text.Uppercase

/-! # The exchange

Balances come from a signed request for the accounts of a type, prices from an open one. -/

namespace Portfolio.Poloniex

def exchangeName : String := "poloniex"

/-- The account type that a balance request asks for, in upper case. -/
def accountType (params : Params) : String :=
  match params.lookup "account_type" with
  | some t => Text.upper t
  | none => "SPOT"

def balanceOutcome (body : List UInt8) (accountType : String) : Outcome Json.Value :=
  match readAccounts? body with
  | none => .failure (.api "parse balances: not a list of accounts")
  | some accounts =>
    match payload? accounts accountType with
    | some payload => .answer payload
    | none => .crash "Addition overflowed"

def priceEndpoint (pair : String) : String :=
  "/markets/" ++ pairSymbol pair ++ "/price"

def priceOutcome (body : List UInt8) (pair : String) : Outcome Float :=
  match readPrice? body with
  | none => .failure (.api ("parse price for " ++ pair ++ ": no price"))
  | some text =>
    match Decimal.ofChars? text.toList with
    | some d => .answer d.toFloat
    | none => .failure (.api ("invalid price for " ++ pair ++ ": " ++ text))

/-- The server's code for a pair that it does not know. -/
def unknownPairCode : Int := 21601

/-- What an error is to a caller that asked for a price. -/
def priceError (pair : String) : ClientError → ExchangeError
  | .api code message =>
    if code = unknownPairCode then .pairNotSupported pair
    else (ClientError.api code message).toExchangeError
  | e => e.toExchangeError

variable {τ : Type}

/-- The reply to a request whose body is read by `read` and whose errors by `explain`. -/
def Fetched.toReply {α : Type} (f : Fetched) (read : List UInt8 → Outcome α)
    (explain : ClientError → ExchangeError) : Reply α :=
  match f.result with
  | .ok body => ⟨read body, f.latency, f.events⟩
  | .error e => ⟨.failure (explain e), f.latency, f.events⟩

namespace Client

variable [Transport τ]

/-- Asks for the balances of the account type that the parameters name. -/
def fetchBalance (c : Client τ) (now : Int) (params : Params) : Client τ × Reply Json.Value :=
  let type := accountType params
  let (c, f) := c.get now "/accounts/balances" [("accountType", type)] true
  (c, f.toReply (balanceOutcome · type) ClientError.toExchangeError)

def fetchPrice (c : Client τ) (now : Int) (pair : String) : Client τ × Reply Float :=
  let (c, f) := c.get now (priceEndpoint pair) [] false
  (c, f.toReply (priceOutcome · pair) (priceError pair))

end Client

instance [Transport τ] : Exchange (Client τ) where
  name _ := exchangeName
  fetchBalance := Client.fetchBalance
  fetchPrice := Client.fetchPrice

end Portfolio.Poloniex
