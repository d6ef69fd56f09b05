import Portfolio.Account.Params
import Portfolio.Time.Duration

/-! # Settings

What a configuration says, before it is checked. -/

namespace Portfolio

/-- The program itself. -/
structure AppSettings where
  name : String
  env : String
  logLevel : Option String
  deriving DecidableEq, Repr

namespace AppSettings

/-- The environment in which credentials may be missing, and the default one. -/
def development : String := "development"

/-- Anywhere but in development. -/
def isProduction (a : AppSettings) : Bool :=
  a.env != development

end AppSettings

/-- An account on an exchange. -/
structure ExchangeSettings where
  enabled : Bool
  testnet : Bool
  /-- Requests a minute. -/
  rateLimit : Option Nat
  apiKey : String
  apiSecret : String
  deriving DecidableEq, Repr

/-- How balances are kept. -/
structure BalanceSettings where
  /-- The time between polls; zero for none. -/
  pollInterval : Duration
  /-- How long a caller waits for a refresh in flight before it fetches itself. -/
  balanceTtl : Duration
  /-- How long a wait for a fresh balance may take. -/
  waitFor : Duration
  /-- The number of fetched payloads that a watcher keeps. -/
  bufferCapacity : Nat
  deriving DecidableEq, Repr

/-- A poll every thirty seconds, and sixteen payloads kept. -/
def BalanceSettings.default : BalanceSettings :=
  ⟨.ofSeconds 30, .ofSeconds 10, .ofSeconds 5, 16⟩

/-- A strategy as it is written. -/
structure StrategySettings where
  name : String
  /-- The name of an exchange of the configuration. -/
  exchange : String
  quoteCurrency : String
  margin : Bool
  /-- A decimal. -/
  cash : Option String
  /-- The leverage of both sides of every asset. -/
  leverage : Option Float
  /-- A decimal. -/
  maxFeeRate : Option String
  /-- Instead of that of the balance settings. -/
  balanceTtl : Option Duration
  pairs : List String
  fetchParams : Params
  deriving Repr

structure Config where
  app : AppSettings
  exchanges : List (String × ExchangeSettings)
  balance : BalanceSettings
  strategies : List StrategySettings
  deriving Repr

end Portfolio
