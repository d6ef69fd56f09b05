/-! # Errors of configurations -/

namespace Portfolio

/-- Why a file has no text. -/
inductive FileError where
  | missing
  | directory
  /-- The path leads through another file. -/
  | notDirectory
  | denied
  /-- Its octets are no UTF-8. -/
  | garbled
  deriving DecidableEq, Repr

def FileError.message : FileError → String
  | missing => "No such file or directory (os error 2)"
  | directory => "Is a directory (os error 21)"
  | notDirectory => "Not a directory (os error 20)"
  | denied => "Permission denied (os error 13)"
  | garbled => "stream did not contain valid UTF-8"

/-- What is wrong with a configuration as a whole. -/
inductive ConfigFault where
  | unnamedApp
  | noStrategies
  | noBufferCapacity
  /-- The key or the secret of an enabled exchange is missing; the names of their variables begin
  with the stem. -/
  | noCredentials (exchange stem : String)
  deriving DecidableEq, Repr

def ConfigFault.message : ConfigFault → String
  | unnamedApp => "app.name is required"
  | noStrategies => "at least one strategy is required"
  | noBufferCapacity => "balance.buffer_capacity must be positive"
  | noCredentials exchange stem =>
    "exchange " ++ exchange ++ ": API credentials not found (set " ++ stem ++ "_API_KEY and " ++
      stem ++ "_API_SECRET env vars)"

inductive StrategyFault where
  | duplicateName
  | exchangeDisabled (exchange : String)
  | exchangeUnknown (exchange : String)
  | noQuoteCurrency
  | noPairs
  | leverage
  | feeRate
  /-- A field that holds no decimal. -/
  | notDecimal (field text : String)
  | pair (text : String)
  deriving DecidableEq, Repr

def StrategyFault.message : StrategyFault → String
  | duplicateName => "duplicate strategy name"
  | exchangeDisabled exchange => "exchange " ++ exchange ++ " is disabled"
  | exchangeUnknown exchange => "exchange " ++ exchange ++ " is not configured"
  | noQuoteCurrency => "quote_currency is required"
  | noPairs => "at least one trading pair is required"
  | leverage => "leverage must be positive"
  | feeRate => "max_fee_rate must be within [0, 1)"
  | notDecimal field text => field ++ ": invalid decimal " ++ text
  | pair text => "invalid pair " ++ text ++ " (expected BASE/QUOTE)"

inductive ConfigError where
  | unreadable (e : FileError)
  /-- The text is no YAML, or does not say what it has to. -/
  | parse
  | invalid (fault : ConfigFault)
  | strategy (name : String) (fault : StrategyFault)
  deriving DecidableEq, Repr

def ConfigError.message : ConfigError → String
  | unreadable e => "failed to read config file: " ++ e.message
  | parse => "failed to parse config: not a configuration"
  | invalid fault => "validation failed: " ++ fault.message
  | strategy name fault => "strategy " ++ name ++ ": " ++ fault.message

end Portfolio
