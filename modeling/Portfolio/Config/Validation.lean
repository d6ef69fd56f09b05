import Portfolio.Config.Strategies
import Portfolio.Text.Uppercase

/-! # Validation

A configuration is checked as a whole and then strategy by strategy; the first fault counts. -/

namespace Portfolio

/-- The names of an exchange's variables begin with its own in upper case. -/
def ExchangeSettings.variableStem (name : String) : String :=
  Text.upper name

namespace ExchangeSettings

def lacksCredentials (e : ExchangeSettings) : Bool :=
  e.enabled && (e.apiKey.isEmpty || e.apiSecret.isEmpty)

end ExchangeSettings

namespace Config

/-- The first exchange that lacks credentials where they are needed. -/
def lacksCredentials? (c : Config) : Option String :=
  if c.app.isProduction then (c.exchanges.find? (·.2.lacksCredentials)).map (·.1) else none

def fault? (c : Config) : Option ConfigFault :=
  if c.app.name.isEmpty then some .unnamedApp
  else if c.strategies.isEmpty then some .noStrategies
  else if c.balance.bufferCapacity = 0 then some .noBufferCapacity
  else c.lacksCredentials?.map fun name => .noCredentials name (ExchangeSettings.variableStem name)

def exchangeFault? (c : Config) (name : String) : Option StrategyFault :=
  match c.exchanges.lookup name with
  | none => some (.exchangeUnknown name)
  | some e => if e.enabled then none else some (.exchangeDisabled name)

/-- What is wrong with a strategy beside its decimals and its pairs; the names of the strategies
before it are given. -/
def strategyFault? (c : Config) (seen : List String) (s : StrategySettings) :
    Option StrategyFault :=
  if seen.contains s.name then some .duplicateName
  else (c.exchangeFault? s.exchange).or
    (if s.quoteCurrency.isEmpty then some .noQuoteCurrency
    else if s.pairs.isEmpty then some .noPairs
    else if s.leverage.any (· ≤ 0.0) then some .leverage
    else none)

/-- The fee rate is at least nothing and less than all. -/
def isFeeRate (x : Float) : Bool :=
  0.0 ≤ x && x < 1.0

/-- Checks a strategy; the names of those before it are given. -/
def checkStrategy (c : Config) (seen : List String) (s : StrategySettings) :
    Except ConfigError Unit := do
  if let some fault := c.strategyFault? seen s then s.fail fault
  let built ← s.build c.balance
  if isFeeRate built.maxFeeRate then pure () else s.fail .feeRate

def checkStrategies (c : Config) (seen : List String) :
    List StrategySettings → Except ConfigError Unit
  | [] => .ok ()
  | s :: rest => do
    c.checkStrategy seen s
    c.checkStrategies (s.name :: seen) rest

def validate (c : Config) : Except ConfigError Unit :=
  match c.fault? with
  | some fault => .error (.invalid fault)
  | none => c.checkStrategies [] c.strategies

end Config

end Portfolio
