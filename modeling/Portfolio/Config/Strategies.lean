import Portfolio.Account.Strategy
import Portfolio.Config.Error
import Portfolio.Config.Settings
import Portfolio.Number.DecimalReader

/-! # Strategies of a configuration -/

namespace Portfolio

namespace StrategySettings

def fail {α : Type} (s : StrategySettings) (fault : StrategyFault) : Except ConfigError α :=
  .error (.strategy s.name fault)

/-- The number of a decimal with blanks around it; zero if there is none. -/
def decimal (s : StrategySettings) (field : String) : Option String → Except ConfigError Float
  | none => .ok 0.0
  | some text =>
    match Decimal.ofChars? (Text.trim text.toList) with
    | some d => .ok d.toFloat
    | none => s.fail (.notDecimal field text)

/-- The leverage, one if none is set. -/
def effectiveLeverage (s : StrategySettings) : Float :=
  s.leverage.getD 1.0

def asset (s : StrategySettings) (pair : String) : Except ConfigError Asset :=
  match Asset.ofPair? pair s.effectiveLeverage with
  | some a => .ok a
  | none => s.fail (.pair pair)

def build (s : StrategySettings) (b : BalanceSettings) : Except ConfigError Strategy := do
  let maxFeeRate ← s.decimal "max_fee_rate" s.maxFeeRate
  let cash ← s.decimal "cash" s.cash
  let assets ← s.pairs.mapM s.asset
  pure { Strategy.new s.name s.exchange s.quoteCurrency (s.balanceTtl.getD b.balanceTtl) with
    margin := s.margin
    maxFeeRate
    cash := ⟨s.quoteCurrency, cash⟩
    assets
    fetchParams := s.fetchParams }

end StrategySettings

/-- The strategies of a configuration, in their order. -/
def Config.resolveStrategies (c : Config) : Except ConfigError (List Strategy) :=
  c.strategies.mapM (·.build c.balance)

end Portfolio
