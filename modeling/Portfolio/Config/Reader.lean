import Portfolio.Config.Settings
import Portfolio.Yaml.Reader

/-! # Reading configurations

What a configuration says in YAML, and what counts for what it leaves out. -/

namespace Portfolio

namespace Duration

/-- The duration of a whole number of seconds that fits sixty-four bits with a sign or without. -/
def ofInteger? (n : Int) : Option Duration :=
  if Word.Holds 64 n then (ofFloat (Float.ofInt n)).toOption else none

/-- The duration of a plain text without a tag: a number of seconds if it is one, else a number with
a unit. A truth value is none. -/
def ofPlain? (cs : List Char) : Option Duration :=
  if cs.isEmpty ∨ Yaml.Schema.isNull cs ∨ (Yaml.Schema.bool? cs).isSome then none
  else
    match Yaml.Schema.integer? cs with
    | some n => ofInteger? n
    | none =>
      match if Yaml.Schema.isZeroPadded cs then none else Yaml.Schema.float? cs with
      | some x => (ofFloat x).toOption
      | none => (ofChars cs).toOption

/-- The duration of a text with a tag, or in quotes, or both. -/
def ofTagged? (t : Yaml.Tag) (style : Yaml.ScalarStyle) (cs : List Char) : Option Duration :=
  if t.isLocal ∨ t = .core "bool" ∨ t = .core "null" then none
  else if t = .core "int" then (Yaml.Schema.integer? cs).bind ofInteger?
  else if t = .core "float" then (Yaml.Schema.float? cs).bind fun x => (ofFloat x).toOption
  else if t.octets.head? = some 0x21 ∧ style = .plain then ofPlain? cs
  else (ofChars cs).toOption

def ofEntry? (e : Yaml.Entry) : Option Duration :=
  match e.node with
  | .scalar _ (some t) style text => ofTagged? t style text
  | .scalar _ none style text =>
    if style = .plain then ofPlain? text else (ofChars text).toOption
  | _ => none

/-- Reads a duration, or nothing as no time at all. -/
def orZero? (e : Yaml.Entry) : Option Duration :=
  (e.optional? ofEntry?).map (·.getD .zero)

end Duration

open Yaml.Fields Yaml.Entry

def AppSettings.ofEntry? (e : Yaml.Entry) : Option AppSettings := do
  let fs ← e.members?
  let name ← required? fs "name" text?
  let env ← withDefault? fs "env" development text?
  let logLevel ← optional? fs "log_level" text?
  pure { name, env, logLevel }

/-- The credentials are not read. -/
def ExchangeSettings.ofEntry? (e : Yaml.Entry) : Option ExchangeSettings := do
  let fs ← e.members?
  let enabled ← withDefault? fs "enabled" false bool?
  let testnet ← withDefault? fs "testnet" false bool?
  let rateLimit ← optional? fs "rate_limit" (natural? (Word.count 32))
  pure { enabled, testnet, rateLimit, apiKey := "", apiSecret := "" }

def BalanceSettings.ofEntry? (e : Yaml.Entry) : Option BalanceSettings := do
  let fs ← e.members?
  let pollInterval ← withDefault? fs "poll_interval" default.pollInterval Duration.orZero?
  let balanceTtl ← withDefault? fs "balance_ttl" default.balanceTtl Duration.orZero?
  let waitFor ← withDefault? fs "wait_for" default.waitFor Duration.orZero?
  let bufferCapacity ←
    withDefault? fs "buffer_capacity" default.bufferCapacity (natural? (Word.count 64))
  pure { pollInterval, balanceTtl, waitFor, bufferCapacity }

def StrategySettings.ofEntry? (e : Yaml.Entry) : Option StrategySettings := do
  let fs ← e.members?
  let name ← required? fs "name" text?
  let exchange ← required? fs "exchange" text?
  let quoteCurrency ← required? fs "quote_currency" text?
  let margin ← withDefault? fs "margin" false bool?
  let cash ← optional? fs "cash" text?
  let leverage ← optional? fs "leverage" float?
  let maxFeeRate ← optional? fs "max_fee_rate" text?
  let balanceTtl ← optional? fs "balance_ttl" Duration.ofEntry?
  let pairs ← required? fs "pairs" (list? text?)
  let fetchParams ← withDefault? fs "fetch_params" [] (map? text?)
  pure { name, exchange, quoteCurrency, margin, cash, leverage, maxFeeRate, balanceTtl, pairs,
         fetchParams }

namespace Config

def ofEntry? (e : Yaml.Entry) : Option Config := do
  let fs ← e.members?
  let app ← required? fs "app" AppSettings.ofEntry?
  let exchanges ← required? fs "exchanges" (map? ExchangeSettings.ofEntry?)
  let balance ← withDefault? fs "balance" BalanceSettings.default BalanceSettings.ofEntry?
  let strategies ← required? fs "strategies" (list? StrategySettings.ofEntry?)
  pure { app, exchanges, balance, strategies }

def parse? (text : String) : Option Config :=
  (Yaml.Entry.parse? text).bind ofEntry?

end Config

end Portfolio
