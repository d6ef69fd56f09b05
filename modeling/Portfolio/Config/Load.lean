import Portfolio.Config.Environment
import Portfolio.Config.Reader
import Portfolio.Config.Validation
import Portfolio.Text.Utf8

/-! # Loading

A file becomes a configuration: it is read, the enabled exchanges get their credentials from the
environment, and the result is checked. -/

namespace Portfolio

/-- With the credentials that the environment has for an exchange of that name, if it is enabled. -/
def ExchangeSettings.withCredentials (e : ExchangeSettings) (env : Environment) (name : String) :
    ExchangeSettings :=
  if e.enabled then
    { e with
      apiKey := env.value (variableStem name ++ "_API_KEY")
      apiSecret := env.value (variableStem name ++ "_API_SECRET") }
  else e

namespace Config

def withCredentials (c : Config) (env : Environment) : Config :=
  { c with exchanges := c.exchanges.map fun p => (p.1, p.2.withCredentials env p.1) }

def textOf (file : Except FileError (List UInt8)) : Except ConfigError String :=
  match file with
  | .error e => .error (.unreadable e)
  | .ok bs =>
    match Utf8.decode? bs with
    | some cs => .ok (String.ofList cs)
    | none => .error (.unreadable .garbled)

def load (env : Environment) (file : Except FileError (List UInt8)) :
    Except ConfigError Config := do
  let text ← textOf file
  match parse? text with
  | none => .error .parse
  | some c =>
    let c := c.withCredentials env
    c.validate
    pure c

end Config

end Portfolio
