import Portfolio.Config.Settings
import Portfolio.Exchange.Poloniex.Adapter
import Portfolio.Journal

/-! # The exchanges of a configuration

Every enabled exchange gets a client, under its name in the configuration; which exchange it is
does not depend on the case of that name. -/

namespace Portfolio

/-- The clients by their names in the configuration. -/
abbrev Registry (τ : Type) := List (String × Poloniex.Client τ)

namespace Registry

variable {τ : Type}

/-- The report of an exchange that is not enabled. -/
def skippedEvent (name : String) : Event :=
  ⟨.info, .exchanges, "Skipping disabled exchange", [("exchange", .shown name)]⟩

/-- The report of an exchange with a client. -/
def loadedEvent (name : String) : Event :=
  ⟨.info, .exchanges, "Loaded exchange from config", [("exchange", .shown name)]⟩

/-- The client of an exchange that is known. -/
def client? (now : Int) (transport : τ) (name : String) (s : ExchangeSettings) :
    Except ExchangeError (Poloniex.Client τ) :=
  if name.toLower = Poloniex.exchangeName then
    .ok (.new ⟨s.apiKey, s.apiSecret⟩ s.rateLimit now transport)
  else .error (.internal ("unknown exchange: " ++ name))

/-- Makes the clients at a time, and reports each exchange up to one that is not known. -/
def connect (now : Int) (transport : τ) :
    List (String × ExchangeSettings) → List Event × Except ExchangeError (Registry τ)
  | [] => ([], .ok [])
  | (name, s) :: rest =>
    if s.enabled then
      match client? now transport name s with
      | .error e => ([], .error e)
      | .ok c =>
        let (events, clients) := connect now transport rest
        (loadedEvent name :: events, clients.map ((name, c) :: ·))
    else
      let (events, clients) := connect now transport rest
      (skippedEvent name :: events, clients)

end Registry

end Portfolio
