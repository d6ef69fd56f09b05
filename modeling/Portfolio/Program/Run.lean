import Portfolio.Config.Load
import Portfolio.Program.LogFilter
import Portfolio.Program.Session

/-! # Runs of the program

What the program writes: the events that its filter shows, and a line of its own if there is no
configuration. -/

namespace Portfolio

open Poloniex (Transport)

namespace Program

/-- The report of a configuration that was loaded from a path. -/
def loadedEvent (c : Config) (path : String) : Event :=
  ⟨.info, .program, "Config loaded",
    [("app", .shown c.app.name), ("env", .shown c.app.env), ("config", .shown path)]⟩

def failedEvent (reason : String) : Event :=
  ⟨.error, .program, "Failed to initialize", [("error", .shown reason)]⟩

def interruptedEvent : Event :=
  ⟨.info, .program, "Shutdown signal received", []⟩

def stoppedEvent : Event :=
  ⟨.info, .program, "Stopped", []⟩

def loadFailure (e : ConfigError) : String :=
  "Failed to load config: " ++ e.message ++ "\n"

variable {τ : Type} [Transport τ]

/-- Opens a session, starts it and reports once. A fault is not reported. -/
def begin (c : Config) (path : String) (now : Int) (memory : Nat) (transport : τ) :
    Except OpeningError (Session τ) × List Event :=
  let (events, session) := Session.connect c now memory transport
  let events := loadedEvent c path :: events
  match session with
  | .error (.refused reason) => (session, events ++ [failedEvent reason])
  | .error (.crashed _) => (session, events)
  | .ok s =>
    let (s, started) := s.start
    let (s, reported) := s.report now
    (.ok s, events ++ started ++ reported)

def finish (s : Session τ) (interrupted : Bool) : List Event :=
  let (_, stopped) := s.stop
  (if interrupted then [interruptedEvent] else []) ++ stopped ++ [stoppedEvent]

/-- The events of a run that ends after its first report, and the fault that it ends by. -/
def events (c : Config) (path : String) (now : Int) (memory : Nat) (transport : τ)
    (interrupted : Bool) : List Event × Option MemoryFault :=
  match begin c path now memory transport with
  | (.error (.refused _), events) => (events, none)
  | (.error (.crashed fault), events) => (events, some fault)
  | (.ok s, events) => (events ++ finish s interrupted, none)

end Program

end Portfolio
