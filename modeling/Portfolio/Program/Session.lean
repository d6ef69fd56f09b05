import Portfolio.Config.Strategies
import Portfolio.Exchange.Registry
import Portfolio.Simulation.Run

/-! # Sessions

A session watches every strategy of a configuration and reports what each is worth. The strategies
of one exchange share its client. -/

namespace Portfolio

open Poloniex (Client Transport)

/-- The clients, the worlds of the strategies in their order, and how a strategy is valued. -/
structure Session (τ : Type) where
  clients : Registry τ
  worlds : List (World (Client τ))
  options : ValuationOptions

/-- Why no session opens. -/
inductive OpeningError where
  /-- The text is reported. -/
  | refused (reason : String)
  | crashed (fault : MemoryFault)

namespace World

/-- Takes out what was reported, in its order. -/
def drain {ε : Type} (w : World ε) : World ε × List Event :=
  ({ w with journal := [] }, (w.journal.map (·.2)).reverse)

end World

namespace Session

variable {τ : Type}

/-! ## Opening -/

def trackingEvent (s : Strategy) : Event :=
  ⟨.info, .program, "Tracking strategy",
    [("strategy", .shown s.name), ("exchange", .shown s.exchange),
      ("assets", .shown (toString s.assets.length)), ("margin", .shown (toString s.margin))]⟩

/-- The world of a strategy that has not been started. -/
def world (now : Int) (b : BalanceSettings) (c : Client τ) (s : Strategy) : World (Client τ) :=
  .new now c (.new s b.pollInterval b.bufferCapacity)

/-- Such a world on a machine with so many octets for its buffer. -/
def openWorld (now : Int) (memory : Nat) (b : BalanceSettings) (c : Client τ) (s : Strategy) :
    Except MemoryFault (World (Client τ)) :=
  (Watcher.create memory s b.pollInterval b.bufferCapacity).map (.new now c)

/-- The worlds of strategies, with a report of each up to one without a client or without the memory
for its buffer. -/
def track (now : Int) (memory : Nat) (b : BalanceSettings) (clients : Registry τ) :
    List Strategy → List Event × Except OpeningError (List (World (Client τ)))
  | [] => ([], .ok [])
  | s :: rest =>
    match clients.lookup s.exchange with
    | none => ([], .error (.refused ("exchange " ++ s.exchange ++ " is not available")))
    | some c =>
      match openWorld now memory b c s with
      | .error fault => ([trackingEvent s], .error (.crashed fault))
      | .ok w =>
        let (events, worlds) := track now memory b clients rest
        (trackingEvent s :: events, worlds.map (w :: ·))

/-- Opens a session at a time, with reports, on a machine with so many octets for each buffer. -/
def connect (c : Config) (now : Int) (memory : Nat) (transport : τ) :
    List Event × Except OpeningError (Session τ) :=
  let (events, clients) := Registry.connect now transport c.exchanges
  match clients, c.resolveStrategies with
  | .error e, _ => (events, .error (.refused e.message))
  | .ok _, .error e => (events, .error (.refused e.message))
  | .ok clients, .ok strategies =>
    let (tracking, worlds) := track now memory c.balance clients strategies
    let options : ValuationOptions :=
      ⟨false, { LiveOptions.default with waitFor := c.balance.waitFor }⟩
    (events ++ tracking, worlds.map fun worlds => ⟨clients, worlds, options⟩)

/-! ## Running -/

variable [Transport τ]

/-- Runs a change in every world, with the reports of all. -/
def each (s : Session τ) (f : World (Client τ) → World (Client τ)) : Session τ × List Event :=
  let results := s.worlds.map fun w => (f w).drain
  ({ s with worlds := results.map (·.1) }, results.flatMap (·.2))

def start (s : Session τ) : Session τ × List Event :=
  s.each World.start

def stop (s : Session τ) : Session τ × List Event :=
  s.each World.stop

/-- The report of a strategy's worth. -/
def valueEvents (s : Strategy) (cash total : Float) : List Event :=
  let empty : List Event :=
    if total ≤ 0.0 then [⟨.warn, .program, "Portfolio is empty", [("strategy", .shown s.name)]⟩]
    else []
  empty ++
    [⟨.info, .program, "Portfolio value",
      [("strategy", .shown s.name), ("quote", .shown s.quoteCurrency),
        ("cash", .shown (FloatStyle.detailed.render cash)),
        ("total", .shown (FloatStyle.detailed.render total))]⟩]

/-- The steps that a report may take. -/
def reportFuel : Nat := 100000

/-- Reads the cash of a strategy and values it. A strategy whose valuation ends by a fault has no
report. -/
def reportWorld (o : ValuationOptions) (w : World (Client τ)) : World (Client τ) × List Event :=
  let s := w.watcher.strategy
  let script := [.liveAmount (.strategy s) .free o.live, .portfolioTotal o]
  let done := (Simulation.new w [(w.now, script)]).run reportFuel
  let (w, events) := done.world.drain
  let results : List (Simulation.Result (Client τ)) :=
    done.scripts.flatMap fun t => t.entries.map (·.result)
  match results with
  | [.amount total, .amount cash] => (w, events ++ valueEvents s cash total)
  | _ => (w, events)

/-- Reports on worlds in their order, the client of an exchange going from one to the next. -/
def reportWorlds (o : ValuationOptions) (clients : Registry τ) :
    List (World (Client τ)) → (Registry τ × List (World (Client τ))) × List Event
  | [] => ((clients, []), [])
  | w :: rest =>
    let name := w.watcher.strategy.exchange
    let w := { w with exchange := (clients.lookup name).getD w.exchange }
    let (w, events) := reportWorld o w
    let ((clients, worlds), more) := reportWorlds o (Keyed.set clients name w.exchange) rest
    ((clients, w :: worlds), events ++ more)

def report (s : Session τ) (now : Int) : Session τ × List Event :=
  let worlds := s.worlds.map fun w => { w with now }
  let ((clients, worlds), events) := reportWorlds s.options s.clients worlds
  ({ s with clients, worlds }, events)

end Session

end Portfolio
