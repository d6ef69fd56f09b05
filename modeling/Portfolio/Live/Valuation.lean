import Portfolio.Live.Reading

/-! # Valuation

The value of a strategy in its quote currency is its cash and what its assets contribute. The
contributions are worked out side by side and added in the order of the assets; what is not finite
is left out, and a price that fails counts as the entry price of a position or as nothing. -/

namespace Portfolio

structure ValuationOptions where
  /-- By its own books rather than by the balances on the exchange. -/
  useLocalBalances : Bool
  live : LiveOptions

def ValuationOptions.default : ValuationOptions :=
  ⟨false, .default⟩

/-- The price, or the entry price of the open side, or zero. -/
def Asset.valuationPrice (a : Asset) (price : Option Float) : Float :=
  price.getD (a.entryPrice?.getD 0.0)

/-- What an asset contributes at a price, if there is one: the two sides of a margin position, at
market value by the books and as collateral by the exchange, or the holdings of a spot asset, by the
books or as its free balance. -/
def Asset.contribution (a : Asset) (margin useLocal : Bool) (maxFeeRate free : Float)
    (price : Option Float) : Float :=
  match margin, useLocal with
  | true, true =>
    let p := a.valuationPrice price
    a.long.marketValue p + a.short.marketValue p
  | true, false =>
    let p := a.valuationPrice price
    a.long.collateral p maxFeeRate + a.short.collateral p maxFeeRate
  | false, true => a.holdings * price.getD 0.0
  | false, false => free * price.getD 0.0

/-- The work on the contribution of an asset. -/
inductive ShareState where
  | fresh
  /-- Waiting for the free balance of the base currency. -/
  | reading (l : LiveRead)
  /-- Waiting for the price. -/
  | pricing (free : Float) (due : Int) (reply : Reply Float)
  | finished (value : Float)

/-- An asset and the work on its contribution. -/
structure Share where
  asset : Asset
  state : ShareState

namespace Share

variable {ε : Type}

def close (w : World ε) (o : ValuationOptions) (a : Asset) (free : Float) (reply : Reply Float) :
    World ε × Progress ShareState Float :=
  let s := w.watcher.strategy
  let value := a.contribution s.margin o.useLocalBalances s.maxFeeRate free
  let w := w.logAll reply.events
  match reply.outcome with
  | .answer price => (w, .done (value (some price)))
  | .failure _ => (w, .done (value none))
  | .crash _ => (w, .crashed)

def ask [Exchange ε] (w : World ε) (o : ValuationOptions) (a : Asset) (free : Float) :
    World ε × Progress ShareState Float :=
  let (exchange, reply) := Exchange.fetchPrice w.exchange w.now a.pair
  let w := { w with exchange }
  if reply.latency = 0 then close w o a free reply
  else (w, .blocked (.pricing free (w.now + reply.latency) reply))

def afterRead [Exchange ε] (o : ValuationOptions) (a : Asset)
    (r : World ε × Progress LiveRead (Option Reading)) : World ε × Progress ShareState Float :=
  Progress.andThen r .reading fun w served => ask w o a (Reading.amount served .free)

/-- Goes on with the work on an asset. The free balance is read only where it counts. -/
def resume [Exchange ε] (w : World ε) (o : ValuationOptions) (s : Share) :
    World ε × Progress ShareState Float :=
  match s.state with
  | .fresh =>
    if w.watcher.strategy.margin || o.useLocalBalances then ask w o s.asset 0.0
    else afterRead o s.asset (LiveRead.begin w ⟨some s.asset.base, o.live⟩)
  | .reading l => afterRead o s.asset (l.resume w)
  | .pricing free due reply =>
    if due ≤ w.now then close w o s.asset free reply
    else (w, .blocked (.pricing free due reply))
  | .finished value => (w, .done value)

def drop (w : World ε) (s : Share) : World ε :=
  match s.state with
  | .reading l => l.drop w
  | .fresh | .pricing .. | .finished _ => w

def dropAll (w : World ε) (shares : List Share) : World ε :=
  shares.foldl drop w

/-- Goes on with the work on every asset in turn; a fault in one ends the work on all. -/
def resumeAll [Exchange ε] (o : ValuationOptions) :
    World ε → List Share → World ε × Option (List Share)
  | w, [] => (w, some [])
  | w, s :: rest =>
    match s.resume w o with
    | (w, .crashed) => (dropAll w rest, none)
    | (w, .blocked state) =>
      match resumeAll o w rest with
      | (w, some shares) => (w, some (⟨s.asset, state⟩ :: shares))
      | (w, none) => (drop w ⟨s.asset, state⟩, none)
    | (w, .done value) =>
      let (w, shares) := resumeAll o w rest
      (w, shares.map (⟨s.asset, .finished value⟩ :: ·))

def value? (s : Share) : Option Float :=
  match s.state with
  | .finished value => some value
  | _ => none

def isReady (w : World ε) (s : Share) : Bool :=
  match s.state with
  | .fresh => true
  | .reading l => l.isReady w
  | .pricing _ due _ => due ≤ w.now
  | .finished _ => false

def dues (s : Share) : List Int :=
  match s.state with
  | .reading l => l.dues
  | .pricing _ due _ => [due]
  | .fresh | .finished _ => []

end Share

/-- A valuation that waits. -/
inductive Valuation where
  /-- For the cash. -/
  | cashing (o : ValuationOptions) (l : LiveRead)
  /-- For the contributions, with the cash. -/
  | summing (o : ValuationOptions) (cash : Float) (shares : List Share)

namespace Valuation

variable {ε : Type}

def droppedEvent (s : Strategy) (a : Asset) (value : Float) : Event :=
  ⟨.warn, .valuation, "dropping non-finite asset contribution",
    [("strategy", .shown s.name), ("pair", .shown a.pair),
      ("value", .shown (FloatStyle.detailed.render value))]⟩

/-- The report of cash that counts as zero. -/
def cashEvent (s : Strategy) (cash : Float) : Event :=
  ⟨.warn, .valuation, "non-finite cash, counting as zero",
    [("strategy", .shown s.name), ("cash", .shown (FloatStyle.detailed.render cash))]⟩

/-- Adds the finite contributions to the cash in the order of the assets. -/
def total (cash : Float) (values : List Float) : Float :=
  values.foldl (fun sum v => if Binary64.isFinite v then sum + v else sum) cash

def close (w : World ε) (cash : Float) (values : List (Asset × Float)) : World ε × Float :=
  let dropped := values.filter fun v => !Binary64.isFinite v.2
  (w.logAll (dropped.map fun v => droppedEvent w.watcher.strategy v.1 v.2),
    total cash (values.map (·.2)))

/-- Goes on with the contributions, and adds them up when all are worked out. -/
def sum [Exchange ε] (w : World ε) (o : ValuationOptions) (cash : Float) (shares : List Share) :
    World ε × Progress Valuation Float :=
  match Share.resumeAll o w shares with
  | (w, none) => (w, .crashed)
  | (w, some shares) =>
    match shares.mapM fun s => s.value?.map (s.asset, ·) with
    | some values =>
      let (w, x) := close w cash values
      (w, .done x)
    | none => (w, .blocked (.summing o cash shares))

/-- Begins the contributions. Cash that is not finite counts as zero. -/
def afterCash [Exchange ε] (w : World ε) (o : ValuationOptions) (cash : Float) :
    World ε × Progress Valuation Float :=
  let s := w.watcher.strategy
  let shares := s.assets.map (⟨·, .fresh⟩)
  if Binary64.isFinite cash then sum w o cash shares
  else sum (w.log (cashEvent s cash)) o 0.0 shares

def afterRead [Exchange ε] (o : ValuationOptions)
    (r : World ε × Progress LiveRead (Option Reading)) : World ε × Progress Valuation Float :=
  Progress.andThen r (.cashing o) fun w served => afterCash w o (Reading.amount served .free)

def begin [Exchange ε] (w : World ε) (o : ValuationOptions) : World ε × Progress Valuation Float :=
  let cash := w.watcher.strategy.cash
  if o.useLocalBalances then afterCash w o cash.value
  else afterRead o (LiveRead.begin w ⟨some cash.currency, o.live⟩)

def resume [Exchange ε] (w : World ε) : Valuation → World ε × Progress Valuation Float
  | .cashing o l => afterRead o (l.resume w)
  | .summing o cash shares => sum w o cash shares

def drop (w : World ε) : Valuation → World ε
  | .cashing _ l => l.drop w
  | .summing _ _ shares => Share.dropAll w shares

def isReady (w : World ε) : Valuation → Bool
  | .cashing _ l => l.isReady w
  | .summing _ _ shares => shares.any (·.isReady w)

def dues : Valuation → List Int
  | .cashing _ l => l.dues
  | .summing _ _ shares => shares.flatMap Share.dues

end Valuation

end Portfolio
