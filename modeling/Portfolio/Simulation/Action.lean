import Portfolio.Live.Access
import Portfolio.Live.Valuation

/-! # Actions

What a task can do with a watcher. An action is begun, may wait, and ends with a result; a waiting
action is a value that is resumed when what it waits for is there. -/

namespace Portfolio.Simulation

/-- One thing to do; times are in nanoseconds. -/
inductive Action (ε : Type) where
  | sleep (length : Int)
  | forceRefresh (fallback : Params)
  | balanceOf (key : BalanceKey)
  | balanceAmount (key : BalanceKey) (field : BalanceField)
  | table
  | liveBalance (key : BalanceKey) (options : LiveOptions)
  | liveTable (options : LiveOptions)
  | liveAmount (key : BalanceKey) (field : BalanceField) (options : LiveOptions)
  | waitForFresh (currency : Option String) (since : Option Timestamp) (waitFor : Duration)
      (force : Bool)
  | portfolioTotal (options : ValuationOptions)
  | start
  | stop
  | renewView
  | reset
  | push (payload : Json.Value) (at_ : Timestamp)
  | snapshot
  | viewGet (key : BalanceKey)
  /-- Takes the fetch lock and holds it for a while. -/
  | lock (length : Int)
  /-- Waits for the next signal. -/
  | hear (length : Int)
  | signal
  /-- Does some things and then waits for a signal that came after they were begun. -/
  | subscribed (actions : List (Action ε)) (length : Int)
  | inspect
  /-- Changes the exchange. -/
  | arrange (f : ε → ε)

inductive Result (ε : Type) where
  | nothing
  | balance (b : Option Balance)
  | table (t : Option BalanceTable)
  | amount (x : Float)
  | flag (b : Bool)
  | moment (t : Int)
  | world (w : World ε)
  | subscribed (results : List (Result ε)) (woken : Bool)

/-- What is made of a live read. -/
inductive Wanted where
  | balance
  | table
  | amount (field : BalanceField)

inductive Doing (ε : Type) where
  | sleeping (until_ : Int)
  | refreshing (r : Refresh)
  /-- A cached read, for one of its amounts or the whole balance. -/
  | cached (field : Option BalanceField) (c : CachedRead)
  | live (wanted : Wanted) (l : LiveRead)
  | fresh (f : FreshWait)
  | valuing (v : Valuation)
  | locking (ticket : Nat) (length : Int)
  | holding (ticket : Nat) (since until_ : Int)
  | hearing (heard : Nat) (until_ : Int)
  /-- Does one of several things, with the results so far and what is left to do. -/
  | within (heard : Nat) (length : Int) (results : List (Result ε)) (current : Doing ε)
      (rest : List (Action ε))
  /-- Has done them all and listens. -/
  | listening (results : List (Result ε)) (heard : Nat) (until_ : Int)

/-- A world and how an action in it goes on. -/
abbrev Run (ε : Type) := World ε × Progress (Doing ε) (Result ε)

variable {ε : Type}

/-- The part as an action whose result is read by `f`. -/
def lift {σ α : Type} (r : World ε × Progress σ α) (wrap : σ → Doing ε) (f : α → Result ε) :
    Run ε :=
  Progress.lift r wrap fun _ a => f a

def ofCached (field : Option BalanceField) (r : World ε × Progress CachedRead Balance) : Run ε :=
  lift r (.cached field) fun b =>
    match field with
    | some f => .amount (b.amount f)
    | none => .balance (some b)

def ofLive (wanted : Wanted) (r : World ε × Progress LiveRead (Option Reading)) : Run ε :=
  lift r (.live wanted) fun served =>
    match wanted with
    | .balance => .balance (served.bind Reading.balance?)
    | .table => .table (served.bind Reading.table?)
    | .amount f => .amount (Reading.amount served f)

/-- Takes the fetch lock if it is the ticket's turn. -/
def takeLock (w : World ε) (ticket : Nat) (length : Int) : Run ε :=
  if w.watcher.lock.isTurn ticket then
    let w := w.onWatcher .enter
    if length ≤ 0 then (w.onWatcher (·.release ticket), .done (.moment w.now))
    else (w, .blocked (.holding ticket w.now (w.now + length)))
  else (w, .blocked (.locking ticket length))

/-- Waits for a signal after the ones heard, until a time. -/
def hearOr (w : World ε) (heard : Nat) (until_ : Int) (waiting : Doing ε) (f : Bool → Result ε) :
    Run ε :=
  if heard < w.watcher.signals then (w, .done (f true))
  else if until_ ≤ w.now then (w, .done (f false))
  else (w, .blocked waiting)

/-- Listens at the end of some actions. -/
def listen (w : World ε) (results : List (Result ε)) (heard : Nat) (until_ : Int) : Run ε :=
  hearOr w heard until_ (.listening results heard until_) (.subscribed results)

def Doing.isReady (w : World ε) : Doing ε → Bool
  | .sleeping until_ => until_ ≤ w.now
  | .refreshing r => r.isReady w
  | .cached _ c => c.refresh.isReady w
  | .live _ l => l.isReady w
  | .fresh f => f.isReady w
  | .valuing v => v.isReady w
  | .locking ticket _ => w.watcher.lock.isTurn ticket
  | .holding _ _ until_ => until_ ≤ w.now
  | .hearing heard until_ => heard < w.watcher.signals || until_ ≤ w.now
  | .within _ _ _ current _ => current.isReady w
  | .listening _ heard until_ => heard < w.watcher.signals || until_ ≤ w.now

def Doing.dues : Doing ε → List Int
  | .sleeping until_ => [until_]
  | .refreshing r => r.dues
  | .cached _ c => c.refresh.dues
  | .live _ l => l.dues
  | .fresh f => f.dues
  | .valuing v => v.dues
  | .locking .. => []
  | .holding _ _ until_ => [until_]
  | .hearing _ until_ => [until_]
  | .within _ _ _ current _ => current.dues
  | .listening _ _ until_ => [until_]

def Doing.drop (w : World ε) : Doing ε → World ε
  | .refreshing r => r.drop w
  | .cached _ c => c.drop w
  | .live _ l => l.drop w
  | .fresh f => f.drop w
  | .valuing v => v.drop w
  | .locking ticket _ => w.onWatcher (·.leaveQueue ticket)
  | .holding ticket .. => w.onWatcher (·.release ticket)
  | .within _ _ _ current _ => current.drop w
  | .sleeping _ | .hearing .. | .listening .. => w

variable [Exchange ε]

mutual

def Action.begin (w : World ε) : Action ε → Run ε
  | .sleep length =>
    if length ≤ 0 then (w, .done .nothing) else (w, .blocked (.sleeping (w.now + length)))
  | .forceRefresh fallback => lift (Refresh.begin w fallback) .refreshing fun _ => .nothing
  | .balanceOf key => ofCached none (CachedRead.begin w key)
  | .balanceAmount key field => ofCached (some field) (CachedRead.begin w key)
  | .table =>
    let (w, t) := w.table
    (w, .done (.table (some t)))
  | .liveBalance key options => ofLive .balance (LiveRead.begin w ⟨some key.code, options⟩)
  | .liveTable options => ofLive .table (LiveRead.begin w ⟨none, options⟩)
  | .liveAmount key field options =>
    ofLive (.amount field) (LiveRead.begin w ⟨some key.code, options⟩)
  | .waitForFresh currency since waitFor force =>
    lift (FreshWait.begin w currency since waitFor force) .fresh .flag
  | .portfolioTotal options => lift (Valuation.begin w options) .valuing .amount
  | .start => (w.start, .done .nothing)
  | .stop => (w.stop, .done .nothing)
  | .renewView => (w.onWatcher .renewView, .done .nothing)
  | .reset => (w.onWatcher .reset, .done .nothing)
  | .push payload at_ => (w.onWatcher (·.push payload at_), .done .nothing)
  | .snapshot => (w, .done (.table (some w.watcher.view)))
  | .viewGet key => (w, .done (.balance (w.watcher.view.lookup key)))
  | .lock length =>
    let (l, ticket) := w.watcher.lock.draw
    takeLock (w.onWatcher ({ · with lock := l })) ticket length
  | .hear length =>
    let until_ := w.now + length
    hearOr w w.watcher.signals until_ (.hearing w.watcher.signals until_) .flag
  | .signal => (w.onWatcher .signal, .done .nothing)
  | .subscribed actions length => Action.beginAll w w.watcher.signals length [] actions
  | .inspect => (w, .done (.world w))
  | .arrange f => ({ w with exchange := f w.exchange }, .done .nothing)

/-- Begins what is left to do of some actions, and listens when nothing is. -/
def Action.beginAll (w : World ε) (heard : Nat) (length : Int) (results : List (Result ε)) :
    List (Action ε) → Run ε
  | [] => listen w results heard (w.now + length)
  | a :: rest =>
    match a.begin w with
    | (w, .done r) => Action.beginAll w heard length (results ++ [r]) rest
    | (w, .blocked d) => (w, .blocked (.within heard length results d rest))
    | (w, .crashed) => (w, .crashed)

end

def Doing.resume (w : World ε) : Doing ε → Run ε
  | .sleeping until_ =>
    if until_ ≤ w.now then (w, .done .nothing) else (w, .blocked (.sleeping until_))
  | .refreshing r => lift (r.resume w) .refreshing fun _ => .nothing
  | .cached field c => ofCached field (c.resume w)
  | .live wanted l => ofLive wanted (l.resume w)
  | .fresh f => lift (f.resume w) .fresh .flag
  | .valuing v => lift (v.resume w) .valuing .amount
  | .locking ticket length => takeLock w ticket length
  | .holding ticket since until_ =>
    if until_ ≤ w.now then (w.onWatcher (·.release ticket), .done (.moment since))
    else (w, .blocked (.holding ticket since until_))
  | .hearing heard until_ => hearOr w heard until_ (.hearing heard until_) .flag
  | .within heard length results current rest =>
    match current.resume w with
    | (w, .done r) => Action.beginAll w heard length (results ++ [r]) rest
    | (w, .blocked d) => (w, .blocked (.within heard length results d rest))
    | (w, .crashed) => (w, .crashed)
  | .listening results heard until_ => listen w results heard until_

end Portfolio.Simulation
