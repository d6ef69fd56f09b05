import Portfolio.Live.World

/-! # Single-flight refresh

A refresh that finds a fetch in flight waits for it, for as long as the strategy's balance TTL, and
is done if anything new has landed. Otherwise it queues for the fetch lock and fetches itself. An
object becomes the newest record and the new table; anything else leaves all as it was. -/

namespace Portfolio

def unhandledEvent (exchange : String) (v : Json.Value) : Event :=
  ⟨.warn, .refresh, "unhandled balance response",
    [("exchange", .shown exchange), ("kind", .quoted v.kind)]⟩

/-- The payload of a balance reply and what is reported about it: an object counts, and everything
else is no data. -/
def readReply (exchange : String) : Except ExchangeError Json.Value → Option Json.Value × List Event
  | .ok v => if v.isObject then (some v, []) else (none, [unhandledEvent exchange v])
  | .error _ => (none, [])

namespace Watcher

/-- What a refresh that begins now sees. -/
def seen (w : Watcher) : Seen :=
  ⟨w.signals, w.lastFetch, w.view.lookup (.strategy w.strategy)⟩

/-- Something has landed since: a signal, a fetch, or another balance of the quote currency. -/
def hasNews (w : Watcher) (s : Seen) : Bool :=
  w.signals != s.signals || w.lastFetch != s.lastFetch ||
    w.view.lookup (.strategy w.strategy) != s.quote

/-- A payload lands: it is stored and the lock is freed before the signal is raised, so that who
still sees the lock held hears the signal. -/
def land (w : Watcher) (ticket : Nat) (payload : Json.Value) (started : Timestamp) : Watcher :=
  ((w.push payload started).release ticket).renewView

/-- What landed is the newest record, so it is what the table is made from. -/
theorem land_eq (w : Watcher) (ticket : Nat) (payload : Json.Value) (started : Timestamp) :
    w.land ticket payload started =
      ((w.push payload started).release ticket).materialise ⟨payload, started⟩ :=
  renewView_of_latest? (RecordBuffer.latest?_push ..)

section
variable (w : Watcher) (ticket : Nat) (payload : Json.Value) (started : Timestamp)

@[simp] theorem lock_land : (w.land ticket payload started).lock = w.lock.leave ticket := by
  rw [land_eq]; rfl

@[simp] theorem inFlight_land : (w.land ticket payload started).inFlight = false := by
  rw [land_eq]; rfl

@[simp] theorem signals_land : (w.land ticket payload started).signals = w.signals + 1 := by
  rw [land_eq]; rfl

@[simp] theorem asOf_land : (w.land ticket payload started).view.asOf = started := by
  rw [land_eq]; rfl

@[simp] theorem buffer_land :
    (w.land ticket payload started).buffer = w.buffer.push ⟨payload, started⟩ := by
  rw [land_eq]; rfl

end

end Watcher

namespace Refresh

variable {ε : Type}

def finish [Exchange ε] (w : World ε) (ticket : Nat) (started : Timestamp)
    (reply : Reply Json.Value) : World ε × Progress Refresh Unit :=
  let w := w.logAll reply.events
  let settle (r : Except ExchangeError Json.Value) : World ε × Progress Refresh Unit :=
    match readReply (Exchange.name w.exchange) r with
    | (some payload, events) =>
      ((w.logAll events).onWatcher (·.land ticket payload started), .done ())
    | (none, events) => ((w.logAll events).onWatcher (·.release ticket), .done ())
  match reply.outcome with
  | .answer v => settle (.ok v)
  | .failure e => settle (.error e)
  | .crash _ => (w.onWatcher (·.release ticket), .crashed)

/-- Fetches, it being the ticket's turn. -/
def fetch [Exchange ε] (w : World ε) (ticket : Nat) (fallback : Params) :
    World ε × Progress Refresh Unit :=
  let w := w.onWatcher .enter
  let started := w.time
  let (exchange, reply) :=
    Exchange.fetchBalance w.exchange w.now (w.watcher.strategy.requestParams fallback)
  let w := { w with exchange }
  if reply.latency = 0 then finish w ticket started reply
  else (w, .blocked (.fetching ticket started (w.now + reply.latency) reply))

/-- Fetches if it is the ticket's turn, and waits for it otherwise. -/
def await [Exchange ε] (w : World ε) (ticket : Nat) (fallback : Params) :
    World ε × Progress Refresh Unit :=
  if w.watcher.lock.isTurn ticket then fetch w ticket fallback
  else (w, .blocked (.queueing ticket fallback))

def queue [Exchange ε] (w : World ε) (fallback : Params) : World ε × Progress Refresh Unit :=
  let (lock, ticket) := w.watcher.lock.draw
  await (w.onWatcher ({ · with lock })) ticket fallback

def joinOver (w : World ε) (seen : Seen) (deadline : Int) : Bool :=
  seen.signals < w.watcher.signals || deadline ≤ w.now

/-- Waits for the fetch in flight, or goes on if the wait is over. -/
def join [Exchange ε] (w : World ε) (seen : Seen) (deadline : Int) (fallback : Params) :
    World ε × Progress Refresh Unit :=
  if joinOver w seen deadline then
    if w.watcher.hasNews seen then (w, .done ()) else queue w fallback
  else (w, .blocked (.joining seen deadline fallback))

def begin [Exchange ε] (w : World ε) (fallback : Params) : World ε × Progress Refresh Unit :=
  if w.watcher.inFlight then
    join w w.watcher.seen (w.now + w.watcher.strategy.balanceTtl.nanos) fallback
  else queue w fallback

def resume [Exchange ε] (w : World ε) : Refresh → World ε × Progress Refresh Unit
  | .joining seen deadline fallback => join w seen deadline fallback
  | .queueing ticket fallback => await w ticket fallback
  | .fetching ticket started due reply =>
    if due ≤ w.now then finish w ticket started reply
    else (w, .blocked (.fetching ticket started due reply))

/-- Gives a refresh up: its place in the queue, or its fetch and the lock. -/
def drop (w : World ε) : Refresh → World ε
  | .joining .. => w
  | .queueing ticket _ => w.onWatcher (·.leaveQueue ticket)
  | .fetching ticket .. => w.onWatcher (·.release ticket)

def isReady (w : World ε) : Refresh → Bool
  | .joining seen deadline _ => joinOver w seen deadline
  | .queueing ticket _ => w.watcher.lock.isTurn ticket
  | .fetching _ _ due _ => due ≤ w.now

def dues : Refresh → List Int
  | .joining _ deadline _ => [deadline]
  | .queueing .. => []
  | .fetching _ _ due _ => [due]

end Refresh

end Portfolio
