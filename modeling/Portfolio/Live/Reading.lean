import Portfolio.Live.Freshness
import Portfolio.Live.Poll

/-! # Live balances

A live read starts the watcher and serves what is cached if that is fresh enough. Otherwise it
refreshes, if nothing was ever fetched or the caller insists, or waits for the next fetch, and at
last refreshes once more. Staleness is no error: the best that is there is served, with a
warning. -/

namespace Portfolio

/-- What a live read may serve, and how long it may take. -/
structure LiveOptions where
  /-- The oldest stamp to accept; none accepts everything. -/
  since : Option Timestamp
  /-- Refresh now, or wait for the fetch in flight. -/
  force : Bool
  waitFor : Duration
  /-- Parameters of a request that the strategy does not set. -/
  fallback : Params

/-- Accepts everything, and waits five seconds at most. -/
def LiveOptions.default : LiveOptions :=
  ⟨none, false, .ofSeconds 5, []⟩

inductive Reading where
  | balance (b : Balance)
  | table (t : BalanceTable)

namespace Reading

def asOf : Reading → Timestamp
  | balance b => b.asOf
  | table t => t.asOf

def balance? : Reading → Option Balance
  | balance b => some b
  | table _ => none

def table? : Reading → Option BalanceTable
  | table t => some t
  | balance _ => none

/-- Nothing, or older than what is accepted. -/
def isStale (r : Option Reading) (since : Option Timestamp) : Bool :=
  match r, since with
  | none, _ => true
  | some _, none => false
  | some r, some since => decide (r.asOf < since)

end Reading

/-- The cached balance of a currency, or the table once anything was fetched. -/
def Watcher.read (w : Watcher) : Option String → Option Reading
  | some currency => (w.cached currency).map .balance
  | none => if w.hasFetched then some (.table w.view) else none

/-- A live read: of a currency or of the table, and on what terms. -/
structure LiveQuery where
  currency : Option String
  options : LiveOptions

/-- A live read that waits. -/
inductive LiveRead where
  /-- For its first refresh. -/
  | refreshing (q : LiveQuery) (r : Refresh)
  /-- For a fresh balance. -/
  | waiting (q : LiveQuery) (f : FreshWait)
  /-- For its second refresh. -/
  | retrying (q : LiveQuery) (r : Refresh)

namespace LiveRead

variable {ε : Type}

def query : LiveRead → LiveQuery
  | refreshing q _ | waiting q _ | retrying q _ => q

/-- A stamp in the report of a stale read. -/
def stampDetail : Option Timestamp → Detail
  | none => .shown "None"
  | some t => .shown ("Some(" ++ String.ofList (Calendar.render t) ++ ")")

def staleEvent (w : Watcher) (q : LiveQuery) (r : Option Reading) : Event :=
  ⟨.warn, .policy, "serving possibly-stale balance",
    [("strategy", .shown w.strategy.name), ("currency", .quoted (q.currency.getD "*")),
      ("since", stampDetail q.options.since), ("as_of", stampDetail (r.map Reading.asOf))]⟩

def serve (w : World ε) (q : LiveQuery) : World ε × Progress LiveRead (Option Reading) :=
  let r := w.watcher.read q.currency
  (if Reading.isStale r q.options.since then w.log (staleEvent w.watcher q r) else w, .done r)

def afterRetry (q : LiveQuery) (r : World ε × Progress Refresh Unit) :
    World ε × Progress LiveRead (Option Reading) :=
  Progress.andThen r (.retrying q) fun w _ => serve w q

/-- Serves after a wait that ended well, and refreshes once more after one that did not. -/
def afterWait [Exchange ε] (q : LiveQuery) (r : World ε × Progress FreshWait Bool) :
    World ε × Progress LiveRead (Option Reading) :=
  Progress.andThen r (.waiting q) fun w fresh =>
    if fresh then serve w q else afterRetry q (Refresh.begin w q.options.fallback)

def mustWait (w : Watcher) (q : LiveQuery) : Bool :=
  (q.options.force && w.inFlight) ||
    (q.options.since.isSome && (w.read q.currency).isSome)

def secondStage [Exchange ε] (w : World ε) (q : LiveQuery) :
    World ε × Progress LiveRead (Option Reading) :=
  if mustWait w.watcher q then
    afterWait q
      (FreshWait.begin w q.currency q.options.since q.options.waitFor q.options.force)
  else serve w q

def afterRefresh [Exchange ε] (q : LiveQuery) (r : World ε × Progress Refresh Unit) :
    World ε × Progress LiveRead (Option Reading) :=
  Progress.andThen r (.refreshing q) fun w _ => secondStage w q

def mustRefresh (w : Watcher) (q : LiveQuery) : Bool :=
  ((q.options.force && !w.inFlight) || !w.hasFetched) &&
    Reading.isStale (w.read q.currency) q.options.since

def begin [Exchange ε] (w : World ε) (q : LiveQuery) :
    World ε × Progress LiveRead (Option Reading) :=
  let w := w.start
  if mustRefresh w.watcher q then afterRefresh q (Refresh.begin w q.options.fallback)
  else secondStage w q

def resume [Exchange ε] (w : World ε) : LiveRead → World ε × Progress LiveRead (Option Reading)
  | .refreshing q r => afterRefresh q (r.resume w)
  | .waiting q f => afterWait q (f.resume w)
  | .retrying q r => afterRetry q (r.resume w)

def drop (w : World ε) : LiveRead → World ε
  | .refreshing _ r | .retrying _ r => r.drop w
  | .waiting _ f => f.drop w

def isReady (w : World ε) : LiveRead → Bool
  | .refreshing _ r | .retrying _ r => r.isReady w
  | .waiting _ f => f.isReady w

def dues : LiveRead → List Int
  | .refreshing _ r | .retrying _ r => r.dues
  | .waiting _ f => f.dues

end LiveRead

/-- One amount of what a read served for a currency; nothing served is nothing there. -/
def Reading.amount (r : Option Reading) (field : BalanceField) : Float :=
  match r.bind Reading.balance? with
  | some b => b.amount field
  | none => 0.0

end Portfolio
