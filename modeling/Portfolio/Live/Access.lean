import Portfolio.Live.Poll

/-! # Cached balances

A cached balance is served as it is. A currency outside the strategy's universe reads as zero, and
one inside that is not cached is refreshed once. -/

namespace Portfolio

/-- A read of a cached balance that waits for the refresh of its currency. -/
structure CachedRead where
  currency : String
  refresh : Refresh

namespace CachedRead

variable {ε : Type}

/-- What is cached now, or zero. -/
def cachedOrZero (w : Watcher) (currency : String) : Balance :=
  (w.cached currency).getD (.zero currency .epoch)

def afterRefresh (currency : String) (r : World ε × Progress Refresh Unit) :
    World ε × Progress CachedRead Balance :=
  Progress.lift r (CachedRead.mk currency) fun w _ => cachedOrZero w.watcher currency

def begin [Exchange ε] (w : World ε) (key : BalanceKey) : World ε × Progress CachedRead Balance :=
  match w.watcher.cached key.code with
  | some b => (w, .done b)
  | none =>
    if w.watcher.strategy.tracks key.code then
      afterRefresh key.code (Refresh.begin w [])
    else (w, .done (.zero key.code .epoch))

def resume [Exchange ε] (w : World ε) (c : CachedRead) : World ε × Progress CachedRead Balance :=
  afterRefresh c.currency (c.refresh.resume w)

def drop (w : World ε) (c : CachedRead) : World ε :=
  c.refresh.drop w

end CachedRead

/-- The whole table, the watcher being started first. -/
def World.table {ε : Type} [Exchange ε] (w : World ε) : World ε × BalanceTable :=
  let w := w.start
  (w, w.watcher.view)

end Portfolio
