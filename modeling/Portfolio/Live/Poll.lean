import Portfolio.Live.Refresh

/-! # Poll loops

A started watcher with an interval refreshes at once and then once per interval; a tick that comes
late moves the following ones. A watcher without an interval refreshes on demand only. -/

namespace Portfolio

namespace World

variable {ε : Type}

def isAlive (w : World ε) (id : Nat) : Bool :=
  w.loops.any (·.id == id)

def onDemandEvent (w : Watcher) : Event :=
  ⟨.info, .watcher, "Balance watcher started in on-demand mode",
    [("strategy", .shown w.strategy.name)]⟩

def startedEvent (exchange : String) (w : Watcher) : Event :=
  ⟨.info, .watcher, "Balance watcher started",
    [("strategy", .shown w.strategy.name), ("exchange", .shown exchange),
      ("poll_interval", .shown w.pollInterval.render),
      ("buffer_capacity", .shown (toString w.buffer.capacity))]⟩

def stoppedEvent (w : Watcher) : Event :=
  ⟨.info, .watcher, "Balance watcher stopped", [("strategy", .shown w.strategy.name)]⟩

/-- Adds a poll loop, the one that the watcher knows from now on. -/
def spawn (w : World ε) : World ε :=
  { w with
    loops := w.loops ++ [⟨w.nextLoop, .starting, false⟩]
    nextLoop := w.nextLoop + 1
    watcher := { w.watcher with poller := some w.nextLoop } }

def isPolling (w : World ε) : Bool :=
  match w.watcher.poller with
  | some id => w.isAlive id
  | none => false

/-- Starts the watcher; nothing happens if its poll loop runs. -/
def start [Exchange ε] (w : World ε) : World ε :=
  if w.isPolling then w
  else
    let wasStarted := w.watcher.started
    let w := w.onWatcher ({ · with started := true })
    if w.watcher.pollInterval.isZero then
      if wasStarted then w else w.log (onDemandEvent w.watcher)
    else w.spawn.log (startedEvent (Exchange.name w.exchange) w.watcher)

def abort (id : Nat) (l : PollLoop) : PollLoop :=
  if l.id = id then { l with aborted := true } else l

/-- Stops the watcher; the balances stay. -/
def stop (w : World ε) : World ε :=
  let w := match w.watcher.poller with
    | some id =>
      { w with
        loops := w.loops.map (abort id)
        watcher := { w.watcher with poller := none } }
    | none => w
  if w.watcher.started then
    (w.onWatcher ({ · with started := false })).log (stoppedEvent w.watcher)
  else w

/-! ## What starts and stops do -/

/-- A start changes nothing, or raises the flag, or also spawns a loop. -/
theorem start_cases [Exchange ε] (w : World ε) :
    w.start = w ∨
      w.isPolling = false ∧
        ((∃ journal, w.start = { w.onWatcher ({ · with started := true }) with journal }) ∨
          ∃ journal,
            w.start = { (w.onWatcher ({ · with started := true })).spawn with journal }) := by
  unfold start
  split
  · exact .inl rfl
  · next hp =>
    refine .inr ⟨by simpa using hp, ?_⟩
    dsimp only
    split
    · split
      · exact .inl ⟨_, rfl⟩
      · exact .inl ⟨_, rfl⟩
    · exact .inr ⟨_, rfl⟩

/-- A start changes only what belongs to the poll loop, and reports it. -/
theorem start_eq [Exchange ε] (w : World ε) :
    ∃ poller started loops nextLoop journal,
      w.start = { w with
        watcher := { w.watcher with poller, started }
        loops, nextLoop, journal } := by
  obtain h | ⟨-, ⟨j, h⟩ | ⟨j, h⟩⟩ := w.start_cases
  · exact ⟨_, _, _, _, _, h⟩
  · exact ⟨_, _, _, _, _, h⟩
  · exact ⟨_, _, _, _, _, h⟩

/-- A stop changes flags of the watcher and of its loops, and reports it. -/
theorem stop_cases (w : World ε) :
    ∃ poller started loops journal,
      w.stop = { w with watcher := { w.watcher with poller, started }, loops, journal } ∧
        (loops = w.loops ∨ ∃ id, loops = w.loops.map (abort id)) := by
  unfold stop
  cases w.watcher.poller with
  | none =>
    dsimp only
    split
    · exact ⟨_, _, _, _, rfl, .inl rfl⟩
    · exact ⟨_, _, _, _, rfl, .inl rfl⟩
  | some id =>
    dsimp only
    split
    · exact ⟨_, _, _, _, rfl, .inr ⟨id, rfl⟩⟩
    · exact ⟨_, _, _, _, rfl, .inr ⟨id, rfl⟩⟩

end World

namespace PollState

variable {ε : Type}

/-- A tick this much late, in nanoseconds, moves the following ones. -/
def tolerance : Int := 5000000

/-- The tick after one that was due, at the time at which it came. -/
def nextTick (interval now due : Int) : Int :=
  if due + tolerance < now then now + interval else due + interval

/-- Waits for a tick, or takes it and those that are due already: the loop ends if nobody holds the
watcher, else it refreshes. The fuel is the number of ticks that may be due. -/
def tick [Exchange ε] : Nat → World ε → Int → World ε × Progress PollState Unit
  | 0, w, due => (w, .blocked (.ticking due))
  | fuel + 1, w, due =>
    if due ≤ w.now then
      if w.released then (w, .done ())
      else
        let next := nextTick w.watcher.pollInterval.nanos w.now due
        Progress.andThen (Refresh.begin w []) (.refreshing next) fun w _ => tick fuel w next
    else (w, .blocked (.ticking due))

/-- The number of ticks that may be due at once: those within the tolerance and the two around. -/
def dueTicks (interval : Duration) : Nat :=
  tolerance.toNat / interval.nanos + 2

def await [Exchange ε] (w : World ε) (due : Int) : World ε × Progress PollState Unit :=
  tick (dueTicks w.watcher.pollInterval) w due

def resume [Exchange ε] (w : World ε) : PollState → World ε × Progress PollState Unit
  | .starting => await w w.now
  | .ticking due => await w due
  | .refreshing next r =>
    Progress.andThen (r.resume w) (.refreshing next) fun w _ => await w next

def drop (w : World ε) : PollState → World ε
  | .starting | .ticking _ => w
  | .refreshing _ r => r.drop w

def isReady (w : World ε) : PollState → Bool
  | .starting => true
  | .ticking due => due ≤ w.now
  | .refreshing _ r => r.isReady w

def dues : PollState → List Int
  | .starting => []
  | .ticking due => [due]
  | .refreshing _ r => r.dues

end PollState

namespace PollLoop

variable {ε : Type}

/-- It is the loop's turn: to go, if it was told so, or to go on. -/
def isReady (w : World ε) (l : PollLoop) : Bool :=
  l.aborted || l.state.isReady w

def dues (l : PollLoop) : List Int :=
  l.state.dues

end PollLoop

namespace World

variable {ε : Type}

/-- A loop in the place of the one with its number. -/
def setLoop (w : World ε) (l : PollLoop) : World ε :=
  { w with loops := w.loops.map fun m => if m.id = l.id then l else m }

def removeLoop (w : World ε) (id : Nat) : World ε :=
  { w with loops := w.loops.filter (·.id != id) }

/-- Gives a loop its turn. It is gone when it ends, and also when a fault ends it. -/
def runLoop [Exchange ε] (w : World ε) (l : PollLoop) : World ε :=
  if l.aborted then (l.state.drop w).removeLoop l.id
  else
    match l.state.resume w with
    | (w, .blocked state) => w.setLoop { l with state }
    | (w, .done ()) | (w, .crashed) => w.removeLoop l.id

end World

end Portfolio
