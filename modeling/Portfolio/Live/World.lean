import Portfolio.Exchange.Basic
import Portfolio.Live.Progress
import Portfolio.Watcher.Basic

/-! # The world of a watcher

What tasks share: the clock, the exchange, the watcher, its poll loops and the journal. Time is in
nanoseconds since the epoch. The states of a refresh and of a poll loop are here too, since the
loops are part of the world. -/

namespace Portfolio

/-- What a refresh saw when it began, to tell later whether another one has landed. -/
structure Seen where
  signals : Nat
  lastFetch : Option Timestamp
  /-- The balance of the quote currency. -/
  quote : Option Balance

/-- A refresh that waits. -/
inductive Refresh where
  /-- For the fetch in flight, until the deadline. -/
  | joining (seen : Seen) (deadline : Int) (fallback : Params)
  /-- For its turn to fetch. -/
  | queueing (ticket : Nat) (fallback : Params)
  /-- For the reply to its own fetch. -/
  | fetching (ticket : Nat) (started : Timestamp) (due : Int) (reply : Reply Json.Value)

/-- A poll loop. -/
inductive PollState where
  /-- Not run yet. -/
  | starting
  /-- Waiting for its next tick. -/
  | ticking (due : Int)
  /-- Refreshing, with the tick that follows. -/
  | refreshing (next : Int) (r : Refresh)

/-- A poll loop with its number; a loop that was told to stop goes when it gets its turn. -/
structure PollLoop where
  id : Nat
  state : PollState
  aborted : Bool

structure World (ε : Type) where
  now : Int
  exchange : ε
  watcher : Watcher
  /-- The poll loops that have not ended, in the order of their starts. -/
  loops : List PollLoop
  nextLoop : Nat
  /-- Nobody holds the watcher any more, and a poll loop ends at its next tick. -/
  released : Bool
  /-- What was reported, with its time, the latest first. -/
  journal : List (Int × Event)

namespace World

variable {ε : Type}

def new (now : Int) (exchange : ε) (watcher : Watcher) : World ε :=
  { now, exchange, watcher, loops := [], nextLoop := 0, released := false, journal := [] }

def log (w : World ε) (e : Event) : World ε :=
  { w with journal := (w.now, e) :: w.journal }

def logAll (w : World ε) (es : List Event) : World ε :=
  es.foldl log w

def onWatcher (w : World ε) (f : Watcher → Watcher) : World ε :=
  { w with watcher := f w.watcher }

def time (w : World ε) : Timestamp :=
  .ofNanos w.now

/-- The last moment that the clock can tell: the last nanosecond of the last second that it counts
in a word of 64 bits with a sign. -/
def clockEnd : Int := Word.greatest 64 * 1000000000 + 999999999

/-- The clock can tell the moment a duration from now. -/
def Reaches (w : World ε) (d : Duration) : Prop :=
  w.now + d.nanos ≤ clockEnd

instance (w : World ε) (d : Duration) : Decidable (w.Reaches d) :=
  inferInstanceAs (Decidable (_ ≤ _))

theorem reaches_congr {w w' : World ε} (h : w'.now = w.now) (d : Duration) :
    w'.Reaches d ↔ w.Reaches d := by
  rw [Reaches, Reaches, h]

/-- In the first half of its range the clock can tell the end of every wait that has its
milliseconds in a word. -/
theorem reaches_ofMillis {w : World ε} {n : Nat} (hnow : w.now < Word.count 62 * 1000000000)
    (hn : n < Word.count 64) : w.Reaches (.ofMillis n) := by
  have hnanos : (Duration.ofMillis n).nanos = n * 1000000 := Duration.nanos_ofNanos (by omega)
  have hquarter : Word.count 62 = 4611686018427387904 := by decide
  have hwhole : Word.count 64 = 18446744073709551616 := by decide
  have hend : clockEnd = 9223372036854775807999999999 := by decide
  rw [Reaches, hend, hnanos]
  omega

/-! ## What reports and changes leave alone -/

section
variable (w : World ε) (es : List Event) (f : Watcher → Watcher)

theorem logAll_eq : w.logAll es = { w with journal := (w.logAll es).journal } := by
  induction es generalizing w with
  | nil => rfl
  | cons e es ih => exact ih (w.log e)

@[simp] theorem watcher_logAll : (w.logAll es).watcher = w.watcher := by rw [logAll_eq]

@[simp] theorem now_logAll : (w.logAll es).now = w.now := by rw [logAll_eq]

@[simp] theorem exchange_logAll : (w.logAll es).exchange = w.exchange := by rw [logAll_eq]

@[simp] theorem loops_logAll : (w.logAll es).loops = w.loops := by rw [logAll_eq]

@[simp] theorem nextLoop_logAll : (w.logAll es).nextLoop = w.nextLoop := by rw [logAll_eq]

@[simp] theorem watcher_onWatcher : (w.onWatcher f).watcher = f w.watcher := rfl

end

end World

end Portfolio
