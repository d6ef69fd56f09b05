import Portfolio.Account.Table
import Portfolio.Watcher.Buffer
import Portfolio.Watcher.Lock
import Portfolio.Watcher.Payload

/-! # Balance watchers

A watcher keeps the balances of one strategy: the history of raw records, the table made from the
newest of them, the count of signals that tell of a new table, and the lock that a fetch holds. -/

namespace Portfolio

structure Watcher where
  strategy : Strategy
  /-- Between the fetches of the poll loop; zero for a watcher that fetches on demand only. -/
  pollInterval : Duration
  lock : FetchLock
  /-- A fetch holds the lock. -/
  inFlight : Bool
  /-- When the last fetch with data began. -/
  lastFetch : Option Timestamp
  buffer : RecordBuffer
  /-- Signals raised so far, taken not to wrap. Who waits remembers the count and is woken when it
  has grown. -/
  signals : Nat
  view : BalanceTable
  /-- The poll loop that was started last, unless it was stopped. -/
  poller : Option Nat
  started : Bool

namespace BalanceTable

/-- The amounts that a report has for a currency, zero if it has none: exchanges leave out empty
balances. -/
def reported (entries : List (String × Amounts)) (currency : String) : Amounts :=
  (entries.lookup currency).getD .zero

/-- The table after a report: known currencies in their places, new ones at the end. -/
def report (t : BalanceTable) (asOf : Timestamp) (entries : List (String × Amounts)) :
    BalanceTable :=
  let known := t.balances.map fun b => ⟨b.currency, asOf, reported entries b.currency⟩
  let new := entries.filter fun e => (t.get? e.1).isNone
  ⟨asOf, known ++ new.map fun e => ⟨e.1, asOf, e.2⟩⟩

theorem asOf_of_mem_report {t : BalanceTable} {asOf : Timestamp}
    {entries : List (String × Amounts)} {b : Balance} (h : b ∈ (t.report asOf entries).balances) :
    b.asOf = asOf := by
  rcases List.mem_append.1 h with hb | hb
  · obtain ⟨a, -, rfl⟩ := List.mem_map.1 hb
    rfl
  · obtain ⟨e, -, rfl⟩ := List.mem_map.1 hb
    rfl

end BalanceTable

namespace Watcher

def new (strategy : Strategy) (pollInterval : Duration) (capacity : Nat) : Watcher :=
  { strategy, pollInterval, lock := .free, inFlight := false, lastFetch := none,
    buffer := .new capacity, signals := 0, view := .empty, poller := none, started := false }

/-- A new watcher on a machine with so many octets for its buffer. -/
def create (memory : Nat) (strategy : Strategy) (pollInterval : Duration) (capacity : Nat) :
    Except MemoryFault Watcher :=
  (RecordBuffer.allocate memory capacity).map fun buffer =>
    { new strategy pollInterval capacity with buffer }

/-- Some fetch has produced data. -/
def hasFetched (w : Watcher) : Bool :=
  !w.buffer.isEmpty

def cached (w : Watcher) (currency : String) : Option Balance :=
  w.view.get? currency

/-- Appends a raw result with the time at which its fetch began. -/
def push (w : Watcher) (payload : Json.Value) (at_ : Timestamp) : Watcher :=
  { w with buffer := w.buffer.push ⟨payload, at_⟩, lastFetch := some at_ }

/-- Makes the table from a record and raises the signal. -/
def materialise (w : Watcher) (r : FetchRecord) : Watcher :=
  { w with
    view := w.view.report r.timestamp (Payload.read r.payload)
    signals := w.signals + 1 }

/-- Makes the table from the newest record, if there is one. -/
def renewView (w : Watcher) : Watcher :=
  match w.buffer.latest? with
  | some r => w.materialise r
  | none => w

def signal (w : Watcher) : Watcher :=
  { w with signals := w.signals + 1 }

/-- Zeroes the table; the history stays. -/
def reset (w : Watcher) : Watcher :=
  { w with view := w.view.reset }

def enter (w : Watcher) : Watcher :=
  { w with inFlight := true }

def release (w : Watcher) (ticket : Nat) : Watcher :=
  { w with inFlight := false, lock := w.lock.leave ticket }

def leaveQueue (w : Watcher) (ticket : Nat) : Watcher :=
  { w with lock := w.lock.leave ticket }

/-! ## What the changes leave alone -/

section
variable (w : Watcher) (ticket : Nat)

theorem renewView_of_latest? {w : Watcher} {r : FetchRecord} (h : w.buffer.latest? = some r) :
    w.renewView = w.materialise r := by
  simp only [renewView, h]

@[simp] theorem lock_renewView : w.renewView.lock = w.lock := by
  unfold renewView; split <;> rfl

@[simp] theorem inFlight_renewView : w.renewView.inFlight = w.inFlight := by
  unfold renewView; split <;> rfl

@[simp] theorem buffer_renewView : w.renewView.buffer = w.buffer := by
  unfold renewView; split <;> rfl

@[simp] theorem strategy_renewView : w.renewView.strategy = w.strategy := by
  unfold renewView; split <;> rfl

@[simp] theorem pollInterval_renewView : w.renewView.pollInterval = w.pollInterval := by
  unfold renewView; split <;> rfl

theorem signals_le_renewView : w.signals ≤ w.renewView.signals := by
  unfold renewView; split
  · exact Nat.le_succ _
  · exact Nat.le_refl _

@[simp] theorem inFlight_enter : w.enter.inFlight = true := rfl

@[simp] theorem lock_leaveQueue : (w.leaveQueue ticket).lock = w.lock.leave ticket := rfl

@[simp] theorem inFlight_leaveQueue : (w.leaveQueue ticket).inFlight = w.inFlight := rfl

end

end Watcher

end Portfolio
