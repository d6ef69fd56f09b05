/-! # The fetch lock

Callers draw tickets and wait in the order of their tickets; the first ticket in the queue has the
lock, also before its caller has noticed. -/

namespace Portfolio

/-- Tickets in the order of their callers, the first with the right to fetch. -/
structure FetchLock where
  queue : List Nat
  /-- The next ticket to draw. -/
  next : Nat
  deriving DecidableEq, Repr

namespace FetchLock

def free : FetchLock := ⟨[], 0⟩

/-- Draws a ticket and queues with it. -/
def draw (l : FetchLock) : FetchLock × Nat :=
  (⟨l.queue ++ [l.next], l.next + 1⟩, l.next)

def isTurn (l : FetchLock) (ticket : Nat) : Bool :=
  l.queue.head? == some ticket

/-- Gives up a ticket, and with it the lock if it was the ticket's turn. -/
def leave (l : FetchLock) (ticket : Nat) : FetchLock :=
  { l with queue := l.queue.erase ticket }

end FetchLock

end Portfolio
