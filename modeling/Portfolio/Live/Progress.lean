/-! # Progress of a task

A task runs until it has to wait, is done, or hits a fault that it cannot survive. While it waits
it is a value of its own, and other tasks run.

Each kind of task comes with the same functions. `begin` runs it up to its first wait and `resume`
from one wait to the next; it stays as it is if what it waits for is not there. `drop` gives it up,
with all that it holds. `isReady` tells whether what it waits for is there, and `dues` are the times
at which it goes on at the latest. -/

namespace Portfolio

/-- Where a task stands after it ran: waiting in a state `σ`, or done with an `α`. -/
inductive Progress (σ α : Type) where
  | blocked (s : σ)
  | done (a : α)
  | crashed

namespace Progress

variable {ω σ τ α β : Type}

/-- The task that is left, if it waits. -/
def left : Progress σ α → Option σ
  | blocked s => some s
  | done _ | crashed => none

/-- Goes on with `next` once a part is done; while the part waits, the whole waits as `wrap`
says. -/
def andThen (r : ω × Progress σ α) (wrap : σ → τ) (next : ω → α → ω × Progress τ β) :
    ω × Progress τ β :=
  match r with
  | (w, blocked s) => (w, blocked (wrap s))
  | (w, done a) => next w a
  | (w, crashed) => (w, crashed)

def lift (r : ω × Progress σ α) (wrap : σ → τ) (f : ω → α → β) : ω × Progress τ β :=
  andThen r wrap fun w a => (w, done (f w a))

end Progress

end Portfolio
