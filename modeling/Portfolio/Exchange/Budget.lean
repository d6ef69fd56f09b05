/-! # Request budgets

A budget admits so many requests a minute. The minute begins with the budget, and again with the
first request that comes more than a minute after it began. -/

namespace Portfolio

/-- Requests spent in the current minute. -/
structure RequestBudget where
  /-- Requests a minute. -/
  limit : Nat
  /-- When the minute began, in nanoseconds. -/
  began : Int
  used : Nat
  limit_pos : 0 < limit

structure BudgetSpent where
  used : Nat
  limit : Nat
  deriving DecidableEq, Repr

def BudgetSpent.message (s : BudgetSpent) : String :=
  "rate limit exceeded: " ++ toString s.used ++ "/" ++ toString s.limit ++ " per minute"

namespace RequestBudget

def minute : Int := 60000000000

def defaultLimit : Nat := 200

/-- A fresh budget; no limit and a limit of zero are the default one. -/
def new (limit : Option Nat) (now : Int) : RequestBudget :=
  match limit with
  | some (n + 1) => ⟨n + 1, now, 0, by omega⟩
  | _ => ⟨defaultLimit, now, 0, by decide⟩

/-- The budget at a time: a new minute begins if the current one is over. -/
def renew (b : RequestBudget) (now : Int) : RequestBudget :=
  if b.began + minute < now then { b with began := now, used := 0 } else b

/-- Spends one request. A refusal changes nothing: where a minute begins there is room. -/
def take (b : RequestBudget) (now : Int) : Except BudgetSpent RequestBudget :=
  let b := b.renew now
  if b.limit ≤ b.used then .error ⟨b.used, b.limit⟩ else .ok { b with used := b.used + 1 }

end RequestBudget

end Portfolio
