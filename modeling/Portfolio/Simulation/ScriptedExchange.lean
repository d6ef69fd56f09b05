import Portfolio.Exchange.Basic

/-! # Scripted exchanges

An exchange that answers as it is told. Balance replies are used up one after the other, and the
last one is kept for ever; prices are looked up by pair. -/

namespace Portfolio

/-- A reply and the nanoseconds until it is there. -/
structure ScriptedReply (α : Type) where
  result : Except ExchangeError α
  latency : Nat

/-- What the exchange was told and what it was asked. -/
structure ScriptedExchange where
  name : String
  replies : List (ScriptedReply Json.Value)
  prices : List (String × ScriptedReply Float)
  /-- Requests for balances so far. -/
  balanceCalls : Nat
  /-- Requests for prices so far. -/
  priceCalls : Nat
  /-- The parameters of the last request for balances. -/
  lastParams : Option Params

namespace ScriptedExchange

/-- An exchange that was not asked for anything yet. -/
def new (name : String) (replies : List (ScriptedReply Json.Value))
    (prices : List (String × ScriptedReply Float)) : ScriptedExchange :=
  ⟨name, replies, prices, 0, 0, none⟩

def toReply {α : Type} (r : ScriptedReply α) : Reply α :=
  match r.result with
  | .ok a => ⟨.answer a, r.latency, []⟩
  | .error e => ⟨.failure e, r.latency, []⟩

/-- Takes the next balance reply, the last one again and again. -/
def fetchBalance (x : ScriptedExchange) (params : Params) :
    ScriptedExchange × Reply Json.Value :=
  let x := { x with balanceCalls := x.balanceCalls + 1, lastParams := some params }
  match x.replies with
  | [] => (x, ⟨.failure (.connection "no reply scripted"), 0, []⟩)
  | [r] => (x, toReply r)
  | r :: rest => ({ x with replies := rest }, toReply r)

def fetchPrice (x : ScriptedExchange) (pair : String) : ScriptedExchange × Reply Float :=
  let x := { x with priceCalls := x.priceCalls + 1 }
  match x.prices.lookup pair with
  | some r => (x, toReply r)
  | none => (x, ⟨.failure (.pairNotSupported pair), 0, []⟩)

end ScriptedExchange

instance : Exchange ScriptedExchange where
  name x := x.name
  fetchBalance x _ params := x.fetchBalance params
  fetchPrice x _ pair := x.fetchPrice pair

end Portfolio
