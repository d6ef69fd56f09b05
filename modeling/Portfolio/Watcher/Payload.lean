import Portfolio.Account.Balance
import Portfolio.Exchange.Basic

/-! # Amounts in a payload

A payload reports a currency if its entry is an object with a readable amount. A missing amount is
what makes the total the sum of the other two; with a single amount the rest is free or nothing. -/

namespace Portfolio.Payload

/-- Keys that carry metadata rather than a currency. -/
def metaKeys : List String :=
  ["info", "timestamp", "datetime", "free", "used", "total"]

/-- Completes the readable ones of total, free and used. -/
def complete : Option Float → Option Float → Option Float → Option Amounts
  | some t, some f, some u => some ⟨t, f, u⟩
  | some t, some f, none => some ⟨t, f, t - f⟩
  | some t, none, some u => some ⟨t, t - u, u⟩
  | none, some f, some u => some ⟨f + u, f, u⟩
  | some t, none, none => some ⟨t, t, 0.0⟩
  | none, some f, none => some ⟨f, f, 0.0⟩
  | none, none, some u => some ⟨u, 0.0, u⟩
  | none, none, none => none

/-- The amounts of an entry. -/
def entryAmounts? : Json.Value → Option Amounts
  | .object fields =>
    let amount (name : String) : Option Float :=
      (Json.Value.get? fields name).bind amountOf?
    complete (amount "total") (amount "free") (amount "used")
  | _ => none

/-- The amounts of a currency. -/
def amounts? (payload : Json.Value) (currency : String) : Option Amounts :=
  match payload with
  | .object entries =>
    if currency ∈ metaKeys then none else (Json.Value.get? entries currency).bind entryAmounts?
  | _ => none

/-- The names, each once, in the order in which they first come. -/
def distinct : List String → List String → List String
  | [], _ => []
  | k :: ks, seen => if k ∈ seen then distinct ks seen else k :: distinct ks (k :: seen)

/-- The currencies that the payload reports, with their amounts. -/
def read (payload : Json.Value) : List (String × Amounts) :=
  match payload with
  | .object entries =>
    (distinct (entries.map (·.1)) []).filterMap fun c => (amounts? payload c).map (c, ·)
  | _ => []

end Portfolio.Payload
