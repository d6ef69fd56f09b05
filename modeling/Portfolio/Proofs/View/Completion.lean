import Portfolio.Proofs.Number.Nearest
import Portfolio.Proofs.Number.Written
import Portfolio.Proofs.View.Amounts

/-! # What a payload says

A payload reports the currencies that have an entry with a readable amount, each once and under its
own name. What is readable is passed through (`Amounts.Completes`), and what is missing is what
makes the total the sum of the other two: the amounts are those of an exact balance, each rounded
once, in which the readable ones are exact (`Amounts.RoundsBalance`). All of it together is
`Payload.read_faithful`. -/

namespace Portfolio

open Binary64

/-! ## Readable amounts -/

/-- The value is an amount: a number, or a text that is a decimal but for blanks at its ends. -/
inductive Json.Value.IsAmount : Json.Value → Float → Prop
  | number (n : Json.Number) : IsAmount (.number n) n.toFloat
  | text {s : String} {d : Decimal} (h : d.IsTextOf s) : IsAmount (.string s) d.toFloat

theorem amountOf?_eq_some_iff {v : Json.Value} {x : Float} :
    amountOf? v = some x ↔ v.IsAmount x := by
  constructor
  · intro h
    cases v with
    | number n =>
      obtain rfl := Option.some_inj.1 h
      exact .number n
    | string s =>
      obtain ⟨d, hd, rfl⟩ := Option.map_eq_some_iff.1 h
      exact .text hd
    | null | bool | array | object => cases h
  · rintro (n | h)
    · rfl
    · exact Option.map_eq_some_iff.2 ⟨_, h, rfl⟩

namespace Payload

/-- The readable amount of that name. -/
def field? (fields : List (String × Json.Value)) (name : String) : Option Float :=
  (Json.Value.get? fields name).bind amountOf?

theorem field?_eq_some_iff {fields : List (String × Json.Value)} {name : String} {x : Float} :
    field? fields name = some x ↔ ∃ v, Json.Value.get? fields name = some v ∧ v.IsAmount x := by
  simp only [field?, Option.bind_eq_some_iff, amountOf?_eq_some_iff]

end Payload

/-! ## Completed amounts -/

/-- The amounts are what the readable ones are, and what is missing follows from these. -/
structure Amounts.Completes (a : Amounts) (total free used : Option Float) : Prop where
  readTotal : ∀ x ∈ total, a.total = x
  readFree : ∀ x ∈ free, a.free = x
  readUsed : ∀ x ∈ used, a.used = x
  missingTotal : total = none → free ≠ none → used ≠ none → a.total = a.free + a.used
  missingFree : total ≠ none → free = none → used ≠ none → a.free = a.total - a.used
  missingUsed : total ≠ none → free ≠ none → used = none → a.used = a.total - a.free
  onlyTotal : free = none → used = none → a.free = a.total ∧ a.used = 0.0
  onlyFree : total = none → used = none → a.free = a.total ∧ a.used = 0.0
  onlyUsed : total = none → free = none → a.used = a.total ∧ a.free = 0.0

/-- The amounts are those of an exact balance after rounding, and the readable ones are its own. -/
def Amounts.RoundsBalance (a : Amounts) (total free used : Option Float) : Prop :=
  ∃ t f u : ℚ, t = f + u ∧ Rounds t a.total ∧ Rounds f a.free ∧ Rounds u a.used ∧
    (∀ x ∈ total, t = value x) ∧ (∀ x ∈ free, f = value x) ∧ ∀ x ∈ used, u = value x

namespace Payload

variable {total free used : Option Float} {a : Amounts}

theorem exists_complete_iff :
    (∃ a, complete total free used = some a) ↔ total ≠ none ∨ free ≠ none ∨ used ≠ none := by
  cases total <;> cases free <;> cases used <;> simp [complete]

theorem completes_of_complete (h : complete total free used = some a) :
    a.Completes total free used := by
  cases total <;> cases free <;> cases used <;> cases h <;> constructor <;> simp

/-- Beside one missing amount the other two, and beside two missing ones nothing, are the exact
balance that is rounded. -/
theorem roundsBalance_of_complete (ht : ∀ x ∈ total, isFinite x = true)
    (hf : ∀ x ∈ free, isFinite x = true) (hu : ∀ x ∈ used, isFinite x = true)
    (hmissing : total = none ∨ free = none ∨ used = none)
    (h : complete total free used = some a) : a.RoundsBalance total free used := by
  have hzero : Rounds 0 (0.0 : Float) := by
    have hvalue : value 0.0 = 0 := rfl
    rw [← hvalue]
    exact rounds_value (by decide)
  cases total with
  | none =>
    cases free with
    | none =>
      cases used with
      | none => cases h
      | some u =>
        cases h
        have hu := rounds_value (hu u rfl)
        exact ⟨value u, 0, value u, (zero_add _).symm, hu, hzero, hu, by simp, by simp, by simp⟩
    | some f =>
      cases used with
      | none =>
        cases h
        have hf := rounds_value (hf f rfl)
        exact ⟨value f, value f, 0, (add_zero _).symm, hf, hf, hzero, by simp, by simp, by simp⟩
      | some u =>
        cases h
        exact ⟨value f + value u, value f, value u, rfl, rounds_add (hf f rfl) (hu u rfl),
          rounds_value (hf f rfl), rounds_value (hu u rfl), by simp, by simp, by simp⟩
  | some t =>
    cases free with
    | none =>
      cases used with
      | none =>
        cases h
        have ht := rounds_value (ht t rfl)
        exact ⟨value t, value t, 0, (add_zero _).symm, ht, ht, hzero, by simp, by simp, by simp⟩
      | some u =>
        cases h
        exact ⟨value t, value t - value u, value u, (sub_add_cancel _ _).symm,
          rounds_value (ht t rfl), rounds_sub (ht t rfl) (hu u rfl), rounds_value (hu u rfl),
          by simp, by simp, by simp⟩
    | some f =>
      cases used with
      | none =>
        cases h
        exact ⟨value t, value f, value t - value f, (add_sub_cancel _ _).symm,
          rounds_value (ht t rfl), rounds_value (hf f rfl), rounds_sub (ht t rfl) (hf f rfl),
          by simp, by simp, by simp⟩
      | some u => simp at hmissing

/-! ## Entries -/

/-- The payload is an object in which the name, not one of metadata, has an object for its entry. -/
def HasEntry (payload : Json.Value) (c : String) (fields : List (String × Json.Value)) : Prop :=
  c ∉ metaKeys ∧ ∃ entries, payload = .object entries ∧
    Json.Value.get? entries c = some (.object fields)

theorem entryAmounts?_object (fields : List (String × Json.Value)) :
    entryAmounts? (.object fields) =
      complete (field? fields "total") (field? fields "free") (field? fields "used") :=
  rfl

theorem amounts?_eq_some_iff {payload : Json.Value} {c : String} :
    amounts? payload c = some a ↔ ∃ fields, HasEntry payload c fields ∧
      complete (field? fields "total") (field? fields "free") (field? fields "used") = some a := by
  constructor
  · intro h
    cases payload with
    | object entries =>
      rw [amounts?] at h
      split at h
      · cases h
      · next hc =>
        obtain ⟨v, hv, ha⟩ := Option.bind_eq_some_iff.1 h
        cases v with
        | object fields => exact ⟨fields, ⟨hc, entries, rfl, hv⟩, ha⟩
        | null | bool | number | string | array => cases ha
    | null | bool | number | string | array => cases h
  · rintro ⟨fields, ⟨hc, entries, rfl, hv⟩, ha⟩
    rw [amounts?, if_neg hc, hv, Option.bind_some, entryAmounts?_object]
    exact ha

theorem isFinite_of_field? {payload : Json.Value} {c : String}
    {fields : List (String × Json.Value)} (hfinite : payload.AllFinite)
    (hentry : HasEntry payload c fields) (name : String) :
    ∀ x ∈ field? fields name, isFinite x = true := by
  obtain ⟨-, entries, rfl, hv⟩ := hentry
  intro x hx
  obtain ⟨v, hv', hx⟩ := Option.bind_eq_some_iff.1 hx
  exact isFinite_of_amountOf? ((hfinite.get? hv).get? hv') hx

/-- A payload reports exactly the names outside the metadata whose entry is an object with a
readable amount, each of them once. What is readable is passed through, and what is missing is made
from it so that the total is the sum of the other two: in a document with finite numbers the amounts
are those of an exact balance after rounding. -/
theorem read_faithful (payload : Json.Value) :
    ((read payload).map Prod.fst).Nodup ∧
    (∀ fields name x, field? fields name = some x ↔
      ∃ v, Json.Value.get? fields name = some v ∧ v.IsAmount x) ∧
    (∀ c, c ∈ (read payload).map Prod.fst ↔ ∃ fields, HasEntry payload c fields ∧
      ∃ name ∈ ["total", "free", "used"], field? fields name ≠ none) ∧
    ∀ c a, (c, a) ∈ read payload → ∃ fields, HasEntry payload c fields ∧
      a.Completes (field? fields "total") (field? fields "free") (field? fields "used") ∧
      (payload.AllFinite → (∃ name ∈ ["total", "free", "used"], field? fields name = none) →
        a.RoundsBalance (field? fields "total") (field? fields "free") (field? fields "used")) := by
  have hmem {c : String} {a : Amounts} : (c, a) ∈ read payload ↔ ∃ fields,
      HasEntry payload c fields ∧
        complete (field? fields "total") (field? fields "free") (field? fields "used") =
          some a := by
    rw [← Keyed.lookup_eq_some_iff_mem (nodup_read payload), lookup_read, amounts?_eq_some_iff]
  refine ⟨nodup_read payload, fun fields name x => field?_eq_some_iff, fun c => ?_, ?_⟩
  · have hname : c ∈ (read payload).map Prod.fst ↔ ∃ a, (c, a) ∈ read payload := by simp
    simp only [hname, hmem]
    rw [exists_comm]
    refine exists_congr fun fields => ?_
    rw [exists_and_left, exists_complete_iff]
    simp
  · intro c a ha
    obtain ⟨fields, hentry, hcomplete⟩ := hmem.1 ha
    refine ⟨fields, hentry, completes_of_complete hcomplete, fun hfinite hmissing => ?_⟩
    have hread := isFinite_of_field? hfinite hentry
    exact roundsBalance_of_complete (hread _) (hread _) (hread _) (by simpa using hmissing)
      hcomplete

/-- Of two readable amounts the third is made, and metadata and an entry with no decimal are not
reported. -/
theorem read_faithful_mixed :
    let btc := [("total", Json.Value.string " 2.5\n"), ("free", .null), ("used", .number (.int 1))]
    let payload := Json.Value.object [("info", .object btc), ("BTC", .object btc),
      ("ETH", .object [("free", .string "1e3x")])]
    payload.AllFinite ∧ (read payload).map Prod.fst = ["BTC"] ∧ ∃ a, ("BTC", a) ∈ read payload ∧
      a.total = 2.5 ∧ a.free = 1.5 ∧ a.used = 1.0 ∧
      a.RoundsBalance (field? btc "total") (field? btc "free") (field? btc "used") := by
  intro btc payload
  have hfinite : payload.AllFinite := by
    have hbtc : (Json.Value.object btc).AllFinite := by
      refine .object fun m hm => ?_
      simp only [btc, List.mem_cons, List.not_mem_nil, or_false] at hm
      rcases hm with rfl | rfl | rfl
      · exact .string _
      · exact .null
      · exact .number (n := .int 1) ⟨by decide, by decide⟩
    refine .object fun m hm => ?_
    simp only [List.mem_cons, List.not_mem_nil, or_false] at hm
    rcases hm with rfl | rfl | rfl
    · exact hbtc
    · exact hbtc
    · refine .object fun m hm => ?_
      obtain rfl := List.mem_singleton.1 hm
      exact .string _
  obtain ⟨-, -, -, hamounts⟩ := read_faithful payload
  have hnames : (read payload).map Prod.fst = ["BTC"] := by decide +kernel
  obtain ⟨⟨c, a⟩, ha, rfl⟩ := List.mem_map.1 (hnames ▸ List.mem_singleton_self "BTC")
  obtain ⟨fields, ⟨-, entries, heq, hentry⟩, hcompletes, hbalance⟩ := hamounts _ a ha
  obtain rfl := Json.Value.object.inj heq
  obtain rfl : btc = fields := Json.Value.object.inj (Option.some_inj.1 hentry)
  have htotal : field? btc "total" = some 2.5 := by decide +kernel
  have hfree : field? btc "free" = none := by decide +kernel
  have hused : field? btc "used" = some 1.0 := by decide +kernel
  have hsum : a.free = a.total - a.used :=
    hcompletes.missingFree (by simp [htotal]) hfree (by simp [hused])
  rw [hcompletes.readTotal 2.5 htotal, hcompletes.readUsed 1.0 hused] at hsum
  refine ⟨hfinite, hnames, a, ha, hcompletes.readTotal 2.5 htotal, ?_,
    hcompletes.readUsed 1.0 hused, hbalance hfinite ⟨"free", by simp, hfree⟩⟩
  rw [hsum]
  decide +kernel

end Payload

end Portfolio
