import Portfolio.Proofs.Number.Finite
import Portfolio.Proofs.View.Report

/-! # No amount is NaN

A document with finite numbers reports amounts that are numbers or infinities, whatever its texts
say and whichever amounts are missing (`Payload.isNumber_of_mem_read`), and so a table made from it
holds no NaN (`BalanceTable.isNumber_report`). What is found in such a table equals itself
(`BalanceTable.lookup_bne_self`). -/

namespace Portfolio

open Binary64

/-- Every number in the document is finite. -/
inductive Json.Value.AllFinite : Json.Value → Prop
  | null : AllFinite .null
  | bool (b : Bool) : AllFinite (.bool b)
  | number {n : Json.Number} (h : n.IsFinite) : AllFinite (.number n)
  | string (s : String) : AllFinite (.string s)
  | array {items : List Json.Value} (h : ∀ v ∈ items, AllFinite v) : AllFinite (.array items)
  | object {members : List (String × Json.Value)} (h : ∀ m ∈ members, AllFinite m.2) :
      AllFinite (.object members)

/-- None of the amounts is NaN. -/
structure Amounts.IsNumber (a : Amounts) : Prop where
  total : a.total ≠ Float.nan
  free : a.free ≠ Float.nan
  used : a.used ≠ Float.nan

theorem Amounts.isNumber_zero : Amounts.zero.IsNumber :=
  ⟨by decide, by decide, by decide⟩

theorem Json.Value.AllFinite.get? {members : List (String × Json.Value)} {name : String}
    {v : Json.Value} (h : (Json.Value.object members).AllFinite)
    (hv : Json.Value.get? members name = some v) : v.AllFinite := by
  cases h with
  | object h =>
    obtain ⟨before, after, he, -⟩ := List.lookup_eq_some_iff.1 hv
    refine h (name, v) (List.mem_reverse.1 ?_)
    rw [he]
    exact List.mem_append_right _ (.head _)

theorem isFinite_of_amountOf? {v : Json.Value} {x : Float} (h : v.AllFinite)
    (hx : amountOf? v = some x) : isFinite x = true := by
  cases h with
  | number hn =>
    obtain rfl : _ = x := Option.some_inj.1 hx
    exact Json.Number.isFinite_toFloat hn
  | string s =>
    obtain ⟨d, -, rfl⟩ := Option.map_eq_some_iff.1 hx
    exact d.isFinite_toFloat
  | null | bool | array | object => cases hx

namespace Payload

/-- Completing finite amounts makes no NaN of them. -/
theorem isNumber_of_complete {total free used : Option Float} {a : Amounts}
    (ht : ∀ x ∈ total, isFinite x = true) (hf : ∀ x ∈ free, isFinite x = true)
    (hu : ∀ x ∈ used, isFinite x = true) (ha : complete total free used = some a) :
    a.IsNumber := by
  have hzero : (0.0 : Float) ≠ Float.nan := by decide
  cases total with
  | none =>
    cases free with
    | none =>
      cases used with
      | none => cases ha
      | some u =>
        obtain rfl := Option.some_inj.1 ha
        have hu := ne_nan_of_isFinite (hu u rfl)
        exact ⟨hu, hzero, hu⟩
    | some f =>
      cases used with
      | none =>
        obtain rfl := Option.some_inj.1 ha
        have hf := ne_nan_of_isFinite (hf f rfl)
        exact ⟨hf, hf, hzero⟩
      | some u =>
        obtain rfl := Option.some_inj.1 ha
        exact ⟨add_ne_nan (hf f rfl) (hu u rfl), ne_nan_of_isFinite (hf f rfl),
          ne_nan_of_isFinite (hu u rfl)⟩
  | some t =>
    have htotal := ne_nan_of_isFinite (ht t rfl)
    cases free with
    | none =>
      cases used with
      | none =>
        obtain rfl := Option.some_inj.1 ha
        exact ⟨htotal, htotal, hzero⟩
      | some u =>
        obtain rfl := Option.some_inj.1 ha
        exact ⟨htotal, sub_ne_nan (ht t rfl) (hu u rfl), ne_nan_of_isFinite (hu u rfl)⟩
    | some f =>
      cases used with
      | none =>
        obtain rfl := Option.some_inj.1 ha
        exact ⟨htotal, ne_nan_of_isFinite (hf f rfl), sub_ne_nan (ht t rfl) (hf f rfl)⟩
      | some u =>
        obtain rfl := Option.some_inj.1 ha
        exact ⟨htotal, ne_nan_of_isFinite (hf f rfl), ne_nan_of_isFinite (hu u rfl)⟩

theorem isNumber_of_entryAmounts? {v : Json.Value} {a : Amounts} (h : v.AllFinite)
    (ha : entryAmounts? v = some a) : a.IsNumber := by
  cases v with
  | object fields =>
    have hfield (name : String) :
        ∀ x ∈ (Json.Value.get? fields name).bind amountOf?, isFinite x = true := by
      intro x hx
      obtain ⟨v, hv, hx⟩ := Option.bind_eq_some_iff.1 hx
      exact isFinite_of_amountOf? (h.get? hv) hx
    exact isNumber_of_complete (hfield _) (hfield _) (hfield _) ha
  | null | bool | number | string | array => cases ha

theorem isNumber_of_mem_read {payload : Json.Value} (h : payload.AllFinite)
    {e : String × Amounts} (he : e ∈ read payload) : e.2.IsNumber := by
  cases payload with
  | object entries =>
    obtain ⟨c, -, he⟩ := List.mem_filterMap.1 he
    obtain ⟨a, ha, rfl⟩ := Option.map_eq_some_iff.1 he
    simp only [amounts?] at ha
    split at ha
    · cases ha
    · obtain ⟨v, hv, ha⟩ := Option.bind_eq_some_iff.1 ha
      exact isNumber_of_entryAmounts? (h.get? hv) ha
  | null | bool | number | string | array => cases he

end Payload

namespace BalanceTable

variable {t : BalanceTable}

/-- A report without NaN leaves none in the table, whatever was there before. -/
theorem isNumber_report {asOf : Timestamp} {entries : List (String × Amounts)}
    (h : ∀ e ∈ entries, e.2.IsNumber) :
    ∀ b ∈ (t.report asOf entries).balances, b.amounts.IsNumber := by
  have hreported (c : String) : (reported entries c).IsNumber := by
    unfold reported
    cases hc : entries.lookup c with
    | none => exact Amounts.isNumber_zero
    | some a =>
      obtain ⟨before, after, rfl, -⟩ := List.lookup_eq_some_iff.1 hc
      exact h (c, a) (List.mem_append_right _ (.head _))
  intro b hb
  rcases List.mem_append.1 hb with hb | hb
  · obtain ⟨b', -, rfl⟩ := List.mem_map.1 hb
    exact hreported b'.currency
  · obtain ⟨e, he, rfl⟩ := List.mem_map.1 hb
    exact h e (List.mem_filter.1 he).1

end BalanceTable

theorem Balance.beq_self {b : Balance} (h : b.amounts.IsNumber) : (b == b) = true := by
  have htotal : (b.amounts.total == b.amounts.total) = true := Float.beq_self_iff.2 h.total
  have hfree : (b.amounts.free == b.amounts.free) = true := Float.beq_self_iff.2 h.free
  have hused : (b.amounts.used == b.amounts.used) = true := Float.beq_self_iff.2 h.used
  have hamounts : (b.amounts == b.amounts) = true := by
    show (b.amounts.total == b.amounts.total && (b.amounts.free == b.amounts.free &&
      b.amounts.used == b.amounts.used)) = true
    rw [htotal, hfree, hused]
    rfl
  show (b.currency == b.currency && (b.asOf == b.asOf && b.amounts == b.amounts)) = true
  rw [hamounts, beq_self_eq_true, beq_self_eq_true]
  rfl

theorem BalanceTable.lookup_bne_self {t : BalanceTable}
    (h : ∀ b ∈ t.balances, b.amounts.IsNumber) (key : BalanceKey) :
    (t.lookup key != t.lookup key) = false := by
  cases hb : t.lookup key with
  | none => rfl
  | some b =>
    have hself : (b == b) = true := Balance.beq_self (h b (List.mem_of_find?_eq_some hb))
    show (!(b == b)) = false
    rw [hself]
    rfl

end Portfolio
