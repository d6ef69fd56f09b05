import Mathlib.Data.List.Nodup
import Portfolio.Proofs.Keyed
import Portfolio.Watcher.Basic

/-! # What a report makes of a table

A payload reports every currency once (`Payload.nodup_read`), with the amounts that it has for it
(`Payload.lookup_read`). A table after a report holds what it held and what was reported, all of it
with the stamp and the amounts of the report (`BalanceTable.get?_report`). -/

namespace Portfolio

namespace Payload

/-! ## Reports -/

theorem mem_distinct {k : String} {ks seen : List String} :
    k ∈ distinct ks seen ↔ k ∈ ks ∧ k ∉ seen := by
  induction ks generalizing seen with
  | nil => simp [distinct]
  | cons j ks ih =>
    rw [distinct]
    split
    · next hj =>
      rw [ih, List.mem_cons]
      constructor
      · rintro ⟨hk, hs⟩
        exact ⟨.inr hk, hs⟩
      · rintro ⟨rfl | hk, hs⟩
        · exact absurd hj hs
        · exact ⟨hk, hs⟩
    · next hj =>
      rw [List.mem_cons, ih, List.mem_cons, List.mem_cons, not_or]
      constructor
      · rintro (rfl | ⟨hk, -, hs⟩)
        · exact ⟨.inl rfl, hj⟩
        · exact ⟨.inr hk, hs⟩
      · rintro ⟨rfl | hk, hs⟩
        · exact .inl rfl
        · by_cases he : k = j
          · exact .inl he
          · exact .inr ⟨hk, he, hs⟩

theorem nodup_distinct (ks seen : List String) : (distinct ks seen).Nodup := by
  induction ks generalizing seen with
  | nil => exact List.nodup_nil
  | cons j ks ih =>
    rw [distinct]
    split
    · exact ih seen
    · refine List.nodup_cons.2 ⟨fun hm => ?_, ih _⟩
      exact (mem_distinct.1 hm).2 (.head _)

section
variable (g : String → Option Amounts) (names : List String)

/-- The names that have something. -/
theorem map_fst_filterMap :
    (names.filterMap fun c => (g c).map (c, ·)).map Prod.fst = names.filter (g · |>.isSome) := by
  induction names with
  | nil => rfl
  | cons k names ih =>
    cases hk : g k with
    | none => simp [hk, ih]
    | some a => simp [hk, ih]

theorem lookup_filterMap (c : String) :
    (names.filterMap fun c => (g c).map (c, ·)).lookup c = if c ∈ names then g c else none := by
  induction names with
  | nil => rfl
  | cons k names ih =>
    by_cases hk : c = k
    · subst hk
      cases hc : g c with
      | none => simp [hc, ih]
      | some a => simp [hc]
    · have hne : (c == k) = false := by simpa using hk
      have hmem : c ∈ k :: names ↔ c ∈ names := by simp [hk]
      simp only [hmem, ← ih]
      cases hgk : g k with
      | none => simp [hgk]
      | some a => simp [hgk, List.lookup_cons, hne]

end

/-- Every currency is reported once. -/
theorem nodup_read (payload : Json.Value) : ((read payload).map Prod.fst).Nodup := by
  unfold read
  split
  · rw [map_fst_filterMap]
    exact (nodup_distinct _ _).filter _
  · exact List.nodup_nil

/-- A currency is reported with its amounts, if it has any. -/
theorem lookup_read (payload : Json.Value) (c : String) :
    (read payload).lookup c = amounts? payload c := by
  cases payload with
  | object entries =>
    rw [read, lookup_filterMap]
    split
    · rfl
    · next hc =>
      have hnone : Json.Value.get? entries c = none := by
        rw [Json.Value.get?, Keyed.lookup_eq_none, List.map_reverse, List.mem_reverse]
        exact fun hmem => hc (mem_distinct.2 ⟨hmem, List.not_mem_nil⟩)
      simp [amounts?, hnone]
  | null | bool | number | string | array => rfl

end Payload

namespace BalanceTable

variable {t : BalanceTable} {asOf : Timestamp} {entries : List (String × Amounts)} {c : String}

/-! ## Tables -/

/-- What is found under a name has that name. -/
theorem currency_of_get? {b : Balance} (h : t.get? c = some b) : b.currency = c := by
  simpa using List.find?_some h

theorem get?_eq_none : t.get? c = none ↔ c ∉ t.balances.map Balance.currency := by
  simp [get?]

/-- In a table that has every currency once a balance is found under its own. -/
theorem get?_of_mem (h : (t.balances.map Balance.currency).Nodup) {b : Balance}
    (hb : b ∈ t.balances) : t.get? b.currency = some b := by
  obtain ⟨before, after, he⟩ := List.append_of_mem hb
  have hbefore : before.find? (·.currency == b.currency) = none := by
    rw [he, List.map_append, List.map_cons, List.nodup_append] at h
    refine List.find?_eq_none.2 fun a ha hab => ?_
    exact h.2.2 a.currency (List.mem_map_of_mem ha) b.currency (.head _) (by simpa using hab)
  simp [get?, he, List.find?_append, hbefore]

/-- A change that keeps the names keeps what is found under them. -/
theorem find?_map_of_currency {f : Balance → Balance} (hf : ∀ b, (f b).currency = b.currency)
    (bs : List Balance) :
    (bs.map f).find? (·.currency == c) = (bs.find? (·.currency == c)).map f := by
  rw [List.find?_map]
  simp only [Function.comp_def, hf]

theorem get?_reset : t.reset.get? c = (t.get? c).map Balance.emptied :=
  find?_map_of_currency (f := Balance.emptied) (fun _ => rfl) t.balances

/-- What is new in a report is found under its name. -/
theorem find?_new (h : t.get? c = none) :
    ((entries.filter fun e => (t.get? e.1).isNone).map fun e => (⟨e.1, asOf, e.2⟩ : Balance)).find?
      (·.currency == c) = (entries.lookup c).map (⟨c, asOf, ·⟩) := by
  induction entries with
  | nil => rfl
  | cons e entries ih =>
    obtain ⟨k, a⟩ := e
    by_cases hk : k = c
    · subst hk
      simp [h]
    · have hne : (c == k) = false := by simpa using fun he : c = k => hk he.symm
      rw [List.lookup_cons, hne, ← ih, List.filter_cons]
      split
      · simp [hk]
      · rfl

theorem reported_of_lookup {a : Amounts} (h : entries.lookup c = some a) :
    reported entries c = a := by
  rw [reported, h, Option.getD_some]

/-- After a report all that is known has its stamp, and the amounts that it has for it. -/
theorem get?_report :
    (t.report asOf entries).get? c =
      if (t.get? c).isSome ∨ c ∈ entries.map Prod.fst then some ⟨c, asOf, reported entries c⟩
      else none := by
  unfold report
  rw [get?, List.find?_append, find?_map_of_currency
    (f := fun b => ⟨b.currency, asOf, reported entries b.currency⟩) fun _ => rfl]
  cases hg : t.get? c with
  | some b =>
    have hb : t.balances.find? (·.currency == c) = some b := hg
    simp [hb, currency_of_get? hg]
  | none =>
    have hb : t.balances.find? (·.currency == c) = none := hg
    rw [hb, Option.map_none, Option.none_or, find?_new hg]
    cases hl : entries.lookup c with
    | some a =>
      have hmem : c ∈ entries.map Prod.fst := Keyed.isSome_lookup.1 (by rw [hl]; rfl)
      simp only [hmem, or_true, if_true, Option.map_some, reported_of_lookup hl]
    | none => simp [Keyed.lookup_eq_none.1 hl]

/-- A report that has every currency once leaves every currency in the table once. -/
theorem nodup_report (h : (t.balances.map Balance.currency).Nodup)
    (he : (entries.map Prod.fst).Nodup) :
    ((t.report asOf entries).balances.map Balance.currency).Nodup := by
  have hknown : ((t.balances.map fun b => (⟨b.currency, asOf, reported entries b.currency⟩ :
      Balance)).map Balance.currency) = t.balances.map Balance.currency := by
    simp [List.map_map, Function.comp_def]
  have hnew : (((entries.filter fun e => (t.get? e.1).isNone).map fun e =>
      (⟨e.1, asOf, e.2⟩ : Balance)).map Balance.currency) =
        (entries.filter fun e => (t.get? e.1).isNone).map Prod.fst := by
    simp [List.map_map, Function.comp_def]
  simp only [report, List.map_append]
  rw [hknown, hnew, List.nodup_append]
  refine ⟨h, he.sublist (List.filter_sublist.map _), ?_⟩
  rintro k hk _ hk' rfl
  obtain ⟨e, hm, rfl⟩ := List.mem_map.1 hk'
  have hnone := (List.mem_filter.1 hm).2
  rw [Option.isNone_iff_eq_none, get?_eq_none] at hnone
  exact hnone hk

end BalanceTable

end Portfolio
