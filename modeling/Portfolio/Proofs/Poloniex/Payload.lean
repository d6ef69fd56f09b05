import Portfolio.Exchange.Poloniex.Accounts
import Portfolio.Proofs.Number.Written
import Portfolio.Proofs.View.Report

/-! # Payloads of account lists

What the reader of payloads makes of an account list: the currencies of the accounts of the type,
each with the amounts of its last entry (`Poloniex.read_payload`). The amounts go through texts on
the way, which changes no number but a zero with a sign (`Poloniex.free_signedZero`). -/

namespace Portfolio

namespace Poloniex

/-! ## Entries -/

/-- The sum of the two amounts of a holding. -/
def Holding.total? (h : Holding) : Option Decimal :=
  (decimalOf h.available).add? (decimalOf h.hold)

/-- The holding of a currency that comes last. -/
def lastOf? (holdings : List Holding) (currency : String) : Option Holding :=
  holdings.reverse.find? (·.currency == currency)

/-- The amounts of a holding after they were written and read. -/
def Holding.amountsBack (h : Holding) (total : Decimal) : Amounts :=
  ⟨total.readBack, (decimalOf h.available).readBack, (decimalOf h.hold).readBack⟩

theorem amountOf?_render (d : Decimal) :
    amountOf? (.string (String.ofList d.render)) = some d.readBack := by
  rw [amountOf?, String.toList_ofList, Decimal.trim_render, Decimal.ofChars?_render,
    Option.map_some, Decimal.toFloat_written]

theorem exists_entry? {h : Holding} {total : Decimal} (htotal : h.total? = some total) :
    ∃ v, h.entry? = some v ∧ Payload.entryAmounts? v = some (h.amountsBack total) := by
  refine ⟨_, congrArg (Option.map _) htotal, ?_⟩
  simp [Payload.entryAmounts?, Json.Value.get?, List.lookup_cons, amountOf?_render,
    Payload.complete, Holding.amountsBack]

/-- The entries are a map, in which a currency has the entry of its last holding. -/
theorem foldlM_entries {holdings : List Holding} (acc : List (String × Json.Value))
    (hfits : ∀ h ∈ holdings, h.total?.isSome) (hacc : (acc.map Prod.fst).Nodup) :
    ∃ entries, holdings.foldlM (fun acc h => h.entry?.map (Keyed.set acc h.currency)) acc =
        some entries ∧ (entries.map Prod.fst).Nodup ∧
      ∀ c, entries.lookup c = ((lastOf? holdings c).bind Holding.entry?).or (acc.lookup c) := by
  have hentry {g : Holding} (hg : g.total?.isSome) : ∃ v, g.entry? = some v := by
    obtain ⟨total, htotal⟩ := Option.isSome_iff_exists.1 hg
    obtain ⟨v, hv, -⟩ := exists_entry? htotal
    exact ⟨v, hv⟩
  induction holdings generalizing acc with
  | nil => exact ⟨acc, rfl, hacc, fun c => rfl⟩
  | cons h holdings ih =>
    obtain ⟨v, hv⟩ := hentry (hfits h (.head _))
    obtain ⟨entries, hentries, hnodup, hlookup⟩ := ih (Keyed.set acc h.currency v)
      (fun g hg => hfits g (.tail _ hg)) (Keyed.nodup_set hacc)
    refine ⟨entries, ?_, hnodup, fun c => ?_⟩
    · rw [List.foldlM_cons, hv]
      exact hentries
    · rw [hlookup, Keyed.lookup_set, lastOf?, lastOf?, List.reverse_cons, List.find?_append]
      cases hlast : holdings.reverse.find? (·.currency == c) with
      | some g =>
        have hg : g ∈ holdings := List.mem_reverse.1 (List.mem_of_find?_eq_some hlast)
        obtain ⟨w, hw⟩ := hentry (hfits g (.tail _ hg))
        simp [hw]
      | none =>
        by_cases hc : c = h.currency
        · simp [hc, hv]
        · have hne : (h.currency == c) = false := by simpa using fun he => hc he.symm
          simp [hc, hne]

/-! ## Payloads -/

theorem lastOf?_isSome {holdings : List Holding} {c : String} :
    (lastOf? holdings c).isSome ↔ ∃ h ∈ holdings, h.currency = c := by
  simp [lastOf?]

theorem lastOf?_append {before after : List Holding} {h : Holding}
    (hlast : ∀ g ∈ after, g.currency ≠ h.currency) :
    lastOf? (before ++ h :: after) h.currency = some h := by
  have hnone : after.reverse.find? (·.currency == h.currency) = none :=
    List.find?_eq_none.2 fun g hg => by simpa using hlast g (List.mem_reverse.1 hg)
  simp [lastOf?, List.find?_append, hnone]

/-- What is read for a currency. -/
theorem amounts?_payload (accounts : List Account) (accountType : String)
    (hfits : ∀ h ∈ holdingsOf accounts accountType, h.total?.isSome) :
    ∃ payload, payload? accounts accountType = some payload ∧
      ∀ c, Payload.amounts? payload c = if c ∈ Payload.metaKeys then none else
        (lastOf? (holdingsOf accounts accountType) c).bind fun h =>
          h.total?.map h.amountsBack := by
  obtain ⟨entries, hentries, hnodup, hlookup⟩ := foldlM_entries [] hfits List.nodup_nil
  refine ⟨.object entries, congrArg (Option.map Json.Value.object) hentries, fun c => ?_⟩
  rw [Payload.amounts?, Json.Value.get?,
    ← Keyed.lookup_perm hnodup entries.reverse_perm.symm, hlookup]
  congr 1
  cases hlast : lastOf? (holdingsOf accounts accountType) c with
  | none => rfl
  | some h =>
    have hh : h ∈ holdingsOf accounts accountType :=
      List.mem_reverse.1 (List.mem_of_find?_eq_some hlast)
    obtain ⟨total, htotal⟩ := Option.isSome_iff_exists.1 (hfits h hh)
    obtain ⟨v, hv, hamounts⟩ := exists_entry? htotal
    simp [hv, hamounts, htotal]

/-- If no sum of a holding is too large, then the payload of an account type reports exactly the
currencies of its holdings but for the names of metadata, each once, and each with the amounts of
its last holding, of which only a zero with a sign is not the binary64 number of its decimal. -/
theorem read_payload (accounts : List Account) (accountType : String)
    (hfits : ∀ h ∈ holdingsOf accounts accountType,
      (decimalOf h.available).add? (decimalOf h.hold) ≠ none) :
    ∃ payload, payload? accounts accountType = some payload ∧
      ((Payload.read payload).map Prod.fst).Nodup ∧
      (∀ c, c ∈ (Payload.read payload).map Prod.fst ↔
        c ∉ Payload.metaKeys ∧ ∃ h ∈ holdingsOf accounts accountType, h.currency = c) ∧
      ∀ before h after total, holdingsOf accounts accountType = before ++ h :: after →
        (∀ g ∈ after, g.currency ≠ h.currency) → h.currency ∉ Payload.metaKeys →
        (decimalOf h.available).add? (decimalOf h.hold) = some total →
        (Payload.read payload).lookup h.currency = some
          ⟨total.readBack, (decimalOf h.available).readBack, (decimalOf h.hold).readBack⟩ := by
  have hsome : ∀ h ∈ holdingsOf accounts accountType, h.total?.isSome :=
    fun h hh => Option.isSome_iff_ne_none.2 (hfits h hh)
  obtain ⟨payload, hpayload, hamounts⟩ := amounts?_payload accounts accountType hsome
  refine ⟨payload, hpayload, Payload.nodup_read payload, fun c => ?_, ?_⟩
  · rw [← Keyed.isSome_lookup, Payload.lookup_read, hamounts, ← lastOf?_isSome]
    split
    · next hmeta => simp [hmeta]
    · next hmeta =>
      cases hlast : lastOf? (holdingsOf accounts accountType) c with
      | none => simp
      | some h =>
        have hh : h ∈ holdingsOf accounts accountType :=
          List.mem_reverse.1 (List.mem_of_find?_eq_some hlast)
        simp [hmeta, hsome h hh]
  · intro before h after total hsplit hlast hmeta htotal
    rw [Payload.lookup_read, hamounts, if_neg hmeta, hsplit, lastOf?_append hlast]
    exact congrArg (Option.map h.amountsBack) htotal

/-- Accounts of two types, of which the first has a currency twice and a name of metadata. -/
def twoAccounts : List Account :=
  [⟨"SPOT", [⟨"BTC", "1.50", "0"⟩, ⟨"info", "1", "1"⟩,
      ⟨"BTC", "-0.0000000000000000000000000001", "79228162514264337593543950335"⟩]⟩,
    ⟨"FUTURES", [⟨"ETH", "2", "0"⟩]⟩]

theorem read_payload_twoAccounts :
    (∀ h ∈ holdingsOf twoAccounts "SPOT",
        (decimalOf h.available).add? (decimalOf h.hold) ≠ none) ∧
      ∃ payload, payload? twoAccounts "SPOT" = some payload ∧
        (∀ c, c ∈ (Payload.read payload).map Prod.fst ↔ c = "BTC") ∧
        (Payload.read payload).lookup "BTC" =
          some ⟨79228162514264337593543950335.0, -1.0000000000000001e-28,
            79228162514264337593543950335.0⟩ := by
  have hfits : ∀ h ∈ holdingsOf twoAccounts "SPOT",
      (decimalOf h.available).add? (decimalOf h.hold) ≠ none := by decide +kernel
  obtain ⟨payload, hpayload, -, hnames, hamounts⟩ := read_payload twoAccounts "SPOT" hfits
  have hcurrency : ∀ h ∈ holdingsOf twoAccounts "SPOT",
      h.currency = "BTC" ∨ h.currency ∈ Payload.metaKeys := by decide
  have hsum : (decimalOf "-0.0000000000000000000000000001").add?
      (decimalOf "79228162514264337593543950335") =
        some ⟨false, 79228162514264337593543950335, 0, by decide, by decide⟩ := by decide +kernel
  refine ⟨hfits, payload, hpayload, fun c => (hnames c).trans ?_, ?_⟩
  · constructor
    · rintro ⟨hmeta, h, hh, rfl⟩
      exact (hcurrency h hh).resolve_right hmeta
    · rintro rfl
      decide
  · refine (hamounts [⟨"BTC", "1.50", "0"⟩, ⟨"info", "1", "1"⟩] _ [] _ rfl (by simp) (by decide)
      hsum).trans (congrArg some ?_)
    rw [Amounts.mk.injEq]
    decide +kernel

/-- An account with a decimal that its exponent rounds to zero: the sign stays. -/
def signedZero : List Account :=
  [⟨"SPOT", [⟨"BTC", "-0.1e-28", "0"⟩]⟩]

/-- The number of a zero with a sign is the negative zero, but its text has no sign, and what is
read is the positive zero. -/
theorem free_signedZero :
    ∃ payload, payload? signedZero "SPOT" = some payload ∧
      (decimalOf "-0.1e-28").add? (decimalOf "0") = some .zero ∧
      (Payload.read payload).lookup "BTC" ≠ some
        ⟨Decimal.zero.toFloat, (decimalOf "-0.1e-28").toFloat, (decimalOf "0").toFloat⟩ := by
  have hsum : (decimalOf "-0.1e-28").add? (decimalOf "0") = some .zero := by decide +kernel
  obtain ⟨payload, hpayload, hamounts⟩ := amounts?_payload signedZero "SPOT" (by decide +kernel)
  have hread : (Payload.read payload).lookup "BTC" = some ⟨0.0, 0.0, 0.0⟩ := by
    have hlast : lastOf? (holdingsOf signedZero "SPOT") "BTC" = some ⟨"BTC", "-0.1e-28", "0"⟩ := by
      decide
    rw [Payload.lookup_read, hamounts, if_neg (by decide), hlast]
    refine (congrArg (Option.map _) hsum).trans (congrArg some ?_)
    rw [Holding.amountsBack, Amounts.mk.injEq]
    decide +kernel
  have hfree : (decimalOf "-0.1e-28").toFloat ≠ 0.0 := by decide +kernel
  refine ⟨payload, hpayload, hsum, fun h => hfree ?_⟩
  rw [hread, Option.some.injEq, Amounts.mk.injEq] at h
  exact h.2.1.symm

end Poloniex

end Portfolio
