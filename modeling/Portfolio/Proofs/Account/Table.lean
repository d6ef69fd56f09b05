import Mathlib.Data.Finset.Dedup
import Mathlib.Data.Finset.Card
import Portfolio.Proofs.View.Amounts
import Portfolio.Proofs.View.Report

/-! # What a table holds

A table is a map from currencies to balances (`BalanceTable.entries`): inserting a balance sets the
value of its currency, and a reset empties every value. So after any changes to a new table it is
told by the changes alone what is found for a currency, how many currencies there are and when the
table was made (`BalanceTable.ofChanges_faithful`). -/

namespace Portfolio

namespace BalanceTable

/-- What can be done to a table. -/
inductive Change where
  | insert (b : Balance)
  | stamp (asOf : Timestamp)
  | reset

/-- The currency of a balance that is inserted. -/
def Change.inserted? : Change → Option String
  | .insert b => some b.currency
  | .stamp _ | .reset => none

/-- The currencies of the balances that some changes insert. -/
def inserted (changes : List Change) : List String :=
  changes.filterMap Change.inserted?

def change (t : BalanceTable) : Change → BalanceTable
  | .insert b => t.insert b
  | .stamp asOf => { t with asOf }
  | .reset => t.reset

/-- The table after some changes. -/
def changeAll (t : BalanceTable) (changes : List Change) : BalanceTable :=
  changes.foldl change t

/-- A new table after some changes. -/
def ofChanges (changes : List Change) : BalanceTable :=
  empty.changeAll changes

/-- The balances under their currencies. -/
def entries (t : BalanceTable) : List (String × Balance) :=
  t.balances.map fun b => (b.currency, b)

/-- Every currency is there once. -/
def IsMap (t : BalanceTable) : Prop :=
  (t.balances.map Balance.currency).Nodup

variable {t : BalanceTable} {b : Balance} {c : String} {changes : List Change}

theorem mem_inserted_cons {x : Change} :
    c ∈ inserted (x :: changes) ↔ x.inserted? = some c ∨ c ∈ inserted changes := by
  rw [inserted, inserted, List.mem_filterMap, List.mem_filterMap, List.exists_mem_cons_iff]

/-! ## A map from currencies -/

theorem map_fst_entries : t.entries.map Prod.fst = t.balances.map Balance.currency := by
  rw [entries, List.map_map]
  rfl

theorem lookup_entries : t.entries.lookup c = t.get? c := by
  rw [entries, get?]
  induction t.balances with
  | nil => rfl
  | cons b bs ih =>
    rw [List.map_cons, Keyed.lookup_cons_ite, ih, List.find?_cons]
    by_cases hc : c = b.currency
    · simp [hc]
    · have hne : (b.currency == c) = false := by simpa using Ne.symm hc
      rw [if_neg hc, hne]

theorem entries_insert : (t.insert b).entries = Keyed.set t.entries b.currency b := by
  rw [entries, insert, entries]
  induction t.balances with
  | nil => rfl
  | cons d ds ih =>
    rw [insertInto, List.map_cons, Keyed.set]
    split
    · rfl
    · rw [List.map_cons, ih]

theorem get?_insert : (t.insert b).get? c = if c = b.currency then some b else t.get? c := by
  rw [← lookup_entries, entries_insert, Keyed.lookup_set, lookup_entries]

/-! ## One change -/

/-- What is found for a currency after a change, if `held` is found before it. -/
def hold (c : String) (held : Option Balance) : Change → Option Balance
  | .insert b => if c = b.currency then some b else held
  | .stamp _ => held
  | .reset => held.map Balance.emptied

theorem get?_change (x : Change) : (t.change x).get? c = hold c (t.get? c) x := by
  cases x with
  | insert b => exact get?_insert
  | stamp asOf => rfl
  | reset => exact get?_reset

theorem isMap_change (x : Change) (h : t.IsMap) : (t.change x).IsMap := by
  unfold IsMap at h ⊢
  cases x with
  | insert b =>
    rw [← map_fst_entries] at h ⊢
    rw [change, entries_insert]
    exact Keyed.nodup_set h
  | stamp asOf => exact h
  | reset =>
    rw [change, reset, List.map_map]
    exact h

theorem mem_change (x : Change) :
    c ∈ (t.change x).balances.map Balance.currency ↔
      c ∈ t.balances.map Balance.currency ∨ x.inserted? = some c := by
  cases x with
  | insert b =>
    rw [← map_fst_entries, ← map_fst_entries, change, entries_insert, Keyed.map_fst_set]
    have hinserted : (Change.insert b).inserted? = some c ↔ c = b.currency := by
      rw [Change.inserted?, Option.some_inj, eq_comm]
    rw [hinserted]
    split
    · next hb =>
      constructor
      · exact .inl
      · rintro (hc | rfl)
        · exact hc
        · exact hb
    · rw [List.mem_append, List.mem_singleton]
  | stamp asOf => simp [change, Change.inserted?]
  | reset =>
    rw [change, reset, List.map_map]
    exact (or_iff_left nofun).symm

/-! ## Many changes -/

theorem changeAll_append (t : BalanceTable) (before : List Change) (x : Change)
    (after : List Change) :
    t.changeAll (before ++ x :: after) = ((t.changeAll before).change x).changeAll after := by
  rw [changeAll, List.foldl_append, List.foldl_cons]
  rfl

theorem get?_changeAll : (t.changeAll changes).get? c = changes.foldl (hold c) (t.get? c) := by
  induction changes generalizing t with
  | nil => rfl
  | cons x changes ih =>
    rw [changeAll, List.foldl_cons, List.foldl_cons, ← get?_change]
    exact ih

theorem isMap_changeAll (h : t.IsMap) : (t.changeAll changes).IsMap := by
  induction changes generalizing t with
  | nil => exact h
  | cons x changes ih => exact ih (isMap_change x h)

theorem mem_changeAll :
    c ∈ (t.changeAll changes).balances.map Balance.currency ↔
      c ∈ t.balances.map Balance.currency ∨ c ∈ inserted changes := by
  induction changes generalizing t with
  | nil => simp [changeAll, inserted]
  | cons x changes ih =>
    rw [changeAll, List.foldl_cons]
    refine ih.trans ?_
    rw [mem_change, or_assoc, mem_inserted_cons]

/-- Without an insertion of a currency what is found for it stays, and is emptied by a reset. -/
theorem foldl_hold_of_not_inserted (hc : c ∉ inserted changes)
    (held : Option Balance) :
    (.reset ∉ changes → changes.foldl (hold c) held = held) ∧
    (.reset ∈ changes → changes.foldl (hold c) held = held.map Balance.emptied) := by
  induction changes generalizing held with
  | nil => exact ⟨fun _ => rfl, nofun⟩
  | cons x changes ih =>
    rw [mem_inserted_cons, not_or] at hc
    obtain ⟨hx, hc⟩ := hc
    obtain ⟨hkeep, hempty⟩ := ih hc (hold c held x)
    rw [List.foldl_cons]
    cases x with
    | insert b =>
      have hhold : hold c held (.insert b) = held := if_neg fun h => hx (congrArg some h.symm)
      rw [hhold] at hkeep hempty ⊢
      simpa using ⟨hkeep, hempty⟩
    | stamp asOf =>
      simpa [hold] using ⟨hkeep, hempty⟩
    | reset =>
      refine ⟨fun h => absurd (.head _) h, fun _ => ?_⟩
      by_cases hagain : .reset ∈ changes
      · rw [hempty hagain, hold, Option.map_map]
        rfl
      · rw [hkeep hagain, hold]

/-- Without a stamp the time stays, and is the first of all after a reset. -/
theorem asOf_changeAll_of_no_stamp (h : ∀ asOf, .stamp asOf ∉ changes) :
    (.reset ∉ changes → (t.changeAll changes).asOf = t.asOf) ∧
    (.reset ∈ changes → (t.changeAll changes).asOf = .epoch) := by
  induction changes generalizing t with
  | nil => exact ⟨fun _ => rfl, nofun⟩
  | cons x changes ih =>
    obtain ⟨hkeep, hreset⟩ := ih (t := t.change x) fun asOf ha => h asOf (.tail _ ha)
    have hstep : t.changeAll (x :: changes) = (t.change x).changeAll changes := rfl
    rw [hstep]
    cases x with
    | insert b => simpa using ⟨hkeep, hreset⟩
    | stamp asOf => exact absurd (.head _) (h asOf)
    | reset =>
      refine ⟨fun hnone => absurd (.head _) hnone, fun _ => ?_⟩
      by_cases hagain : .reset ∈ changes
      · exact hreset hagain
      · exact hkeep hagain

theorem asOf_changeAll_of_epoch (ht : t.asOf = .epoch) (h : ∀ asOf, .stamp asOf ∉ changes) :
    (t.changeAll changes).asOf = .epoch := by
  obtain ⟨hkeep, hreset⟩ := asOf_changeAll_of_no_stamp (t := t) h
  by_cases hr : .reset ∈ changes
  · exact hreset hr
  · exact (hkeep hr).trans ht

/-- A table that was reset is equal to itself, whatever it held before. -/
theorem sameAs_reset (h : t.IsMap) : t.reset.sameAs t.reset = true := by
  have hreset : t.reset.IsMap := isMap_change .reset h
  rw [sameAs, beq_self_eq_true, beq_self_eq_true, Bool.true_and, Bool.true_and, List.all_eq_true]
  intro b hb
  rw [get?_of_mem hreset hb]
  obtain ⟨d, -, rfl⟩ := List.mem_map.1 hb
  exact Balance.beq_self Amounts.isNumber_zero

theorem reset_reset (t : BalanceTable) : t.reset.reset = t.reset := by
  rw [reset, reset, List.map_map]
  rfl

/-! ## A new table -/

theorem isMap_ofChanges (changes : List Change) : (ofChanges changes).IsMap :=
  isMap_changeAll List.nodup_nil

/-- The balance that was inserted last is found, or was emptied by a reset since. -/
theorem get?_ofChanges {before after : List Change} (hb : b.currency ∉ inserted after) :
    (.reset ∉ after → (ofChanges (before ++ .insert b :: after)).get? b.currency = some b) ∧
    (.reset ∈ after →
      (ofChanges (before ++ .insert b :: after)).get? b.currency = some b.emptied) := by
  have hheld (held : Option Balance) : hold b.currency held (.insert b) = some b := if_pos rfl
  rw [ofChanges, get?_changeAll, List.foldl_append, List.foldl_cons, hheld]
  exact foldl_hold_of_not_inserted hb (some b)

theorem get?_ofChanges_of_not_inserted (hc : c ∉ inserted changes) :
    (ofChanges changes).get? c = none := by
  rw [get?_eq_none, ofChanges, mem_changeAll]
  rintro (h | h)
  · cases h
  · exact hc h

theorem size_ofChanges (changes : List Change) :
    (ofChanges changes).size = (inserted changes).toFinset.card := by
  have hsame : ((ofChanges changes).balances.map Balance.currency).toFinset =
      (inserted changes).toFinset := by
    ext c
    rw [List.mem_toFinset, List.mem_toFinset, ofChanges, mem_changeAll]
    exact or_iff_right List.not_mem_nil
  rw [← hsame, List.toFinset_card_of_nodup (isMap_ofChanges changes), List.length_map]
  rfl

/-- A table is what was done to it. Every balance is found under its own currency only; what is
found through a reference is the balance that was inserted last for its currency, as it was or
emptied by a reset since, and nothing if there was none; there are as many currencies as were
inserted; the time is the last one set since the last reset; and a second reset changes nothing. -/
theorem ofChanges_faithful (changes : List Change) :
    (∀ b ∈ (ofChanges changes).balances, (ofChanges changes).get? b.currency = some b) ∧
    (∀ c b, (ofChanges changes).get? c = some b → b.currency = c) ∧
    (∀ before b after, changes = before ++ .insert b :: after → b.currency ∉ inserted after →
      ∀ key : BalanceKey, key.code = b.currency →
        (.reset ∉ after → (ofChanges changes).lookup key = some b) ∧
        (.reset ∈ after → (ofChanges changes).lookup key = some b.emptied)) ∧
    (∀ key : BalanceKey, key.code ∉ inserted changes → (ofChanges changes).lookup key = none) ∧
    (∀ key : BalanceKey, (ofChanges changes).get? key.code = (ofChanges changes).lookup key) ∧
    (ofChanges changes).size = (inserted changes).toFinset.card ∧
    (∀ before asOf after, changes = before ++ .stamp asOf :: after →
      (∀ later, .stamp later ∉ after) → .reset ∉ after → (ofChanges changes).asOf = asOf) ∧
    (∀ before after, changes = before ++ .reset :: after →
      (∀ later, .stamp later ∉ after) → (ofChanges changes).asOf = .epoch) ∧
    ((∀ asOf, .stamp asOf ∉ changes) → (ofChanges changes).asOf = .epoch) ∧
    (ofChanges changes).reset.reset = (ofChanges changes).reset ∧
    (ofChanges changes).reset.reset.sameAs (ofChanges changes).reset = true := by
  refine ⟨fun b hb => get?_of_mem (isMap_ofChanges changes) hb,
    fun c b h => currency_of_get? h, ?_, fun key hkey => get?_ofChanges_of_not_inserted hkey,
    fun key => rfl, size_ofChanges changes, ?_, ?_, ?_, reset_reset _, ?_⟩
  · rintro before b after rfl hb key hkey
    rw [lookup, hkey]
    exact get?_ofChanges hb
  · rintro before asOf after rfl hstamp hreset
    rw [ofChanges, changeAll_append]
    exact (asOf_changeAll_of_no_stamp hstamp).1 hreset
  · rintro before after rfl hstamp
    rw [ofChanges, changeAll_append]
    exact asOf_changeAll_of_epoch rfl hstamp
  · exact asOf_changeAll_of_epoch rfl
  · rw [reset_reset]
    exact sameAs_reset (isMap_ofChanges changes)

end BalanceTable

end Portfolio
