import Mathlib.Data.List.Induction
import Portfolio.Proofs.View.Report

/-! # The table as a function of the history

What a new watcher's table is after fetches have landed and resets were made is given by the last
event and the set of currencies that were ever reported (`Watcher.view_replay`): an event that
landed gives its time and its amounts to all of them, and a reset takes both away. -/

namespace Portfolio

/-- What changes the table. -/
inductive ViewEvent where
  /-- A fetch that began at a time lands a payload. -/
  | landed (payload : Json.Value) (at_ : Timestamp)
  | reset

namespace ViewEvent

/-- The watcher after the event. -/
def apply (w : Watcher) : ViewEvent → Watcher
  | landed payload at_ => (w.push payload at_).renewView
  | reset => w.reset

/-- What the event reports. -/
def entries : ViewEvent → List (String × Amounts)
  | landed payload _ => Payload.read payload
  | reset => []

/-- The stamp that the event gives to the table. -/
def time : ViewEvent → Timestamp
  | landed _ at_ => at_
  | reset => .epoch

end ViewEvent

/-- The watcher after some events. -/
def Watcher.replay (w : Watcher) (events : List ViewEvent) : Watcher :=
  events.foldl ViewEvent.apply w

namespace History

/-- The currencies that were ever reported. -/
def known (events : List ViewEvent) : List String :=
  events.flatMap fun e => e.entries.map Prod.fst

/-- The stamp of the last event, the epoch if there was none. -/
def time (events : List ViewEvent) : Timestamp :=
  (events.getLast?.map ViewEvent.time).getD .epoch

/-- What the last event reports. -/
def entries (events : List ViewEvent) : List (String × Amounts) :=
  (events.getLast?.map ViewEvent.entries).getD []

/-- What is known of a currency. -/
def balance? (events : List ViewEvent) (c : String) : Option Balance :=
  if c ∈ known events then some ⟨c, time events, BalanceTable.reported (entries events) c⟩
  else none

/-! ## One more event -/

section
variable (events : List ViewEvent) (e : ViewEvent)

theorem known_concat : known (events ++ [e]) = known events ++ e.entries.map Prod.fst := by
  simp [known]

theorem time_concat : time (events ++ [e]) = e.time := by
  simp [time]

theorem entries_concat : entries (events ++ [e]) = e.entries := by
  simp [entries]

theorem balance?_concat (c : String) :
    balance? (events ++ [e]) c =
      if c ∈ known events ∨ c ∈ e.entries.map Prod.fst then
        some ⟨c, e.time, BalanceTable.reported e.entries c⟩
      else none := by
  simp only [balance?, known_concat, time_concat, entries_concat, List.mem_append]

end

theorem isSome_balance? {events : List ViewEvent} {c : String} :
    (balance? events c).isSome = true ↔ c ∈ known events := by
  unfold balance?
  split
  · next h => simp [h]
  · next h => simp [h]

theorem eq_of_balance? {events : List ViewEvent} {c : String} {b : Balance}
    (h : balance? events c = some b) :
    b = ⟨c, time events, BalanceTable.reported (entries events) c⟩ := by
  unfold balance? at h
  split at h
  · exact (Option.some_inj.1 h).symm
  · cases h

theorem mem_known {events : List ViewEvent} {c : String} :
    c ∈ known events ↔
      ∃ payload at_, .landed payload at_ ∈ events ∧ c ∈ (Payload.read payload).map Prod.fst := by
  rw [known, List.mem_flatMap]
  constructor
  · rintro ⟨e, he, hc⟩
    cases e with
    | landed payload at_ => exact ⟨payload, at_, he, hc⟩
    | reset => cases hc
  · rintro ⟨payload, at_, he, hc⟩
    exact ⟨_, he, hc⟩

/-- Where nothing landed last there is no stamp and no amount. -/
theorem blank_of_not_landed {events : List ViewEvent}
    (h : ∀ payload at_, events.getLast? ≠ some (.landed payload at_)) :
    time events = .epoch ∧ entries events = [] := by
  cases hlast : events.getLast? with
  | none => simp [time, entries, hlast]
  | some e =>
    cases e with
    | landed payload at_ => exact absurd hlast (h payload at_)
    | reset => simp [time, entries, hlast, ViewEvent.time, ViewEvent.entries]

/-- The table is the one that the history makes. -/
structure Makes (events : List ViewEvent) (v : BalanceTable) : Prop where
  nodup : (v.balances.map Balance.currency).Nodup
  asOf : v.asOf = time events
  get? : ∀ c, v.get? c = balance? events c

namespace Makes

variable {events : List ViewEvent}

theorem empty : Makes [] .empty :=
  ⟨List.nodup_nil, rfl, fun _ => rfl⟩

theorem report {v : BalanceTable} (h : Makes events v) (payload : Json.Value) (at_ : Timestamp) :
    Makes (events ++ [.landed payload at_]) (v.report at_ (Payload.read payload)) where
  nodup := BalanceTable.nodup_report h.nodup (Payload.nodup_read payload)
  asOf := by
    rw [time_concat]
    rfl
  get? c := by
    rw [BalanceTable.get?_report, balance?_concat]
    simp only [h.get?, isSome_balance?]
    rfl

theorem reset {v : BalanceTable} (h : Makes events v) : Makes (events ++ [.reset]) v.reset where
  nodup := by
    have hmap : v.reset.balances.map Balance.currency = v.balances.map Balance.currency := by
      simp [BalanceTable.reset, Balance.emptied, Balance.zero, Function.comp_def]
    rw [hmap]
    exact h.nodup
  asOf := by
    rw [time_concat]
    rfl
  get? c := by
    rw [BalanceTable.get?_reset, h.get?, balance?_concat, balance?]
    by_cases hc : c ∈ known events
    · simp only [hc, true_or, if_true, Option.map_some]
      rfl
    · simp [hc, ViewEvent.entries]

/-- One event after a history. -/
theorem apply {w : Watcher} (h : Makes events w.view) (e : ViewEvent) :
    Makes (events ++ [e]) (e.apply w).view := by
  cases e with
  | landed payload at_ =>
    have hw : ((w.push payload at_).renewView).view = w.view.report at_ (Payload.read payload) := by
      rw [Watcher.renewView_of_latest? (RecordBuffer.latest?_push ..)]
      rfl
    rw [ViewEvent.apply, hw]
    exact h.report payload at_
  | reset => exact h.reset

/-- The induction is on the history, from its end. -/
theorem replay (strategy : Strategy) (pollInterval : Duration) (capacity : Nat)
    (events : List ViewEvent) :
    Makes events ((Watcher.new strategy pollInterval capacity).replay events).view := by
  induction events using List.reverseRecOn with
  | nil => exact empty
  | append_singleton events e ih =>
    rw [Watcher.replay, List.foldl_append]
    exact Makes.apply ih e

end Makes

end History

open History

/-- The table of a new watcher after a history. It has exactly the currencies that were ever
reported, each once and under its own name. After a landing they all have its stamp, those that it
reports with the amounts that it has for them and the others with none; otherwise there is neither a
stamp nor an amount. So of the capacity nothing matters, and of what came before the last event only
the currencies that it reported. -/
theorem Watcher.view_replay (strategy : Strategy) (pollInterval : Duration) (capacity : Nat)
    (events : List ViewEvent) :
    let v := ((Watcher.new strategy pollInterval capacity).replay events).view
    (∀ c, (v.get? c).isSome = true ↔
      ∃ payload at_, .landed payload at_ ∈ events ∧ c ∈ (Payload.read payload).map Prod.fst) ∧
    (v.balances.map Balance.currency).Nodup ∧
    (∀ b ∈ v.balances, v.get? b.currency = some b) ∧
    (∀ payload at_, events.getLast? = some (.landed payload at_) →
      v.asOf = at_ ∧
      (∀ c b, v.get? c = some b → b.asOf = at_) ∧
      (∀ c amounts, (c, amounts) ∈ Payload.read payload → v.get? c = some ⟨c, at_, amounts⟩) ∧
      ∀ c b, v.get? c = some b → c ∉ (Payload.read payload).map Prod.fst →
        b = .zero c at_) ∧
    ((∀ payload at_, events.getLast? ≠ some (.landed payload at_)) →
      v.asOf = .epoch ∧ ∀ c b, v.get? c = some b → b = .zero c .epoch) ∧
    ∀ strategy' pollInterval' capacity' events', events'.getLast? = events.getLast? →
      (∀ c, c ∈ known events' ↔ c ∈ known events) →
        let v' := ((Watcher.new strategy' pollInterval' capacity').replay events').view
        v'.asOf = v.asOf ∧ ∀ c, v'.get? c = v.get? c := by
  intro v
  have h : Makes events v := .replay strategy pollInterval capacity events
  have hfound : ∀ {c b}, v.get? c = some b →
      b = ⟨c, time events, BalanceTable.reported (entries events) c⟩ := by
    intro c b hb
    rw [h.get?] at hb
    exact eq_of_balance? hb
  refine ⟨fun c => ?_, h.nodup, fun b hb => BalanceTable.get?_of_mem h.nodup hb, ?_, ?_, ?_⟩
  · rw [h.get?, isSome_balance?, mem_known]
  · intro payload at_ hlast
    have htime : time events = at_ := by simp [time, hlast, ViewEvent.time]
    have hentries : entries events = Payload.read payload := by
      simp [entries, hlast, ViewEvent.entries]
    rw [htime, hentries] at hfound
    refine ⟨h.asOf.trans htime, fun c b hb => by rw [hfound hb], ?_, ?_⟩
    · intro c amounts hc
      have hknown : c ∈ known events :=
        mem_known.2 ⟨payload, at_, List.mem_of_getLast? hlast, List.mem_map_of_mem hc⟩
      have hlookup := (Keyed.lookup_eq_some_iff_mem (Payload.nodup_read payload)).2 hc
      rw [h.get?, balance?, if_pos hknown, htime, hentries,
        BalanceTable.reported_of_lookup hlookup]
    · intro c b hb hc
      rw [hfound hb, BalanceTable.reported, Keyed.lookup_eq_none.2 hc]
      rfl
  · intro hlast
    obtain ⟨htime, hentries⟩ := blank_of_not_landed hlast
    rw [htime, hentries] at hfound
    exact ⟨h.asOf.trans htime, fun c b hb => hfound hb⟩
  · intro strategy' pollInterval' capacity' events' hlast hknown v'
    have h' : Makes events' v' := .replay strategy' pollInterval' capacity' events'
    have htime : time events' = time events := by rw [time, hlast, time]
    have hentries : entries events' = entries events := by rw [entries, hlast, entries]
    refine ⟨by rw [h'.asOf, h.asOf, htime], fun c => ?_⟩
    simp only [h'.get?, h.get?, balance?, hknown, htime, hentries]

end Portfolio
