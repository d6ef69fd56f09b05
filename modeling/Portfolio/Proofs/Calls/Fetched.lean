import Portfolio.Proofs.Calls.Ledger
import Portfolio.Proofs.Calls.Readers
import Portfolio.Proofs.Calls.Stamps

/-! # Data of fetches alone

Where nobody resets the table or pushes a record by hand, the data of the watcher changes by
landings, by making the table anew and by signals (`DataInvariant`). Then the table is that of the
newest record (`Mirrors`), and nothing older than that is asked for (`Fetched`). So a record is
never replaced by an older one (`Fetched.hasRecordFrom_run`). -/

namespace Portfolio

variable {ε : Type}

/-- The move neither resets the table nor pushes a record by hand. -/
def Calls.Move.isOfFetches : Calls.Move ε → Bool
  | .reset | .push .. => false
  | _ => true

theorem Calls.Move.isOfFetches_of_isReading {m : Calls.Move ε} (h : m.isReading = true) :
    m.isOfFetches = true := by
  cases m with
  | reset | push => cases h
  | _ => rfl

/-! ## Invariants of the data -/

/-- What the data keeps as long as no move resets or pushes. -/
structure DataInvariant (P : Watcher → Prop) : Prop where
  same : ∀ {w w'}, P w → w.SameData w' → P w'
  lands : ∀ {r w w'}, P w → w.Lands r w' → P w'
  renew : ∀ {w}, P w → P w.renewView
  signal : ∀ {w}, P w → P w.signal

namespace DataInvariant

variable [Exchange ε] {P : Watcher → Prop} (h : DataInvariant P)
include h

theorem changes {w w' : Watcher} {records : List FetchRecord} (hp : P w)
    (hc : w.Changes w' records) : P w' := by
  cases hc with
  | untouched hs => exact h.same hp hs
  | lands hl => exact h.lands hp hl

theorem step {s : Calls ε} (hp : P s.world.watcher) {m : Calls.Move ε}
    (hm : m.isOfFetches = true) : P (s.step m).world.watcher := by
  by_cases hcall : m.isCall = true
  · obtain ⟨records, hc⟩ := s.changes_step hcall
    exact h.changes hp hc
  · by_cases hhand : m.isByHand = true
    · cases m with
      | reset | push => cases hm
      | renewView => exact h.renew hp
      | signal => exact h.signal hp
      | _ => cases hhand
    · exact h.same hp (s.sameData_other (by simpa using hcall) (by simpa using hhand))

theorem run {s : Calls ε} (hp : P s.world.watcher) {ms : List (Calls.Move ε)}
    (hms : ∀ m ∈ ms, m.isOfFetches = true) : P (s.run ms).world.watcher := by
  induction ms generalizing s with
  | nil => exact hp
  | cons m ms ih =>
    exact ih (h.step hp (hms m (.head _))) fun n hn => hms n (.tail _ hn)

/-- Who only reads keeps the data. -/
theorem reads {w w' : World ε} {cs cs' : List Call} (hr : Reads w cs w' cs') (hp : P w.watcher) :
    P w'.watcher := by
  obtain ⟨s, rfl, -, ms, hms, rfl, -⟩ := hr.exists_run
  exact h.run hp fun m hm => Calls.Move.isOfFetches_of_isReading (hms m hm)

end DataInvariant

/-! ## The table of the newest record -/

namespace Watcher

theorem latest?_renewView (w : Watcher) : w.renewView.buffer.latest? = w.buffer.latest? := by
  rw [buffer_renewView]

theorem exists_latest? {w : Watcher} (h : w.hasFetched = true) :
    ∃ r, w.buffer.latest? = some r := by
  have hne : w.buffer.records ≠ [] := by simpa [hasFetched, RecordBuffer.isEmpty] using h
  exact ⟨_, List.getLast?_eq_some_getLast hne⟩

theorem hasFetched_of_latest? {w : Watcher} {r : FetchRecord} (h : w.buffer.latest? = some r) :
    w.hasFetched = true := by
  have hmem : r ∈ w.buffer.records := List.mem_of_getLast? h
  simp [hasFetched, RecordBuffer.isEmpty, List.ne_nil_of_mem hmem]

theorem Lands.latest? {r : FetchRecord} {w w' : Watcher} (h : Lands r w w') :
    w'.buffer.latest? = some r := by
  rw [h.buffer, RecordBuffer.latest?_push]

/-- Once there is a newest record there always is. -/
theorem dataInvariant_latest? : DataInvariant fun w => w.buffer.latest?.isSome = true where
  same hp hs := by rwa [hs.buffer]
  lands _ hl := by rw [hl.latest?]; rfl
  renew hp := by rwa [latest?_renewView]
  signal hp := hp

end Watcher

/-- The table and all its balances have the stamp of the newest record. -/
structure Mirrors (w : Watcher) : Prop where
  table : ∀ r, w.buffer.latest? = some r → w.view.asOf = r.timestamp
  balances : ∀ b ∈ w.view.balances, ∃ r, w.buffer.latest? = some r ∧ b.asOf = r.timestamp

namespace Mirrors

variable {w w' : Watcher}

theorem of_report {r : FetchRecord} (hb : w'.buffer.latest? = some r)
    (hv : w'.view = w.view.report r.timestamp (Payload.read r.payload)) : Mirrors w' where
  table r' hr' := by
    rw [hb] at hr'
    cases hr'
    rw [hv]
    rfl
  balances b hm := by
    rw [hv] at hm
    exact ⟨r, hb, BalanceTable.asOf_of_mem_report hm⟩

theorem dataInvariant : DataInvariant Mirrors where
  same hp hs := by
    refine ⟨fun r hr => ?_, fun b hb => ?_⟩
    · rw [hs.view]
      exact hp.table r (hs.buffer ▸ hr)
    · rw [hs.buffer]
      exact hp.balances b (hs.view ▸ hb)
  lands _ hl := of_report hl.latest? hl.view
  renew {w} hp := by
    unfold Watcher.renewView
    split
    · next r hr =>
      have hlatest : (w.materialise r).buffer.latest? = some r := hr
      exact of_report hlatest rfl
    · exact hp
  signal hp := ⟨hp.table, hp.balances⟩

theorem new (strategy : Strategy) (pollInterval : Duration) (capacity : Nat) :
    Mirrors (.new strategy pollInterval capacity) where
  table _ hr := by cases hr
  balances _ hb := absurd hb List.not_mem_nil

/-- What is cached has the stamp of the newest record. -/
theorem latest?_of_cachedTime? (h : Mirrors w) {currency : Option String} {t : Timestamp}
    (ht : w.cachedTime? currency = some t) : ∃ r, w.buffer.latest? = some r ∧ r.timestamp = t := by
  cases currency with
  | some c =>
    obtain ⟨b, hb, rfl⟩ := Option.map_eq_some_iff.1 ht
    obtain ⟨r, hr, hstamp⟩ := h.balances b (List.mem_of_find?_eq_some hb)
    exact ⟨r, hr, hstamp.symm⟩
  | none =>
    simp only [Watcher.cachedTime?, Option.ite_none_right_eq_some] at ht
    obtain ⟨hfetched, hview⟩ := ht
    obtain ⟨r, hr⟩ := Watcher.exists_latest? hfetched
    exact ⟨r, hr, (h.table r hr).symm.trans (Option.some_inj.1 hview)⟩

end Mirrors

/-! ## Nothing older is asked for -/

/-- The data is that of fetches alone: the table is that of the newest record, and no request that
is out was sent before the one that brought it. -/
structure Fetched (w : World ε) (cs : List Call) : Prop where
  lock : Exclusive w.watcher cs
  past : StartedInPast w cs
  mirrors : Mirrors w.watcher
  time : ∀ r, w.watcher.buffer.latest? = some r → r.timestamp ≤ w.time
  started : ∀ r, w.watcher.buffer.latest? = some r → ∀ c ∈ cs, ∀ t, c.started? = some t →
    r.timestamp ≤ t

namespace Fetched

variable {w w' : World ε} {c : Call} {cs cs' : List Call}

/-- The data stays, and what is asked for was asked for before or is asked for now. -/
theorem congr (h : Fetched w cs) (hl : Exclusive w'.watcher cs') (hp : StartedInPast w' cs')
    (hd : w.watcher.SameData w'.watcher) (ht : w.time ≤ w'.time)
    (hs : ∀ d ∈ cs', ∀ t, d.started? = some t → w.time ≤ t ∨ ∃ e ∈ cs, e.started? = some t) :
    Fetched w' cs' where
  lock := hl
  past := hp
  mirrors := Mirrors.dataInvariant.same h.mirrors hd
  time r hr := Timestamp.le_trans (h.time r (hd.buffer ▸ hr)) ht
  started r hr d hd' t ht' := by
    have hr' : w.watcher.buffer.latest? = some r := hd.buffer ▸ hr
    obtain hnow | ⟨e, he, het⟩ := hs d hd' t ht'
    · exact Timestamp.le_trans (h.time r hr') hnow
    · exact h.started r hr' e he t het

/-- What is asked for after a call went away. -/
theorem mem_of_tail : ∀ d ∈ cs, ∀ t, d.started? = some t →
    w.time ≤ t ∨ ∃ e ∈ c :: cs, e.started? = some t :=
  fun d hd _ ht => .inr ⟨d, .tail _ hd, ht⟩

/-- What is asked for after a call came that asks for nothing. -/
theorem mem_of_cons (hc : c.started? = none) : ∀ d ∈ c :: cs, ∀ t, d.started? = some t →
    w.time ≤ t ∨ ∃ e ∈ cs, e.started? = some t := by
  intro d hd t ht
  rcases List.mem_cons.1 hd with rfl | hd
  · rw [hc] at ht
    cases ht
  · exact .inr ⟨d, hd, ht⟩

variable [Exchange ε]

/-- The one who lands had the lock, so nothing else is asked for. -/
theorem finish {ticket : Nat} {started : Timestamp} {due : Int} {reply : Reply Json.Value}
    (h : Fetched w (.refresh (.fetching ticket started due reply) :: cs)) (hd : due ≤ w.now) :
    Fetched (Refresh.finish w ticket started reply).1 cs := by
  have hl := (Exclusive.turnInvariant cs).finish h.lock hd
  have hp := (StartedInPast.callInvariant.turn cs).finish h.past hd
  have htime : (Refresh.finish w ticket started reply).1.time = w.time := by
    rw [Refresh.finish_fst]; rfl
  cases hreply : reply.payload? with
  | none =>
    refine h.congr hl hp ?_ (by rw [htime]; exact Timestamp.le_refl _) mem_of_tail
    rw [Refresh.watcher_finish, hreply]
    exact ⟨rfl, rfl, rfl, rfl⟩
  | some payload =>
    have hw : (Refresh.finish w ticket started reply).1.watcher =
        w.watcher.land ticket payload started := by
      rw [Refresh.watcher_finish, hreply]
    have hlands := Watcher.lands_land w.watcher ticket payload started
    rw [← hw] at hlands
    refine ⟨hl, hp, Mirrors.dataInvariant.lands h.mirrors hlands, fun r hr => ?_,
      fun r hr d hd t ht => ?_⟩
    · rw [hlands.latest?] at hr
      cases hr
      rw [htime]
      exact h.past _ (.head _) started rfl
    · have hflag := hl.flag
      rw [hw, Watcher.inFlight_land] at hflag
      exact absurd (Call.isGuard_of_started? ht) (List.any_eq_false.1 hflag.symm d hd)

theorem callInvariant : CallInvariant (Fetched (ε := ε)) where
  perm h hp := h.congr (h.lock.perm hp) (StartedInPast.callInvariant.perm h.past hp) (.refl _)
    (Timestamp.le_refl _) fun d hd _ ht => .inr ⟨d, hp.mem_iff.2 hd, ht⟩
  turn cs :=
    { join := fun h hf => h.congr ((Exclusive.turnInvariant cs).join h.lock hf)
        ((StartedInPast.callInvariant.turn cs).join h.past hf) (.refl _) (Timestamp.le_refl _)
        (mem_of_cons rfl)
      leave := fun h ho => h.congr ((Exclusive.turnInvariant cs).leave h.lock ho)
        ((StartedInPast.callInvariant.turn cs).leave h.past ho) (.refl _) (Timestamp.le_refl _)
        mem_of_tail
      draw := fun h => h.congr ((Exclusive.turnInvariant cs).draw h.lock)
        ((StartedInPast.callInvariant.turn cs).draw h.past) ⟨rfl, rfl, rfl, rfl⟩
        (Timestamp.le_refl _) (mem_of_cons rfl)
      ask := fun {w _ _} h hturn => by
        refine h.congr ((Exclusive.turnInvariant cs).ask h.lock hturn)
          ((StartedInPast.callInvariant.turn cs).ask h.past hturn) ⟨rfl, rfl, rfl, rfl⟩
          (Timestamp.le_refl _) fun d hd t ht => ?_
        rcases List.mem_cons.1 hd with rfl | hd
        · cases ht
          exact .inl (Timestamp.le_refl _)
        · exact .inr ⟨d, .tail _ hd, ht⟩
      finish := fun h hd => h.finish hd }
  lock h := h.congr (Exclusive.callInvariant.lock h.lock)
    (StartedInPast.callInvariant.lock h.past) ⟨rfl, rfl, rfl, rfl⟩ (Timestamp.le_refl _)
    (mem_of_cons rfl)
  take h hturn := h.congr (Exclusive.callInvariant.take h.lock hturn)
    (StartedInPast.callInvariant.take h.past hturn) ⟨rfl, rfl, rfl, rfl⟩ (Timestamp.le_refl _)
    fun d hd t ht => by
      rcases List.mem_cons.1 hd with rfl | hd
      · cases ht
      · exact .inr ⟨d, .tail _ hd, ht⟩
  drop {w _ c} h := by
    refine h.congr (Exclusive.callInvariant.drop h.lock) (StartedInPast.callInvariant.drop h.past)
      (c.sameData_drop w) ?_ mem_of_tail
    obtain ⟨lock, inFlight, hw⟩ := c.drop_eq w
    rw [hw]
    exact Timestamp.le_refl _

theorem other {s : Calls ε} (h : Fetched s.world s.live) {m : Calls.Move ε}
    (hm : m.isCall = false) (hof : m.isOfFetches = true) : Fetched (s.step m).world s.live := by
  have hlater := (s.later_other hm).time
  have hb : (s.step m).world.watcher.buffer = s.world.watcher.buffer := by
    by_cases hhand : m.isByHand = true
    · cases m with
      | reset | push => cases hof
      | renewView => exact Watcher.buffer_renewView _
      | signal => rfl
      | _ => cases hhand
    · exact (s.sameData_other hm (by simpa using hhand)).buffer
  exact
    { lock := h.lock.other hm
      past := h.past.later hlater
      mirrors := Mirrors.dataInvariant.step h.mirrors hof
      time := fun r hr => Timestamp.le_trans (h.time r (hb ▸ hr)) hlater
      started := fun r hr => h.started r (hb ▸ hr) }

theorem run {s : Calls ε} (h : Fetched s.world s.live) {ms : List (Calls.Move ε)}
    (hms : ∀ m ∈ ms, m.isOfFetches = true) : Fetched (s.run ms).world (s.run ms).live :=
  callInvariant.run h fun _ hs m hm ho => hs.other ho (hms m hm)

omit [Exchange ε] in
theorem new (now : Int) (exchange : ε) (strategy : Strategy) (pollInterval : Duration)
    (capacity : Nat) :
    let s := Calls.new now exchange (.new strategy pollInterval capacity)
    Fetched s.world s.live where
  lock := .new now exchange strategy pollInterval capacity
  past _ hc := absurd hc List.not_mem_nil
  mirrors := .new strategy pollInterval capacity
  time _ hr := by cases hr
  started _ hr := by cases hr

omit [Exchange ε] in
/-- All that is known or asked for is as new as the newest record. -/
theorem notBefore (h : Fetched w cs) {r : FetchRecord}
    (hr : w.watcher.buffer.latest? = some r) : NotBefore r.timestamp w cs where
  time := h.time r hr
  view := by
    rw [h.mirrors.table r hr]
    exact Timestamp.le_refl _
  record r' hr' := by
    rw [hr] at hr'
    cases hr'
    exact Timestamp.le_refl _
  started := h.started r hr

end Fetched

theorem Calls.Move.keepsStamp_of_isOfFetches {m : Calls.Move ε} (h : m.isOfFetches = true)
    (t : Timestamp) : m.KeepsStamp t := by
  cases m with
  | reset | push => cases h
  | _ => trivial

/-! ## Records that are new enough -/

/-- The newest record is not older than `t`. -/
def Watcher.HasRecordFrom (w : Watcher) (t : Timestamp) : Prop :=
  ∃ r, w.buffer.latest? = some r ∧ t ≤ r.timestamp

theorem Watcher.hasRecordFrom_of_isSome {w : World ε} {cs : List Call} {t u : Timestamp}
    (hsome : w.watcher.buffer.latest?.isSome = true) (h : NotBefore u w cs) (hle : t ≤ u) :
    w.watcher.HasRecordFrom t := by
  obtain ⟨r, hr⟩ := Option.isSome_iff_exists.1 hsome
  exact ⟨r, hr, Timestamp.le_trans hle (h.record r hr)⟩

/-- The newest record is never replaced by an older one. -/
theorem Fetched.hasRecordFrom_run [Exchange ε] {s : Calls ε} (h : Fetched s.world s.live)
    {t : Timestamp} (hrec : s.world.watcher.HasRecordFrom t) {ms : List (Calls.Move ε)}
    (hms : ∀ m ∈ ms, m.isOfFetches = true) : (s.run ms).world.watcher.HasRecordFrom t := by
  obtain ⟨r, hr, hle⟩ := hrec
  have hkeeps : NotBefore r.timestamp (s.run ms).world (s.run ms).live :=
    (h.notBefore hr).run fun m hm => Calls.Move.keepsStamp_of_isOfFetches (hms m hm) _
  refine Watcher.hasRecordFrom_of_isSome ?_ hkeeps hle
  exact Watcher.dataInvariant_latest?.run (by rw [hr]; rfl) hms

end Portfolio
