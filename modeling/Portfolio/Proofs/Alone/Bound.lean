import Portfolio.Live.Reading
import Portfolio.Proofs.Alone.Run
import Portfolio.Proofs.Calls.Exclusion
import Portfolio.Proofs.Calls.InStep
import Portfolio.Proofs.View.Report
import Portfolio.Simulation.ScriptedExchange

/-! # When a live read alone meets its bound

A live read asks for a balance that is not older than a time. Alone, with an exchange that reports
the currency, it serves one that is, but for one case: it does not insist, what is cached is too
old, and the newest record is not (`Calls.live_meets_bound`). A wait is over when the newest record
is fresh enough, whatever the table holds, so after a reset the zeros are served that the reset
left. All of this if the clock can tell the deadline of the wait; if it cannot, the read is a
fault. -/

namespace Portfolio

/-- Asked for balances at that time, the exchange answers with an object that reports the
currency. -/
def Reports {ε : Type} [Exchange ε] (x : ε) (params : Params) (c : String) (t : Int) : Prop :=
  ∃ payload, (Exchange.fetchBalance x t params).2.payload? = some payload ∧
    c ∈ (Payload.read payload).map Prod.fst

/-- The newest record passes for what is cached: the read does not insist, and what is cached is too
old while the record is not. -/
def RecordStandsIn (w : Watcher) (c : String) (since : Timestamp) (force : Bool) : Prop :=
  force = false ∧ ∃ b t, w.cached c = some b ∧ b.asOf < since ∧
    w.buffer.latestTime? = some t ∧ since ≤ t

/-- Nobody has the lock or waits for it. -/
structure Watcher.Idle (w : Watcher) : Prop where
  inFlight : w.inFlight = false
  queue : w.lock.queue = []

/-- The lock of nobody is that of no calls. -/
theorem Watcher.Idle.exclusive {w : Watcher} (h : w.Idle) : Exclusive w [] where
  queue := by rw [h.queue]; exact .rfl
  nodup := by rw [h.queue]; exact List.nodup_nil
  drawn := by
    rw [h.queue]
    exact fun _ ht => absurd ht List.not_mem_nil
  turn := fun _ hc => absurd hc List.not_mem_nil
  flag := h.inFlight

/-- What lands is cached with the stamp of its request. -/
theorem Watcher.cached_land (w : Watcher) (ticket : Nat) {payload : Json.Value}
    (started : Timestamp) {c : String} (h : c ∈ (Payload.read payload).map Prod.fst) :
    ∃ b, (w.land ticket payload started).cached c = some b ∧ b.currency = c ∧
      b.asOf = started := by
  refine ⟨⟨c, started, BalanceTable.reported (Payload.read payload) c⟩, ?_, rfl, rfl⟩
  rw [land_eq]
  show (w.view.report started (Payload.read payload)).get? c = _
  rw [BalanceTable.get?_report, if_pos (.inr h)]

/-- A record that passes for a table in step with it passes for one that was reset. -/
theorem InStep.cached_of_recordStandsIn {w : Watcher} {c : String} {since : Timestamp}
    {force : Bool} (h : InStep w) (hr : RecordStandsIn w c since force) :
    w.cached c = some (.zero c .epoch) := by
  obtain ⟨-, b, t, hb, hold, hlatest, hle⟩ := hr
  have hmem : b ∈ w.view.balances := List.mem_of_find?_eq_some hb
  obtain ⟨r, hr, hstamp⟩ | hblank := h
  · have ht : t = r.timestamp := by
      simpa [RecordBuffer.latestTime?, hr] using hlatest.symm
    rw [hstamp b hmem, ← ht] at hold
    exact absurd hle ((Timestamp.not_lt _ _).2 · hold)
  · rw [hb, hblank b hmem, BalanceTable.currency_of_get? hb]

variable {ε : Type} {w : World ε} {q : LiveQuery} {c : String} {since : Timestamp} {b : Balance}

/-! ## What is served -/

theorem Watcher.read_of_cached (hq : q.currency = some c) (hb : w.watcher.cached c = some b) :
    w.watcher.read q.currency = some (.balance b) := by
  simp [read, hq, hb]

theorem Watcher.cachedTime?_eq (w : Watcher) (currency : Option String) :
    w.cachedTime? currency = (w.read currency).map Reading.asOf := by
  cases currency with
  | some c => simp [cachedTime?, read, Function.comp_def, Reading.asOf]
  | none =>
    simp only [cachedTime?, read]
    split <;> rfl

theorem LiveRead.serve_of_cached (hq : q.currency = some c) (hb : w.watcher.cached c = some b) :
    ∃ w', LiveRead.serve w q = (w', .done (some (.balance b))) :=
  ⟨(LiveRead.serve w q).1,
    Prod.ext rfl (by rw [LiveRead.serve, Watcher.read_of_cached hq hb])⟩

/-! ## When the record passes for the table -/

/-- A read that refreshes first serves what is fresh enough, and its record did not pass. -/
theorem not_recordStandsIn_of_mustRefresh (hm : LiveRead.mustRefresh w.watcher q = true) :
    ¬ RecordStandsIn w.watcher c since q.options.force := by
  rintro ⟨hforce, b, t, -, -, hlatest, -⟩
  have hfetched : w.watcher.hasFetched = false := by
    simpa [LiveRead.mustRefresh, hforce] using (Bool.and_eq_true_iff.1 hm).1
  have hempty : w.watcher.buffer.records = [] := by
    simpa [Watcher.hasFetched, RecordBuffer.isEmpty] using hfetched
  simp [RecordBuffer.latestTime?, RecordBuffer.latest?, hempty] at hlatest

/-- The newest record passes for a balance that is too old exactly where it ends the wait for a
newer one. -/
theorem recordStandsIn_iff (hforce : q.options.force = false) (hb : w.watcher.cached c = some b)
    (hold : b.asOf < since) :
    RecordStandsIn w.watcher c since q.options.force ↔
      FreshWait.recordSuffices w.watcher b.asOf since = true := by
  rw [FreshWait.recordSuffices_iff]
  constructor
  · rintro ⟨-, b', t, hb', -, hlatest, hle⟩
    exact ⟨t, hlatest, Timestamp.le_trans (Timestamp.le_of_lt hold) hle, hle⟩
  · rintro ⟨t, hlatest, -, hle⟩
    exact ⟨hforce, b, t, hb, hold, hlatest, hle⟩

section
variable [Exchange ε]

omit [Exchange ε] in
/-- A read with a bound has to wait where something is there. -/
theorem LiveRead.mustWait_of_read {r : Reading} (hr : w.watcher.read q.currency = some r)
    (hs : q.options.since.isSome = true) : LiveRead.mustWait w.watcher q = true := by
  simp [LiveRead.mustWait, hr, hs]

/-- A read that has to wait for longer than the clock can tell. -/
theorem LiveRead.secondStage_of_not_reaches (hwait : LiveRead.mustWait w.watcher q = true)
    (h : ¬ w.Reaches q.options.waitFor) : LiveRead.secondStage w q = (w, .crashed) := by
  rw [LiveRead.secondStage, if_pos hwait, FreshWait.begin_of_not_reaches h]
  rfl

/-- A read with a bound looks at what is there, and waits if that is too old. -/
theorem LiveRead.secondStage_of_reaches {r : Reading} (hr : w.watcher.read q.currency = some r)
    (hs : q.options.since.isSome = true) (h : w.Reaches q.options.waitFor) :
    LiveRead.secondStage w q = LiveRead.afterWait q (FreshWait.settle w
      ⟨q.currency, q.options.since, w.now + q.options.waitFor.nanos⟩ (some r.asOf)) := by
  have hcached : w.watcher.cachedTime? q.currency = some r.asOf := by
    rw [Watcher.cachedTime?_eq, hr]
    rfl
  rw [LiveRead.secondStage, if_pos (LiveRead.mustWait_of_read hr hs),
    FreshWait.begin_of_reaches h, FreshWait.start, hcached]

section
variable (hq : q.currency = some c) (hs : q.options.since = some since)
  (hb : w.watcher.cached c = some b)
include hq hs hb

omit [Exchange ε] in
theorem LiveRead.mustWait_of_cached : LiveRead.mustWait w.watcher q = true :=
  LiveRead.mustWait_of_read (Watcher.read_of_cached hq hb) (by rw [hs]; rfl)

/-- A cached balance that is fresh enough is served after a wait that is over at once. -/
theorem LiveRead.secondStage_of_fresh (hfresh : since ≤ b.asOf)
    (h : w.Reaches q.options.waitFor) :
    ∃ w', LiveRead.secondStage w q = (w', .done (some (.balance b))) := by
  rw [LiveRead.secondStage_of_reaches (Watcher.read_of_cached hq hb) (by rw [hs]; rfl) h, hs,
    FreshWait.settle_of_fresh hfresh]
  exact LiveRead.serve_of_cached hq hb

/-- One that is too old is waited for, as long as there is time. -/
theorem LiveRead.secondStage_of_stale (hold : b.asOf < since) (h : w.Reaches q.options.waitFor) :
    LiveRead.secondStage w q = LiveRead.afterWait q (FreshWait.watch w
      ⟨some c, some since, w.now + q.options.waitFor.nanos⟩ b.asOf) := by
  have hnot : ¬ since ≤ b.asOf := fun h => (Timestamp.not_lt _ _).2 h hold
  rw [LiveRead.secondStage_of_reaches (Watcher.read_of_cached hq hb) (by rw [hs]; rfl) h, hs, hq,
    FreshWait.settle_of_old hnot]
  rfl

end

/-! ## A refresh alone -/

/-- A refresh that finds nobody at the lock asks at once. -/
theorem Refresh.begin_of_idle (hidle : w.watcher.Idle) (fallback : Params) :
    Refresh.begin w fallback = Refresh.fetch (Refresh.drawn w) w.watcher.lock.next fallback := by
  have hturn : (Refresh.drawn w).watcher.lock.isTurn w.watcher.lock.next = true := by
    simp [Refresh.drawn, FetchLock.draw, FetchLock.isTurn, hidle.queue]
  rw [Refresh.begin, hidle.inFlight]
  simp only [Bool.false_eq_true, if_false]
  rw [Refresh.queue_eq, Refresh.await, if_pos hturn]

/-- A refresh that nobody disturbs comes to the end of its request: at once, or at its first turn
when the reply is there. It is a part of a task that goes on with `next`. -/
theorem EndsUnless.of_fetch {σ β : Type} {resume : World ε → σ → World ε × Progress σ β}
    {late : World ε → Prop} {wrap : Refresh → σ} {next : World ε → Unit → World ε × Progress σ β}
    {fallback : Params} {times : Nat → Int} {P : World ε → β → Prop}
    (hresume : ∀ w r, resume w (wrap r) = Progress.andThen (r.resume w) wrap next)
    (hidle : w.watcher.Idle) (ht : Turns w.now times)
    (hfinish : ∀ t times', EndsUnless late resume times' (Progress.andThen
      (Refresh.finish ((Refresh.asked (Refresh.drawn w) fallback).at_ t) w.watcher.lock.next w.time
        (Refresh.replyNow (Refresh.drawn w) fallback)) wrap next) P) :
    EndsUnless late resume times (Progress.andThen (Refresh.begin w fallback) wrap next) P := by
  rw [Refresh.begin_of_idle hidle, Refresh.fetch_eq]
  split
  · exact hfinish w.now times
  · refine EndsUnless.of_wait (w.now + (Refresh.replyNow (Refresh.drawn w) fallback).latency) ht
      (fun t _ hlt => ?_) (fun i hi => ?_)
    · rw [hresume]
      simp only [Refresh.resume]
      rw [if_neg]
      · rfl
      · exact Int.not_le.2 hlt
    · rw [hresume]
      simp only [Refresh.resume]
      rw [if_pos]
      · exact hfinish _ _
      · exact hi

/-- A refresh that nobody disturbs comes to its end with the currency cached. -/
theorem EndsUnless.refresh {late : World ε → Prop} {wrap : Refresh → LiveRead}
    {next : World ε → Unit → World ε × Progress LiveRead (Option Reading)} {fallback : Params}
    {times : Nat → Int} {P : World ε → Option Reading → Prop}
    (hresume : ∀ w r, (wrap r).resume w = Progress.andThen (r.resume w) wrap next)
    (hidle : w.watcher.Idle)
    (hreports : Reports w.exchange (w.watcher.strategy.requestParams fallback) c w.now)
    (ht : Turns w.now times)
    (hnext : ∀ times' w' b, w'.watcher.cached c = some b → b.currency = c → b.asOf = w.time →
      EndsUnless late LiveRead.resume times' (next w' ()) P) :
    EndsUnless late LiveRead.resume times
      (Progress.andThen (Refresh.begin w fallback) wrap next) P := by
  obtain ⟨payload, hpayload, hc⟩ := hreports
  have hreply : (Refresh.replyNow (Refresh.drawn w) fallback).payload? = some payload := hpayload
  -- the landing, at whatever time the reply is there
  refine .of_fetch hresume hidle ht fun t times' => ?_
  obtain ⟨w', hfinish, hw'⟩ := Refresh.finish_of_payload
    ((Refresh.asked (Refresh.drawn w) fallback).at_ t) w.watcher.lock.next w.time hreply
  obtain ⟨b, hb, hcur, hasOf⟩ := Watcher.cached_land
    (Refresh.asked (Refresh.drawn w) fallback).watcher w.watcher.lock.next w.time hc
  rw [hfinish, Progress.andThen]
  exact hnext times' w' b (by rw [hw']; exact hb) hcur hasOf

/-! ## A read alone -/

section
variable {times : Nat → Int} (hq : q.currency = some c) (hs : q.options.since = some since)
include hq hs

/-- After a refresh of its own a read serves what is fresh enough. -/
theorem LiveRead.ends_afterRefresh (hidle : w.watcher.Idle) (hsince : since ≤ w.time)
    (hreports : Reports w.exchange (w.watcher.strategy.requestParams q.options.fallback) c w.now)
    (ht : Turns w.now times) :
    EndsUnless (fun w' => ¬ w'.Reaches q.options.waitFor) LiveRead.resume times
      (LiveRead.afterRefresh q (Refresh.begin w q.options.fallback))
      fun _ a => ∃ b, a = some (.balance b) ∧ b.currency = c ∧ since ≤ b.asOf := by
  refine EndsUnless.refresh (fun _ _ => rfl) hidle hreports ht fun times' w' b hb hcur hasOf => ?_
  have hfresh : since ≤ b.asOf := hasOf ▸ hsince
  by_cases hreaches : w'.Reaches q.options.waitFor
  · obtain ⟨w'', hserve⟩ := LiveRead.secondStage_of_fresh hq hs hb hfresh hreaches
    rw [hserve]
    exact .done ⟨b, rfl, hcur, hfresh⟩
  · rw [LiveRead.secondStage_of_not_reaches (LiveRead.mustWait_of_cached hq hs hb) hreaches]
    exact .crashed hreaches

omit hs in
theorem LiveRead.ends_afterRetry {late : World ε → Prop} (hidle : w.watcher.Idle)
    (hsince : since ≤ w.time)
    (hreports : Reports w.exchange (w.watcher.strategy.requestParams q.options.fallback) c w.now)
    (ht : Turns w.now times) :
    EndsUnless late LiveRead.resume times
      (LiveRead.afterRetry q (Refresh.begin w q.options.fallback))
      fun _ a => ∃ b, a = some (.balance b) ∧ b.currency = c ∧ since ≤ b.asOf := by
  refine EndsUnless.refresh (fun _ _ => rfl) hidle hreports ht fun times' w' b hb hcur hasOf => ?_
  obtain ⟨w'', hserve⟩ := LiveRead.serve_of_cached hq hb
  rw [hserve]
  exact .done ⟨b, rfl, hcur, hasOf ▸ hsince⟩

omit hs in
/-- A wait for the next record that nobody disturbs ends at its deadline, and a refresh
follows. -/
theorem LiveRead.ends_watch {late : World ε → Prop} {goal : FreshGoal} {prev : Timestamp}
    (hidle : w.watcher.Idle) (hsince : since ≤ w.time)
    (hreports : ∀ t, t = w.now ∨ (∃ i, t = times i) →
      Reports w.exchange (w.watcher.strategy.requestParams q.options.fallback) c t)
    (ht : Turns w.now times)
    (hr : FreshWait.recordSuffices w.watcher prev (goal.since.getD .epoch) = false) :
    EndsUnless late LiveRead.resume times (LiveRead.afterWait q (FreshWait.watch w goal prev))
      fun _ a => ∃ b, a = some (.balance b) ∧ b.currency = c ∧ since ≤ b.asOf := by
  by_cases hd : goal.deadline ≤ w.now
  · rw [FreshWait.watch_of_late hr hd]
    exact LiveRead.ends_afterRetry hq hidle hsince (hreports _ (.inl rfl)) ht
  · rw [FreshWait.watch_of_early hr (Int.not_le.1 hd)]
    refine EndsUnless.of_wait goal.deadline ht (fun t _ hlt => ?_) fun i hi => ?_
    · have hstay : FreshWait.resume (w.at_ t) (.watching goal prev w.watcher.signals) =
          (w.at_ t, .blocked (.watching goal prev w.watcher.signals)) :=
        FreshWait.resume_watching_of_early (Nat.le_refl _) hlt
      rw [LiveRead.resume, hstay]
      rfl
    · have hover : FreshWait.resume (w.at_ (times i)) (.watching goal prev w.watcher.signals) =
          (w.at_ (times i), .done false) :=
        (FreshWait.resume_watching_of_late hi).trans (FreshWait.watch_of_late hr hi)
      rw [LiveRead.resume, hover]
      have hlater : since ≤ (w.at_ (times i)).time :=
        Timestamp.le_trans hsince ((Timestamp.ofNanos_le_ofNanos _ _).2 (ht.le i))
      exact LiveRead.ends_afterRetry (w := w.at_ (times i)) hq hidle hlater
        (hreports _ (.inr ⟨i, rfl⟩)) (ht.tail i)

/-- What is cached and fresh enough is served. -/
theorem LiveRead.ends_of_fresh {late : World ε → Prop} (hb : w.watcher.cached c = some b)
    (hfresh : since ≤ b.asOf) (hreaches : w.Reaches q.options.waitFor) :
    EndsUnless late LiveRead.resume times (LiveRead.secondStage w q) fun _ a =>
      ∃ b, a = some (.balance b) ∧ b.currency = c ∧
        (since ≤ b.asOf ↔ ¬ RecordStandsIn w.watcher c since q.options.force) := by
  obtain ⟨w', hserve⟩ := LiveRead.secondStage_of_fresh hq hs hb hfresh hreaches
  rw [hserve]
  refine .done ⟨b, rfl, BalanceTable.currency_of_get? hb, iff_of_true hfresh ?_⟩
  rintro ⟨-, b', t, hb', hold, -⟩
  rw [hb] at hb'
  cases hb'
  exact (Timestamp.not_lt _ _).2 hfresh hold

/-- What is cached and too old is served all the same where the newest record passes for it, and
otherwise a refresh comes first. -/
theorem LiveRead.ends_of_stale {late : World ε → Prop} (hidle : w.watcher.Idle)
    (hsince : since ≤ w.time)
    (hreports : ∀ t, t = w.now ∨ (∃ i, t = times i) →
      Reports w.exchange (w.watcher.strategy.requestParams q.options.fallback) c t)
    (ht : Turns w.now times) (hforce : q.options.force = false)
    (hb : w.watcher.cached c = some b) (hold : b.asOf < since)
    (hreaches : w.Reaches q.options.waitFor) :
    EndsUnless late LiveRead.resume times (LiveRead.secondStage w q) fun _ a =>
      ∃ b, a = some (.balance b) ∧ b.currency = c ∧
        (since ≤ b.asOf ↔ ¬ RecordStandsIn w.watcher c since q.options.force) := by
  have hcur : b.currency = c := BalanceTable.currency_of_get? hb
  have hstands := recordStandsIn_iff hforce hb hold
  rw [LiveRead.secondStage_of_stale hq hs hb hold hreaches]
  cases hr : FreshWait.recordSuffices w.watcher b.asOf since with
  | true =>
    have hover : FreshWait.watch w ⟨some c, some since, w.now + q.options.waitFor.nanos⟩ b.asOf =
        (w, .done true) := FreshWait.watch_of_suffices hr
    obtain ⟨w', hserve⟩ := LiveRead.serve_of_cached hq hb
    rw [hover, show LiveRead.afterWait q (w, .done true) = _ from hserve]
    refine .done ⟨b, rfl, hcur, iff_of_false ?_ (not_not_intro (hstands.2 hr))⟩
    exact fun hle => (Timestamp.not_lt _ _).2 hle hold
  | false =>
    have hnot : ¬ RecordStandsIn w.watcher c since q.options.force := fun h => by
      rw [hstands, hr] at h
      cases h
    refine (LiveRead.ends_watch hq hidle hsince hreports ht hr).mono ?_
    rintro _ _ ⟨b', rfl, hcur', hfresh⟩
    exact ⟨b', rfl, hcur', iff_of_true hfresh hnot⟩

/-- A read of a started watcher alone. -/
theorem LiveRead.ends_started (hidle : w.watcher.Idle) (hsince : since ≤ w.time)
    (hreports : ∀ t, t = w.now ∨ (∃ i, t = times i) →
      Reports w.exchange (w.watcher.strategy.requestParams q.options.fallback) c t)
    (ht : Turns w.now times)
    (hask : (w.watcher.cached c).isSome = true ∨ w.watcher.hasFetched = false ∨
      q.options.force = true) :
    EndsUnless (fun w' => ¬ w'.Reaches q.options.waitFor) LiveRead.resume times
      (if LiveRead.mustRefresh w.watcher q then
        LiveRead.afterRefresh q (Refresh.begin w q.options.fallback)
      else LiveRead.secondStage w q)
      fun _ a => ∃ b, a = some (.balance b) ∧ b.currency = c ∧
        (since ≤ b.asOf ↔ ¬ RecordStandsIn w.watcher c since q.options.force) := by
  by_cases hm : LiveRead.mustRefresh w.watcher q = true
  · rw [if_pos hm]
    refine (LiveRead.ends_afterRefresh hq hs hidle hsince (hreports _ (.inl rfl)) ht).mono ?_
    rintro _ _ ⟨b, rfl, hcur, hfresh⟩
    exact ⟨b, rfl, hcur, iff_of_true hfresh (not_recordStandsIn_of_mustRefresh hm)⟩
  · rw [if_neg hm]
    have hread : w.watcher.read q.currency = (w.watcher.cached c).map .balance := by rw [hq]; rfl
    cases hb : w.watcher.cached c with
    | none =>
      -- nothing is cached, so the read insists or nothing was ever fetched
      refine absurd ?_ hm
      simpa [LiveRead.mustRefresh, hread, hb, Reading.isStale, hidle.inFlight, or_comm] using hask
    | some b =>
      by_cases hreaches : w.Reaches q.options.waitFor
      case neg =>
        rw [LiveRead.secondStage_of_not_reaches (LiveRead.mustWait_of_cached hq hs hb) hreaches]
        exact .crashed hreaches
      by_cases hold : b.asOf < since
      · have hstale : Reading.isStale (w.watcher.read q.currency) q.options.since = true := by
          simp [hread, hb, hs, Reading.isStale, Reading.asOf, hold]
        have hforce : q.options.force = false := by
          simp only [LiveRead.mustRefresh, hidle.inFlight, hstale, Bool.not_false, Bool.and_true,
            Bool.or_eq_true, not_or, Bool.not_eq_true] at hm
          exact hm.1
        exact LiveRead.ends_of_stale hq hs hidle hsince hreports ht hforce hb hold hreaches
      · exact LiveRead.ends_of_fresh hq hs hb ((Timestamp.not_lt _ _).1 hold) hreaches

/-- A read alone: the balance that it serves is fresh enough unless the newest record passes for
it. -/
theorem LiveRead.ends_begin (hidle : w.watcher.Idle) (hsince : since ≤ w.time)
    (hreports : ∀ t, t = w.now ∨ (∃ i, t = times i) →
      Reports w.exchange (w.watcher.strategy.requestParams q.options.fallback) c t)
    (ht : Turns w.now times)
    (hask : (w.watcher.cached c).isSome = true ∨ w.watcher.hasFetched = false ∨
      q.options.force = true) :
    EndsUnless (fun w' => ¬ w'.Reaches q.options.waitFor) LiveRead.resume times
      (LiveRead.begin w q) fun _ a => ∃ b, a = some (.balance b) ∧ b.currency = c ∧
      (since ≤ b.asOf ↔ ¬ RecordStandsIn w.watcher c since q.options.force) := by
  -- the start changes nothing that the read looks at
  obtain ⟨poller, started, loops, nextLoop, journal, hw⟩ := w.start_eq
  have h := LiveRead.ends_started (w := w.start) hq hs
    (by rw [hw]; exact ⟨hidle.inFlight, hidle.queue⟩) (by rw [hw]; exact hsince)
    (by rw [hw]; exact hreports) (by rw [hw]; exact ht) (by rw [hw]; exact hask)
  rw [show RecordStandsIn w.start.watcher c since q.options.force =
    RecordStandsIn w.watcher c since q.options.force by rw [hw]; rfl] at h
  exact h

end

/-- A live read of a currency that is cached, or was never fetched, or is insisted on, by the only
task of a watcher without a poll loop. With an exchange that reports the currency it serves a
balance of it, whatever happened before and whenever its turns come; and the balance is not older
than the bound but for one case: the read does not insist, what is cached is too old, and the newest
record is not. Without records pushed by hand that is the case of a table that was reset. The read
comes to a fault instead only at a turn from which the clock cannot tell the deadline of its
wait. -/
theorem Calls.live_meets_bound (now : Int) (exchange : ε) (strategy : Strategy) (capacity : Nat)
    (before : List (Calls.Move ε)) (c : String) (options : LiveOptions) {since : Timestamp}
    {times : Nat → Int} :
    let s := (Calls.new now exchange (.new strategy .zero capacity)).run before
    let w := s.world
    s.live = [] → options.since = some since → since ≤ w.time → Turns w.now times →
    (w.watcher.cached c).isSome = true ∨ w.watcher.hasFetched = false ∨ options.force = true →
    (∀ t, t = w.now ∨ (∃ i, t = times i) →
      Reports w.exchange (w.watcher.strategy.requestParams options.fallback) c t) →
      (EndsUnless (fun w' => ¬ w'.Reaches options.waitFor) LiveRead.resume times
        (LiveRead.begin w ⟨some c, options⟩) fun _ a =>
          ∃ b, a = some (.balance b) ∧ b.currency = c ∧
            (since ≤ b.asOf ↔ ¬ RecordStandsIn w.watcher c since options.force)) ∧
      ((∀ m ∈ before, m.isPush = false) → RecordStandsIn w.watcher c since options.force →
        w.watcher.cached c = some (.zero c .epoch)) := by
  intro s w hlive hs hsince ht hask hreports
  have he : Exclusive w.watcher s.live :=
    (Exclusive.new now exchange strategy .zero capacity).run before
  obtain ⟨hflag, hqueue⟩ := he.idle (by simp [hlive])
  refine ⟨?_, fun hpush hstands => ?_⟩
  · exact LiveRead.ends_begin rfl hs ⟨hflag, hqueue⟩ hsince hreports ht hask
  · have hin : InStep w.watcher :=
      InStep.run (s := Calls.new ..) (InStep.new strategy .zero capacity) hpush
    exact hin.cached_of_recordStandsIn hstands

/-- Right after a reset the zeros are served, though the exchange would report the currency. -/
theorem Calls.live_misses_bound_after_reset :
    let payload := Json.Value.object [("BTC", .object [("total", .number (.int 1))])]
    let exchange := ScriptedExchange.new "sim" [⟨.ok payload, 0⟩] []
    let strategy := Strategy.new "spot" "sim" "USDT" ⟨5⟩
    let s := (Calls.new 1 exchange (.new strategy .zero 1)).run [.enter [], .reset]
    let options : LiveOptions := ⟨some (.ofNanos 1), false, .zero, []⟩
    .ofNanos 1 ≤ s.world.time ∧
      Ends LiveRead.resume (fun i => 1 + (i : Int)) (LiveRead.begin s.world ⟨some "BTC", options⟩)
        fun _ a => ∃ b, a = some (.balance b) ∧ ¬ .ofNanos 1 ≤ b.asOf := by
  intro payload exchange strategy s options
  have hturns : Turns s.world.now fun i => 1 + (i : Int) := by
    refine ⟨by decide, fun i => by omega, fun t => ⟨t.toNat, by omega⟩⟩
  have hcached : s.world.watcher.cached "BTC" = some (.zero "BTC" .epoch) := rfl
  have hstands : RecordStandsIn s.world.watcher "BTC" (.ofNanos 1) false :=
    ⟨rfl, _, .ofNanos 1, hcached, by decide, rfl, Timestamp.le_refl _⟩
  have hreports : ∀ t, Reports s.world.exchange
      (s.world.watcher.strategy.requestParams options.fallback) "BTC" t :=
    fun t => ⟨payload, rfl, by decide⟩
  have hnow : .ofNanos 1 ≤ s.world.time := by decide
  obtain ⟨hends, -⟩ := live_meets_bound 1 exchange strategy 1 [.enter [], .reset] "BTC" options
    rfl rfl hnow hturns (.inl (by rw [hcached]; rfl)) fun t _ => hreports t
  -- the zeros are served at once
  refine ⟨hnow, (hends.ends_of_done (n := 0) rfl).mono ?_⟩
  rintro _ _ ⟨b, rfl, -, hiff⟩
  exact ⟨b, rfl, fun hle => hiff.1 hle hstands⟩

end

end Portfolio
