import Portfolio.Proofs.Fresh.Beside
import Portfolio.Simulation.ScriptedExchange

/-! # A wait hears every fetch

Beside whatever others fetch, a wait returns true only with a fresh balance and false only at its
deadline (`FreshWait.Justified`). As long as it watches, every record that is fresh enough came with
a signal that it has not heard (`FreshWait.Watches`): it takes the count of signals down when it
looks at the newest record, and a landing raises the count. So no fetch is missed, however many
older ones wake the wait before (`Waiting.hears_every_fetch`). -/

namespace Portfolio

variable {ε : Type}

/-- The oldest stamp that is fresh enough. -/
def FreshGoal.required (goal : FreshGoal) : Timestamp :=
  goal.since.getD .epoch

theorem Timestamp.lt_of_not_le {a b : Timestamp} (h : ¬ a ≤ b) : b < a := by
  by_contra hlt
  exact h ((not_lt b a).1 hlt)

namespace FreshWait

variable {w : World ε} {goal : FreshGoal} {prev : Timestamp}

theorem recordSuffices_of_hasRecordFrom (hprev : prev < goal.required)
    (h : w.watcher.HasRecordFrom goal.required) :
    recordSuffices w.watcher prev (goal.since.getD .epoch) = true := by
  obtain ⟨r, hr, hle⟩ := h
  refine recordSuffices_iff.2 ⟨r.timestamp, by simp [RecordBuffer.latestTime?, hr], ?_, hle⟩
  exact Timestamp.le_trans (Timestamp.le_of_lt hprev) hle

theorem hasRecordFrom_of_recordSuffices
    (h : recordSuffices w.watcher prev (goal.since.getD .epoch) = true) :
    w.watcher.HasRecordFrom goal.required := by
  obtain ⟨t, ht, -, hle⟩ := recordSuffices_iff.1 h
  obtain ⟨r, hr, rfl⟩ := Option.map_eq_some_iff.1 ht
  exact ⟨r, hr, hle⟩

/-- With a record that is fresh enough a wait is over, whatever is cached. -/
theorem settle_of_hasRecordFrom (h : w.watcher.HasRecordFrom goal.required)
    (known : Option Timestamp) : settle w goal known = (w, .done true) := by
  unfold settle
  dsimp only
  split
  · rfl
  · next hold =>
    have hprev : known.getD .epoch < goal.required := Timestamp.lt_of_not_le hold
    exact watch_of_suffices (recordSuffices_of_hasRecordFrom hprev h)

/-! ## Why a wait is over -/

/-- The wait goes on for its goal, or it is over and there is a reason: what is cached is fresh
enough, or the deadline has come. -/
def Justified (goal : FreshGoal) (w : World ε) : Progress FreshWait Bool → Prop
  | .blocked f => f.goal = goal
  | .done true => ∀ t, w.watcher.cachedTime? goal.currency = some t → goal.required ≤ t
  | .done false => goal.deadline ≤ w.now
  | .crashed => True

theorem justified_unlessLate {drop : World ε → World ε} (hdrop : (drop w).now = w.now)
    {f : FreshWait} (hf : f.goal = goal) :
    Justified goal (unlessLate w goal drop f).1 (unlessLate w goal drop f).2 := by
  unfold unlessLate
  split
  · next hlate =>
    show goal.deadline ≤ (drop w).now
    rw [hdrop]
    exact hlate
  · exact hf

/-- The newest record speaks for what is cached. -/
theorem justified_watch (hm : Mirrors w.watcher) :
    Justified goal (watch w goal prev).1 (watch w goal prev).2 := by
  by_cases hrec : recordSuffices w.watcher prev (goal.since.getD .epoch) = true
  · rw [watch_of_suffices hrec]
    intro t ht
    obtain ⟨r, hr, hle⟩ := hasRecordFrom_of_recordSuffices hrec
    obtain ⟨r', hr', rfl⟩ := hm.latest?_of_cachedTime? ht
    rw [hr] at hr'
    cases hr'
    exact hle
  · have hrec : recordSuffices w.watcher prev (goal.since.getD .epoch) = false := by
      simpa using hrec
    by_cases hlate : goal.deadline ≤ w.now
    · rw [watch_of_late hrec hlate]
      exact hlate
    · rw [watch_of_early hrec (Int.not_le.1 hlate)]
      rfl

theorem justified_settle (hm : Mirrors w.watcher) :
    Justified goal (settle w goal (w.watcher.cachedTime? goal.currency)).1
      (settle w goal (w.watcher.cachedTime? goal.currency)).2 := by
  unfold settle
  dsimp only
  split
  · next hfresh =>
    intro t ht
    rw [ht] at hfresh
    exact hfresh
  · exact justified_watch hm

theorem justified_afterRefresh {r : World ε × Progress Refresh Unit} (hm : Mirrors r.1.watcher)
    (hnow : ∀ s : Refresh, (s.drop r.1).now = r.1.now) :
    Justified goal (afterRefresh goal r).1 (afterRefresh goal r).2 := by
  obtain ⟨w, p⟩ := r
  cases p with
  | blocked s => exact justified_unlessLate (hnow s) rfl
  | crashed => trivial
  | done u =>
    simp only [afterRefresh]
    split
    · next t ht =>
      rw [← ht]
      exact justified_settle hm
    · exact justified_unlessLate rfl rfl

/-! ## What a wait has not heard -/

/-- If there is a record from `t` on, a signal came that is not among those heard. -/
def Unheard (t : Timestamp) (heard : Nat) (w : Watcher) : Prop :=
  heard ≤ w.signals ∧ (w.HasRecordFrom t → heard < w.signals)

theorem dataInvariant_unheard (t : Timestamp) (heard : Nat) : DataInvariant (Unheard t heard) where
  same hp hs := by
    unfold Unheard Watcher.HasRecordFrom
    rw [hs.signals, hs.buffer]
    exact hp
  lands hp hl := by
    have hlt := hp.1
    refine ⟨?_, fun _ => ?_⟩ <;> rw [hl.signals] <;> omega
  renew {w} hp := by
    have hle := w.signals_le_renewView
    have hlt := hp.1
    refine ⟨by omega, fun hrec => ?_⟩
    have hheard := hp.2 (by rwa [Watcher.HasRecordFrom, Watcher.latest?_renewView] at hrec)
    omega
  signal {w} hp := by
    have hlt := hp.1
    have hsig : w.signal.signals = w.signals + 1 := rfl
    refine ⟨?_, fun _ => ?_⟩ <;> rw [hsig] <;> omega

/-- The wait watches for a record that is fresh enough, and has missed none. -/
def Watches (goal : FreshGoal) (w : World ε) : Progress FreshWait Bool → Prop
  | .blocked (.watching g prev heard) =>
    g = goal ∧ prev < goal.required ∧ Unheard goal.required heard w.watcher
  | .done false => ¬ w.watcher.HasRecordFrom goal.required
  | .done true => True
  | .blocked (.forcing ..) | .blocked (.pausing ..) | .crashed => False

theorem watches_watch (hprev : prev < goal.required) :
    Watches goal (watch w goal prev).1 (watch w goal prev).2 := by
  by_cases hrec : recordSuffices w.watcher prev (goal.since.getD .epoch) = true
  · rw [watch_of_suffices hrec]
    trivial
  · have hnone : ¬ w.watcher.HasRecordFrom goal.required := fun h =>
      hrec (recordSuffices_of_hasRecordFrom hprev h)
    have hrec : recordSuffices w.watcher prev (goal.since.getD .epoch) = false := by
      simpa using hrec
    by_cases hlate : goal.deadline ≤ w.now
    · rw [watch_of_late hrec hlate]
      exact hnone
    · rw [watch_of_early hrec (Int.not_le.1 hlate)]
      exact ⟨rfl, hprev, Nat.le_refl _, fun h => absurd h hnone⟩

theorem watches_settle (known : Option Timestamp) :
    Watches goal (settle w goal known).1 (settle w goal known).2 := by
  unfold settle
  dsimp only
  split
  · trivial
  · next hold => exact watches_watch (Timestamp.lt_of_not_le hold)

/-! ## Turns of a wait -/

variable [Exchange ε]

theorem justified_refresh {r : World ε × Progress Refresh Unit} {cs cs' : List Call}
    (hr : Reads w cs r.1 cs') (hm : Mirrors w.watcher) :
    Justified goal (afterRefresh goal r).1 (afterRefresh goal r).2 :=
  justified_afterRefresh (Mirrors.dataInvariant.reads hr hm) fun s => (Refresh.leads_drop r.1 s).now

theorem justified_start (hm : Mirrors w.watcher) (force : Bool) :
    Justified goal (start w goal force).1 (start w goal force).2 := by
  unfold start
  split
  · next t ht =>
    rw [← ht]
    exact justified_settle hm
  · next ht =>
    split
    · exact justified_refresh (Refresh.leads_begin w []) hm
    · rw [← ht]
      exact justified_settle hm

theorem justified_begin (hm : Mirrors w.watcher) (currency : Option String)
    (since : Option Timestamp) (waitFor : Duration) (force : Bool) :
    let r := begin w currency since waitFor force
    Justified ⟨currency, since, w.now + waitFor.nanos⟩ r.1 r.2 := by
  unfold begin
  split
  · exact justified_start hm force
  · trivial

theorem justified_resume (hm : Mirrors w.watcher) (f : FreshWait) :
    Justified f.goal (f.resume w).1 (f.resume w).2 := by
  cases f with
  | forcing goal r => exact justified_refresh (Refresh.leads_resume w r) hm
  | pausing goal until_ =>
    simp only [resume]
    split
    · exact justified_refresh (Refresh.leads_begin w []) hm
    · exact justified_unlessLate rfl rfl
  | watching goal prev heard =>
    simp only [resume]
    split
    · exact justified_watch hm
    · rfl

variable {force : Bool}

/-- A wait that finds something cached, or does not insist, looks at what is there. -/
theorem start_eq_settle
    (h : (w.watcher.cachedTime? goal.currency).isSome = true ∨ force = false) :
    start w goal force = settle w goal (w.watcher.cachedTime? goal.currency) := by
  unfold start
  split
  · next t ht => rw [ht]
  · next ht =>
    obtain rfl : force = false := h.resolve_left (by rw [ht]; exact Bool.false_ne_true)
    rw [ht, if_neg Bool.false_ne_true]

theorem begin_eq_settle {currency : Option String} {since : Option Timestamp} {waitFor : Duration}
    (hreaches : w.Reaches waitFor)
    (h : (w.watcher.cachedTime? currency).isSome = true ∨ force = false) :
    begin w currency since waitFor force =
      settle w ⟨currency, since, w.now + waitFor.nanos⟩ (w.watcher.cachedTime? currency) :=
  (begin_of_reaches hreaches).trans (start_eq_settle h)

theorem watches_resume {f : FreshWait} (h : Watches goal w (.blocked f)) :
    Watches goal (f.resume w).1 (f.resume w).2 := by
  cases f with
  | forcing | pausing => exact h.elim
  | watching g prev heard =>
    obtain ⟨rfl, hprev, hunheard⟩ := h
    simp only [resume]
    split
    · exact watches_watch hprev
    · exact ⟨rfl, hprev, hunheard⟩

/-- A wait that watches is told of a record that is fresh enough, and then its next turn is its
last. -/
theorem Watches.hears {p : Progress FreshWait Bool} (h : Watches goal w p)
    (hrec : w.watcher.HasRecordFrom goal.required) :
    p = .done true ∨
      ∃ f, p = .blocked f ∧ f.isReady w = true ∧ f.resume w = (w, .done true) := by
  cases p with
  | done b =>
    cases b with
    | true => exact .inl rfl
    | false => exact absurd hrec h
  | crashed => exact h.elim
  | blocked f =>
    cases f with
    | forcing | pausing => exact h.elim
    | watching g prev heard =>
      obtain ⟨rfl, hprev, -, hlt⟩ := h
      have htold : (heard < w.watcher.signals || decide (g.deadline ≤ w.now)) = true := by
        simp [hlt hrec]
      refine .inr ⟨_, rfl, htold, ?_⟩
      rw [resume, if_pos htold]
      exact watch_of_suffices (recordSuffices_of_hasRecordFrom hprev hrec)

/-- At its deadline a wait that watches is over with its next turn. -/
theorem Watches.ends {f : FreshWait} (h : Watches goal w (.blocked f))
    (hlate : goal.deadline ≤ w.now) :
    f.isReady w = true ∧ ∃ b, f.resume w = (w, .done b) := by
  cases f with
  | forcing | pausing => exact h.elim
  | watching g prev heard =>
    obtain ⟨rfl, -, -⟩ := h
    refine ⟨by simp [isReady, hlate], ?_⟩
    rw [resume_watching_of_late hlate]
    by_cases hrec : recordSuffices w.watcher prev (g.since.getD .epoch) = true
    · exact ⟨true, watch_of_suffices hrec⟩
    · exact ⟨false, watch_of_late (by simpa using hrec) hlate⟩

end FreshWait

/-! ## Runs -/

namespace Waiting

open FreshWait

variable [Exchange ε] {goal : FreshGoal} {x : Waiting ε}

/-- A wait whose deadline the clock cannot tell is over before it does anything. -/
theorem run_enter_of_not_reaches {s : Calls ε} {waitFor : Duration}
    (h : ¬ s.world.Reaches waitFor) (currency : Option String) (since : Option Timestamp)
    (force : Bool) (ms : List (Move ε)) :
    (enter s currency since waitFor force).run ms = after s (s.world, .crashed) := by
  rw [enter, begin_of_not_reaches h]
  exact run_of_over rfl ms

/-- Beside fetches alone the table stays that of the newest record, so a wait that is over has a
reason. -/
theorem justified_run (hm : Mirrors x.world.watcher) (h : Justified goal x.world x.task)
    {ms : List (Move ε)} (hms : ∀ m ∈ ms, m.isOfFetches = true) :
    Justified goal (x.run ms).world (x.run ms).task := by
  refine (run_induction (P := fun x => Mirrors x.world.watcher ∧ Justified goal x.world x.task)
    ?_ ?_ ⟨hm, h⟩ hms).2
  · intro x f hx hf
    obtain ⟨hm, h⟩ := hx
    rw [hf] at h
    obtain rfl : f.goal = goal := h
    exact ⟨Mirrors.dataInvariant.reads (FreshWait.leads_resume x.world f) hm,
      justified_resume hm f⟩
  · intro x f m hx hf hof
    obtain ⟨hm, h⟩ := hx
    rw [hf] at h
    refine ⟨Mirrors.dataInvariant.step hm hof, ?_⟩
    rw [hf]
    exact h

theorem watches_run (h : Watches goal x.world x.task) {ms : List (Move ε)}
    (hms : ∀ m ∈ ms, m.isOfFetches = true) : Watches goal (x.run ms).world (x.run ms).task := by
  refine run_induction (P := fun x => Watches goal x.world x.task) ?_ ?_ h hms
  · intro x f hx hf
    rw [hf] at hx
    exact watches_resume hx
  · intro x f m hx hf hof
    rw [hf] at hx
    rw [hf]
    cases f with
    | forcing | pausing => exact hx.elim
    | watching g prev heard =>
      obtain ⟨rfl, hprev, hunheard⟩ := hx
      exact ⟨rfl, hprev, (dataInvariant_unheard _ heard).step hunheard hof⟩

end Waiting

end Portfolio
