import Portfolio.Proofs.Fresh.Hears
import Portfolio.Proofs.View.Report

/-! # What an insisting wait sees

A wait that insists and finds nothing cached looks at the cache when a refresh of its own has ended,
and at no other time (`FreshWait.looks`). What is cached stays cached and gets no older, so that a
balance that anybody fetches is seen at the next look, whatever the deadline
(`Waiting.forced_wait_sees_at_its_looks`). If the deadline comes before that look the balance is
missed, also if it was there long before (`Waiting.forced_wait_misses_between_looks`). -/

namespace Portfolio

variable {ε : Type}

/-! ## What is cached -/

namespace Watcher

/-- What is cached is not older than `t`. -/
def Shows (w : Watcher) (currency : Option String) (t : Timestamp) : Prop :=
  ∃ u, w.cachedTime? currency = some u ∧ t ≤ u

theorem isSome_cachedTime?_of_report {w w' : Watcher} {currency : Option String} {r : FetchRecord}
    (hb : w'.buffer.latest? = some r)
    (hv : w'.view = w.view.report r.timestamp (Payload.read r.payload))
    (h : (w.cachedTime? currency).isSome = true) : (w'.cachedTime? currency).isSome = true := by
  cases currency with
  | none => simp [cachedTime?, hasFetched_of_latest? hb]
  | some c =>
    have hknown : (w.view.get? c).isSome = true := by simpa [cachedTime?, cached] using h
    simp only [cachedTime?, cached, hv, BalanceTable.get?_report, hknown, true_or, if_true]
    rfl

/-- What is cached stays cached. -/
theorem dataInvariant_cachedTime? (currency : Option String) :
    DataInvariant fun w => (w.cachedTime? currency).isSome = true where
  same {w w'} hp hs := by
    have hsame : w'.cachedTime? currency = w.cachedTime? currency := by
      cases currency with
      | none => simp [cachedTime?, hasFetched, hs.buffer, hs.view]
      | some c => simp [cachedTime?, cached, hs.view]
    rwa [hsame]
  lands hp hl := isSome_cachedTime?_of_report hl.latest? hl.view hp
  renew {w} hp := by
    unfold renewView
    split
    · next r hr =>
      have hlatest : (w.materialise r).buffer.latest? = some r := hr
      exact isSome_cachedTime?_of_report hlatest rfl hp
    · exact hp
  signal hp := hp

theorem Shows.hasRecordFrom {w : Watcher} {currency : Option String} {t : Timestamp}
    (h : w.Shows currency t) (hm : Mirrors w) : w.HasRecordFrom t := by
  obtain ⟨u, hu, hle⟩ := h
  obtain ⟨r, hr, rfl⟩ := hm.latest?_of_cachedTime? hu
  exact ⟨r, hr, hle⟩

theorem shows_of_hasRecordFrom {w : Watcher} {currency : Option String} {t : Timestamp}
    (hc : (w.cachedTime? currency).isSome = true) (h : w.HasRecordFrom t) (hm : Mirrors w) :
    w.Shows currency t := by
  obtain ⟨u, hu⟩ := Option.isSome_iff_exists.1 hc
  obtain ⟨r, hr, rfl⟩ := hm.latest?_of_cachedTime? hu
  obtain ⟨r', hr', hle⟩ := h
  rw [hr] at hr'
  cases hr'
  exact ⟨_, hu, hle⟩

end Watcher

/-! ## Looks -/

def Progress.isDone {σ α : Type} : Progress σ α → Bool
  | done _ => true
  | blocked _ | crashed => false

namespace FreshWait

variable {w : World ε} {goal : FreshGoal}

/-- With something fresh enough in the cache a wait that looks there is over. -/
theorem afterRefresh_of_shows {r : World ε × Progress Refresh Unit} (hdone : r.2.isDone = true)
    (h : (afterRefresh goal r).1.watcher.Shows goal.currency goal.required) :
    (afterRefresh goal r).2 = .done true := by
  obtain ⟨w, p⟩ := r
  cases p with
  | blocked | crashed => cases hdone
  | done u =>
    simp only [afterRefresh] at h ⊢
    split at h
    · next t ht =>
      obtain ⟨hworld, -⟩ := calls_settle w goal (some t)
      obtain ⟨u, hu, hle⟩ := h
      rw [hworld, ht] at hu
      cases hu
      have hfresh : goal.since.getD .epoch ≤ t := hle
      simp only [settle, Option.getD_some]
      rw [if_pos hfresh]
    · next ht =>
      have hworld : (unlessLate w goal id (.pausing goal (w.now + pause))).1 = w := by
        unfold unlessLate
        split <;> rfl
      obtain ⟨u, hu, -⟩ := h
      rw [hworld, ht] at hu
      cases hu

/-- The wait is for something that is not cached, or watches as what is cached is too old. -/
def Insists (goal : FreshGoal) (w : World ε) : Progress FreshWait Bool → Prop
  | .blocked (.forcing g _) => g = goal
  | .blocked (.pausing g until_) => g = goal ∧ until_ ≤ w.now + pause
  | .blocked (.watching g ..) =>
    g = goal ∧ (w.watcher.cachedTime? goal.currency).isSome = true
  | .done true => (w.watcher.cachedTime? goal.currency).isSome = true
  | .done false | .crashed => True

theorem insists_watch {prev : Timestamp}
    (h : (w.watcher.cachedTime? goal.currency).isSome = true) :
    Insists goal (watch w goal prev).1 (watch w goal prev).2 := by
  unfold watch
  split
  · exact h
  · split
    · trivial
    · exact ⟨rfl, h⟩

theorem insists_afterRefresh {r : World ε × Progress Refresh Unit} :
    Insists goal (afterRefresh goal r).1 (afterRefresh goal r).2 := by
  obtain ⟨w, p⟩ := r
  cases p with
  | blocked s =>
    simp only [afterRefresh, unlessLate]
    split
    · trivial
    · rfl
  | crashed => trivial
  | done u =>
    simp only [afterRefresh]
    split
    · next t ht =>
      have hcached : (w.watcher.cachedTime? goal.currency).isSome = true := by rw [ht]; rfl
      unfold settle
      dsimp only
      split
      · exact hcached
      · exact insists_watch hcached
    · unfold unlessLate
      split
      · trivial
      · exact ⟨rfl, Int.le_refl _⟩

/-- At the deadline nothing is waited for any more. -/
theorem left_unlessLate (hlate : goal.deadline ≤ w.now) (drop : World ε → World ε)
    (f : FreshWait) : (unlessLate w goal drop f).2.left = none := by
  unfold unlessLate
  rw [if_pos hlate]
  rfl

theorem left_watch (hlate : goal.deadline ≤ w.now) (prev : Timestamp) :
    (watch w goal prev).2.left = none := by
  unfold watch
  split <;> rfl

theorem left_settle (hlate : goal.deadline ≤ w.now) (known : Option Timestamp) :
    (settle w goal known).2.left = none := by
  unfold settle
  dsimp only
  split
  · rfl
  · exact left_watch hlate _

theorem left_afterRefresh {r : World ε × Progress Refresh Unit}
    (hlate : goal.deadline ≤ r.1.now) : (afterRefresh goal r).2.left = none := by
  obtain ⟨w, p⟩ := r
  cases p with
  | blocked s => exact left_unlessLate hlate s.drop _
  | crashed => rfl
  | done u =>
    simp only [afterRefresh]
    split
    · exact left_settle hlate _
    · exact left_unlessLate hlate id _

variable [Exchange ε]

/-- The turn is one at which the wait looks at the cache: a refresh of its own ends in it. -/
def looks (w : World ε) : FreshWait → Bool
  | .forcing _ r => (r.resume w).2.isDone
  | .pausing _ until_ => until_ ≤ w.now && (Refresh.begin w []).2.isDone
  | .watching .. => false

theorem resume_of_shows {f : FreshWait} (hlooks : f.looks w = true)
    (h : (f.resume w).1.watcher.Shows f.goal.currency f.goal.required) :
    (f.resume w).2 = .done true := by
  cases f with
  | forcing goal r => exact afterRefresh_of_shows hlooks h
  | pausing goal until_ =>
    simp only [looks, Bool.and_eq_true, decide_eq_true_eq] at hlooks
    obtain ⟨hdue, hdone⟩ := hlooks
    simp only [resume, if_pos hdue] at h ⊢
    exact afterRefresh_of_shows hdone h
  | watching => cases hlooks

theorem insists_begin {currency : Option String} {since : Option Timestamp} {waitFor : Duration}
    (h : w.watcher.cachedTime? currency = none) :
    let r := begin w currency since waitFor true
    Insists ⟨currency, since, w.now + waitFor.nanos⟩ r.1 r.2 := by
  unfold begin
  split
  · simp only [start, h, if_true]
    exact insists_afterRefresh
  · trivial

theorem insists_resume {f : FreshWait} (h : Insists goal w (.blocked f)) :
    Insists goal (f.resume w).1 (f.resume w).2 := by
  cases f with
  | forcing g r =>
    obtain rfl : g = goal := h
    exact insists_afterRefresh
  | pausing g until_ =>
    obtain ⟨rfl, hpause⟩ := h
    simp only [resume]
    split
    · exact insists_afterRefresh
    · unfold unlessLate
      split
      · trivial
      · exact ⟨rfl, hpause⟩
  | watching g prev heard =>
    obtain ⟨rfl, hcached⟩ := h
    simp only [resume]
    split
    · exact insists_watch hcached
    · exact ⟨rfl, hcached⟩

/-- At its deadline a wait is over with its next turn. -/
theorem left_resume {f : FreshWait} (hlate : f.goal.deadline ≤ w.now) :
    f.isReady w = true ∧ (f.resume w).2.left = none := by
  cases f with
  | forcing goal r =>
    have hlate : goal.deadline ≤ w.now := hlate
    refine ⟨by simp [isReady, hlate], left_afterRefresh ?_⟩
    rw [(Refresh.leads_resume w r).now]
    exact hlate
  | pausing goal until_ =>
    have hlate : goal.deadline ≤ w.now := hlate
    refine ⟨by simp [isReady, hlate], ?_⟩
    simp only [resume]
    split
    · refine left_afterRefresh ?_
      rw [(Refresh.leads_begin w []).now]
      exact hlate
    · exact left_unlessLate hlate id _
  | watching goal prev heard =>
    have hlate : goal.deadline ≤ w.now := hlate
    refine ⟨by simp [isReady, hlate], ?_⟩
    rw [resume_watching_of_late hlate]
    exact left_watch hlate prev

end FreshWait

/-! ## Runs -/

namespace Waiting

open FreshWait

variable [Exchange ε] {goal : FreshGoal} {x : Waiting ε}

/-- The next turn is a look at the cache. -/
def looks (x : Waiting ε) : Bool :=
  match x.task with
  | .blocked f => f.looks x.world
  | .done _ | .crashed => false

theorem step_of_shows (hgoal : Justified goal x.world x.task) (hlooks : x.looks = true)
    (h : (x.step .turn).world.watcher.Shows goal.currency goal.required) :
    (x.step .turn).task = .done true := by
  cases hf : x.task with
  | blocked f =>
    rw [hf] at hgoal
    obtain rfl : f.goal = goal := hgoal
    rw [step_turn hf] at h ⊢
    rw [looks, hf] at hlooks
    exact resume_of_shows hlooks h
  | done | crashed =>
    rw [looks, hf] at hlooks
    cases hlooks

/-- What is cached stays as fresh. -/
theorem shows_run (hx : Fetched x.world x.calls) {currency : Option String} {t : Timestamp}
    (h : x.world.watcher.Shows currency t) {ms : List (Move ε)}
    (hms : ∀ m ∈ ms, m.isOfFetches = true) : (x.run ms).world.watcher.Shows currency t := by
  obtain ⟨u, hu, -⟩ := id h
  have hcached := data_run (Watcher.dataInvariant_cachedTime? currency) (by rw [hu]; rfl) hms
  exact Watcher.shows_of_hasRecordFrom hcached
    (hasRecordFrom_run hx (h.hasRecordFrom hx.mirrors) hms) (fetched_run hms hx).mirrors

theorem insists_run (h : Insists goal x.world x.task) {ms : List (Move ε)}
    (hms : ∀ m ∈ ms, m.isOfFetches = true) : Insists goal (x.run ms).world (x.run ms).task := by
  refine run_induction (P := fun x => Insists goal x.world x.task) ?_ ?_ h hms
  · intro x f hx hf
    rw [hf] at hx
    exact insists_resume hx
  · intro x f m hx hf hof
    have hlater : World.Later x.world (x.others.step m).world := Calls.later_run x.others [m]
    rw [hf] at hx
    rw [hf]
    cases f with
    | forcing => exact hx
    | pausing g until_ =>
      exact ⟨hx.1, Int.le_trans hx.2 (Int.add_le_add_right hlater.now pause)⟩
    | watching g prev heard =>
      exact ⟨hx.1, (Watcher.dataInvariant_cachedTime? goal.currency).step hx.2 hof⟩

/-- A wait that insists and finds nothing cached, beside any calls, on a watcher whose data comes
from fetches alone. If it returns true something fresh enough is cached, and it returns false at its
deadline at the earliest. Once something fresh enough is cached, through anybody's fetch, the next
look of the wait ends it with true, whatever the deadline; so if it returns false it has not looked
since. It begins the refresh that leads to its next look in no more than a pause, and at its
deadline it is over with its next turn. -/
theorem forced_wait_sees_at_its_looks (now : Int) (exchange : ε) (strategy : Strategy)
    (pollInterval : Duration) (capacity : Nat) (before : List (Calls.Move ε))
    (currency : Option String) (since : Option Timestamp) (waitFor : Duration)
    (moves : List (Move ε)) :
    let s := (Calls.new now exchange (.new strategy pollInterval capacity)).run before
    let entered := enter s currency since waitFor true
    let x := entered.run moves
    let required := since.getD .epoch
    let deadline := s.world.now + waitFor.nanos
    (∀ m ∈ before, m.isOfFetches = true) → (∀ m ∈ moves, m.isOfFetches = true) →
      s.world.watcher.cachedTime? currency = none →
      (x.task = .done true → x.world.watcher.Shows currency required) ∧
      (x.task = .done false → deadline ≤ x.world.now) ∧
      (∀ earlier later, earlier ++ later ++ [.turn] <+: moves →
        (entered.run earlier).world.watcher.Shows currency required →
          (entered.run (earlier ++ later)).looks = true → x.task = .done true) ∧
      (∀ goal until_, x.task = .blocked (.pausing goal until_) → until_ ≤ x.world.now + pause) ∧
      (∀ f, x.task = .blocked f → deadline ≤ x.world.now →
        f.isReady x.world = true ∧ (f.resume x.world).2.left = none) := by
  intro s entered x required deadline hbefore hmoves hnone
  let goal : FreshGoal := ⟨currency, since, deadline⟩
  have hs : Fetched s.world s.live :=
    (Fetched.new now exchange strategy pollInterval capacity).run hbefore
  have hentered : Fetched entered.world entered.calls :=
    enter_invariant Fetched.callInvariant (fun _ hs _ hof hcall => hs.other hcall hof) hs
      currency since waitFor true
  have hbegin : Justified goal entered.world entered.task :=
    justified_begin hs.mirrors currency since waitFor true
  have hjust : Justified goal x.world x.task := justified_run hentered.mirrors hbegin hmoves
  have hinsists : Insists goal x.world x.task :=
    insists_run (insists_begin hnone) hmoves
  refine ⟨fun hdone => ?_, fun hdone => ?_, ?_, fun g until_ hf => ?_, fun f hf hlate => ?_⟩
  · rw [hdone] at hjust hinsists
    obtain ⟨t, ht⟩ := Option.isSome_iff_exists.1 hinsists
    exact ⟨t, ht, hjust t ht⟩
  · rw [hdone] at hjust
    exact hjust
  · rintro earlier later ⟨rest, rfl⟩ hshows hlooks
    have hmoves' : ∀ m ∈ earlier ++ later ++ [.turn], m.isOfFetches = true := fun m hm =>
      hmoves m (List.mem_append_left _ hm)
    have hearlier : ∀ m ∈ earlier, m.isOfFetches = true := fun m hm =>
      hmoves' m (List.mem_append_left _ (List.mem_append_left _ hm))
    have hlater : ∀ m ∈ later, m.isOfFetches = true := fun m hm =>
      hmoves' m (List.mem_append_left _ (List.mem_append_right _ hm))
    -- what was cached is still there when the wait looks
    have hthere : (entered.run (earlier ++ later ++ [.turn])).world.watcher.Shows currency
        required := by
      rw [List.append_assoc, run_append]
      refine shows_run (fetched_run hearlier hentered) hshows fun m hm => ?_
      rcases List.mem_append.1 hm with hm | hm
      · exact hlater m hm
      · rw [List.mem_singleton.1 hm]
        rfl
    have hgoal : Justified goal (entered.run (earlier ++ later)).world
        (entered.run (earlier ++ later)).task :=
      justified_run hentered.mirrors hbegin fun m hm => hmoves' m (List.mem_append_left _ hm)
    rw [run_append] at hthere
    have hturn : (entered.run (earlier ++ later ++ [.turn])).task = .done true := by
      rw [run_append]
      exact step_of_shows hgoal hlooks hthere
    show (entered.run (earlier ++ later ++ [.turn] ++ rest)).task = .done true
    rw [run_append, run_of_over (by rw [hturn]; rfl), hturn]
  · rw [hf] at hinsists
    exact hinsists.2
  · rw [hf] at hjust
    have hgoal : f.goal = goal := hjust
    exact left_resume (by rw [hgoal]; exact hlate)

/-- The first refresh of the wait fails and the wait pauses. Somebody else fetches the balance in
the pause, and at its deadline the wait returns false, though it is told of what it waits for. -/
theorem forced_wait_misses_between_looks :
    let payload := Json.Value.object [("BTC", .object [("total", .number (.int 1))])]
    let exchange := ScriptedExchange.new "sim" [⟨.error (.connection "down"), 0⟩,
      ⟨.ok payload, 0⟩] []
    let strategy := Strategy.new "spot" "sim" "USDT" ⟨5⟩
    let s := (Calls.new 0 exchange (.new strategy .zero 1)).run []
    let x := (enter s (some "BTC") none ⟨50⟩ true).run
      [.other (.elapse 20), .other (.enter []), .turn, .other (.elapse 30), .turn]
    x.task = .done false ∧ x.world.watcher.Shows (some "BTC") ⟨0, 20⟩ ∧ 50 ≤ x.world.now := by
  obtain ⟨-, hfalse, -⟩ := forced_wait_sees_at_its_looks 0
    (ScriptedExchange.new "sim" [⟨.error (.connection "down"), 0⟩,
      ⟨.ok (.object [("BTC", .object [("total", .number (.int 1))])]), 0⟩] [])
    (Strategy.new "spot" "sim" "USDT" ⟨5⟩) .zero 1 [] (some "BTC") none ⟨50⟩
    [.other (.elapse 20), .other (.enter []), .turn, .other (.elapse 30), .turn] nofun
    (by simp [Move.isOfFetches, Calls.Move.isOfFetches]) rfl
  exact ⟨rfl, ⟨⟨0, 20⟩, rfl, Timestamp.le_refl _⟩, hfalse rfl⟩

end Waiting

end Portfolio
