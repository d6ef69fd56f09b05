import Portfolio.Proofs.Calls.Basic

/-! # What never goes back

Over a run of calls the clock and the count of signals only grow, and the settings of the watcher
stay (`Calls.later_run`). -/

namespace Portfolio

variable {ε : Type}

/-- A world that can come after another. -/
structure World.Later (w w' : World ε) : Prop where
  now : w.now ≤ w'.now
  signals : w.watcher.signals ≤ w'.watcher.signals
  strategy : w'.watcher.strategy = w.watcher.strategy
  pollInterval : w'.watcher.pollInterval = w.watcher.pollInterval

namespace World.Later

variable {w w' w'' : World ε}

theorem refl (w : World ε) : Later w w :=
  ⟨Int.le_refl _, Nat.le_refl _, rfl, rfl⟩

theorem trans (h : Later w w') (h' : Later w' w'') : Later w w'' where
  now := Int.le_trans h.now h'.now
  signals := Nat.le_trans h.signals h'.signals
  strategy := h'.strategy.trans h.strategy
  pollInterval := h'.pollInterval.trans h.pollInterval

theorem time (h : Later w w') : w.time ≤ w'.time :=
  (Timestamp.ofNanos_le_ofNanos _ _).2 h.now

theorem of_watcher (hn : w'.now = w.now) (hs : w.watcher.signals ≤ w'.watcher.signals)
    (ht : w'.watcher.strategy = w.watcher.strategy)
    (hp : w'.watcher.pollInterval = w.watcher.pollInterval) : Later w w' :=
  ⟨Int.le_of_eq hn.symm, hs, ht, hp⟩

end World.Later

section
variable [Exchange ε]

open World

theorem World.Later.finish (w : World ε) (ticket : Nat) (started : Timestamp)
    (reply : Reply Json.Value) : Later w (Refresh.finish w ticket started reply).1 := by
  have hw := Refresh.watcher_finish w ticket started reply
  rw [Refresh.finish_fst, hw]
  split
  · rw [Watcher.land_eq]
    exact .of_watcher rfl (Nat.le_succ _) rfl rfl
  · exact .of_watcher rfl (Nat.le_refl _) rfl rfl

theorem World.Later.callInvariant (w : World ε) : CallInvariant fun w' _ => Later w w' where
  perm h _ := h
  turn _ :=
    { join := fun h _ => h
      leave := fun h _ => h
      draw := fun h => h.trans (.of_watcher rfl (Nat.le_refl _) rfl rfl)
      ask := fun h _ => h.trans (.of_watcher rfl (Nat.le_refl _) rfl rfl)
      finish := fun h _ => h.trans (.finish ..) }
  lock h := h.trans (.of_watcher rfl (Nat.le_refl _) rfl rfl)
  take h _ := h.trans (.of_watcher rfl (Nat.le_refl _) rfl rfl)
  drop {w' _ c} h := by
    obtain ⟨lock, inFlight, hw⟩ := c.drop_eq w'
    rw [hw]
    exact h.trans (.of_watcher rfl (Nat.le_refl _) rfl rfl)

theorem Calls.later_other (s : Calls ε) {m : Calls.Move ε} (hm : m.isCall = false) :
    Later s.world (s.step m).world := by
  cases m with
  | enter | lock | resume | drop => cases hm
  | elapse length =>
    refine ⟨?_, Nat.le_refl _, rfl, rfl⟩
    show s.world.now ≤ s.world.now + (length : Int)
    omega
  | start =>
    obtain ⟨poller, started, loops, nextLoop, journal, hw⟩ := s.world.start_eq
    have hs : (s.step .start).world = _ := hw
    rw [hs]
    exact .of_watcher rfl (Nat.le_refl _) rfl rfl
  | stop =>
    obtain ⟨poller, started, loops, journal, hw, -⟩ := s.world.stop_cases
    have hs : (s.step .stop).world = _ := hw
    rw [hs]
    exact .of_watcher rfl (Nat.le_refl _) rfl rfl
  | renewView =>
    exact .of_watcher rfl s.world.watcher.signals_le_renewView (Watcher.strategy_renewView _)
      (Watcher.pollInterval_renewView _)
  | business exchange events =>
    refine .of_watcher (World.now_logAll ..) ?_ ?_ ?_ <;> simp [Calls.step, Calls.onWorld]
  | signal => exact .of_watcher rfl (Nat.le_succ _) rfl rfl
  | reset | push | release | loops => exact .of_watcher rfl (Nat.le_refl _) rfl rfl

theorem Calls.later_run (s : Calls ε) (ms : List (Calls.Move ε)) :
    Later s.world (s.run ms).world :=
  (Later.callInvariant s.world).run (.refl _) fun _ hs _ _ hm => hs.trans (later_other _ hm)

end

end Portfolio
