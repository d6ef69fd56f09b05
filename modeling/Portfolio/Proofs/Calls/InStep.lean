import Portfolio.Proofs.Calls.Basic

/-! # The table and the newest record

The table is made from the newest record and has its stamp, or it was reset and has none
(`InStep`). Every move keeps that but a record that is pushed by hand, which the table follows only
when it is made anew. -/

namespace Portfolio

variable {ε : Type}

/-- Every balance has the stamp of the newest record, or none has an amount or a stamp. -/
def InStep (w : Watcher) : Prop :=
  (∃ r, w.buffer.latest? = some r ∧ ∀ b ∈ w.view.balances, b.asOf = r.timestamp) ∨
    ∀ b ∈ w.view.balances, b = .zero b.currency .epoch

/-- The move pushes a record by hand. -/
def Calls.Move.isPush : Calls.Move ε → Bool
  | .push .. => true
  | _ => false

namespace InStep

variable {w w' : Watcher}

theorem congr (h : InStep w) (hv : w'.view = w.view) (hb : w'.buffer = w.buffer) : InStep w' := by
  unfold InStep
  rw [hv, hb]
  exact h

theorem materialise {r : FetchRecord} (h : w.buffer.latest? = some r) :
    InStep (w.materialise r) :=
  .inl ⟨r, h, fun _ hb => BalanceTable.asOf_of_mem_report hb⟩

theorem land (w : Watcher) (ticket : Nat) (payload : Json.Value) (started : Timestamp) :
    InStep (w.land ticket payload started) := by
  rw [Watcher.land_eq]
  exact materialise (RecordBuffer.latest?_push ..)

theorem reset (w : Watcher) : InStep w.reset := by
  refine .inr fun b hb => ?_
  obtain ⟨a, -, rfl⟩ := List.mem_map.1 hb
  rfl

theorem renewView (h : InStep w) : InStep w.renewView := by
  unfold Watcher.renewView
  split
  · next r hr => exact materialise hr
  · exact h

variable [Exchange ε]

theorem callInvariant : CallInvariant fun (w : World ε) _ => InStep w.watcher where
  perm h _ := h
  turn _ :=
    { join := fun h _ => h
      leave := fun h _ => h
      draw := fun h => h.congr rfl rfl
      ask := fun h _ => h.congr rfl rfl
      finish := fun h _ => by
        rw [Refresh.watcher_finish]
        split
        · exact land ..
        · exact h.congr rfl rfl }
  lock h := h.congr rfl rfl
  take h _ := h.congr rfl rfl
  drop {w _ c} h := by
    obtain ⟨lock, inFlight, hw⟩ := c.drop_eq w
    rw [hw]
    exact h.congr rfl rfl

theorem other {s : Calls ε} (h : InStep s.world.watcher) {m : Calls.Move ε}
    (hm : m.isCall = false) (hp : m.isPush = false) : InStep (s.step m).world.watcher := by
  cases m with
  | enter | lock | resume | drop => cases hm
  | push => cases hp
  | reset => exact reset s.world.watcher
  | renewView => exact h.renewView
  | start =>
    obtain ⟨poller, started, loops, nextLoop, journal, hw⟩ := s.world.start_eq
    have hs : (s.step .start).world = _ := hw
    exact h.congr (by rw [hs]) (by rw [hs])
  | stop =>
    obtain ⟨poller, started, loops, journal, hw, -⟩ := s.world.stop_cases
    have hs : (s.step .stop).world = _ := hw
    exact h.congr (by rw [hs]) (by rw [hs])
  | business exchange events =>
    refine h.congr ?_ ?_ <;> simp [Calls.step, Calls.onWorld]
  | elapse | signal | release | loops => exact h.congr rfl rfl

theorem run {s : Calls ε} (h : InStep s.world.watcher) {ms : List (Calls.Move ε)}
    (hp : ∀ m ∈ ms, m.isPush = false) : InStep (s.run ms).world.watcher :=
  callInvariant.run h fun _ hs m hm ho => hs.other ho (hp m hm)

omit [Exchange ε] in
theorem new (strategy : Strategy) (pollInterval : Duration) (capacity : Nat) :
    InStep (.new strategy pollInterval capacity) :=
  .inr fun _ hb => absurd hb List.not_mem_nil

end InStep

end Portfolio
