import Portfolio.Proofs.Calls.Later

/-! # Stamps of what is known

A request is stamped with the time at which it is sent (`StartedInPast`). So a bound on the stamps
of the table, of the newest record and of the requests that are out (`NotBefore`) is kept as long as
nobody resets the watcher or pushes an older record. -/

namespace Portfolio

variable {ε : Type}

/-- No request was sent later than now. -/
def StartedInPast (w : World ε) (cs : List Call) : Prop :=
  ∀ c ∈ cs, ∀ t, c.started? = some t → t ≤ w.time

/-- All that is known or asked for is at least as new as `t`. -/
structure NotBefore (t : Timestamp) (w : World ε) (cs : List Call) : Prop where
  time : t ≤ w.time
  view : t ≤ w.watcher.view.asOf
  record : ∀ r, w.watcher.buffer.latest? = some r → t ≤ r.timestamp
  started : ∀ c ∈ cs, ∀ u, c.started? = some u → t ≤ u

/-- The move is no reset and pushes nothing older than `t`. -/
def Calls.Move.KeepsStamp (t : Timestamp) : Calls.Move ε → Prop
  | .reset => False
  | .push _ at_ => t ≤ at_
  | _ => True

namespace StartedInPast

variable {w w' : World ε} {c : Call} {cs : List Call}

theorem later (h : StartedInPast w cs) (hw : w.time ≤ w'.time) : StartedInPast w' cs :=
  fun c hc t ht => Timestamp.le_trans (h c hc t ht) hw

theorem cons (h : StartedInPast w cs) (hc : ∀ t, c.started? = some t → t ≤ w.time) :
    StartedInPast w (c :: cs) := by
  intro d hd t ht
  rcases List.mem_cons.1 hd with rfl | hd
  · exact hc t ht
  · exact h d hd t ht

theorem tail (h : StartedInPast w (c :: cs)) : StartedInPast w cs :=
  fun d hd => h d (.tail _ hd)

theorem callInvariant [Exchange ε] : CallInvariant (StartedInPast (ε := ε)) where
  perm h hp := fun c hc => h c (hp.mem_iff.2 hc)
  turn cs :=
    { join := fun h _ => h.cons (by simp [Call.started?])
      leave := fun h _ => h.tail
      draw := fun h => h.cons (by simp [Call.started?])
      ask := fun {w _ _} h _ => h.tail.cons (c := .refresh (.fetching ..)) (by
        intro t ht
        cases ht
        exact Timestamp.le_refl w.time)
      finish := fun {w _ _ _ _} h _ => h.tail.later (by
        rw [Refresh.finish_fst]; exact Timestamp.le_refl _) }
  lock h := h.cons (by simp [Call.started?])
  take h _ := h.tail.cons (by simp [Call.started?])
  drop {w _ c} h := by
    obtain ⟨lock, inFlight, hw⟩ := c.drop_eq w
    rw [hw]
    exact h.tail.later (Timestamp.le_refl _)

theorem run [Exchange ε] {s : Calls ε} (h : StartedInPast s.world s.live)
    (ms : List (Calls.Move ε)) : StartedInPast (s.run ms).world (s.run ms).live :=
  callInvariant.run h fun s hs _ _ hm => hs.later (s.later_other hm).time

end StartedInPast

namespace NotBefore

variable {t : Timestamp} {w w' : World ε} {c : Call} {cs : List Call}

/-- Only the clock, or what has no stamp, has changed. -/
theorem congr (h : NotBefore t w cs) (ht : w.time ≤ w'.time)
    (hv : w'.watcher.view = w.watcher.view) (hb : w'.watcher.buffer = w.watcher.buffer) :
    NotBefore t w' cs where
  time := Timestamp.le_trans h.time ht
  view := hv ▸ h.view
  record := hb ▸ h.record
  started := h.started

theorem cons (h : NotBefore t w cs) (hc : ∀ u, c.started? = some u → t ≤ u) :
    NotBefore t w (c :: cs) := by
  refine ⟨h.time, h.view, h.record, fun d hd u hu => ?_⟩
  rcases List.mem_cons.1 hd with rfl | hd
  · exact hc u hu
  · exact h.started d hd u hu

theorem tail (h : NotBefore t w (c :: cs)) : NotBefore t w cs :=
  ⟨h.time, h.view, h.record, fun d hd => h.started d (.tail _ hd)⟩

/-- What lands is as new as its request. -/
theorem finish [Exchange ε] {ticket : Nat} {started : Timestamp} {due : Int}
    {reply : Reply Json.Value}
    (h : NotBefore t w (.refresh (.fetching ticket started due reply) :: cs)) :
    NotBefore t (Refresh.finish w ticket started reply).1 cs := by
  have hs : t ≤ started := h.started _ (.head _) started rfl
  have hw := Refresh.watcher_finish w ticket started reply
  rw [Refresh.finish_fst, hw]
  split
  · refine ⟨h.time, ?_, fun r hr => ?_, h.tail.started⟩
    · rw [Watcher.asOf_land]; exact hs
    · rw [Watcher.buffer_land, RecordBuffer.latest?_push] at hr
      cases hr
      exact hs
  · exact h.tail.congr (Timestamp.le_refl _) rfl rfl

theorem callInvariant [Exchange ε] (t : Timestamp) :
    CallInvariant (NotBefore (ε := ε) t) where
  perm h hp := ⟨h.time, h.view, h.record, fun c hc => h.started c (hp.mem_iff.2 hc)⟩
  turn cs :=
    { join := fun h _ => h.cons (by simp [Call.started?])
      leave := fun h _ => h.tail
      draw := fun h => by
        refine NotBefore.cons ?_ (by simp [Call.started?])
        exact h.congr (Timestamp.le_refl _) rfl rfl
      ask := fun h _ => by
        refine NotBefore.cons ?_ ?_
        · exact h.tail.congr (Timestamp.le_refl _) rfl rfl
        · intro u hu
          cases hu
          exact h.time
      finish := fun h _ => finish h }
  lock h := by
    refine NotBefore.cons ?_ (by simp [Call.started?])
    exact h.congr (Timestamp.le_refl _) rfl rfl
  take h _ := by
    refine NotBefore.cons ?_ (by simp [Call.started?])
    exact h.tail.congr (Timestamp.le_refl _) rfl rfl
  drop {w _ c} h := by
    obtain ⟨lock, inFlight, hw⟩ := c.drop_eq w
    rw [hw]
    exact h.tail.congr (Timestamp.le_refl _) rfl rfl

/-- What is done beside the calls keeps the bound, but for a reset and an old record. -/
theorem other [Exchange ε] {s : Calls ε} (h : NotBefore t s.world s.live) {m : Calls.Move ε}
    (hm : m.isCall = false) (hk : m.KeepsStamp t) : NotBefore t (s.step m).world s.live := by
  have htime : s.world.time ≤ (s.step m).world.time := (s.later_other hm).time
  cases m with
  | enter | lock | resume | drop => cases hm
  | reset => exact hk.elim
  | elapse | signal | release | loops => exact h.congr htime rfl rfl
  | start =>
    obtain ⟨poller, started, loops, nextLoop, journal, hw⟩ := s.world.start_eq
    have hs : (s.step .start).world = _ := hw
    exact h.congr htime (by rw [hs]) (by rw [hs])
  | stop =>
    obtain ⟨poller, started, loops, journal, hw, -⟩ := s.world.stop_cases
    have hs : (s.step .stop).world = _ := hw
    exact h.congr htime (by rw [hs]) (by rw [hs])
  | business exchange events =>
    refine h.congr htime ?_ ?_ <;> simp [Calls.step, Calls.onWorld]
  | push payload at_ =>
    refine ⟨h.time, h.view, fun r hr => ?_, h.started⟩
    have hb : (s.step (.push payload at_)).world.watcher.buffer =
        s.world.watcher.buffer.push ⟨payload, at_⟩ := rfl
    rw [hb, RecordBuffer.latest?_push] at hr
    cases hr
    exact hk
  | renewView =>
    refine ⟨h.time, ?_, ?_, h.started⟩
    · show t ≤ s.world.watcher.renewView.view.asOf
      unfold Watcher.renewView
      split
      · next r hr => exact h.record r hr
      · exact h.view
    · show ∀ r, s.world.watcher.renewView.buffer.latest? = some r → t ≤ r.timestamp
      rw [Watcher.buffer_renewView]
      exact h.record

theorem run [Exchange ε] {s : Calls ε} (h : NotBefore t s.world s.live)
    {ms : List (Calls.Move ε)} (hk : ∀ m ∈ ms, m.KeepsStamp t) :
    NotBefore t (s.run ms).world (s.run ms).live :=
  (callInvariant t).run h fun _ hs m hm ho => hs.other ho (hk m hm)

end NotBefore

end Portfolio
