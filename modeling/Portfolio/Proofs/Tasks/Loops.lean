import Mathlib.Data.List.Nodup
import Portfolio.Proofs.Tasks.Actions

/-! # What tasks do to poll loops

A task can start new poll loops and tell old ones to stop (`World.LoopsKept`); the states of the
loops are changed by their own turns only. Loops have different numbers (`World.LoopsNumbered`), so
a turn changes one of them. -/

namespace Portfolio

/-- The calls of a poll loop. -/
def PollLoop.calls (l : PollLoop) : List Call :=
  l.state.calls

namespace World

variable {ε : Type} {w w' w'' : World ε}

/-- The calls of all poll loops. -/
def loopCalls (w : World ε) : List Call :=
  w.loops.flatMap PollLoop.calls

/-- The poll loops have different numbers, and the next one will have another. -/
structure LoopsNumbered (w : World ε) : Prop where
  nodup : (w.loops.map (·.id)).Nodup
  lt_next : ∀ l ∈ w.loops, l.id < w.nextLoop

/-- Of a loop and the others, only the one is set or removed. -/
theorem LoopsNumbered.exists_others (h : w.LoopsNumbered) {l : PollLoop} (hl : l ∈ w.loops) :
    ∃ others, w.loops.Perm (l :: others) ∧
      (∀ m : PollLoop, m.id = l.id → (w.setLoop m).loops.Perm (m :: others)) ∧
        (w.removeLoop l.id).loops.Perm others := by
  obtain ⟨before, after, he⟩ := List.append_of_mem hl
  have hp : w.loops.Perm (l :: (before ++ after)) := he ▸ List.perm_middle
  have hid : ∀ k ∈ before ++ after, k.id ≠ l.id := by
    have hn : (l.id :: (before ++ after).map (·.id)).Nodup := (hp.map _).nodup_iff.1 h.nodup
    intro k hk heq
    exact (List.nodup_cons.1 hn).1 (List.mem_map.2 ⟨k, hk, heq⟩)
  refine ⟨before ++ after, hp, fun m hm => ?_, ?_⟩
  · have hother : (before ++ after).map (fun k => if k.id = m.id then m else k) =
        before ++ after :=
      (List.map_congr_left fun k hk => if_neg (hm ▸ hid k hk)).trans (List.map_id' _)
    have hset := hp.map fun k => if k.id = m.id then m else k
    rwa [List.map_cons, if_pos hm.symm, hother] at hset
  · have hother : (before ++ after).filter (·.id != l.id) = before ++ after :=
      List.filter_eq_self.2 fun k hk => by simpa using hid k hk
    have hset := hp.filter (·.id != l.id)
    rwa [List.filter_cons_of_neg (by simp), hother] at hset

theorem LoopsNumbered.setLoop (h : w.LoopsNumbered) (l : PollLoop) :
    (w.setLoop l).LoopsNumbered := by
  have hid (m : PollLoop) : (if m.id = l.id then l else m).id = m.id := by
    split
    · next he => exact he.symm
    · rfl
  refine ⟨?_, fun m hm => ?_⟩
  · simp only [World.setLoop, List.map_map, Function.comp_def, hid]
    exact h.nodup
  · obtain ⟨k, hk, rfl⟩ := List.mem_map.1 hm
    rw [hid]
    exact h.lt_next k hk

theorem LoopsNumbered.removeLoop (h : w.LoopsNumbered) (id : Nat) :
    (w.removeLoop id).LoopsNumbered where
  nodup := h.nodup.sublist (List.filter_sublist.map _)
  lt_next l hl := h.lt_next l (List.mem_of_mem_filter hl)

/-- The old poll loops are still there in their states, and the new ones have no calls yet. -/
structure LoopsKept (w w' : World ε) : Prop where
  numbered : w.LoopsNumbered → w'.LoopsNumbered
  calls : w'.loopCalls = w.loopCalls
  mem : ∀ l ∈ w.loops, ∃ l' ∈ w'.loops, l'.id = l.id ∧ l'.state = l.state

namespace LoopsKept

theorem of_eq (hl : w'.loops = w.loops) (hn : w'.nextLoop = w.nextLoop) : LoopsKept w w' where
  numbered h := ⟨hl ▸ h.nodup, by rw [hl, hn]; exact h.lt_next⟩
  calls := by rw [loopCalls, hl, loopCalls]
  mem l hm := ⟨l, hl ▸ hm, rfl, rfl⟩

theorem trans (h : LoopsKept w w') (h' : LoopsKept w' w'') : LoopsKept w w'' where
  numbered := h'.numbered ∘ h.numbered
  calls := h'.calls.trans h.calls
  mem l hm := by
    obtain ⟨l', hm', hid', hs'⟩ := h.mem l hm
    obtain ⟨l'', hm'', hid'', hs''⟩ := h'.mem l' hm'
    exact ⟨l'', hm'', hid''.trans hid', hs''.trans hs'⟩

theorem spawn (w : World ε) : LoopsKept w w.spawn where
  numbered h := by
    refine ⟨?_, fun l hm => ?_⟩
    · simp only [World.spawn, List.map_append, List.map_cons, List.map_nil]
      refine List.nodup_append.2 ⟨h.nodup, by simp, ?_⟩
      intro a ha b hb
      obtain ⟨l, hl, rfl⟩ := List.mem_map.1 ha
      rw [List.mem_singleton.1 hb]
      exact Nat.ne_of_lt (h.lt_next l hl)
    · rcases List.mem_append.1 hm with hm | hm
      · exact Nat.lt_succ_of_lt (h.lt_next l hm)
      · rw [List.mem_singleton.1 hm]; exact Nat.lt_succ_self _
  calls := by simp [loopCalls, World.spawn, PollLoop.calls, PollState.calls]
  mem l hm := ⟨l, List.mem_append_left _ hm, rfl, rfl⟩

theorem start [Exchange ε] (w : World ε) : LoopsKept w w.start := by
  obtain h | ⟨-, ⟨journal, h⟩ | ⟨journal, h⟩⟩ := w.start_cases
  · rw [h]; exact .of_eq rfl rfl
  · rw [h]; exact .of_eq rfl rfl
  · rw [h]; exact (LoopsKept.of_eq rfl rfl).trans ((spawn _).trans (.of_eq rfl rfl))

/-- Loops that were told to stop are there until they get their turn. -/
theorem of_map_abort {id : Nat} (hl : w'.loops = w.loops.map (abort id))
    (hn : w'.nextLoop = w.nextLoop) : LoopsKept w w' := by
  have hid (l : PollLoop) : (abort id l).id = l.id := by unfold abort; split <;> rfl
  have hs (l : PollLoop) : (abort id l).state = l.state := by unfold abort; split <;> rfl
  have hids : w'.loops.map (·.id) = w.loops.map (·.id) := by
    rw [hl, List.map_map]; exact List.map_congr_left fun l _ => hid l
  refine ⟨fun h => ⟨hids ▸ h.nodup, fun l hm => ?_⟩, ?_, fun l hm => ?_⟩
  · rw [hl] at hm
    obtain ⟨m, hm', rfl⟩ := List.mem_map.1 hm
    rw [hid, hn]
    exact h.lt_next m hm'
  · rw [loopCalls, hl, List.flatMap_map]
    exact List.flatMap_congr fun l _ => by rw [PollLoop.calls, hs]; rfl
  · exact ⟨abort id l, hl ▸ List.mem_map_of_mem hm, hid l, hs l⟩

theorem stop (w : World ε) : LoopsKept w w.stop := by
  obtain ⟨poller, started, loops, journal, h, rfl | ⟨id, rfl⟩⟩ := w.stop_cases
  · rw [h]; exact .of_eq rfl rfl
  · rw [h]; exact .of_map_abort rfl rfl

end LoopsKept

end World

open World

section
variable {ε : Type} [Exchange ε]

/-- The acts of a call do not touch the loops. -/
theorem World.LoopsKept.callInvariant (w : World ε) :
    CallInvariant fun w' _ => LoopsKept w w' where
  perm h _ := h
  turn _ :=
    { join := fun h _ => h
      leave := fun h _ => h
      draw := fun h => h.trans (.of_eq rfl rfl)
      ask := fun h _ => h.trans (.of_eq rfl rfl)
      finish := fun h _ =>
        h.trans (.of_eq (by rw [Refresh.finish_fst]) (by rw [Refresh.finish_fst])) }
  lock h := h.trans (.of_eq rfl rfl)
  take h _ := h.trans (.of_eq rfl rfl)
  drop {w' _ c} h := by
    obtain ⟨lock, inFlight, hw⟩ := c.drop_eq w'
    rw [hw]
    exact h.trans (.of_eq rfl rfl)

theorem Calls.loopsKept_other (s : Calls ε) {m : Calls.Move ε} (h : m.isActing = true)
    (hm : m.isCall = false) : LoopsKept s.world (s.step m).world := by
  cases m with
  | enter | lock | resume | drop => cases hm
  | loops => cases h
  | start => exact .start s.world
  | stop => exact .stop s.world
  | business exchange events => exact .of_eq (loops_logAll ..) (nextLoop_logAll ..)
  | elapse | reset | renewView | signal | push | release => exact .of_eq rfl rfl

/-- What a task does keeps the loops. -/
theorem Leads.loopsKept {w w' : World ε} {cs cs' : List Call} (h : Acts w cs w' cs') :
    LoopsKept w w' := by
  obtain ⟨s, rfl, -, ms, hms, rfl, -⟩ := h.exists_run
  exact (LoopsKept.callInvariant s.world).run (.of_eq rfl rfl) fun s hs m hm ho =>
    hs.trans (s.loopsKept_other (hms m hm) ho)

/-! ## Turns of poll loops -/

omit [Exchange ε] in
/-- After the work of a loop it is set or removed, and the calls of the others are the rest. -/
theorem World.LoopsNumbered.exists_rest {w w' : World ε} (hn : w.LoopsNumbered) {l : PollLoop}
    (hl : l ∈ w.loops) (hk : LoopsKept w w') :
    ∃ rest, w.loopCalls.Perm (l.calls ++ rest) ∧
      (∀ m : PollLoop, m.id = l.id → (w'.setLoop m).loopCalls.Perm (m.calls ++ rest)) ∧
        (w'.removeLoop l.id).loopCalls.Perm rest := by
  obtain ⟨l', hl', hid, hs⟩ := hk.mem l hl
  obtain ⟨others, hp, hset, hremove⟩ := (hk.numbered hn).exists_others hl'
  have hc : l'.calls = l.calls := by rw [PollLoop.calls, hs]; rfl
  refine ⟨others.flatMap PollLoop.calls, ?_, fun m hm => ?_, ?_⟩
  · rw [← hk.calls, ← hc]
    exact hp.flatMap_right PollLoop.calls
  · exact (hset m (hm.trans hid.symm)).flatMap_right PollLoop.calls
  · rw [← hid]
    exact hremove.flatMap_right PollLoop.calls

theorem World.leads_runLoop {w : World ε} (hn : w.LoopsNumbered) {l : PollLoop}
    (hl : l ∈ w.loops) :
    Moves w w.loopCalls (w.runLoop l) (w.runLoop l).loopCalls ∧ (w.runLoop l).LoopsNumbered := by
  unfold World.runLoop
  split
  · have h := (l.state.leads_drop w).acts
    obtain ⟨rest, hp, -, hremove⟩ := hn.exists_rest hl h.loopsKept
    refine ⟨?_, (h.loopsKept.numbered hn).removeLoop l.id⟩
    exact ((h.right rest).moves.perm hp.symm hremove.symm).trans (.loops _ _ _)
  · have h := (l.state.leads_resume w).acts
    generalize l.state.resume w = r at h
    obtain ⟨w', p⟩ := r
    obtain ⟨rest, hp, hset, hremove⟩ := hn.exists_rest hl h.loopsKept
    have hn' := h.loopsKept.numbered hn
    cases p with
    | blocked state =>
      refine ⟨?_, hn'.setLoop _⟩
      exact ((h.right rest).moves.perm hp.symm (hset { l with state } rfl).symm).trans
        (.loops _ _ _)
    | done | crashed =>
      refine ⟨?_, hn'.removeLoop l.id⟩
      exact ((h.right rest).moves.perm hp.symm hremove.symm).trans (.loops _ _ _)

end

end Portfolio
