import Mathlib.Data.List.ReduceOption
import Mathlib.Data.List.Nodup
import Portfolio.Proofs.Calls.Basic

/-! # Mutual exclusion of calls

`Exclusive w cs`: the queue of the lock holds the tickets of the calls `cs`, each once, a call that
knows it has the lock is first in the queue, and the flag is up exactly while there is such a call.
Every act of a call keeps it (`Exclusive.callInvariant`), and so does every run of calls
(`Exclusive.run`). What it says of a state: one guard at most
(`Exclusive.countP_isGuard`), no ticket without a call, and a free lock when no call has a ticket
(`Exclusive.idle`). -/

namespace Portfolio

/-- The invariant of the fetch lock (module doc). -/
structure Exclusive (w : Watcher) (cs : List Call) : Prop where
  queue : w.lock.queue.Perm (cs.filterMap Call.ticket?)
  nodup : w.lock.queue.Nodup
  drawn : ∀ t ∈ w.lock.queue, t < w.lock.next
  turn : ∀ c ∈ cs, c.isGuard = true → ∃ t, c.ticket? = some t ∧ w.lock.queue.head? = some t
  flag : w.inFlight = cs.any Call.isGuard

namespace Exclusive

variable {w w' : Watcher} {c c' : Call} {cs cs' : List Call} {t : Nat}

/-! ## Changes of the watcher -/

theorem congr (h : Exclusive w cs) (hl : w'.lock = w.lock) (hf : w'.inFlight = w.inFlight) :
    Exclusive w' cs := by
  obtain ⟨hq, hn, hd, ht, hg⟩ := h
  exact ⟨by rwa [hl], by rwa [hl], by rwa [hl], by rwa [hl], by rwa [hf]⟩

theorem perm (h : Exclusive w cs) (hp : cs.Perm cs') : Exclusive w cs' := by
  obtain ⟨hq, hn, hd, ht, hg⟩ := h
  refine ⟨hq.trans (hp.filterMap _), hn, hd, fun c hc => ht c (hp.mem_iff.2 hc), ?_⟩
  rw [hg, hp.any_eq]

/-- A call without a ticket does not count. -/
theorem cons_iff (hc : c.ticket? = none) (hg : c.isGuard = false) :
    Exclusive w (c :: cs) ↔ Exclusive w cs := by
  have hany : (c :: cs).any Call.isGuard = cs.any Call.isGuard := by simp [hg]
  have hmap : (c :: cs).filterMap Call.ticket? = cs.filterMap Call.ticket? := by simp [hc]
  constructor
  · rintro ⟨hq, hn, hd, ht, hf⟩
    exact ⟨hmap ▸ hq, hn, hd, fun d hm => ht d (.tail _ hm), hf.trans hany⟩
  · rintro ⟨hq, hn, hd, ht, hf⟩
    refine ⟨hmap ▸ hq, hn, hd, fun d hm hdg => ?_, hf.trans hany.symm⟩
    rcases List.mem_cons.1 hm with rfl | hm
    · rw [hg] at hdg; cases hdg
    · exact ht d hm hdg

/-- A ticket is in the queue once, so what stands behind it in the calls has others. -/
theorem not_mem_tickets (h : Exclusive w (c :: cs)) (hc : c.ticket? = some t) :
    t ∉ cs.filterMap Call.ticket? := by
  have hn := h.queue.nodup_iff.1 h.nodup
  rw [List.filterMap_cons_some hc] at hn
  exact (List.nodup_cons.1 hn).1

theorem erase_perm (h : Exclusive w (c :: cs)) (hc : c.ticket? = some t) :
    (w.lock.queue.erase t).Perm (cs.filterMap Call.ticket?) := by
  have hq := h.queue
  rw [List.filterMap_cons_some hc] at hq
  simpa using hq.erase t

/-- A caller draws a ticket. -/
theorem draw (h : Exclusive w cs) (hl : w'.lock = w.lock.draw.1) (hf : w'.inFlight = w.inFlight)
    (hc : c.ticket? = some w.lock.next) (hg : c.isGuard = false) : Exclusive w' (c :: cs) := by
  have hnew : w.lock.next ∉ w.lock.queue := fun hm => Nat.lt_irrefl _ (h.drawn _ hm)
  refine ⟨?_, ?_, ?_, fun d hm hdg => ?_, ?_⟩
  · rw [hl, List.filterMap_cons_some hc]
    exact (List.perm_append_comm).trans (h.queue.cons _)
  · rw [hl]
    exact List.nodup_append.2 ⟨h.nodup, by simp, by
      intro a ha b hb hab
      rw [List.mem_singleton.1 hb] at hab
      exact hnew (hab ▸ ha)⟩
  · rw [hl]
    intro a ha
    rcases List.mem_append.1 ha with ha | ha
    · exact Nat.lt_succ_of_lt (h.drawn a ha)
    · rw [List.mem_singleton.1 ha]; exact Nat.lt_succ_self _
  · rcases List.mem_cons.1 hm with rfl | hm
    · rw [hg] at hdg; cases hdg
    · obtain ⟨a, ha, hh⟩ := h.turn d hm hdg
      exact ⟨a, ha, by rw [hl]; simp [FetchLock.draw, hh]⟩
  · rw [hf, h.flag]; simp [hg]

/-- The call whose turn it is takes the lock. -/
theorem enter (h : Exclusive w (c :: cs)) (hc : c.ticket? = some t) (ht : w.lock.isTurn t = true)
    (hc' : c'.ticket? = some t) (hg : c'.isGuard = true) : Exclusive w.enter (c' :: cs) := by
  have hh : w.lock.queue.head? = some t := by simpa [FetchLock.isTurn] using ht
  refine ⟨?_, h.nodup, h.drawn, fun d hm hdg => ?_, ?_⟩
  · have hq := h.queue
    rw [List.filterMap_cons_some hc] at hq
    rw [List.filterMap_cons_some hc']
    exact hq
  · rcases List.mem_cons.1 hm with rfl | hm
    · exact ⟨t, hc', hh⟩
    · exact h.turn d (.tail _ hm) hdg
  · simp [hg]

/-- Only the call that is first in the queue can have the lock. -/
theorem no_other_guard (h : Exclusive w (c :: cs)) (hc : c.ticket? = some t)
    (ht : w.lock.queue.head? = some t) : cs.any Call.isGuard = false := by
  rw [List.any_eq_false]
  intro d hm hdg
  obtain ⟨a, ha, hh⟩ := h.turn d (.tail _ hm) hdg
  rw [ht] at hh
  cases hh
  exact h.not_mem_tickets hc (List.mem_filterMap.2 ⟨d, hm, ha⟩)

/-- The call that has the lock gives it back. -/
theorem release (h : Exclusive w (c :: cs)) (hc : c.ticket? = some t) (hg : c.isGuard = true)
    (hl : w'.lock = w.lock.leave t) (hf : w'.inFlight = false) : Exclusive w' cs := by
  obtain ⟨a, ha, hh⟩ := h.turn c (.head _) hg
  obtain rfl : a = t := by simpa [hc] using ha.symm
  have hnone := h.no_other_guard hc hh
  refine ⟨?_, ?_, ?_, fun d hm hdg => ?_, hf.trans hnone.symm⟩
  · rw [hl]; exact h.erase_perm hc
  · rw [hl]; exact h.nodup.erase _
  · rw [hl]; exact fun b hb => h.drawn b (List.mem_of_mem_erase hb)
  · rw [List.any_eq_false] at hnone
    exact absurd hdg (hnone d hm)

/-- A call that waits for the lock goes away. -/
theorem leave (h : Exclusive w (c :: cs)) (hc : c.ticket? = some t) (hg : c.isGuard = false) :
    Exclusive (w.leaveQueue t) cs := by
  refine ⟨h.erase_perm hc, h.nodup.erase _, fun b hb => h.drawn b (List.mem_of_mem_erase hb),
    fun d hm hdg => ?_, ?_⟩
  · obtain ⟨a, ha, hh⟩ := h.turn d (.tail _ hm) hdg
    have hne : a ≠ t := fun he =>
      h.not_mem_tickets hc (List.mem_filterMap.2 ⟨d, hm, he ▸ ha⟩)
    obtain ⟨q, hq⟩ : ∃ q, w.lock.queue = a :: q := List.head?_eq_some_iff.1 hh
    refine ⟨a, ha, ?_⟩
    simp [FetchLock.leave, hq, hne]
  · simp [h.flag, hg]

/-! ## Turns -/

variable {ε : Type} [Exchange ε]

/-- The acts of a refresh beside other calls. -/
theorem turnInvariant (cs : List Call) :
    TurnInvariant fun (w : World ε) r =>
      Exclusive w.watcher ((r.map Call.refresh).toList ++ cs) where
  join h _ := (cons_iff rfl rfl).2 h
  leave h _ := (cons_iff rfl rfl).1 h
  draw h := h.draw rfl rfl rfl rfl
  ask h ht := h.enter rfl ht rfl rfl
  finish h _ := by
    rw [Refresh.watcher_finish]
    split
    · exact h.release rfl rfl (Watcher.lock_land ..) (Watcher.inFlight_land ..)
    · exact h.release rfl rfl rfl rfl

omit [Exchange ε] in
theorem drop {w : World ε} {c : Call} (h : Exclusive w.watcher (c :: cs)) :
    Exclusive (c.drop w).watcher cs := by
  cases c with
  | refresh r =>
    cases r with
    | joining seen deadline fallback => exact (cons_iff rfl rfl).1 h
    | queueing ticket fallback => exact h.leave rfl rfl
    | fetching ticket started due reply => exact h.release rfl rfl rfl rfl
  | locking ticket => exact h.leave rfl rfl
  | holding ticket => exact h.release rfl rfl rfl rfl

theorem callInvariant : CallInvariant fun (w : World ε) cs => Exclusive w.watcher cs where
  perm := perm
  turn := turnInvariant
  lock h := h.draw rfl rfl rfl rfl
  take h ht := h.enter rfl ht rfl rfl
  drop := drop

/-! ## Runs -/

/-- What is done beside the calls does not touch the lock. -/
theorem other {s : Calls ε} (h : Exclusive s.world.watcher s.live) {m : Calls.Move ε}
    (hm : m.isCall = false) : Exclusive (s.step m).world.watcher s.live := by
  cases m with
  | enter | lock | resume | drop => cases hm
  | start =>
    obtain ⟨poller, started, loops, nextLoop, journal, hw⟩ := s.world.start_eq
    have hs : (s.step .start).world.watcher = { s.world.watcher with poller, started } :=
      congrArg World.watcher hw
    exact h.congr (by rw [hs]) (by rw [hs])
  | stop =>
    obtain ⟨poller, started, loops, journal, hw, -⟩ := s.world.stop_cases
    have hs : (s.step .stop).world.watcher = { s.world.watcher with poller, started } :=
      congrArg World.watcher hw
    exact h.congr (by rw [hs]) (by rw [hs])
  | renewView => exact h.congr (Watcher.lock_renewView _) (Watcher.inFlight_renewView _)
  | business exchange events =>
    refine h.congr ?_ ?_ <;> simp [Calls.step, Calls.onWorld]
  | elapse | reset | signal | push | release | loops => exact h.congr rfl rfl

omit [Exchange ε] in
theorem new (now : Int) (exchange : ε) (strategy : Strategy) (pollInterval : Duration)
    (capacity : Nat) :
    let s := Calls.new now exchange (.new strategy pollInterval capacity)
    Exclusive s.world.watcher s.live :=
  ⟨.rfl, List.nodup_nil, fun _ h => absurd h List.not_mem_nil, fun _ h => absurd h List.not_mem_nil,
    rfl⟩

theorem run {s : Calls ε} (h : Exclusive s.world.watcher s.live) (ms : List (Calls.Move ε)) :
    Exclusive (s.run ms).world.watcher (s.run ms).live :=
  callInvariant.run h fun _ hs _ _ hm => hs.other hm

/-! ## What it says of a state -/

omit [Exchange ε] in
/-- There is one guard at most, since only one ticket is first. -/
theorem countP_isGuard (h : Exclusive w cs) : cs.countP Call.isGuard ≤ 1 := by
  rcases hany : cs.any Call.isGuard with _ | _
  · have hnone := List.any_eq_false.1 hany
    rw [List.countP_eq_zero.2 hnone]
    omega
  · obtain ⟨c, hc, hg⟩ := List.any_eq_true.1 hany
    obtain ⟨before, after, rfl⟩ := List.append_of_mem hc
    have hp : (before ++ c :: after).Perm (c :: (before ++ after)) := List.perm_middle
    obtain ⟨t, ht, hh⟩ := h.turn c hc hg
    have hrest := List.any_eq_false.1 ((h.perm hp).no_other_guard ht hh)
    rw [hp.countP_eq, List.countP_cons, List.countP_eq_zero.2 hrest]
    split <;> omega

omit [Exchange ε] in
/-- One balance request at most is outstanding. -/
theorem countP_isFetching (h : Exclusive w cs) : cs.countP Call.isFetching ≤ 1 :=
  Nat.le_trans (List.countP_mono_left fun _ _ => Call.isGuard_of_isFetching) h.countP_isGuard

omit [Exchange ε] in
/-- The lock belongs to nobody who is gone. -/
theorem exists_of_mem_queue (h : Exclusive w cs) (ht : t ∈ w.lock.queue) :
    ∃ c ∈ cs, c.ticket? = some t :=
  List.mem_filterMap.1 (h.queue.mem_iff.1 ht)

omit [Exchange ε] in
/-- When no call has a ticket the flag is down and the lock is free. -/
theorem idle (h : Exclusive w cs) (hn : ∀ c ∈ cs, c.ticket? = none) :
    w.inFlight = false ∧ w.lock.queue = [] := by
  refine ⟨?_, ?_⟩
  · rw [h.flag, List.any_eq_false]
    intro c hc hg
    obtain ⟨t, ht, -⟩ := h.turn c hc hg
    rw [hn c hc] at ht
    cases ht
  · refine List.eq_nil_iff_forall_not_mem.2 fun t ht => ?_
    obtain ⟨c, hc, hct⟩ := h.exists_of_mem_queue ht
    rw [hn c hc] at hct
    cases hct

end Exclusive

end Portfolio
