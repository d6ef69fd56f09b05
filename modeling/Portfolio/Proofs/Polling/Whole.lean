import Portfolio.Proofs.Polling.Invariant
import Portfolio.Proofs.Polling.Single

/-! # Starts and stops that run through

A start or a stop that is left alone goes through all its moves, and does what the watcher's own
`World.start` and `World.stop` do (`Polls.start`, `Polls.stop`). So whatever tasks do together on a
watcher is a run of starts, stops and turns of loops (`Polling.exists_run`), and what holds of every
such run holds of the tasks (`Tasks.pollsOnce_run`). -/

namespace Portfolio

open World

variable {ε : Type} [Exchange ε]

/-- No start and no stop is under way. -/
def Polling.IsQuiet (s : Polling ε) : Prop :=
  ∀ c ∈ s.slots, c = none

/-- Starts and stops that run through, turns of loops and other moves lead from one world to
another. -/
structure Polls (w w' : World ε) : Prop where
  exists_moves : ∀ s : Polling ε, s.world = w → s.IsQuiet →
    ∃ ms, (s.run ms).world = w' ∧ (s.run ms).IsQuiet

namespace Polling

variable {s : Polling ε}

omit [Exchange ε] in
theorem isQuiet_append (h : s.IsQuiet) (w : World ε) (history : List PollNews) :
    (Polling.mk w (s.slots ++ [none]) history).IsQuiet := by
  intro c hc
  rcases List.mem_append.1 hc with hc | hc
  · exact h c hc
  · exact List.mem_singleton.1 hc

omit [Exchange ε] in
theorem isFree_append (h : s.IsQuiet) {c : PollCall} (hc : c ≠ .reporting) :
    { s with slots := s.slots ++ [some c] }.isFree = true := by
  simp only [isFree, List.all_append, Bool.and_eq_true, List.all_eq_true]
  refine ⟨fun d hd => ?_, fun d hd => ?_⟩
  · rw [h d hd]
    rfl
  · rw [List.mem_singleton.1 hd]
    simpa using hc

/-- A turn of the call in the last place. -/
theorem step_resume_last (w : World ε) (slots : List (Option PollCall)) (c : Option PollCall)
    (history : List PollNews) :
    (Polling.mk w (slots ++ [c]) history).step (.resume slots.length) =
      match c with
      | some .starting =>
        if (Polling.mk w (slots ++ [c]) history).isFree then
          ⟨w.beginStart.1, slots ++ [if w.beginStart.2 then some .reporting else none],
            .started :: history⟩
        else ⟨w, slots ++ [c], history⟩
      | some .reporting => ⟨w.reportStart, slots ++ [none], history⟩
      | some .stopping =>
        if (Polling.mk w (slots ++ [c]) history).isFree then
          ⟨w.stop, slots ++ [none], .stopped :: history⟩
        else ⟨w, slots ++ [c], history⟩
      | none => ⟨w, slots ++ [c], history⟩ := by
  have hcall : (Polling.mk w (slots ++ [c]) history).call? slots.length = c := by simp [call?]
  cases c with
  | none => simp [step, hcall]
  | some c => cases c <;> simp [step, hcall]

end Polling

namespace Polls

variable {w w' w'' : World ε}

theorem refl (w : World ε) : Polls w w :=
  ⟨fun _ hw hq => ⟨[], hw, hq⟩⟩

theorem trans (h : Polls w w') (h' : Polls w' w'') : Polls w w'' := by
  refine ⟨fun s hw hq => ?_⟩
  obtain ⟨ms, hw, hq⟩ := h.exists_moves s hw hq
  obtain ⟨ns, hw, hq⟩ := h'.exists_moves _ hw hq
  exact ⟨ms ++ ns, by rwa [Polling.run_append], by rwa [Polling.run_append]⟩

theorem of_same (h : SamePolls w w') : Polls w w' := by
  refine ⟨fun _ hw hq => ⟨[.elsewhere w'], ?_, hq⟩⟩
  simp only [Polling.run_cons, Polling.run_nil, Polling.step, Polling.withLoopsOf, hw]
  rw [← h.poller, ← h.started, ← h.pollInterval, ← h.loops, ← h.nextLoop]

theorem start (w : World ε) : Polls w w.start := by
  refine ⟨fun s hw hq => ⟨[.start, .resume s.slots.length, .resume s.slots.length], ?_⟩⟩
  subst hw
  have hstart : s.step .start = ⟨s.world, s.slots ++ [some .starting], s.history⟩ := rfl
  have hfree : (Polling.mk s.world (s.slots ++ [some .starting]) s.history).isFree = true :=
    Polling.isFree_append hq (by decide)
  rw [Polling.run_cons, Polling.run_cons, Polling.run_cons, Polling.run_nil, hstart,
    Polling.step_resume_last, start_eq_reportStart]
  simp only [hfree, if_true]
  rw [Polling.step_resume_last]
  cases s.world.beginStart.2 with
  | true => exact ⟨rfl, Polling.isQuiet_append hq _ _⟩
  | false => exact ⟨rfl, Polling.isQuiet_append hq _ _⟩

theorem stop (w : World ε) : Polls w w.stop := by
  refine ⟨fun s hw hq => ⟨[.stop, .resume s.slots.length], ?_⟩⟩
  subst hw
  have hstop : s.step .stop = ⟨s.world, s.slots ++ [some .stopping], s.history⟩ := rfl
  have hfree : (Polling.mk s.world (s.slots ++ [some .stopping]) s.history).isFree = true :=
    Polling.isFree_append hq (by decide)
  rw [Polling.run_cons, Polling.run_cons, Polling.run_nil, hstop, Polling.step_resume_last]
  simp only [hfree, if_true]
  exact ⟨trivial, Polling.isQuiet_append hq _ _⟩

theorem runLoop {l : PollLoop} {id : Nat} (h : w.loops.find? (·.id == id) = some l) :
    Polls w (w.runLoop l) := by
  refine ⟨fun s hw hq => ⟨[.loop id], ?_⟩⟩
  subst hw
  simp only [Polling.run_cons, Polling.run_nil, Polling.step, h]
  exact ⟨rfl, hq⟩

theorem invariant (w : World ε) : PollInvariant (Polls w) where
  same h hsame _ := h.trans (.of_same hsame)
  start h := h.trans (.start _)
  stop h := h.trans (.stop _)
  turn h hfind := h.trans (.runLoop hfind)

end Polls

/-- Whatever tasks do on a new watcher, some starts, stops and turns of loops do it. -/
theorem Polling.exists_run (now : Int) (exchange : ε) (watcher : Watcher)
    (ms : List (Tasks.Move ε)) :
    ∃ ps : List (Polling.Move ε), ((Polling.new now exchange watcher).run ps).world =
      ((Tasks.new now exchange watcher).run ms).world := by
  have hpolls : Polls (Tasks.new now exchange watcher).world
      ((Tasks.new now exchange watcher).run ms).world := (Polls.invariant _).run (.refl _) ms
  obtain ⟨ps, hps, -⟩ := hpolls.exists_moves (Polling.new now exchange watcher) rfl fun _ h =>
    absurd h List.not_mem_nil
  exact ⟨ps, hps⟩

theorem Tasks.pollsOnce_run (now : Int) (exchange : ε) (strategy : Strategy)
    (pollInterval : Duration) (capacity : Nat) (ms : List (Tasks.Move ε)) :
    ((Tasks.new now exchange (.new strategy pollInterval capacity)).run ms).world.PollsOnce := by
  obtain ⟨ps, hps⟩ := Polling.exists_run now exchange (.new strategy pollInterval capacity) ms
  rw [← hps]
  exact (Polling.told_run (.new now exchange strategy pollInterval capacity) ps).once

end Portfolio
