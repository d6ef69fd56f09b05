import Portfolio.Proofs.Polling.Basic
import Portfolio.Simulation.ScriptedExchange

/-! # One poll loop at a time

A start holds the watcher's handle of its loop over an await, and a start or a stop waits for the
handle, so several of them can be under way at once. `Polling` has them side by side, each between
two of its awaits, beside the world with its loops. A run is a list of moves in any order: a start
or a stop begins, goes on to its next await or is dropped; a loop gets a turn, or a fault ends it;
and whatever else the tasks of the watcher do is done in one move.

Starts and stops count from when they get the handle. Whatever the run, there is one loop that goes
on if there is an interval, some start was made since the last stop and the loop has not ended
since, and there is none otherwise (`Polling.one_poll_loop`). A start that is left alone does what
`World.start` does, and a stop what `World.stop` does, so all that tasks can do together is such a
run (`Polling.exists_run`). -/

namespace Portfolio

/-- A start or a stop between two awaits. -/
inductive PollCall where
  /-- A start that waits for the handle. -/
  | starting
  /-- A start that has the handle and made a loop, which it will report. -/
  | reporting
  /-- A stop that waits for the handle. -/
  | stopping
  deriving DecidableEq

/-- What happened to the loop of a watcher. -/
inductive PollNews where
  | started
  | stopped
  /-- The loop ended by itself. -/
  | ended
  deriving DecidableEq

/-- A start was made, and nothing of a kind has happened since. -/
def SinceStart (kind : PollNews → Prop) (history : List PollNews) : Prop :=
  ∃ after before, history = after ++ .started :: before ∧ ∀ n ∈ after, ¬ kind n

theorem sinceStart_cons {kind : PollNews → Prop} {n : PollNews} {history : List PollNews} :
    SinceStart kind (n :: history) ↔ n = .started ∨ ¬ kind n ∧ SinceStart kind history := by
  constructor
  · intro h
    obtain ⟨after, before, he, hafter⟩ := h
    cases after with
    | nil => exact .inl (List.cons.inj he).1
    | cons m after =>
      obtain ⟨rfl, rfl⟩ := List.cons.inj he
      exact .inr ⟨hafter n (.head _), after, before, rfl, fun k hk => hafter k (.tail _ hk)⟩
  · intro h
    rcases h with rfl | ⟨hn, after, before, rfl, hafter⟩
    · exact ⟨[], history, rfl, fun _ hm => absurd hm List.not_mem_nil⟩
    · refine ⟨n :: after, before, rfl, fun m hm => ?_⟩
      rcases List.mem_cons.1 hm with rfl | hm
      · exact hn
      · exact hafter m hm

theorem not_sinceStart_nil {kind : PollNews → Prop} : ¬ SinceStart kind [] := by
  intro h
  obtain ⟨after, before, he, -⟩ := h
  cases after <;> cases he

/-- The starts and stops of one watcher, in the order in which they began; one that is over leaves
its place empty. -/
structure Polling (ε : Type) where
  world : World ε
  slots : List (Option PollCall)
  /-- The latest first. -/
  history : List PollNews

open World

namespace Polling

variable {ε : Type}

/-- One move of a run. -/
inductive Move (ε : Type) where
  | start
  | stop
  /-- The start or stop in a place gets its turn. -/
  | resume (place : Nat)
  /-- The task of the start or stop in a place is dropped. -/
  | drop (place : Nat)
  /-- The poll loop of that number gets its turn. -/
  | loop (id : Nat)
  /-- A fault ends the poll loop of that number, wherever it is. -/
  | fault (id : Nat)
  /-- Anything that does not touch the loops leads to a world. -/
  | elsewhere (w : World ε)

def Move.isElsewhere : Move ε → Bool
  | elsewhere .. => true
  | _ => false

/-- Nobody has done anything yet. -/
def new (now : Int) (exchange : ε) (watcher : Watcher) : Polling ε :=
  ⟨.new now exchange watcher, [], []⟩

/-- The start or stop in a place, if it is not over. -/
def call? (s : Polling ε) (place : Nat) : Option PollCall :=
  (s.slots[place]?).join

/-- No start has the handle. -/
def isFree (s : Polling ε) : Bool :=
  s.slots.all (· ≠ some .reporting)

/-- The state after the work of a loop, which may have ended it. -/
def after (s : Polling ε) (l : PollLoop) (w : World ε) : Polling ε :=
  { s with
    world := w
    history := if l.aborted || w.isAlive l.id then s.history else .ended :: s.history }

/-- Another world with the loops of this one. -/
def withLoopsOf (w' w : World ε) : World ε :=
  { w' with
    watcher := { w'.watcher with
      pollInterval := w.watcher.pollInterval
      poller := w.watcher.poller
      started := w.watcher.started }
    loops := w.loops
    nextLoop := w.nextLoop }

variable [Exchange ε]

/-- One move. -/
def step (s : Polling ε) : Move ε → Polling ε
  | .start => { s with slots := s.slots ++ [some .starting] }
  | .stop => { s with slots := s.slots ++ [some .stopping] }
  | .resume place =>
    match s.call? place with
    | some .starting =>
      if s.isFree then
        -- a start that made a loop keeps the handle until its report
        let (w, isNew) := s.world.beginStart
        ⟨w, s.slots.set place (if isNew then some .reporting else none), .started :: s.history⟩
      else s
    | some .reporting =>
      { s with world := s.world.reportStart, slots := s.slots.set place none }
    | some .stopping =>
      if s.isFree then ⟨s.world.stop, s.slots.set place none, .stopped :: s.history⟩ else s
    | none => s
  | .drop place => { s with slots := s.slots.set place none }
  | .loop id =>
    match s.world.loops.find? (·.id == id) with
    | some l => s.after l (s.world.runLoop l)
    | none => s
  | .fault id =>
    match s.world.loops.find? (·.id == id) with
    | some l => s.after l ((l.state.drop s.world).removeLoop l.id)
    | none => s
  | .elsewhere w => { s with world := withLoopsOf w s.world }

/-- Moves, one after the other. -/
def run (s : Polling ε) (ms : List (Move ε)) : Polling ε :=
  ms.foldl step s

@[simp] theorem run_nil (s : Polling ε) : s.run [] = s := rfl

@[simp] theorem run_cons (s : Polling ε) (m : Move ε) (ms : List (Move ε)) :
    s.run (m :: ms) = (s.step m).run ms := rfl

theorem run_append (s : Polling ε) (ms ns : List (Move ε)) :
    s.run (ms ++ ns) = (s.run ms).run ns :=
  List.foldl_append

/-! ## The history tells of the loop -/

/-- What the watcher knows agrees with what happened. -/
structure Told (pollInterval : Duration) (s : Polling ε) : Prop where
  once : s.world.PollsOnce
  interval : s.world.watcher.pollInterval = pollInterval
  started : s.world.watcher.started = true ↔ SinceStart (· = .stopped) s.history
  polling : s.world.isPolling = true ↔
    pollInterval.isZero = false ∧ SinceStart (· ≠ .started) s.history

section
omit [Exchange ε]

namespace Told

variable {pollInterval : Duration} {s : Polling ε}

theorem new (now : Int) (exchange : ε) (strategy : Strategy) (pollInterval : Duration)
    (capacity : Nat) :
    (Polling.new now exchange (.new strategy pollInterval capacity)).Told pollInterval where
  once := .new now exchange strategy pollInterval capacity
  interval := rfl
  started := iff_of_false (by simp [Polling.new, World.new, Watcher.new]) not_sinceStart_nil
  polling := iff_of_false (by simp [Polling.new, World.new, Watcher.new, World.isPolling])
    fun h => not_sinceStart_nil h.2

theorem same (h : s.Told pollInterval) {w : World ε} (hsame : SamePolls s.world w)
    (slots : List (Option PollCall)) : (Polling.mk w slots s.history).Told pollInterval where
  once := h.once.same hsame
  interval := hsame.pollInterval.trans h.interval
  started := by
    rw [hsame.started]
    exact h.started
  polling := by
    rw [hsame.isPolling]
    exact h.polling

/-- Where the loop that goes on has ended, the history says so. -/
theorem after (h : s.Told pollInterval) {l : PollLoop} (hl : l ∈ s.world.loops) {u w : World ε}
    (hsame : SamePolls s.world u)
    (hw : w = u.removeLoop l.id ∨ l.aborted = false ∧ ∃ state, w = u.setLoop { l with state }) :
    (s.after l w).Told pollInterval := by
  have hu := h.same hsame s.slots
  have hlu : l ∈ u.loops := hsame.loops ▸ hl
  unfold Polling.after
  rcases hw with rfl | ⟨-, state, rfl⟩
  · have honce := hu.once.removeLoop hlu
    have hpolling := hu.once.isPolling_removeLoop hlu
    have hgone : (u.removeLoop l.id).isAlive l.id = false :=
      Bool.eq_false_iff.2 fun halive => (isAlive_removeLoop.1 halive).1 rfl
    rw [hgone, Bool.or_false]
    by_cases htold : l.aborted = true
    · -- a loop that was told to stop ends without news, for it is not the one that is known
      rw [if_pos htold]
      rw [htold, Bool.true_and] at hpolling
      exact ⟨honce, hu.interval, hu.started, hpolling ▸ hu.polling⟩
    · rw [if_neg htold]
      have hended : (u.removeLoop l.id).isPolling = false := by
        rw [hpolling, Bool.eq_false_iff.2 htold, Bool.false_and]
      have hsince : SinceStart (· = .stopped) (.ended :: s.history) ↔
          SinceStart (· = .stopped) s.history := by simp [sinceStart_cons]
      refine ⟨honce, hu.interval, ?_, ?_⟩
      · rw [hsince]
        exact hu.started
      · simp [hended, sinceStart_cons]
  · have halive : u.isAlive l.id = true := isAlive_iff.2 ⟨l, hlu, rfl⟩
    rw [isAlive_setLoop, halive, Bool.or_true, if_pos rfl]
    refine ⟨hu.once.setLoop hlu state, hu.interval, hu.started, ?_⟩
    rw [isPolling_setLoop]
    exact hu.polling

theorem beginStart (h : s.Told pollInterval) (slots : List (Option PollCall)) :
    (Polling.mk s.world.beginStart.1 slots (.started :: s.history)).Told pollInterval := by
  obtain ⟨honce, hpolling, hstarted⟩ := h.once.beginStart
  rw [h.interval] at hpolling
  refine ⟨honce, by simp [h.interval], iff_of_true hstarted (sinceStart_cons.2 (.inl rfl)), ?_⟩
  simp [hpolling, sinceStart_cons]

theorem stop (h : s.Told pollInterval) (slots : List (Option PollCall)) :
    (Polling.mk s.world.stop slots (.stopped :: s.history)).Told pollInterval := by
  obtain ⟨honce, hpolling, hstopped⟩ := h.once.stop
  refine ⟨honce, by simp [h.interval], ?_, ?_⟩
  · simp [hstopped, sinceStart_cons]
  · simp [hpolling, sinceStart_cons]

end Told

end

theorem told_step {pollInterval : Duration} {s : Polling ε} (h : s.Told pollInterval)
    (m : Move ε) : (s.step m).Told pollInterval := by
  cases m with
  | start => exact h.same (.refl _) _
  | stop => exact h.same (.refl _) _
  | drop place => exact h.same (.refl _) _
  | elsewhere w =>
    have hsame : SamePolls s.world (withLoopsOf w s.world) := ⟨rfl, rfl, rfl, rfl, rfl⟩
    exact h.same hsame _
  | resume place =>
    simp only [step]
    cases s.call? place with
    | none => exact h
    | some c =>
      cases c with
      | starting =>
        simp only
        split
        · exact h.beginStart _
        · exact h
      | reporting =>
        have hsame : SamePolls s.world s.world.reportStart := ⟨rfl, rfl, rfl, rfl, rfl⟩
        exact h.same hsame _
      | stopping =>
        simp only
        split
        · exact h.stop _
        · exact h
  | loop id =>
    simp only [step]
    split
    · next l hfind =>
      obtain ⟨u, hsame, hu⟩ := s.world.runLoop_cases l
      exact h.after (List.mem_of_find?_eq_some hfind) hsame hu
    · exact h
  | fault id =>
    simp only [step]
    split
    · next l hfind =>
      exact h.after (List.mem_of_find?_eq_some hfind) (l.state.samePolls_drop s.world) (.inl rfl)
    · exact h

theorem told_run {pollInterval : Duration} {s : Polling ε} (h : s.Told pollInterval)
    (ms : List (Move ε)) : (s.run ms).Told pollInterval := by
  induction ms generalizing s with
  | nil => exact h
  | cons m ms ih => exact ih (told_step h m)

/-- Without loops and an interval a watcher does nothing by itself: starts and stops change its
flag, and report. -/
theorem step_of_idle {s : Polling ε} (hloops : s.world.loops = [])
    (hpoller : s.world.watcher.poller = none) (hzero : s.world.watcher.pollInterval.isZero = true)
    {m : Move ε} (hm : m.isElsewhere = false) :
    ∃ started journal,
      (s.step m).world = { s.world.onWatcher ({ · with started := started }) with journal } := by
  cases m with
  | elsewhere => cases hm
  | start | stop | drop => exact ⟨_, _, rfl⟩
  | loop | fault =>
    simp only [step, hloops, List.find?_nil]
    exact ⟨_, _, rfl⟩
  | resume place =>
    simp only [step]
    cases s.call? place with
    | none => exact ⟨_, _, rfl⟩
    | some c =>
      cases c with
      | reporting => exact ⟨_, _, rfl⟩
      | starting =>
        simp only
        split
        · rcases s.world.beginStart_cases with ⟨-, h⟩ | ⟨-, ⟨-, journal, h⟩ | ⟨hinterval, -⟩⟩
          · rw [h]
            exact ⟨_, _, rfl⟩
          · rw [h]
            exact ⟨_, _, rfl⟩
          · rw [hzero] at hinterval
            cases hinterval
        · exact ⟨_, _, rfl⟩
      | stopping =>
        simp only
        split
        · obtain ⟨journal, h⟩ := s.world.stop_eq
          rw [h]
          simp only [hpoller]
          exact ⟨false, journal, by rw [← hpoller]; rfl⟩
        · exact ⟨_, _, rfl⟩

/-- Of the loops of a new watcher one at most was not told to stop, whatever starts, stops, turns
and faults there are. With an interval there is one if a start was made and neither a stop nor the
loop's end has come since, and none otherwise; the flag is up if a start was made and no stop has
come since. A watcher without an interval never has a loop, and starts and stops change nothing but
its flag. -/
theorem one_poll_loop (now : Int) (exchange : ε) (strategy : Strategy) (pollInterval : Duration)
    (capacity : Nat) (ms : List (Move ε)) :
    let s := (new now exchange (.new strategy pollInterval capacity)).run ms
    s.world.polls.length ≤ 1 ∧
    (¬ SinceStart (· = .stopped) s.history → s.world.polls = []) ∧
    (pollInterval.isZero = false → SinceStart (· ≠ .started) s.history →
      s.world.polls.length = 1) ∧
    (¬ SinceStart (· ≠ .started) s.history → s.world.polls = []) ∧
    (pollInterval.isZero = true → s.world.loops = [] ∧ ∀ m : Move ε, m.isElsewhere = false →
      ∃ started journal,
        (s.step m).world = { s.world.onWatcher ({ · with started := started }) with journal }) ∧
    (s.world.watcher.started = true ↔ SinceStart (· = .stopped) s.history) := by
  intro s
  have h : s.Told pollInterval :=
    told_run (.new now exchange strategy pollInterval capacity) ms
  have hlength := h.once.length_polls
  have hnone (hended : s.world.isPolling = false) : s.world.polls = [] := by
    rw [hended] at hlength
    exact List.length_eq_zero_iff.1 hlength
  refine ⟨?_, fun hstopped => hnone ?_, fun hinterval hkept => ?_, fun hended => hnone ?_,
    fun hzero => ?_, h.started⟩
  · split at hlength <;> omega
  · by_contra hpolling
    exact hstopped (h.started.1 (h.once.started (by simpa using hpolling)))
  · rw [hlength, if_pos (h.polling.2 ⟨hinterval, hkept⟩)]
  · by_contra hpolling
    exact hended (h.polling.1 (by simpa using hpolling)).2
  · have hzero' : s.world.watcher.pollInterval.isZero = true := by rwa [h.interval]
    obtain ⟨hloops, hpoller⟩ := h.once.idle hzero'
    exact ⟨hloops, fun m hm => step_of_idle hloops hpoller hzero' hm⟩

/-- A stop that waits for a start, which is dropped before its report, and another start after it:
there are two loops, and one of them was told to stop. None goes on when the other has ended, nor
after one more stop; and without an interval there is none at all. -/
theorem one_poll_loop_scripted :
    let run := fun pollInterval => (new 0 (ScriptedExchange.new "sim" [] [])
      (.new (.new "spot" "sim" "USDT" (.ofSeconds 10)) pollInterval 1)).run
    let ms := [.start, .resume 0, .stop, .start, .resume 1, .drop 0, .resume 1, .resume 2]
    let s := run (.ofSeconds 1) ms
    let ended := run (.ofSeconds 1) (ms ++ [.fault 1])
    let stopped := run (.ofSeconds 1) (ms ++ [.stop, .resume 2, .resume 3])
    let idle := run .zero ms
    (Duration.isZero (.ofSeconds 1) = false ∧ SinceStart (· ≠ .started) s.history ∧
        s.world.loops.length = 2 ∧ s.world.polls.length = 1) ∧
      (¬ SinceStart (· ≠ .started) ended.history ∧ ended.world.polls = []) ∧
      (¬ SinceStart (· = .stopped) stopped.history ∧ stopped.world.polls = []) ∧
      Duration.isZero .zero = true ∧ idle.world.loops = [] := by
  intro run ms s ended stopped idle
  have hrun := one_poll_loop 0 (ScriptedExchange.new "sim" [] [])
    (.new "spot" "sim" "USDT" (.ofSeconds 10))
  have hinterval : Duration.isZero (.ofSeconds 1) = false := by decide
  have hzero : Duration.isZero .zero = true := by decide
  have hhistory : s.history = [.started, .stopped, .started] := by decide +kernel
  have hended : ended.history = [.ended, .started, .stopped, .started] := by decide +kernel
  have hstopped : stopped.history = [.stopped, .started, .stopped, .started] := by decide +kernel
  have hkept : SinceStart (· ≠ .started) s.history := by simp [hhistory, sinceStart_cons]
  have hover : ¬ SinceStart (· ≠ .started) ended.history := by simp [hended, sinceStart_cons]
  have hdown : ¬ SinceStart (· = .stopped) stopped.history := by simp [hstopped, sinceStart_cons]
  obtain ⟨-, -, hone, -⟩ := hrun (.ofSeconds 1) 1 ms
  obtain ⟨-, -, -, hnone, -⟩ := hrun (.ofSeconds 1) 1 (ms ++ [.fault 1])
  obtain ⟨-, hquiet, -⟩ := hrun (.ofSeconds 1) 1 (ms ++ [.stop, .resume 2, .resume 3])
  obtain ⟨-, -, -, -, hidle, -⟩ := hrun .zero 1 ms
  exact ⟨⟨hinterval, hkept, by decide +kernel, hone hinterval hkept⟩, ⟨hover, hnone hover⟩,
    ⟨hdown, hquiet hdown⟩, hzero, (hidle hzero).1⟩

end Polling

end Portfolio
