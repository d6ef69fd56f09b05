import Portfolio.Proofs.Tasks.Loops

/-! # Tasks on one watcher

`Tasks` holds the tasks that use one watcher, each at one action, beside the world with its poll
loops. A run is a list of moves in any order: a task begins an action, gets a turn or is dropped
while it waits; a poll loop gets a turn; time passes. `Tasks.exists_run` says that every run of
tasks is a run of calls. -/

namespace Portfolio

open Simulation

/-- The tasks that use one watcher, in the order in which they began; one that is over leaves its
place empty. -/
structure Tasks (ε : Type) where
  world : World ε
  slots : List (Option (Doing ε))

namespace Tasks

variable {ε : Type}

/-- One move of a run. -/
inductive Move (ε : Type) where
  /-- A task begins an action. -/
  | begin (a : Action ε)
  /-- The task in a place gets its turn. -/
  | resume (place : Nat)
  /-- The task in a place is dropped while it waits. -/
  | drop (place : Nat)
  /-- The poll loop of that number gets its turn. -/
  | loop (id : Nat)
  /-- The clock goes on by so many nanoseconds. -/
  | elapse (length : Nat)
  /-- Nobody holds the watcher any more. -/
  | release

/-- Nobody has done anything yet. -/
def new (now : Int) (exchange : ε) (watcher : Watcher) : Tasks ε :=
  ⟨.new now exchange watcher, []⟩

/-- The action of the task in a place, if it is not over. -/
def doing? (s : Tasks ε) (place : Nat) : Option (Doing ε) :=
  (s.slots[place]?).join

/-- The calls of all tasks and poll loops. -/
def calls (s : Tasks ε) : List Call :=
  s.slots.reduceOption.flatMap Doing.calls ++ s.world.loopCalls

variable [Exchange ε]

/-- One move. -/
def step (s : Tasks ε) : Move ε → Tasks ε
  | .begin a => ⟨(a.begin s.world).1, s.slots ++ [(a.begin s.world).2.left]⟩
  | .resume place =>
    match s.doing? place with
    | some d => ⟨(d.resume s.world).1, s.slots.set place (d.resume s.world).2.left⟩
    | none => s
  | .drop place =>
    match s.doing? place with
    | some d => ⟨d.drop s.world, s.slots.set place none⟩
    | none => s
  | .loop id =>
    match s.world.loops.find? (·.id == id) with
    | some l => { s with world := s.world.runLoop l }
    | none => s
  | .elapse length => { s with world := { s.world with now := s.world.now + length } }
  | .release => { s with world := { s.world with released := true } }

/-- Moves, one after the other. -/
def run (s : Tasks ε) (ms : List (Move ε)) : Tasks ε :=
  ms.foldl step s

end Tasks

section
variable {ε : Type} [Exchange ε]

omit [Exchange ε] in
theorem Progress.flatMap_left {σ α : Type} (f : σ → List Call) (p : Progress σ α) :
    p.left.toList.flatMap f = p.calls f := by
  cases p with
  | blocked s => simp [Progress.left, Progress.calls]
  | done | crashed => rfl

namespace Tasks

/-- What the task in a place does is done beside the calls of the others. -/
theorem leads_set {s : Tasks ε} (hn : s.world.LoopsNumbered) {place : Nat} {d : Doing ε}
    (hd : s.doing? place = some d) {w : World ε} {o : Option (Doing ε)}
    (h : Acts s.world d.calls w (o.toList.flatMap Doing.calls)) :
    Moves s.world s.calls w (Tasks.mk w (s.slots.set place o)).calls ∧ w.LoopsNumbered := by
  have hk := h.loopsKept
  obtain ⟨rest, hp, hset⟩ := exists_reduceOption_set hd
  refine ⟨?_, hk.numbered hn⟩
  refine ((h.right (rest.flatMap Doing.calls)).right s.world.loopCalls).moves.perm ?_ ?_
  · exact (hp.flatMap_right Doing.calls).symm.append_right _
  · have hs := (hset o).flatMap_right Doing.calls
    rw [List.flatMap_append] at hs
    simp only [calls, hk.calls]
    exact hs.symm.append_right _

/-- One move of the tasks is some moves of their calls. -/
theorem leads_step {s : Tasks ε} (hn : s.world.LoopsNumbered) (m : Move ε) :
    Moves s.world s.calls (s.step m).world (s.step m).calls ∧
      (s.step m).world.LoopsNumbered := by
  cases m with
  | begin a =>
    have h := a.leads_begin s.world
    have hk := h.loopsKept
    refine ⟨?_, hk.numbered hn⟩
    refine ((h.left (s.slots.reduceOption.flatMap Doing.calls)).right s.world.loopCalls).moves.perm
      (by rw [List.append_nil]; exact .rfl) ?_
    simp only [calls, step, List.reduceOption_append, List.reduceOption_singleton,
      List.flatMap_append, Progress.flatMap_left, hk.calls]
    exact .rfl
  | resume place =>
    simp only [step]
    split
    · next d hd =>
      refine leads_set hn hd ?_
      rw [Progress.flatMap_left]
      exact d.leads_resume s.world
    · exact ⟨.refl _ _, hn⟩
  | drop place =>
    simp only [step]
    split
    · next d hd => exact leads_set hn hd (d.leads_drop s.world)
    · exact ⟨.refl _ _, hn⟩
  | loop id =>
    simp only [step]
    split
    · next l hl =>
      obtain ⟨h, hn'⟩ := World.leads_runLoop hn (List.mem_of_find?_eq_some hl)
      exact ⟨h.left _, hn'⟩
    · exact ⟨.refl _ _, hn⟩
  | elapse length =>
    exact ⟨.onWorld (.elapse length) (fun w => { w with now := w.now + length }) (fun _ => rfl)
      trivial, hn.nodup, hn.lt_next⟩
  | release =>
    exact ⟨.onWorld .release (fun w => { w with released := true }) (fun _ => rfl) trivial,
      hn.nodup, hn.lt_next⟩

/-- A run of the tasks is a run of their calls. -/
theorem leads_run {s : Tasks ε} (hn : s.world.LoopsNumbered) (ms : List (Move ε)) :
    Moves s.world s.calls (s.run ms).world (s.run ms).calls := by
  induction ms generalizing s with
  | nil => exact .refl _ _
  | cons m ms ih =>
    obtain ⟨h, hn'⟩ := leads_step hn m
    exact h.trans (ih hn')

/-- Whatever the tasks do on a new watcher, their calls do it. -/
theorem exists_run (now : Int) (exchange : ε) (watcher : Watcher) (ms : List (Move ε)) :
    ∃ cs : List (Calls.Move ε),
      ((Calls.new now exchange watcher).run cs).world = ((new now exchange watcher).run ms).world ∧
      ((Calls.new now exchange watcher).run cs).live.Perm
        ((new now exchange watcher).run ms).calls := by
  have hn : (new now exchange watcher).world.LoopsNumbered :=
    ⟨List.nodup_nil, fun _ h => absurd h List.not_mem_nil⟩
  obtain ⟨cs, -, hw, hl⟩ :=
    (leads_run hn ms).exists_moves (Calls.new now exchange watcher) [] rfl .rfl
  rw [List.append_nil] at hl
  exact ⟨cs, hw, hl⟩

end Tasks

end

end Portfolio
