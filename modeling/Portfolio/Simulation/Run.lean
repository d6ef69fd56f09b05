import Portfolio.Simulation.Action

/-! # Runs of several tasks

A task is a script of actions or a poll loop. One runs at a time, until it waits; the tasks that can
go on do so in the order in which they became ready. The clock stands while any can, and then jumps
to the next time at which one can. After an action of a script all other tasks go on as far as they
can before the world is recorded and the next action begins. -/

namespace Portfolio.Simulation

/-- An action's result, and the world after all tasks went on as far as they could. -/
structure Entry (ε : Type) where
  result : Result ε
  world : World ε

inductive ScriptState (ε : Type) where
  /-- Begins at a time. -/
  | waiting (at_ : Int)
  | doing (d : Doing ε)
  /-- Has a result, and waits for the other tasks. -/
  | settling (r : Result ε)
  | ended

/-- A script: what is left to do, and the record of what was done, the latest first. -/
structure Script (ε : Type) where
  actions : List (Action ε)
  state : ScriptState ε
  entries : List (Entry ε)

/-- The tasks that take turns: the scripts by their places, the poll loops by number. -/
inductive Turn where
  | script (place : Nat)
  | loop (id : Nat)
  deriving DecidableEq

end Portfolio.Simulation

namespace Portfolio

open Simulation

structure Simulation (ε : Type) where
  world : World ε
  scripts : List (Script ε)
  /-- The times at which tasks go on at the latest, in the order in which they were set. -/
  timers : List (Turn × Int)
  /-- The tasks that can go on, in the order of their turns. -/
  ready : List Turn
  /-- The scripts that have a result, in the order in which they got it. -/
  settling : List Nat

namespace Simulation

variable {ε : Type}

namespace Script

def isReady (w : World ε) (t : Script ε) : Bool :=
  match t.state with
  | .waiting at_ => at_ ≤ w.now
  | .doing d => d.isReady w
  | .settling _ | .ended => false

def dues (t : Script ε) : List Int :=
  match t.state with
  | .waiting at_ => [at_]
  | .doing d => d.dues
  | .settling _ | .ended => []

def hasEnded (t : Script ε) : Bool :=
  match t.state with
  | .ended => true
  | _ => false

end Script

/-- The tasks, the scripts first. -/
def turns (s : Simulation ε) : List Turn :=
  (List.range s.scripts.length).map Turn.script ++ s.world.loops.map (Turn.loop ·.id)

def canRun (s : Simulation ε) : Turn → Bool
  | .script place => (s.scripts[place]?).any (·.isReady s.world)
  | .loop id => (s.world.loops.find? (·.id == id)).any (·.isReady s.world)

def dues (s : Simulation ε) : Turn → List Int
  | .script place => ((s.scripts[place]?).map Script.dues).getD []
  | .loop id => ((s.world.loops.find? (·.id == id)).map PollLoop.dues).getD []

/-- Sets the timers of a task after its turn: those that it still has keep their places. -/
def setTimers (s : Simulation ε) (t : Turn) : Simulation ε :=
  let dues := s.dues t
  let kept := s.timers.filter fun e => e.1 ≠ t ∨ e.2 ∈ dues
  let new := dues.filter fun d => (t, d) ∉ kept
  { s with timers := kept ++ new.map (t, ·) }

/-- A simulation of scripts that begin at their times. -/
def new (world : World ε) (scripts : List (Int × List (Action ε))) : Simulation ε :=
  let s : Simulation ε := ⟨world, scripts.map fun t => ⟨t.2, .waiting t.1, []⟩, [], [], []⟩
  s.turns.foldl setTimers s

/-- Tasks that can go on get a turn after those that have one already: first who waits without a
timer, which is for the lock, then the others in the order in which they began to wait. -/
def wake (s : Simulation ε) : Simulation ε :=
  let timed := s.timers.map (·.1)
  let order := s.turns.filter (· ∉ timed) ++ timed
  { s with ready := s.ready ++ (order.filter fun t => s.canRun t && t ∉ s.ready).eraseDups }

/-- The next time at which a task can go on. -/
def nextDue (s : Simulation ε) : Option Int :=
  ((s.timers.map (·.2)).filter (s.world.now < ·)).min?

def advance (s : Simulation ε) (t : Int) : Simulation ε :=
  { s with world := { s.world with now := t } }

/-- Puts a script in its place, after it ran in a world. -/
def put (s : Simulation ε) (place : Nat) (t : Script ε) (r : Run ε) : Simulation ε :=
  match r with
  | (world, .blocked d) =>
    { s with world, scripts := s.scripts.set place { t with state := .doing d } }
  | (world, .done result) =>
    { s with
      world
      scripts := s.scripts.set place { t with state := .settling result }
      settling := s.settling ++ [place] }
  | (world, .crashed) => { s with world, scripts := s.scripts.set place { t with state := .ended } }

variable [Exchange ε]

/-- Begins the next action of a script, or ends it. -/
def proceed (s : Simulation ε) (place : Nat) (t : Script ε) : Simulation ε :=
  match t.actions with
  | [] => { s with scripts := s.scripts.set place { t with state := .ended } }
  | a :: actions => s.put place { t with actions } (a.begin s.world)

def turnScript (s : Simulation ε) (place : Nat) : Simulation ε :=
  match s.scripts[place]? with
  | none => s
  | some t =>
    match t.state with
    | .waiting _ => s.proceed place t
    | .doing d => s.put place t (d.resume s.world)
    | .settling _ | .ended => s

def turnLoop (s : Simulation ε) (id : Nat) : Simulation ε :=
  match s.world.loops.find? (·.id == id) with
  | none => s
  | some l => { s with world := s.world.runLoop l }

def turn (s : Simulation ε) (t : Turn) : Simulation ε :=
  match t with
  | .script place => (s.turnScript place).setTimers t
  | .loop id => (s.turnLoop id).setTimers t

/-- Records the world for a script that has a result, and lets it proceed. -/
def record (s : Simulation ε) (place : Nat) : Simulation ε :=
  match s.scripts[place]? with
  | none => s
  | some t =>
    match t.state with
    | .settling r =>
      (s.proceed place { t with entries := ⟨r, s.world⟩ :: t.entries }).setTimers (.script place)
    | _ => s

/-- One turn, one record or one jump of the clock. The run is over when all scripts have ended, and
also when nothing can ever happen again. -/
def step? (s : Simulation ε) : Option (Simulation ε) :=
  let s := s.wake
  match s.ready, s.settling with
  | t :: ready, _ => some ({ s with ready }.turn t)
  | [], place :: settling => some ({ s with settling }.record place)
  | [], [] => if s.scripts.all Script.hasEnded then none else s.nextDue.map s.advance

/-- Runs to the end, or for as many steps as there is fuel. -/
def run : Nat → Simulation ε → Simulation ε
  | 0, s => s
  | fuel + 1, s =>
    match s.step? with
    | some s => run fuel s
    | none => s

/-- One turn of a poll loop or one jump of the clock, none of them after the time. -/
def idleStep? (s : Simulation ε) (until_ : Int) : Option (Simulation ε) :=
  let s := s.wake
  match s.ready with
  | t :: ready => some ({ s with ready }.turn t)
  | [] =>
    match s.nextDue with
    | some t => if t ≤ until_ then some (s.advance t) else none
    | none => none

def idle (until_ : Int) : Nat → Simulation ε → Simulation ε
  | 0, s => s
  | fuel + 1, s =>
    match s.idleStep? until_ with
    | some s => idle until_ fuel s
    | none => s.advance until_

/-- Drops the watcher and lets the poll loops run on for some time. -/
def linger (s : Simulation ε) (length : Int) (fuel : Nat) : Simulation ε :=
  idle (s.world.now + length) fuel { s with world := { s.world with released := true } }

end Simulation

end Portfolio
