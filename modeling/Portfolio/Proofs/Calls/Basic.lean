import Mathlib.Data.List.ReduceOption
import Portfolio.Live.Poll
import Portfolio.Proofs.Calls.Turn

/-! # The calls on one watcher

A call is one use of the fetch lock: a refresh, whoever began it and for whatever end, or a turn at
the lock for its own sake. `Calls` holds all calls on one watcher side by side. A run is a list of
moves in any order: a call begins, gets a turn, or is given up by its task; the clock goes on; the
watcher is used otherwise. A call only waits where something it needs is not there, so a move is one
stretch of work between two waits. -/

namespace Portfolio

/-- One use of the fetch lock. -/
inductive Call where
  | refresh (r : Refresh)
  /-- Waits for the lock for its own sake. -/
  | locking (ticket : Nat)
  /-- Has the lock for its own sake. -/
  | holding (ticket : Nat)

namespace Call

/-- The ticket with which the call waits for the lock or has it. -/
def ticket? : Call → Option Nat
  | refresh (.joining ..) => none
  | refresh (.queueing ticket _) => some ticket
  | refresh (.fetching ticket ..) => some ticket
  | locking ticket => some ticket
  | holding ticket => some ticket

/-- The call waits for the reply to its balance request. -/
def isFetching : Call → Bool
  | refresh (.fetching ..) => true
  | _ => false

/-- When the call sent its balance request, if it waits for the reply. -/
def started? : Call → Option Timestamp
  | refresh (.fetching _ started _ _) => some started
  | _ => none

/-- The call has the lock and knows it. -/
def isGuard : Call → Bool
  | refresh (.fetching ..) => true
  | holding _ => true
  | _ => false

theorem isGuard_of_isFetching {c : Call} (h : c.isFetching = true) : c.isGuard = true := by
  cases c with
  | refresh r => cases r <;> simp_all [isFetching, isGuard]
  | locking | holding => simp [isFetching] at h

theorem isGuard_of_started? {c : Call} {t : Timestamp} (h : c.started? = some t) :
    c.isGuard = true := by
  cases c with
  | refresh r => cases r <;> simp_all [started?, isGuard]
  | locking | holding => simp [started?] at h

variable {ε : Type}

/-- Gives a call its turn. A lock that is held for its own sake is kept until it is given up. -/
def resume [Exchange ε] (w : World ε) : Call → World ε × Option Call
  | .refresh r => ((r.resume w).1, (r.resume w).2.left.map refresh)
  | .locking ticket =>
    if w.watcher.lock.isTurn ticket then (w.onWatcher .enter, some (.holding ticket))
    else (w, some (.locking ticket))
  | .holding ticket => (w, some (.holding ticket))

/-- Gives a call up. -/
def drop (w : World ε) : Call → World ε
  | .refresh r => r.drop w
  | .locking ticket => w.onWatcher (·.leaveQueue ticket)
  | .holding ticket => w.onWatcher (·.release ticket)

/-- Giving up changes nothing but the lock. -/
theorem drop_eq (w : World ε) (c : Call) :
    ∃ lock inFlight, c.drop w = { w with watcher := { w.watcher with lock, inFlight } } := by
  cases c with
  | refresh r => cases r <;> exact ⟨_, _, rfl⟩
  | locking | holding => exact ⟨_, _, rfl⟩

end Call

/-- What is in a place can be taken out and something else put there, the rest staying as it is. -/
theorem exists_reduceOption_set {α : Type} {slots : List (Option α)} {place : Nat} {a : α}
    (h : (slots[place]?).join = some a) :
    ∃ rest, slots.reduceOption.Perm (a :: rest) ∧
      ∀ o : Option α, (slots.set place o).reduceOption.Perm (o.toList ++ rest) := by
  obtain ⟨hlt, hget⟩ := List.getElem?_eq_some_iff.1 (Option.join_eq_some_iff.1 h)
  refine ⟨(slots.take place).reduceOption ++ (slots.drop (place + 1)).reduceOption, ?_, ?_⟩
  · conv => lhs; rw [← List.take_append_drop place slots, List.drop_eq_getElem_cons hlt, hget]
    rw [List.reduceOption_append, List.reduceOption_cons_of_some]
    exact List.perm_middle
  · intro o
    rw [List.set_eq_take_append_cons_drop, if_pos hlt, List.reduceOption_append]
    cases o with
    | none => rw [List.reduceOption_cons_of_none]; exact .rfl
    | some b => rw [List.reduceOption_cons_of_some]; exact List.perm_middle

/-- The calls on one watcher, in the order in which they began; a call that is over leaves its place
empty. -/
structure Calls (ε : Type) where
  world : World ε
  slots : List (Option Call)

namespace Calls

variable {ε : Type}

/-- One move of a run. -/
inductive Move (ε : Type) where
  /-- A refresh begins. -/
  | enter (fallback : Params)
  /-- Somebody queues for the lock for its own sake. -/
  | lock
  /-- The call in a place gets its turn. -/
  | resume (place : Nat)
  /-- The task of the call in a place is dropped while it waits, or gives its lock back. -/
  | drop (place : Nat)
  /-- The clock goes on by so many nanoseconds. -/
  | elapse (length : Nat)
  | start
  | stop
  | reset
  | renewView
  | signal
  | push (payload : Json.Value) (at_ : Timestamp)
  /-- The exchange is used for something else, and something is reported. -/
  | business (exchange : ε) (events : List Event)
  /-- Nobody holds the watcher any more. -/
  | release
  /-- The poll loops change their states, or end. -/
  | loops (loops : List PollLoop)

/-- A call begins, goes on, or is given up. -/
def Move.isCall : Move ε → Bool
  | .enter _ | .lock | .resume _ | .drop _ => true
  | _ => false

/-- Nobody has called yet. -/
def new (now : Int) (exchange : ε) (watcher : Watcher) : Calls ε :=
  ⟨.new now exchange watcher, []⟩

/-- The calls that are not over. -/
def live (s : Calls ε) : List Call :=
  s.slots.reduceOption

/-- The call in a place, if it is not over. -/
def call? (s : Calls ε) (place : Nat) : Option Call :=
  (s.slots[place]?).join

/-- Changes the world. -/
def onWorld (s : Calls ε) (f : World ε → World ε) : Calls ε :=
  { s with world := f s.world }

variable [Exchange ε]

/-- One move. -/
def step (s : Calls ε) : Move ε → Calls ε
  | .enter fallback =>
    let r := Refresh.begin s.world fallback
    ⟨r.1, s.slots ++ [r.2.left.map .refresh]⟩
  | .lock =>
    let (lock, ticket) := s.world.watcher.lock.draw
    ⟨s.world.onWatcher ({ · with lock }), s.slots ++ [some (.locking ticket)]⟩
  | .resume place =>
    match s.call? place with
    | some c => ⟨(c.resume s.world).1, s.slots.set place (c.resume s.world).2⟩
    | none => s
  | .drop place =>
    match s.call? place with
    | some c => ⟨c.drop s.world, s.slots.set place none⟩
    | none => s
  | .elapse length => s.onWorld fun w => { w with now := w.now + length }
  | .start => s.onWorld .start
  | .stop => s.onWorld .stop
  | .reset => s.onWorld (·.onWatcher .reset)
  | .renewView => s.onWorld (·.onWatcher .renewView)
  | .signal => s.onWorld (·.onWatcher .signal)
  | .push payload at_ => s.onWorld (·.onWatcher (·.push payload at_))
  | .business exchange events => s.onWorld fun w => { w with exchange }.logAll events
  | .release => s.onWorld fun w => { w with released := true }
  | .loops loops => s.onWorld fun w => { w with loops }

/-- Moves, one after the other. -/
def run (s : Calls ε) (ms : List (Move ε)) : Calls ε :=
  ms.foldl step s

/-! ## Places -/

theorem step_resume {s : Calls ε} {place : Nat} {c : Call} (h : s.call? place = some c) :
    s.step (.resume place) = ⟨(c.resume s.world).1, s.slots.set place (c.resume s.world).2⟩ := by
  simp only [step, h]

theorem step_drop {s : Calls ε} {place : Nat} {c : Call} (h : s.call? place = some c) :
    s.step (.drop place) = ⟨c.drop s.world, s.slots.set place none⟩ := by
  simp only [step, h]

omit [Exchange ε] in
theorem getElem?_of_call? {s : Calls ε} {place : Nat} {c : Call} (h : s.call? place = some c) :
    s.slots[place]? = some (some c) :=
  Option.join_eq_some_iff.1 h

omit [Exchange ε] in
theorem lt_of_call? {s : Calls ε} {place : Nat} {c : Call} (h : s.call? place = some c) :
    place < s.slots.length :=
  (List.getElem?_eq_some_iff.1 (getElem?_of_call? h)).1

omit [Exchange ε] in
theorem mem_live {s : Calls ε} {place : Nat} {c : Call} (h : s.call? place = some c) :
    c ∈ s.live :=
  List.reduceOption_mem_iff.2 (List.mem_of_getElem? (getElem?_of_call? h))

omit [Exchange ε] in
theorem exists_call? {s : Calls ε} {c : Call} (h : c ∈ s.live) :
    ∃ place, s.call? place = some c := by
  obtain ⟨place, hp⟩ := List.mem_iff_getElem?.1 (List.reduceOption_mem_iff.1 h)
  exact ⟨place, by rw [call?, hp]; rfl⟩

omit [Exchange ε] in
/-- A call can be taken out of its place and another put there, the rest staying as it is. -/
theorem live_set {s : Calls ε} {place : Nat} {c : Call} (h : s.call? place = some c) :
    ∃ rest, s.live.Perm (c :: rest) ∧
      ∀ o : Option Call, (s.slots.set place o).reduceOption.Perm (o.toList ++ rest) :=
  exists_reduceOption_set h

/-! ## Runs -/

@[simp] theorem run_nil (s : Calls ε) : s.run [] = s := rfl

@[simp] theorem run_cons (s : Calls ε) (m : Move ε) (ms : List (Move ε)) :
    s.run (m :: ms) = (s.step m).run ms := rfl

@[simp] theorem run_append (s : Calls ε) (ms ns : List (Move ε)) :
    s.run (ms ++ ns) = (s.run ms).run ns := List.foldl_append

end Calls

/-! ## Invariants of calls -/

/-- Every act of a call keeps `P`, which speaks of the world and of the calls in any order. -/
structure CallInvariant {ε : Type} [Exchange ε] (P : World ε → List Call → Prop) : Prop where
  perm : ∀ {w cs cs'}, P w cs → cs.Perm cs' → P w cs'
  turn : ∀ cs, TurnInvariant fun w r => P w ((r.map Call.refresh).toList ++ cs)
  lock : ∀ {w cs}, P w cs → P (Refresh.drawn w) (.locking w.watcher.lock.next :: cs)
  take : ∀ {w cs ticket}, P w (.locking ticket :: cs) → w.watcher.lock.isTurn ticket = true →
    P (w.onWatcher .enter) (.holding ticket :: cs)
  drop : ∀ {w cs c}, P w (c :: cs) → P (c.drop w) cs

namespace CallInvariant

variable {ε : Type} [Exchange ε] {P : World ε → List Call → Prop} (h : CallInvariant P)
include h

theorem resume {w : World ε} {c : Call} {cs : List Call} (hp : P w (c :: cs)) :
    P (c.resume w).1 ((c.resume w).2.toList ++ cs) := by
  cases c with
  | refresh r => exact (h.turn cs).resume hp
  | locking ticket =>
    simp only [Call.resume]
    split
    · next ht => exact h.take hp ht
    · exact hp
  | holding ticket => exact hp

/-- A move, if `P` is also kept where no call acts. -/
theorem step {s : Calls ε} (hp : P s.world s.live) {m : Calls.Move ε}
    (hother : m.isCall = false → P (s.step m).world s.live) :
    P (s.step m).world (s.step m).live := by
  cases m with
  | enter fallback =>
    refine h.perm ((h.turn s.live).begin hp) ?_
    simp only [Calls.step, Calls.live, List.reduceOption_append, List.reduceOption_singleton]
    exact List.perm_append_comm
  | lock =>
    refine h.perm (h.lock hp) ?_
    simp only [Calls.step, Calls.live, List.reduceOption_append, List.reduceOption_singleton]
    exact (List.perm_append_singleton _ _).symm
  | resume place =>
    simp only [Calls.step]
    split
    · next c hc =>
      obtain ⟨rest, hl, hset⟩ := Calls.live_set hc
      exact h.perm (h.resume (h.perm hp hl)) (hset _).symm
    · exact hp
  | drop place =>
    simp only [Calls.step]
    split
    · next c hc =>
      obtain ⟨rest, hl, hset⟩ := Calls.live_set hc
      exact h.perm (h.drop (h.perm hp hl)) (hset none).symm
    · exact hp
  | _ => exact hother rfl

theorem run {s : Calls ε} {ms : List (Calls.Move ε)} (hp : P s.world s.live)
    (hother : ∀ s : Calls ε, P s.world s.live → ∀ m ∈ ms, m.isCall = false →
      P (s.step m).world s.live) : P (s.run ms).world (s.run ms).live := by
  induction ms generalizing s with
  | nil => exact hp
  | cons m ms ih =>
    exact ih (h.step hp (hother s hp m (.head _))) fun s hp n hn => hother s hp n (.tail _ hn)

end CallInvariant

end Portfolio
