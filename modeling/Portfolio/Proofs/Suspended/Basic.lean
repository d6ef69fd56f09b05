import Portfolio.Proofs.Calls.Exclusion

/-! # Refreshes that may be suspended at every await

`Calls` switches tasks only where a refresh has to wait. On a runtime with several threads a task
can lose its turn at every await, also where it would not wait. `Stage` is a refresh between two
awaits, and `Stage.advance` runs it to the next one; storing a record, taking its time down, reading
the newest record and writing the table are four stages. `Suspended` holds all refreshes of one
watcher, and a run is a list of moves in any order.

What a move can do is said twice, once for the stage that moves (`Stage.Act`) and once for the
state as a whole (`Suspended.Acts`). One refresh at most has the lock, as before
(`Suspended.exclusive_acts`). -/

namespace Portfolio

namespace Watcher

/-- The first half of a push. -/
def store (w : Watcher) (r : FetchRecord) : Watcher :=
  { w with buffer := w.buffer.push r }

/-- The second half of a push. -/
def stamp (w : Watcher) (r : FetchRecord) : Watcher :=
  { w with lastFetch := some r.timestamp }

end Watcher

/-- A refresh between two awaits. -/
inductive Stage where
  /-- Next it reads the time of the last fetch. -/
  | noting (signals : Nat) (held : Bool) (fallback : Params)
  /-- Next it reads the balance of the quote currency. -/
  | looking (signals : Nat) (held : Bool) (lastFetch : Option Timestamp) (fallback : Params)
  | joining (seen : Seen) (deadline : Int) (fallback : Params)
  /-- Next it compares the time of the last fetch; `news` tells of a signal. -/
  | comparing (seen : Seen) (news : Bool) (fallback : Params)
  /-- Next it compares the balance of the quote currency. -/
  | deciding (seen : Seen) (news : Bool) (fallback : Params)
  | queueing (ticket : Nat) (fallback : Params)
  | fetching (ticket : Nat) (started : Timestamp) (due : Int) (reply : Reply Json.Value)
  /-- Next it appends the record. -/
  | storing (ticket : Nat) (r : FetchRecord)
  /-- Next it takes the time of the record down and gives the lock back. -/
  | stamping (ticket : Nat) (r : FetchRecord)
  /-- Next it copies the newest record. -/
  | loading
  /-- Next it makes the table from its copy. -/
  | writing (r : FetchRecord)

namespace Stage

/-- The refresh has no ticket yet and brings nothing. -/
def isListening : Stage → Bool
  | noting .. | looking .. | joining .. | comparing .. | deciding .. => true
  | _ => false

/-- The use of the lock that the refresh makes. -/
def call? : Stage → Option Call
  | queueing ticket _ => some (.locking ticket)
  | fetching ticket .. | storing ticket _ | stamping ticket _ => some (.holding ticket)
  | _ => none

theorem call?_of_isListening {c : Stage} (h : c.isListening = true) : c.call? = none := by
  cases c <;> first | rfl | cases h

section
variable {ε : Type} [Exchange ε]

open Refresh

/-- Runs a refresh to its next await. It stays as it is if what it waits for is not there. -/
def advance (w : World ε) : Stage → World ε × Option Stage
  | noting signals held fallback =>
    (w, some (.looking signals held w.watcher.lastFetch fallback))
  | looking signals held lastFetch fallback =>
    if held then
      (w, some (.joining
        ⟨signals, lastFetch, w.watcher.view.lookup (.strategy w.watcher.strategy)⟩
        (w.now + w.watcher.strategy.balanceTtl.nanos) fallback))
    else (drawn w, some (.queueing w.watcher.lock.next fallback))
  | joining seen deadline fallback =>
    if joinOver w seen deadline then
      (w, some (.comparing seen (w.watcher.signals != seen.signals) fallback))
    else (w, some (.joining seen deadline fallback))
  | comparing seen news fallback =>
    (w, some (.deciding seen (news || w.watcher.lastFetch != seen.lastFetch) fallback))
  | deciding seen news fallback =>
    if news || w.watcher.view.lookup (.strategy w.watcher.strategy) != seen.quote then (w, none)
    else (drawn w, some (.queueing w.watcher.lock.next fallback))
  | queueing ticket fallback =>
    if w.watcher.lock.isTurn ticket then
      (asked w fallback,
        some (.fetching ticket w.time (w.now + (replyNow w fallback).latency)
          (replyNow w fallback)))
    else (w, some (.queueing ticket fallback))
  | fetching ticket started due reply =>
    if due ≤ w.now then
      match reply.payload? with
      | some payload => (w.logAll reply.events, some (.storing ticket ⟨payload, started⟩))
      | none => ((finish w ticket started reply).1, none)
    else (w, some (.fetching ticket started due reply))
  | storing ticket r => (w.onWatcher (·.store r), some (.stamping ticket r))
  | stamping ticket r =>
    -- the lock is free again before the newest record is read
    (w.onWatcher fun watcher => (watcher.stamp r).release ticket, some .loading)
  | loading => (w, w.watcher.buffer.latest?.map .writing)
  | writing r => (w.onWatcher (·.materialise r), none)

/-- What running a refresh to its next await can do. -/
inductive Act (w : World ε) : Stage → World ε → Option Stage → Prop
  | listens {c : Stage} {c' : Option Stage} (h : c.isListening = true)
      (h' : ∀ d, c' = some d → d.isListening = true) : Act w c w c'
  | waits (c : Stage) : Act w c w (some c)
  | draws {c : Stage} (fallback : Params) (h : c.isListening = true) :
      Act w c (drawn w) (some (.queueing w.watcher.lock.next fallback))
  | asks {ticket : Nat} {fallback : Params} (due : Int) (reply : Reply Json.Value)
      (h : w.watcher.lock.isTurn ticket = true) :
      Act w (.queueing ticket fallback) (asked w fallback)
        (some (.fetching ticket w.time due reply))
  | hears {ticket : Nat} {started : Timestamp} {due : Int} {reply : Reply Json.Value}
      (payload : Json.Value) (events : List Event) :
      Act w (.fetching ticket started due reply) (w.logAll events)
        (some (.storing ticket ⟨payload, started⟩))
  | fails {ticket : Nat} {started : Timestamp} {due : Int} {reply : Reply Json.Value}
      {w' : World ε} (hw : w'.watcher = w.watcher.release ticket) (hn : w'.now = w.now) :
      Act w (.fetching ticket started due reply) w' none
  | stores (ticket : Nat) (r : FetchRecord) :
      Act w (.storing ticket r) (w.onWatcher (·.store r)) (some (.stamping ticket r))
  | stamps (ticket : Nat) (r : FetchRecord) :
      Act w (.stamping ticket r) (w.onWatcher fun watcher => (watcher.stamp r).release ticket)
        (some .loading)
  | finds (r? : Option FetchRecord) (h : w.watcher.buffer.latest? = r?) :
      Act w .loading w (r?.map .writing)
  | writes (r : FetchRecord) : Act w (.writing r) (w.onWatcher (·.materialise r)) none

theorem act (w : World ε) (c : Stage) : Act w c (c.advance w).1 (c.advance w).2 := by
  cases c with
  | noting => exact .listens rfl (by rintro d ⟨⟩; rfl)
  | looking =>
    simp only [advance]
    split
    · exact .listens rfl (by rintro d ⟨⟩; rfl)
    · exact .draws _ rfl
  | joining =>
    simp only [advance]
    split <;> exact .listens rfl (by rintro d ⟨⟩; rfl)
  | comparing => exact .listens rfl (by rintro d ⟨⟩; rfl)
  | deciding =>
    simp only [advance]
    split
    · exact .listens rfl (by rintro d ⟨⟩)
    · exact .draws _ rfl
  | queueing =>
    simp only [advance]
    split
    · next ht => exact .asks _ _ ht
    · exact .waits _
  | fetching ticket started due reply =>
    simp only [advance]
    split
    · cases hp : reply.payload? with
      | some payload => exact .hears payload reply.events
      | none =>
        have hw := watcher_finish w ticket started reply
        rw [hp] at hw
        exact .fails hw (by rw [finish_fst])
    · exact .waits _
  | storing => exact .stores ..
  | stamping => exact .stamps ..
  | loading => exact .finds _ rfl
  | writing => exact .writes _

end

/-- Gives a refresh up: its place in the queue, or the lock. -/
def drop {ε : Type} (w : World ε) : Stage → World ε
  | queueing ticket _ => w.onWatcher (·.leaveQueue ticket)
  | fetching ticket .. | storing ticket _ | stamping ticket _ => w.onWatcher (·.release ticket)
  | _ => w

theorem drop_eq {ε : Type} (w : World ε) (c : Stage) :
    ∃ lock inFlight, c.drop w = { w with watcher := { w.watcher with lock, inFlight } } := by
  cases c <;> exact ⟨_, _, rfl⟩

end Stage

/-- The refreshes of one watcher, in the order in which they began; a refresh that is over leaves
its place empty. -/
structure Suspended (ε : Type) where
  world : World ε
  slots : List (Option Stage)

namespace Suspended

/-- One move of a run. -/
inductive Move where
  /-- A refresh begins, up to its first await. -/
  | enter (fallback : Params)
  /-- The refresh in a place runs to its next await. -/
  | advance (place : Nat)
  /-- The task of the refresh in a place is dropped. -/
  | drop (place : Nat)
  /-- The clock goes on by so many nanoseconds. -/
  | elapse (length : Nat)

variable {ε : Type}

/-- Nobody has called yet. -/
def new (now : Int) (exchange : ε) (watcher : Watcher) : Suspended ε :=
  ⟨.new now exchange watcher, []⟩

def live (s : Suspended ε) : List Stage :=
  s.slots.reduceOption

/-- The refresh in a place, if it is not over. -/
def stage? (s : Suspended ε) (place : Nat) : Option Stage :=
  (s.slots[place]?).join

/-- What a refresh that begins now has read before its first await. -/
def entered (w : World ε) (fallback : Params) : Stage :=
  .noting w.watcher.signals w.watcher.inFlight fallback

variable [Exchange ε]

def step (s : Suspended ε) : Move → Suspended ε
  | .enter fallback => ⟨s.world, s.slots ++ [some (entered s.world fallback)]⟩
  | .advance place =>
    match s.stage? place with
    | some c => ⟨(c.advance s.world).1, s.slots.set place (c.advance s.world).2⟩
    | none => s
  | .drop place =>
    match s.stage? place with
    | some c => ⟨c.drop s.world, s.slots.set place none⟩
    | none => s
  | .elapse length => { s with world := { s.world with now := s.world.now + length } }

def run (s : Suspended ε) (ms : List Move) : Suspended ε :=
  ms.foldl step s

@[simp] theorem run_nil (s : Suspended ε) : s.run [] = s := rfl

@[simp] theorem run_cons (s : Suspended ε) (m : Move) (ms : List Move) :
    s.run (m :: ms) = (s.step m).run ms := rfl

@[simp] theorem run_append (s : Suspended ε) (ms ns : List Move) :
    s.run (ms ++ ns) = (s.run ms).run ns := List.foldl_append

theorem step_advance {s : Suspended ε} {place : Nat} {c : Stage} (h : s.stage? place = some c) :
    s.step (.advance place) = ⟨(c.advance s.world).1, s.slots.set place (c.advance s.world).2⟩ := by
  simp only [step, h]

theorem step_drop {s : Suspended ε} {place : Nat} {c : Stage} (h : s.stage? place = some c) :
    s.step (.drop place) = ⟨c.drop s.world, s.slots.set place none⟩ := by
  simp only [step, h]

/-! ## What a move can do -/

/-- What a move can do to the world and to the refreshes, these in any order. -/
inductive Acts (s : Suspended ε) : Move → World ε → List Stage → Prop
  | enters (fallback : Params) :
      Acts s (.enter fallback) s.world (entered s.world fallback :: s.live)
  | advances {place : Nat} {c : Stage} {rest : List Stage} {w : World ε} {c' : Option Stage}
      (h : s.stage? place = some c) (hl : s.live.Perm (c :: rest)) (ha : Stage.Act s.world c w c') :
      Acts s (.advance place) w (c'.toList ++ rest)
  | drops {place : Nat} {c : Stage} {rest : List Stage} (h : s.stage? place = some c)
      (hl : s.live.Perm (c :: rest)) : Acts s (.drop place) (c.drop s.world) rest
  | elapses (length : Nat) :
      Acts s (.elapse length) { s.world with now := s.world.now + length } s.live
  | idles (m : Move) : Acts s m s.world s.live

theorem acts (s : Suspended ε) (m : Move) :
    ∃ cs, cs.Perm (s.step m).live ∧ Acts s m (s.step m).world cs := by
  cases m with
  | enter fallback =>
    refine ⟨_, ?_, .enters fallback⟩
    simp only [step, live, List.reduceOption_append, List.reduceOption_singleton]
    exact (List.perm_append_singleton _ _).symm
  | advance place =>
    cases hc : s.stage? place with
    | some c =>
      obtain ⟨rest, hl, hset⟩ := exists_reduceOption_set hc
      rw [step_advance hc]
      exact ⟨_, (hset _).symm, .advances hc hl (c.act s.world)⟩
    | none => exact ⟨s.live, by simp only [step, hc]; rfl, by simp only [step, hc]; exact .idles _⟩
  | drop place =>
    cases hc : s.stage? place with
    | some c =>
      obtain ⟨rest, hl, hset⟩ := exists_reduceOption_set hc
      rw [step_drop hc]
      exact ⟨rest, (hset none).symm, .drops hc hl⟩
    | none => exact ⟨s.live, by simp only [step, hc]; rfl, by simp only [step, hc]; exact .idles _⟩
  | elapse length => exact ⟨s.live, .rfl, .elapses length⟩

/-! ## The lock -/

omit [Exchange ε] in
theorem exclusive_cons_iff {w : Watcher} {c : Stage} {cs : List Stage} (hc : c.call? = none) :
    Exclusive w ((c :: cs).filterMap Stage.call?) ↔ Exclusive w (cs.filterMap Stage.call?) := by
  rw [List.filterMap_cons_none hc]

omit [Exchange ε] in
theorem exclusive_drop {w : World ε} {c : Stage} {cs : List Stage}
    (h : Exclusive w.watcher ((c :: cs).filterMap Stage.call?)) :
    Exclusive (c.drop w).watcher (cs.filterMap Stage.call?) := by
  cases c with
  | queueing => exact h.leave rfl rfl
  | fetching | storing | stamping => exact h.release rfl rfl rfl rfl
  | _ => exact (exclusive_cons_iff rfl).1 h

theorem exclusive_act {w w' : World ε} {c : Stage} {c' : Option Stage} {cs : List Stage}
    (h : Exclusive w.watcher ((c :: cs).filterMap Stage.call?)) (ha : Stage.Act w c w' c') :
    Exclusive w'.watcher ((c'.toList ++ cs).filterMap Stage.call?) := by
  cases ha with
  | listens hc hc' =>
    have hcs := (exclusive_cons_iff (Stage.call?_of_isListening hc)).1 h
    cases c' with
    | none => exact hcs
    | some d => exact (exclusive_cons_iff (Stage.call?_of_isListening (hc' d rfl))).2 hcs
  | waits => exact h
  | draws fallback hc =>
    have hcs := (exclusive_cons_iff (Stage.call?_of_isListening hc)).1 h
    exact hcs.draw rfl rfl rfl rfl
  | asks due reply ht => exact h.enter rfl ht rfl rfl
  | hears payload events =>
    rw [World.watcher_logAll]
    exact h
  | fails hw => exact h.release rfl rfl (by rw [hw]; rfl) (by rw [hw]; rfl)
  | stores => exact h.congr rfl rfl
  | stamps => exact h.release rfl rfl rfl rfl
  | finds r? =>
    have hcs := (exclusive_cons_iff rfl).1 h
    cases r? with
    | none => exact hcs
    | some r => exact (exclusive_cons_iff rfl).2 hcs
  | writes r => exact ((exclusive_cons_iff rfl).1 h).congr rfl rfl

theorem exclusive_acts {s : Suspended ε} {m : Move} {w : World ε} {cs : List Stage}
    (h : Exclusive s.world.watcher (s.live.filterMap Stage.call?)) (ha : Acts s m w cs) :
    Exclusive w.watcher (cs.filterMap Stage.call?) := by
  cases ha with
  | enters => exact (exclusive_cons_iff rfl).2 h
  | advances _ hl ha => exact exclusive_act (h.perm (hl.filterMap _)) ha
  | drops _ hl => exact exclusive_drop (h.perm (hl.filterMap _))
  | elapses => exact h.congr rfl rfl
  | idles => exact h

end Suspended

end Portfolio
