import Portfolio.Live.Refresh

/-! # Waiting for a fresh balance

A wait ends when the newest record is fresh enough, or at its deadline. With `force` and nothing
cached it first keeps refreshing, with a pause between the refreshes, until a balance appears. -/

namespace Portfolio

/-- What is waited for, and until when. -/
structure FreshGoal where
  /-- The currency, or the whole table. -/
  currency : Option String
  /-- The oldest stamp that is fresh enough; none accepts everything. -/
  since : Option Timestamp
  deadline : Int

/-- A wait for a fresh balance that is not over. -/
inductive FreshWait where
  /-- For a refresh of its own. -/
  | forcing (goal : FreshGoal) (r : Refresh)
  /-- For the next refresh of its own. -/
  | pausing (goal : FreshGoal) (until_ : Int)
  /-- For a signal after the ones heard, `prev` being the stamp of what was cached. -/
  | watching (goal : FreshGoal) (prev : Timestamp) (heard : Nat)

namespace Watcher

/-- The stamp of the cached balance, or of the table once anything was fetched. -/
def cachedTime? (w : Watcher) : Option String → Option Timestamp
  | some currency => (w.cached currency).map (·.asOf)
  | none => if w.hasFetched then some w.view.asOf else none

end Watcher

namespace FreshWait

variable {ε : Type}

/-- The pause between refreshes, in nanoseconds. -/
def pause : Int := 100000000

/-- The newest record is not older than `prev` and than what is wanted. -/
def recordSuffices (w : Watcher) (prev required : Timestamp) : Bool :=
  match w.buffer.latestTime? with
  | some t => decide (prev ≤ t) && decide (required ≤ t)
  | none => false

theorem recordSuffices_iff {w : Watcher} {prev required : Timestamp} :
    recordSuffices w prev required = true ↔
      ∃ t, w.buffer.latestTime? = some t ∧ prev ≤ t ∧ required ≤ t := by
  unfold recordSuffices
  split
  · next t ht => simp [ht]
  · next ht => simp [ht]

/-- Looks at the newest record, and waits for the next signal if there is time left. -/
def watch (w : World ε) (goal : FreshGoal) (prev : Timestamp) : World ε × Progress FreshWait Bool :=
  if recordSuffices w.watcher prev (goal.since.getD .epoch) then (w, .done true)
  else if goal.deadline ≤ w.now then (w, .done false)
  else (w, .blocked (.watching goal prev w.watcher.signals))

section
variable {w : World ε} {goal : FreshGoal} {prev : Timestamp}

theorem watch_of_suffices
    (h : recordSuffices w.watcher prev (goal.since.getD .epoch) = true) :
    watch w goal prev = (w, .done true) := by
  rw [watch, if_pos h]

theorem watch_of_late (h : recordSuffices w.watcher prev (goal.since.getD .epoch) = false)
    (hd : goal.deadline ≤ w.now) : watch w goal prev = (w, .done false) := by
  rw [watch, h, if_neg Bool.false_ne_true, if_pos hd]

theorem watch_of_early (h : recordSuffices w.watcher prev (goal.since.getD .epoch) = false)
    (hd : w.now < goal.deadline) :
    watch w goal prev = (w, .blocked (.watching goal prev w.watcher.signals)) := by
  rw [watch, h, if_neg Bool.false_ne_true, if_neg (Int.not_le.2 hd)]

end

/-- Goes on with the stamp of what is cached, the epoch if nothing is. -/
def settle (w : World ε) (goal : FreshGoal) (known : Option Timestamp) :
    World ε × Progress FreshWait Bool :=
  let prev := known.getD .epoch
  if goal.since.getD .epoch ≤ prev then (w, .done true) else watch w goal prev

theorem settle_of_fresh {w : World ε} {goal : FreshGoal} {t : Timestamp}
    (h : goal.since.getD .epoch ≤ t) : settle w goal (some t) = (w, .done true) :=
  if_pos h

theorem settle_of_old {w : World ε} {goal : FreshGoal} {t : Timestamp}
    (h : ¬ goal.since.getD .epoch ≤ t) : settle w goal (some t) = watch w goal t :=
  if_neg h

/-- Waits in a state, or gives up if the deadline has come. -/
def unlessLate (w : World ε) (goal : FreshGoal) (drop : World ε → World ε) (s : FreshWait) :
    World ε × Progress FreshWait Bool :=
  if goal.deadline ≤ w.now then (drop w, .done false) else (w, .blocked s)

def afterRefresh (goal : FreshGoal) :
    World ε × Progress Refresh Unit → World ε × Progress FreshWait Bool
  | (w, .blocked r) => unlessLate w goal r.drop (.forcing goal r)
  | (w, .crashed) => (w, .crashed)
  | (w, .done ()) =>
    match w.watcher.cachedTime? goal.currency with
    | some t => settle w goal (some t)
    | none => unlessLate w goal id (.pausing goal (w.now + pause))

def start [Exchange ε] (w : World ε) (goal : FreshGoal) (force : Bool) :
    World ε × Progress FreshWait Bool :=
  match w.watcher.cachedTime? goal.currency with
  | some t => settle w goal (some t)
  | none => if force then afterRefresh goal (Refresh.begin w []) else settle w goal none

/-- Begins a wait of `waitFor` at most. It is a fault if the clock cannot tell the deadline. -/
def begin [Exchange ε] (w : World ε) (currency : Option String) (since : Option Timestamp)
    (waitFor : Duration) (force : Bool) : World ε × Progress FreshWait Bool :=
  if w.Reaches waitFor then start w ⟨currency, since, w.now + waitFor.nanos⟩ force
  else (w, .crashed)

def resume [Exchange ε] (w : World ε) : FreshWait → World ε × Progress FreshWait Bool
  | .forcing goal r => afterRefresh goal (r.resume w)
  | .pausing goal until_ =>
    if until_ ≤ w.now then afterRefresh goal (Refresh.begin w [])
    else unlessLate w goal id (.pausing goal until_)
  | .watching goal prev heard =>
    if heard < w.watcher.signals || goal.deadline ≤ w.now then watch w goal prev
    else (w, .blocked (.watching goal prev heard))

section
variable [Exchange ε] {w : World ε} {currency : Option String} {since : Option Timestamp}
  {waitFor : Duration} {force : Bool}

theorem begin_of_reaches (h : w.Reaches waitFor) :
    begin w currency since waitFor force =
      start w ⟨currency, since, w.now + waitFor.nanos⟩ force := by
  rw [begin, if_pos h]

theorem begin_of_not_reaches (h : ¬ w.Reaches waitFor) :
    begin w currency since waitFor force = (w, .crashed) := by
  rw [begin, if_neg h]

end

section
variable [Exchange ε] {w : World ε} {goal : FreshGoal} {prev : Timestamp} {heard : Nat}

/-- Before its deadline a wait goes on as long as it has heard every signal. -/
theorem resume_watching_of_early (h : w.watcher.signals ≤ heard) (hd : w.now < goal.deadline) :
    resume w (.watching goal prev heard) = (w, .blocked (.watching goal prev heard)) := by
  have hnot : ¬ (heard < w.watcher.signals || decide (goal.deadline ≤ w.now)) = true := by
    simp only [Bool.or_eq_true, decide_eq_true_eq]
    omega
  rw [resume, if_neg hnot]

theorem resume_watching_of_late (hd : goal.deadline ≤ w.now) :
    resume w (.watching goal prev heard) = watch w goal prev := by
  have hover : (heard < w.watcher.signals || decide (goal.deadline ≤ w.now)) = true := by
    simp [hd]
  rw [resume, if_pos hover]

end

def drop (w : World ε) : FreshWait → World ε
  | .forcing _ r => r.drop w
  | .pausing .. | .watching .. => w

def isReady (w : World ε) : FreshWait → Bool
  | .forcing goal r => r.isReady w || goal.deadline ≤ w.now
  | .pausing goal until_ => until_ ≤ w.now || goal.deadline ≤ w.now
  | .watching goal _ heard => heard < w.watcher.signals || goal.deadline ≤ w.now

def dues : FreshWait → List Int
  | .forcing goal r => goal.deadline :: r.dues
  | .pausing goal until_ => [goal.deadline, until_]
  | .watching goal _ _ => [goal.deadline]

end FreshWait

end Portfolio
