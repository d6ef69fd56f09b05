import Portfolio.Proofs.Calls.Readers
import Portfolio.Proofs.Calls.Exclusion
import Portfolio.Simulation.ScriptedExchange

/-! # How far a task is from its end

A task that waits has some stages before it at most, and waits for a time or for its turn at the
fetch lock (`Delay`). At a turn it gets past a stage if what it waits for is there, and otherwise it
stays where it is (`Nears`), so long as no reply is a fault. One lemma for each kind of task says
so: a refresh has three stages, a wait for a fresh balance one, a read seven with those of its
parts, and the work on an asset nine. The only fault that is left is that of a wait whose deadline
the clock cannot tell. -/

namespace Portfolio

/-- What a task waits for before it gets on. -/
inductive Awaited where
  | nothing
  | time (t : Int)
  /-- Its turn at the fetch lock. -/
  | turn (ticket : Nat)

/-- What the task waits for is there. -/
def Awaited.isThere {ε : Type} (w : World ε) : Awaited → Bool
  | nothing => true
  | time t => t ≤ w.now
  | turn ticket => w.watcher.lock.isTurn ticket

/-- How many stages a task has before it at most, and what it waits for in the first of them. -/
structure Delay where
  stages : Nat
  awaited : Awaited

/-- The time that the task waits for, if it waits for one. -/
def Delay.due (d : Delay) : Int :=
  match d.awaited with
  | .time t => t
  | .nothing | .turn _ => 0

/-- The delay of a part of a task that has more stages after the part. -/
def Delay.before (d : Delay) (stages : Nat) : Delay :=
  ⟨d.stages + stages, d.awaited⟩

/-- No fault. -/
def Reply.Sound {α : Type} (r : Reply α) : Prop :=
  ∀ fault, r.outcome ≠ .crash fault

/-- An exchange that may fail, but not so that its caller cannot go on. -/
structure Faultless (ε : Type) [Exchange ε] : Prop where
  balance : ∀ (x : ε) now params, (Exchange.fetchBalance x now params).2.Sound
  price : ∀ (x : ε) now pair, (Exchange.fetchPrice x now pair).2.Sound

/-- A scripted exchange answers or fails. -/
theorem ScriptedExchange.faultless : Faultless ScriptedExchange := by
  have hreply {α : Type} (r : ScriptedReply α) : (toReply r).Sound := by
    intro fault
    unfold toReply
    split <;> rintro ⟨⟩
  refine ⟨fun x now params => ?_, fun x now pair => ?_⟩
  · show (x.fetchBalance params).2.Sound
    unfold fetchBalance
    dsimp only
    split
    · rintro _ ⟨⟩
    · exact hreply _
    · exact hreply _
  · show (x.fetchPrice pair).2.Sound
    unfold fetchPrice
    dsimp only
    split
    · exact hreply _
    · rintro _ ⟨⟩

/-- The states of a task that waits. -/
class Staged (σ : Type) where
  delay : σ → Delay
  /-- No reply that is on its way is a fault. -/
  sound : σ → Prop

open Staged

variable {ε σ τ α β : Type} {late : Prop}

/-- The task is done or has fewer than so many stages before it, or it came to a fault as it was too
late. -/
def Within [Staged σ] (late : Prop) (n : Nat) : Progress σ α → Prop
  | .blocked s => sound s ∧ (delay s).stages < n
  | .done _ => True
  | .crashed => late

/-- The task gets past a stage, or stays as what it waits for is not there. A wait for the lock
leaves the world as it is. -/
def Nears [Staged σ] (late : Prop) (w : World ε) (d : Delay) (r : World ε × Progress σ α) : Prop :=
  Within late d.stages r.2 ∨ ∃ s, r.2 = .blocked s ∧ sound s ∧ delay s = d ∧
    d.awaited.isThere w = false ∧ ∀ ticket, d.awaited = .turn ticket → r.1 = w

section
variable [Staged σ] [Staged τ] {m n k : Nat} {d : Delay} {w : World ε}

theorem Within.mono {p : Progress σ α} (h : Within late m p) (hle : m ≤ n) : Within late n p := by
  cases p with
  | blocked s => exact ⟨h.1, Nat.lt_of_lt_of_le h.2 hle⟩
  | done a => trivial
  | crashed => exact h

theorem Within.imp {late' : Prop} {p : Progress σ α} (h : Within late n p)
    (himp : late → late') : Within late' n p := by
  cases p with
  | blocked s => exact h
  | done a => trivial
  | crashed => exact himp h

variable {r : World ε × Progress σ α} {wrap : σ → τ}
  {next : World ε → α → World ε × Progress τ β}

theorem Within.andThen (h : Within late n r.2) (hsound : ∀ s, sound s → sound (wrap s))
    (hdelay : ∀ s, delay (wrap s) = (delay s).before k)
    (hnext : ∀ a, Within late (n + k) (next r.1 a).2) :
    Within late (n + k) (Progress.andThen r wrap next).2 := by
  obtain ⟨w, p⟩ := r
  cases p with
  | blocked s =>
    refine ⟨hsound s h.1, ?_⟩
    rw [hdelay]
    exact Nat.add_lt_add_right h.2 k
  | done a => exact hnext a
  | crashed => exact h

theorem Nears.imp {late' : Prop} (h : Nears late w d r) (himp : late → late') :
    Nears late' w d r :=
  h.imp_left fun h => h.imp himp

/-- Only being too late stops a task. -/
theorem Nears.late_of_crashed {w' : World ε}
    (h : Nears late w d (w', (.crashed : Progress σ α))) : late := by
  obtain hlate | ⟨s, hs, -⟩ := h
  · exact hlate
  · cases hs

theorem Nears.andThen (h : Nears late w d r) (hsound : ∀ s, sound s → sound (wrap s))
    (hdelay : ∀ s, delay (wrap s) = (delay s).before k)
    (hnext : ∀ a, Within late (d.stages + k) (next r.1 a).2) :
    Nears late w (d.before k) (Progress.andThen r wrap next) := by
  obtain hwithin | ⟨s, hs, hsnd, rfl, hearly, hsame⟩ := h
  · exact .inl (hwithin.andThen hsound hdelay hnext)
  · obtain ⟨w', p⟩ := r
    obtain rfl : p = .blocked s := hs
    exact .inr ⟨wrap s, rfl, hsound s hsnd, hdelay s, hearly, hsame⟩

end

/-! ## Refreshes -/

instance : Staged Refresh where
  delay
    | .joining _ deadline _ => ⟨3, .time deadline⟩
    | .queueing ticket _ => ⟨2, .turn ticket⟩
    | .fetching _ _ due _ => ⟨1, .time due⟩
  sound
    | .joining .. | .queueing .. => True
    | .fetching _ _ _ reply => reply.Sound

variable [Exchange ε] (w : World ε)

namespace Refresh

theorem stages_pos (r : Refresh) : 0 < (delay r).stages := by
  cases r <;> exact Nat.succ_pos _

theorem within_finish (ticket : Nat) (started : Timestamp) {reply : Reply Json.Value}
    (h : reply.Sound) (n : Nat) : Within late n (finish w ticket started reply).2 := by
  unfold finish
  dsimp only
  split
  · split <;> trivial
  · split <;> trivial
  · next fault hfault => exact absurd hfault (h fault)

variable (hx : Faultless ε)
include hx

theorem within_fetch (ticket : Nat) (fallback : Params) :
    Within late 2 (fetch w ticket fallback).2 := by
  have hsound : (replyNow w fallback).Sound := fun fault => hx.balance _ _ _ fault
  rw [fetch_eq]
  split
  · exact within_finish _ ticket _ hsound 2
  · exact ⟨hsound, Nat.lt_succ_self _⟩

theorem within_await (ticket : Nat) (fallback : Params) :
    Within late 3 (await w ticket fallback).2 := by
  unfold await
  split
  · exact (within_fetch w hx ticket fallback).mono (Nat.le_succ _)
  · exact ⟨trivial, Nat.lt_succ_self _⟩

theorem within_queue (fallback : Params) : Within late 3 (queue w fallback).2 :=
  within_await _ hx _ fallback

theorem within_begin (fallback : Params) : Within late 4 (begin w fallback).2 := by
  have hqueue : Within late 3 (queue w fallback).2 := within_queue w hx fallback
  unfold begin
  split
  · unfold join
    split
    · split
      · trivial
      · exact hqueue.mono (Nat.le_succ _)
    · exact ⟨trivial, Nat.lt_succ_self _⟩
  · exact hqueue.mono (Nat.le_succ _)

theorem nears_resume {r : Refresh} (h : sound r) : Nears late w (delay r) (r.resume w) := by
  cases r with
  | joining seen deadline fallback =>
    simp only [resume, join]
    split
    · split
      · exact .inl trivial
      · exact .inl (within_queue w hx fallback)
    · next hover =>
      refine .inr ⟨_, rfl, trivial, rfl, ?_, by rintro _ ⟨⟩⟩
      have hearly : ¬ deadline ≤ w.now := fun hle => hover (by simp [joinOver, hle])
      simpa [Awaited.isThere, delay] using hearly
  | queueing ticket fallback =>
    simp only [resume, await]
    split
    · exact .inl (within_fetch w hx ticket fallback)
    · next hturn =>
      exact .inr ⟨_, rfl, trivial, rfl, by simpa [Awaited.isThere, delay] using hturn,
        fun _ _ => rfl⟩
  | fetching ticket started due reply =>
    simp only [resume]
    split
    · exact .inl (within_finish w ticket started h _)
    · next hearly =>
      exact .inr ⟨_, rfl, h, rfl, by simpa [Awaited.isThere, delay] using hearly,
        by rintro _ ⟨⟩⟩

end Refresh

/-! ## What reading leaves alone -/

/-- Who reads balances leaves the clock alone. -/
theorem Reads.now {w w' : World ε} {cs cs' : List Call} (h : Reads w cs w' cs') :
    w'.now = w.now := by
  have hcalls : CallInvariant fun (w' : World ε) _ => w'.now = w.now :=
    { perm := fun h _ => h
      turn := fun _ =>
        { join := fun h _ => h
          leave := fun h _ => h
          draw := fun h => h
          ask := fun h _ => h
          finish := fun h _ => by rw [Refresh.finish_fst]; exact h }
      lock := fun h => h
      take := fun h _ => h
      drop := fun {w' _ c} h => by
        obtain ⟨lock, inFlight, hw⟩ := c.drop_eq w'
        rw [hw]
        exact h }
  obtain ⟨s, rfl, -, ms, hreading, rfl, -⟩ := h.exists_run
  refine hcalls.run rfl fun s hs m hm hother => ?_
  have hreads := hreading m hm
  cases m with
  | enter | lock | resume | drop => cases hother
  | start =>
    obtain ⟨poller, started, loops, nextLoop, journal, hw⟩ := s.world.start_eq
    exact (congrArg World.now hw).trans hs
  | business exchange events => exact (World.now_logAll ..).trans hs
  | elapse | stop | reset | renewView | signal | push | release | loops => cases hreads

/-- The lock stays with the calls of the task, if it is the only one. -/
theorem Leads.exclusive {ok : Calls.Move ε → Prop} {w w' : World ε} {cs cs' : List Call}
    (h : Leads ok w cs w' cs') (hlock : Exclusive w.watcher cs) : Exclusive w'.watcher cs' := by
  obtain ⟨s, rfl, rfl, ms, -, rfl, hperm⟩ := h.exists_run
  exact (Exclusive.run hlock ms).perm hperm

/-! ## Waits for a fresh balance -/

/-- What a wait is for. -/
def FreshWait.goal : FreshWait → FreshGoal
  | .forcing goal _ | .pausing goal _ | .watching goal _ _ => goal

instance : Staged FreshWait where
  delay f := ⟨1, .time f.goal.deadline⟩
  sound
    | .forcing _ r => sound r
    | .pausing .. | .watching .. => True

namespace FreshWait

/-- The wait is over, or goes on for its goal before the deadline. -/
def Goes (goal : FreshGoal) : World ε × Progress FreshWait Bool → Prop
  | (w, .blocked f) => sound f ∧ f.goal = goal ∧ w.now < goal.deadline
  | (_, .done _) => True
  | (_, .crashed) => False

variable {w}

omit [Exchange ε] in
theorem Goes.within {goal : FreshGoal} {r : World ε × Progress FreshWait Bool}
    (h : Goes goal r) : Within late 2 r.2 := by
  obtain ⟨w, p⟩ := r
  cases p with
  | blocked f => exact ⟨h.1, Nat.lt_succ_self _⟩
  | done a => trivial
  | crashed => exact h.elim

omit [Exchange ε] in
theorem Goes.nears {goal : FreshGoal} {r : World ε × Progress FreshWait Bool}
    (h : Goes goal r) (hnow : r.1.now = w.now) : Nears late w ⟨1, .time goal.deadline⟩ r := by
  obtain ⟨w', p⟩ := r
  cases p with
  | blocked f =>
    obtain ⟨hsound, rfl, hearly⟩ := h
    refine .inr ⟨f, rfl, hsound, rfl, ?_, by rintro _ ⟨⟩⟩
    have hlt : w.now < f.goal.deadline := hnow ▸ hearly
    simpa [Awaited.isThere] using hlt
  | done a => exact .inl trivial
  | crashed => exact h.elim

variable (w) (goal : FreshGoal)

omit [Exchange ε] in
theorem goes_unlessLate (drop : World ε → World ε) {f : FreshWait} (hf : sound f)
    (hgoal : f.goal = goal) : Goes goal (unlessLate w goal drop f) := by
  unfold unlessLate
  split
  · trivial
  · next hearly => exact ⟨hf, hgoal, Int.not_le.1 hearly⟩

omit [Exchange ε] in
theorem goes_watch (prev : Timestamp) : Goes goal (watch w goal prev) := by
  unfold watch
  split
  · trivial
  · split
    · trivial
    · next hearly => exact ⟨trivial, rfl, Int.not_le.1 hearly⟩

omit [Exchange ε] in
theorem goes_settle (known : Option Timestamp) : Goes goal (settle w goal known) := by
  unfold settle
  dsimp only
  split
  · trivial
  · exact goes_watch w goal _

omit [Exchange ε] in
theorem goes_afterRefresh {n : Nat} {r : World ε × Progress Refresh Unit} (h : Within False n r.2) :
    Goes goal (afterRefresh goal r) := by
  obtain ⟨w, p⟩ := r
  cases p with
  | blocked r => exact goes_unlessLate w goal r.drop h.1 rfl
  | crashed => exact h
  | done u =>
    simp only [afterRefresh]
    split
    · exact goes_settle w goal _
    · exact goes_unlessLate w goal id trivial rfl

variable (hx : Faultless ε)
include hx

theorem goes_start (force : Bool) : Goes goal (start w goal force) := by
  unfold start
  split
  · exact goes_settle w goal _
  · split
    · exact goes_afterRefresh goal (Refresh.within_begin w hx [])
    · exact goes_settle w goal _

theorem within_begin (currency : Option String) (since : Option Timestamp) (waitFor : Duration)
    (force : Bool) : Within (¬ w.Reaches waitFor) 2 (begin w currency since waitFor force).2 := by
  by_cases hreaches : w.Reaches waitFor
  · rw [begin_of_reaches hreaches]
    exact (goes_start w _ hx force).within
  · rw [begin_of_not_reaches hreaches]
    exact hreaches

theorem nears_resume {f : FreshWait} (h : sound f) : Nears late w (delay f) (f.resume w) := by
  have hgoes : Goes f.goal (f.resume w) → Nears late w (delay f) (f.resume w) := fun h =>
    h.nears (Reads.now (leads_resume w f))
  refine hgoes ?_
  cases f with
  | forcing goal r =>
    obtain hwithin | ⟨s, hs, hsound, -⟩ := Refresh.nears_resume w hx h
    · exact goes_afterRefresh goal hwithin
    · refine goes_afterRefresh (n := (delay s).stages + 1) goal ?_
      rw [hs]
      exact ⟨hsound, Nat.lt_succ_self _⟩
  | pausing goal until_ =>
    simp only [resume]
    split
    · exact goes_afterRefresh goal (Refresh.within_begin w hx [])
    · exact goes_unlessLate w goal id trivial rfl
  | watching goal prev heard =>
    simp only [resume]
    split
    · exact goes_watch w goal prev
    · next hover =>
      refine ⟨trivial, rfl, ?_⟩
      simp only [Bool.or_eq_true, decide_eq_true_eq, not_or, Int.not_le] at hover
      exact hover.2

end FreshWait

/-! ## Reads -/

instance : Staged LiveRead where
  delay
    | .refreshing _ r => (delay r).before 4
    | .waiting _ f => (delay f).before 3
    | .retrying _ r => (delay r).before 0
  sound
    | .refreshing _ r | .retrying _ r => sound r
    | .waiting _ f => sound f

/-- A read on these terms may have to wait, and the clock cannot tell until when. -/
def World.Overruns (w : World ε) (o : LiveOptions) : Prop :=
  (o.since.isSome = true ∨ o.force = true) ∧ ¬ w.Reaches o.waitFor

omit [Exchange ε] in
theorem World.overruns_congr {w w' : World ε} (h : w'.now = w.now) (o : LiveOptions) :
    w'.Overruns o ↔ w.Overruns o := by
  rw [Overruns, Overruns, reaches_congr h]

namespace LiveRead

theorem mayWait_of_mustWait {w : Watcher} {q : LiveQuery} (h : mustWait w q = true) :
    q.options.since.isSome = true ∨ q.options.force = true := by
  rw [mustWait, Bool.or_eq_true, Bool.and_eq_true, Bool.and_eq_true] at h
  exact h.symm.imp And.left And.left

theorem stages_pos (l : LiveRead) : 0 < (delay l).stages := by
  cases l with
  | refreshing q r => exact Nat.lt_of_lt_of_le r.stages_pos (Nat.le_add_right _ 4)
  | waiting q f => exact Nat.succ_pos 3
  | retrying q r => exact r.stages_pos

omit [Exchange ε] in
theorem within_serve (q : LiveQuery) (n : Nat) : Within late n (serve w q).2 :=
  trivial

omit [Exchange ε] in
theorem within_afterRetry {n : Nat} {q : LiveQuery} {r : World ε × Progress Refresh Unit}
    (h : Within late n r.2) : Within late n (afterRetry q r).2 :=
  h.andThen (k := 0) (fun _ h => h) (fun _ => rfl) fun _ => within_serve _ q _

variable (hx : Faultless ε)
include hx

theorem within_afterFresh (q : LiveQuery) (fresh : Bool) :
    Within late 4
      (if fresh then serve w q else afterRetry q (Refresh.begin w q.options.fallback)).2 := by
  split
  · exact within_serve w q 4
  · exact within_afterRetry (Refresh.within_begin w hx _)

theorem within_secondStage (q : LiveQuery) :
    Within (w.Overruns q.options) 5 (secondStage w q).2 := by
  unfold secondStage
  split
  · next hwait =>
    refine Within.andThen (k := 3) ?_ (fun _ h => h) (fun _ => rfl) fun fresh =>
      (within_afterFresh _ hx q fresh).mono (Nat.le_succ _)
    exact (FreshWait.within_begin w hx ..).imp fun hlate => ⟨mayWait_of_mustWait hwait, hlate⟩
  · exact within_serve w q 5

/-- The second stage of a read at the time at which its first one ended. -/
theorem within_secondStage_of_now {w' : World ε} (hnow : w'.now = w.now) (q : LiveQuery) :
    Within (w.Overruns q.options) 5 (secondStage w' q).2 :=
  (within_secondStage w' hx q).imp (World.overruns_congr hnow q.options).1

theorem within_begin (q : LiveQuery) : Within (w.Overruns q.options) 8 (begin w q).2 := by
  have hstart : w.start.now = w.now := Reads.now (Leads.start w [])
  unfold begin
  dsimp only
  split
  · refine (Refresh.within_begin _ hx _).andThen (k := 4) (fun _ h => h) (fun _ => rfl)
      fun _ => (within_secondStage_of_now w hx ?_ q).mono (by decide)
    exact (Reads.now (Refresh.leads_begin ..)).trans hstart
  · exact (within_secondStage_of_now w hx hstart q).mono (by decide)

theorem nears_resume {l : LiveRead} (h : sound l) :
    Nears (w.Overruns l.query.options) w (delay l) (l.resume w) := by
  cases l with
  | refreshing q r =>
    have hpos := r.stages_pos
    exact (Refresh.nears_resume w hx h).andThen (k := 4) (fun _ h => h) (fun _ => rfl)
      fun _ => (within_secondStage_of_now w hx (Reads.now (Refresh.leads_resume w r)) q).mono
        (by omega)
  | waiting q f =>
    exact (FreshWait.nears_resume w hx h).andThen (k := 3) (fun _ h => h) (fun _ => rfl)
      fun fresh => within_afterFresh _ hx q fresh
  | retrying q r =>
    exact (Refresh.nears_resume w hx h).andThen (k := 0) (fun _ h => h) (fun _ => rfl)
      fun _ => within_serve _ q _

end LiveRead

/-! ## The work on an asset -/

instance : Staged ShareState where
  delay
    | .fresh => ⟨9, .nothing⟩
    | .reading l => (delay l).before 1
    | .pricing _ due _ => ⟨1, .time due⟩
    | .finished _ => ⟨0, .nothing⟩
  sound
    | .fresh | .finished _ => True
    | .reading l => sound l
    | .pricing _ _ reply => reply.Sound

/-- A valuation on these terms reads balances and may have to wait, and the clock cannot tell until
when. -/
def World.OverrunsFor (w : World ε) (o : ValuationOptions) : Prop :=
  o.useLocalBalances = false ∧ w.Overruns o.live

omit [Exchange ε] in
theorem World.overrunsFor_congr {w w' : World ε} (h : w'.now = w.now) (o : ValuationOptions) :
    w'.OverrunsFor o ↔ w.OverrunsFor o := by
  rw [OverrunsFor, OverrunsFor, overruns_congr h]

namespace Share

/-- A balance that is being read is read on the terms of the valuation. -/
def KeepsTo (o : ValuationOptions) (share : Share) : Prop :=
  ∀ l, share.state = .reading l → o.useLocalBalances = false ∧ l.query.options = o.live

omit [Exchange ε] in
theorem within_close (o : ValuationOptions) (a : Asset) (free : Float) {reply : Reply Float}
    (h : reply.Sound) (n : Nat) : Within late n (close w o a free reply).2 := by
  unfold close
  dsimp only
  split
  · trivial
  · trivial
  · next fault hfault => exact absurd hfault (h fault)

variable (hx : Faultless ε)
include hx

theorem within_ask (o : ValuationOptions) (a : Asset) (free : Float) :
    Within late 2 (ask w o a free).2 := by
  have hsound : (Exchange.fetchPrice w.exchange w.now a.pair).2.Sound :=
    fun fault => hx.price _ _ _ fault
  unfold ask
  dsimp only
  split
  · exact within_close _ o a free hsound 2
  · exact ⟨hsound, Nat.lt_succ_self _⟩

theorem nears_resume (o : ValuationOptions) {share : Share} (h : sound share.state)
    (hterms : share.KeepsTo o) :
    Nears (w.OverrunsFor o) w (delay share.state) (share.resume w o) := by
  obtain ⟨a, state⟩ := share
  cases state with
  | fresh =>
    refine .inl ?_
    simp only [resume]
    split
    · exact (within_ask w hx o a _).mono (by decide)
    · next hexchange =>
      have hlocal : o.useLocalBalances = false := by
        simp only [Bool.or_eq_true, not_or, Bool.not_eq_true] at hexchange
        exact hexchange.2
      refine Within.andThen (k := 1) ?_ (fun _ h => h) (fun _ => rfl)
        fun _ => (within_ask _ hx o a _).mono (by decide)
      exact (LiveRead.within_begin w hx _).imp fun hlate => ⟨hlocal, hlate⟩
  | reading l =>
    obtain ⟨hlocal, hlive⟩ := hterms l rfl
    have hpos := l.stages_pos
    refine Nears.andThen (k := 1) ?_ (fun _ h => h) (fun _ => rfl)
      fun _ => (within_ask _ hx o a _).mono (by omega)
    exact (LiveRead.nears_resume w hx h).imp fun hlate => ⟨hlocal, hlive ▸ hlate⟩
  | pricing free due reply =>
    simp only [resume]
    split
    · exact .inl (within_close w o a free h _)
    · next hearly =>
      exact .inr ⟨_, rfl, h, rfl, by simpa [Awaited.isThere, delay] using hearly,
        by rintro _ ⟨⟩⟩
  | finished value => exact .inl trivial

end Share

end Portfolio
