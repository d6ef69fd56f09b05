import Portfolio.Proofs.Polling.Basic
import Portfolio.Proofs.Tasks.Basic

/-! # Invariants of poll loops

Tasks touch the loops of a watcher in three ways: they start it, they stop it, and loops get their
turns. `PollInvariant P` says that these keep `P`, and so does all that leaves the loops alone; then
every run of tasks keeps it (`PollInvariant.run`). -/

namespace Portfolio

open World

variable {ε : Type} [Exchange ε]

/-- `P` is kept by starts, by stops, by turns of loops, and by what does not touch the loops. A
watcher that was given up is not taken back. -/
structure PollInvariant (P : World ε → Prop) : Prop where
  same : ∀ {w w'}, P w → SamePolls w w' → (w'.released = false → w.released = false) → P w'
  start : ∀ {w}, P w → P w.start
  stop : ∀ {w}, P w → P w.stop
  turn : ∀ {w id l}, P w → w.loops.find? (·.id == id) = some l → P (w.runLoop l)

namespace PollInvariant

variable {P : World ε → Prop} (h : PollInvariant P)
include h

theorem callInvariant : CallInvariant fun w _ => P w where
  perm hp _ := hp
  turn _ :=
    { join := fun hp _ => hp
      leave := fun hp _ => hp
      draw := fun hp => h.same hp ⟨rfl, rfl, rfl, rfl, rfl⟩ id
      ask := fun hp _ => h.same hp ⟨rfl, rfl, rfl, rfl, rfl⟩ id
      finish := fun hp _ => h.same hp (.finish ..) fun hheld => by
        rwa [Refresh.finish_fst] at hheld }
  lock hp := h.same hp ⟨rfl, rfl, rfl, rfl, rfl⟩ id
  take hp _ := h.same hp ⟨rfl, rfl, rfl, rfl, rfl⟩ id
  drop {w _ c} hp := h.same hp (.drop w c) fun hheld => by
    obtain ⟨lock, inFlight, he⟩ := c.drop_eq w
    rwa [he] at hheld

/-- Moves that are no call's own. -/
theorem other {s : Calls ε} (hp : P s.world) {m : Calls.Move ε} (hacting : m.isActing = true)
    (hm : m.isCall = false) : P (s.step m).world := by
  cases m with
  | enter | lock | resume | drop => cases hm
  | loops => cases hacting
  | start => exact h.start hp
  | stop => exact h.stop hp
  | business exchange events =>
    have harranged : SamePolls s.world { s.world with exchange } := ⟨rfl, rfl, rfl, rfl, rfl⟩
    refine h.same hp (harranged.trans (.logAll _ events)) fun hheld => ?_
    simp only [Calls.step, Calls.onWorld] at hheld
    rwa [logAll_eq] at hheld
  | renewView => exact h.same hp (.renewView _) id
  | release => exact h.same hp ⟨rfl, rfl, rfl, rfl, rfl⟩ fun hheld => by cases hheld
  | elapse | reset | signal | push => exact h.same hp ⟨rfl, rfl, rfl, rfl, rfl⟩ id

theorem acts {w w' : World ε} {cs cs' : List Call} (hacts : Acts w cs w' cs') (hp : P w) :
    P w' := by
  obtain ⟨s, rfl, -, ms, hms, rfl, -⟩ := hacts.exists_run
  exact h.callInvariant.run hp fun s hs m hm ho => h.other hs (hms m hm) ho

/-- One move of the tasks. -/
theorem step {s : Tasks ε} (hp : P s.world) (m : Tasks.Move ε) : P (s.step m).world := by
  cases m with
  | begin a => exact h.acts (a.leads_begin s.world) hp
  | resume place =>
    simp only [Tasks.step]
    split
    · next d _ => exact h.acts (d.leads_resume s.world) hp
    · exact hp
  | drop place =>
    simp only [Tasks.step]
    split
    · next d _ => exact h.acts (d.leads_drop s.world) hp
    · exact hp
  | loop id =>
    simp only [Tasks.step]
    split
    · next l hfind => exact h.turn hp hfind
    · exact hp
  | elapse => exact h.same hp ⟨rfl, rfl, rfl, rfl, rfl⟩ fun hheld => hheld
  | release => exact h.same hp ⟨rfl, rfl, rfl, rfl, rfl⟩ fun hheld => by cases hheld

theorem run {s : Tasks ε} (hp : P s.world) (ms : List (Tasks.Move ε)) : P (s.run ms).world := by
  induction ms generalizing s with
  | nil => exact hp
  | cons m ms ih => exact ih (h.step hp m)

end PollInvariant

end Portfolio
