import Portfolio.Proofs.Alone.Delay
import Portfolio.Proofs.Polling.Invariant

/-! # What ends a poll loop

At the turn in which a reply is due a loop goes on unless the reply is a fault
(`World.isAlive_runLoop`). If the exchange never answers with one, then nothing ends the loop that a
watcher knows, in whatever way tasks use the watcher, so long as somebody holds it
(`Tasks.isAlive_run`). -/

namespace Portfolio

open World Staged

section
variable {ε : Type} [Exchange ε] {w w' : World ε}

/-! ## Turns -/

/-- No reply that the loop waits for is a fault. -/
def PollState.IsSound : PollState → Prop
  | .starting | .ticking _ => True
  | .refreshing _ r => sound r

/-- A turn of a refresh does not give the watcher up. -/
theorem Refresh.turnInvariant_released (released : Bool) :
    TurnInvariant fun (w : World ε) _ => w.released = released where
  join h _ := h
  leave h _ := h
  draw h := h
  ask h _ := h
  finish h _ := by rw [finish_fst]; exact h

namespace PollState

/-- The loop waits, and for no fault. -/
def GoesOn (r : World ε × Progress PollState Unit) : Prop :=
  ∃ state, r.2 = .blocked state ∧ state.IsSound

variable (hx : Faultless ε)
include hx

theorem goesOn_tick (fuel : Nat) (hheld : w.released = false) (due : Int) :
    GoesOn (tick fuel w due) := by
  induction fuel generalizing w due with
  | zero => exact ⟨_, rfl, trivial⟩
  | succ fuel ih =>
    unfold tick
    split
    · rw [hheld]
      simp only [Bool.false_eq_true, if_false]
      have hwithin : Within False 4 (Refresh.begin w []).2 := Refresh.within_begin w hx []
      have hreleased : (Refresh.begin w []).1.released = w.released :=
        (Refresh.turnInvariant_released _).begin rfl
      generalize Refresh.begin w [] = r at hwithin hreleased
      obtain ⟨w', p⟩ := r
      cases p with
      | blocked r => exact ⟨_, rfl, hwithin.1⟩
      | done => exact ih (hreleased.trans hheld) _
      | crashed => exact hwithin.elim
    · exact ⟨_, rfl, trivial⟩

theorem goesOn_resume (hheld : w.released = false) {s : PollState} (hs : s.IsSound) :
    GoesOn (s.resume w) := by
  cases s with
  | starting => exact goesOn_tick hx _ hheld _
  | ticking due => exact goesOn_tick hx _ hheld due
  | refreshing next r =>
    have hnears : Nears False w (Staged.delay r) (r.resume w) := Refresh.nears_resume w hx hs
    have hreleased : (r.resume w).1.released = w.released :=
      (Refresh.turnInvariant_released _).resume rfl
    simp only [resume]
    generalize r.resume w = p at hnears hreleased
    obtain ⟨w', p⟩ := p
    cases p with
    | blocked r =>
      rcases hnears with hwithin | ⟨r', hr, hsound, -⟩
      · exact ⟨_, rfl, hwithin.1⟩
      · obtain rfl := Progress.blocked.inj hr
        exact ⟨_, rfl, hsound⟩
    | done => exact goesOn_tick hx _ (hreleased.trans hheld) next
    | crashed => exact hnears.late_of_crashed.elim

end PollState

/-- The next tick of a loop that waits for a reply, when the reply is due, and the reply. -/
def PollState.awaited? : PollState → Option (Int × Int × Reply Json.Value)
  | .refreshing next (.fetching _ _ due reply) => some (next, due, reply)
  | _ => none

/-- It is the loop's turn with a reply, and its next tick comes later. -/
structure PollLoop.Hears (l : PollLoop) (w : World ε) (reply : Reply Json.Value) : Prop where
  mem : l ∈ w.loops
  live : l.aborted = false
  state : ∃ next due, l.state.awaited? = some (next, due, reply) ∧ due ≤ w.now ∧ w.now < next

/-- A loop that has its turn with a reply goes on unless the reply is a fault. -/
theorem World.isAlive_runLoop {l : PollLoop} {reply : Reply Json.Value} (h : l.Hears w reply) :
    (w.runLoop l).isAlive l.id = true ↔ reply.Sound := by
  obtain ⟨hl, hlive, next, due, hawaited, hdue, hnext⟩ := h
  obtain ⟨ticket, started, hstate⟩ :
      ∃ ticket started, l.state = .refreshing next (.fetching ticket started due reply) := by
    unfold PollState.awaited? at hawaited
    split at hawaited
    · next hstate =>
      cases hawaited
      exact ⟨_, _, hstate⟩
    · cases hawaited
  have hsame : SamePolls w (Refresh.finish w ticket started reply).1 := .finish ..
  have hnow : (Refresh.finish w ticket started reply).1.now = w.now := by rw [Refresh.finish_fst]
  have hgone : (Refresh.finish w ticket started reply).2 = .crashed ↔ ¬ reply.Sound := by
    unfold Refresh.finish Reply.Sound
    cases reply.outcome with
    | answer v =>
      dsimp only
      split <;> simp
    | failure e =>
      dsimp only
      split <;> simp
    | crash fault => simp
  have hleft := Refresh.left_finish w ticket started reply
  unfold runLoop
  rw [hlive, hstate]
  simp only [Bool.false_eq_true, if_false, PollState.resume, Refresh.resume, hdue, if_true]
  generalize Refresh.finish w ticket started reply = r at hsame hnow hgone hleft
  obtain ⟨u, p⟩ := r
  cases p with
  | blocked r => cases hleft
  | crashed =>
    have hfault := hgone.1 rfl
    exact iff_of_false (fun halive => (isAlive_removeLoop.1 halive).1 rfl) hfault
  | done =>
    have hsound : reply.Sound := by
      by_contra hfault
      cases hgone.2 hfault
    refine iff_of_true ?_ hsound
    have hearly : ¬ next ≤ u.now := by
      rw [hnow]
      omega
    simp only [Progress.andThen, PollState.await, PollState.dueTicks, PollState.tick, hearly,
      if_false]
    rw [isAlive_setLoop]
    exact isAlive_iff.2 ⟨l, hsame.loops ▸ hl, rfl⟩

/-! ## Runs -/

/-- The watcher was given up, or no loop waits for a fault and the one that is known is there. -/
structure World.Healthy (w : World ε) : Prop where
  once : w.PollsOnce
  sound : w.released = false → ∀ l ∈ w.loops, l.state.IsSound
  alive : w.released = false → ∀ id, w.watcher.poller = some id → w.isAlive id = true

namespace World.Healthy

omit [Exchange ε] in
theorem same (h : w.Healthy) (hsame : SamePolls w w')
    (hheld : w'.released = false → w.released = false) : w'.Healthy where
  once := h.once.same hsame
  sound hrel := hsame.loops ▸ h.sound (hheld hrel)
  alive hrel id hid := by
    have halive := h.alive (hheld hrel) id (hsame.poller ▸ hid)
    unfold isAlive at halive ⊢
    rwa [hsame.loops]

omit [Exchange ε] in
theorem spawn (hsound : w.released = false → ∀ l ∈ w.loops, l.state.IsSound)
    (honce : w.spawn.PollsOnce) : w.spawn.Healthy where
  once := honce
  sound hheld l hl := by
    rcases List.mem_append.1 hl with hl | hl
    · exact hsound hheld l hl
    · rw [List.mem_singleton.1 hl]
      trivial
  alive hheld id hid := by
    obtain rfl := Option.some.inj hid
    exact isAlive_iff.2 ⟨_, List.mem_append_right _ List.mem_cons_self, rfl⟩

theorem start (h : w.Healthy) : w.start.Healthy := by
  have honce := h.once.beginStart.1
  have hbegin : w.beginStart.1.Healthy := by
    rcases w.beginStart_cases with ⟨-, he⟩ | ⟨-, ⟨-, journal, he⟩ | ⟨-, he⟩⟩
    · rw [he]
      exact h
    · rw [he] at honce ⊢
      exact ⟨honce, h.sound, h.alive⟩
    · rw [he] at honce ⊢
      exact spawn h.sound honce
  rw [start_eq_reportStart]
  split
  · exact hbegin.same ⟨rfl, rfl, rfl, rfl, rfl⟩ id
  · exact hbegin

omit [Exchange ε] in
theorem stop (h : w.Healthy) : w.stop.Healthy := by
  have honce := h.once.stop.1
  obtain ⟨journal, he⟩ := w.stop_eq
  refine ⟨honce, fun hheld l hl => ?_, fun _ id hid => ?_⟩
  · rw [he] at hheld hl
    have hsound := h.sound hheld
    cases hknown : w.watcher.poller with
    | none =>
      rw [hknown] at hl
      exact hsound l hl
    | some id =>
      rw [hknown] at hl
      obtain ⟨m, hm, rfl⟩ := List.mem_map.1 hl
      have hstate : (abort id m).state = m.state := by
        unfold abort
        split <;> rfl
      rw [hstate]
      exact hsound m hm
  · rw [he] at hid
    cases hid

variable (hx : Faultless ε)
include hx

/-- A turn ends a loop only if it was told to stop. -/
theorem runLoop (h : w.Healthy) {l : PollLoop} (hl : l ∈ w.loops) : (w.runLoop l).Healthy := by
  unfold World.runLoop
  split
  · next htold =>
    have hsame := l.state.samePolls_drop w
    have hdrop : (l.state.drop w).Healthy := h.same hsame fun hheld => by
      cases hs : l.state with
      | starting | ticking => rwa [hs] at hheld
      | refreshing next r => rw [hs] at hheld; cases r <;> exact hheld
    have hlu : l ∈ (l.state.drop w).loops := hsame.loops ▸ hl
    refine ⟨hdrop.once.removeLoop hlu, fun hheld m hm => ?_, fun hheld id hid => ?_⟩
    · exact hdrop.sound hheld m (List.mem_of_mem_filter hm)
    · have hother : id ≠ l.id := fun heq => hdrop.once.poller_ne hlu htold (heq ▸ hid)
      exact isAlive_removeLoop.2 ⟨hother, hdrop.alive hheld id hid⟩
  · have hsame := l.state.samePolls_resume w
    have hreleased : (l.state.resume w).1.released = w.released :=
      PollState.keeps_resume (Refresh.turnInvariant_released _) rfl l.state
    have hgoes : w.released = false → PollState.GoesOn (l.state.resume w) := fun hheld =>
      PollState.goesOn_resume hx hheld (h.sound hheld l hl)
    generalize l.state.resume w = r at hsame hreleased hgoes
    obtain ⟨u, p⟩ := r
    have hu : u.Healthy := h.same hsame fun hheld => hreleased ▸ hheld
    have hlu : l ∈ u.loops := hsame.loops ▸ hl
    cases p with
    | blocked state =>
      refine ⟨hu.once.setLoop hlu state, fun hheld m hm => ?_, fun hheld id hid => ?_⟩
      · obtain ⟨k, hk, rfl⟩ := List.mem_map.1 hm
        split
        · obtain ⟨state', hstate, hsound⟩ := hgoes (hreleased ▸ hheld)
          obtain rfl := Progress.blocked.inj hstate
          exact hsound
        · exact hu.sound hheld k hk
      · exact (isAlive_setLoop ..).trans (hu.alive hheld id hid)
    | done | crashed =>
      -- a loop whose watcher is held goes on
      have hgiven : u.released ≠ false := fun hheld => by
        obtain ⟨state, hstate, -⟩ := hgoes (hreleased ▸ hheld)
        cases hstate
      exact ⟨hu.once.removeLoop hlu, fun hheld => absurd hheld hgiven,
        fun hheld => absurd hheld hgiven⟩

theorem invariant : PollInvariant fun w : World ε => w.Healthy where
  same h hsame hheld := h.same hsame hheld
  start h := h.start
  stop h := h.stop
  turn h hfind := h.runLoop hx (List.mem_of_find?_eq_some hfind)

end World.Healthy

/-- While somebody holds the watcher, the loop that it knows has not ended. -/
theorem Tasks.isAlive_run (hx : Faultless ε) (now : Int) (exchange : ε) (strategy : Strategy)
    (pollInterval : Duration) (capacity : Nat) (ms : List (Tasks.Move ε)) :
    let w := ((Tasks.new now exchange (.new strategy pollInterval capacity)).run ms).world
    w.released = false → ∀ id, w.watcher.poller = some id → w.isAlive id = true := by
  intro w
  have hnew : (Tasks.new now exchange (.new strategy pollInterval capacity)).world.Healthy :=
    ⟨.new now exchange strategy pollInterval capacity, fun _ _ hl => absurd hl List.not_mem_nil,
      fun _ _ hid => nomatch hid⟩
  exact ((World.Healthy.invariant hx).run hnew ms).alive

end

end Portfolio
