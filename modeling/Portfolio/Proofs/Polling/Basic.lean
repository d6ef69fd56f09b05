import Portfolio.Proofs.Tasks.Loops

/-! # The poll loop that a watcher knows

A watcher knows one poll loop at most, and that is the only one that was not told to stop
(`World.PollsOnce`). Starts, stops and turns of loops keep this: a start makes a loop only where the
one that is known has ended, and a stop tells the one that is known before it forgets it. What is
done to the watcher otherwise does not touch the loops (`World.SamePolls`). -/

namespace Portfolio

namespace World

variable {ε : Type} {w w' w'' : World ε}

/-! ## What leaves the loops alone -/

/-- Nothing was done to the loops, nor to what the watcher knows of them. -/
structure SamePolls (w w' : World ε) : Prop where
  poller : w'.watcher.poller = w.watcher.poller
  started : w'.watcher.started = w.watcher.started
  pollInterval : w'.watcher.pollInterval = w.watcher.pollInterval
  loops : w'.loops = w.loops
  nextLoop : w'.nextLoop = w.nextLoop

namespace SamePolls

theorem refl (w : World ε) : SamePolls w w :=
  ⟨rfl, rfl, rfl, rfl, rfl⟩

theorem trans (h : SamePolls w w') (h' : SamePolls w' w'') : SamePolls w w'' :=
  ⟨h'.poller.trans h.poller, h'.started.trans h.started, h'.pollInterval.trans h.pollInterval,
    h'.loops.trans h.loops, h'.nextLoop.trans h.nextLoop⟩

theorem renewView (w : World ε) : SamePolls w (w.onWatcher .renewView) := by
  refine ⟨?_, ?_, Watcher.pollInterval_renewView _, rfl, rfl⟩ <;>
    simp only [watcher_onWatcher] <;> unfold Watcher.renewView <;> split <;> rfl

theorem logAll (w : World ε) (es : List Event) : SamePolls w (w.logAll es) := by
  constructor <;> simp

theorem finish [Exchange ε] (w : World ε) (ticket : Nat) (started : Timestamp)
    (reply : Reply Json.Value) : SamePolls w (Refresh.finish w ticket started reply).1 := by
  have hwatcher := Refresh.watcher_finish w ticket started reply
  rw [Refresh.finish_fst]
  split at hwatcher
  · rw [Watcher.land_eq] at hwatcher
    exact ⟨by rw [hwatcher]; rfl, by rw [hwatcher]; rfl, by rw [hwatcher]; rfl, rfl, rfl⟩
  · exact ⟨by rw [hwatcher]; rfl, by rw [hwatcher]; rfl, by rw [hwatcher]; rfl, rfl, rfl⟩

theorem drop (w : World ε) (c : Call) : SamePolls w (c.drop w) := by
  obtain ⟨lock, inFlight, h⟩ := c.drop_eq w
  rw [h]
  exact ⟨rfl, rfl, rfl, rfl, rfl⟩

end SamePolls

end World

open World

section
variable {ε : Type} [Exchange ε]

theorem World.SamePolls.turnInvariant (w : World ε) :
    TurnInvariant fun w' _ => SamePolls w w' where
  join h _ := h
  leave h _ := h
  draw h := h.trans ⟨rfl, rfl, rfl, rfl, rfl⟩
  ask h _ := h.trans ⟨rfl, rfl, rfl, rfl, rfl⟩
  finish h _ := h.trans (.finish ..)

namespace PollState

section
variable {P : World ε → Prop} (h : TurnInvariant fun w _ => P w)
include h

/-- What every act of a refresh keeps, the ticks of a loop keep. -/
theorem keeps_tick (fuel : Nat) {w : World ε} (hp : P w) (due : Int) : P (tick fuel w due).1 := by
  induction fuel generalizing w due with
  | zero => exact hp
  | succ fuel ih =>
    unfold tick
    split
    · split
      · exact hp
      · have hbegin : P (Refresh.begin w []).1 := h.begin hp
        generalize Refresh.begin w [] = r at hbegin
        obtain ⟨w', p⟩ := r
        cases p with
        | blocked r => exact hbegin
        | done => exact ih hbegin _
        | crashed => exact hbegin
    · exact hp

theorem keeps_resume {w : World ε} (hp : P w) (s : PollState) : P (s.resume w).1 := by
  cases s with
  | starting => exact keeps_tick h _ hp _
  | ticking due => exact keeps_tick h _ hp due
  | refreshing next r =>
    have hresume : P (r.resume w).1 := h.resume hp
    simp only [resume]
    generalize r.resume w = p at hresume
    obtain ⟨w', p⟩ := p
    cases p with
    | blocked r => exact hresume
    | done => exact keeps_tick h _ hresume next
    | crashed => exact hresume

end

/-- The work of a loop does not touch the loops. -/
theorem samePolls_resume (w : World ε) (s : PollState) : SamePolls w (s.resume w).1 :=
  keeps_resume (SamePolls.turnInvariant w) (.refl w) s

omit [Exchange ε] in
theorem samePolls_drop (w : World ε) (s : PollState) : SamePolls w (s.drop w) := by
  cases s with
  | starting | ticking => exact .refl w
  | refreshing next r => exact .drop w (.refresh r)

end PollState

/-- A turn works beside the loops, and then the loop takes its new state or goes; one that was told
to stop goes. -/
theorem World.runLoop_cases (w : World ε) (l : PollLoop) :
    ∃ u, SamePolls w u ∧ (w.runLoop l = u.removeLoop l.id ∨
      l.aborted = false ∧ ∃ state, w.runLoop l = u.setLoop { l with state }) := by
  unfold runLoop
  split
  · exact ⟨_, l.state.samePolls_drop w, .inl rfl⟩
  · next hlive =>
    have hsame := l.state.samePolls_resume w
    generalize l.state.resume w = r at hsame
    obtain ⟨u, p⟩ := r
    refine ⟨u, hsame, ?_⟩
    cases p with
    | blocked state => exact .inr ⟨by simpa using hlive, state, rfl⟩
    | done | crashed => exact .inl rfl

end

/-! ## One loop -/

namespace World

variable {ε : Type} {w w' : World ε}

theorem isAlive_iff {id : Nat} : w.isAlive id = true ↔ ∃ l ∈ w.loops, l.id = id := by
  simp [isAlive]

theorem isPolling_iff : w.isPolling = true ↔ ∃ l ∈ w.loops, w.watcher.poller = some l.id := by
  unfold isPolling
  cases w.watcher.poller with
  | none => simp
  | some id =>
    simp only [isAlive_iff, Option.some.injEq]
    exact exists_congr fun l => and_congr_right fun _ => eq_comm

@[simp] theorem isAlive_setLoop (l : PollLoop) (id : Nat) :
    (w.setLoop l).isAlive id = w.isAlive id := by
  have hid (m : PollLoop) : (if m.id = l.id then l else m).id = m.id := by
    split
    · next he => exact he.symm
    · rfl
  simp only [isAlive, setLoop, List.any_map, Function.comp_def, hid]

theorem isAlive_removeLoop {i j : Nat} :
    (w.removeLoop i).isAlive j = true ↔ j ≠ i ∧ w.isAlive j = true := by
  simp only [isAlive_iff, removeLoop, List.mem_filter, bne_iff_ne]
  constructor
  · intro h
    obtain ⟨l, ⟨hl, hne⟩, rfl⟩ := h
    exact ⟨hne, l, hl, rfl⟩
  · intro h
    obtain ⟨hne, l, hl, rfl⟩ := h
    exact ⟨l, ⟨hl, hne⟩, rfl⟩

@[simp] theorem isPolling_setLoop (l : PollLoop) : (w.setLoop l).isPolling = w.isPolling := by
  have hpoller : (w.setLoop l).watcher.poller = w.watcher.poller := rfl
  simp only [isPolling, hpoller, isAlive_setLoop]

/-- The poll loops that were not told to stop. -/
def polls (w : World ε) : List PollLoop :=
  w.loops.filter (!·.aborted)

/-- Only the loop that the watcher knows was not told to stop, and a watcher without an interval
has none. -/
structure PollsOnce (w : World ε) : Prop where
  numbered : w.LoopsNumbered
  known : ∀ id, w.watcher.poller = some id → id < w.nextLoop
  current : ∀ l ∈ w.loops, l.aborted = false ↔ w.watcher.poller = some l.id
  started : w.isPolling = true → w.watcher.started = true
  idle : w.watcher.pollInterval.isZero = true → w.loops = [] ∧ w.watcher.poller = none

theorem SamePolls.isPolling (h : SamePolls w w') : w'.isPolling = w.isPolling := by
  unfold World.isPolling World.isAlive
  rw [h.poller, h.loops]

namespace PollsOnce

theorem new (now : Int) (exchange : ε) (strategy : Strategy) (pollInterval : Duration)
    (capacity : Nat) :
    (World.new now exchange (.new strategy pollInterval capacity)).PollsOnce where
  numbered := ⟨List.nodup_nil, fun _ h => absurd h List.not_mem_nil⟩
  known _ h := nomatch h
  current _ h := absurd h List.not_mem_nil
  started h := nomatch h
  idle _ := ⟨rfl, rfl⟩

theorem same (h : w.PollsOnce) (hsame : SamePolls w w') : w'.PollsOnce where
  numbered := ⟨hsame.loops ▸ h.numbered.nodup, by
    rw [hsame.loops, hsame.nextLoop]; exact h.numbered.lt_next⟩
  known id hid := by
    rw [hsame.nextLoop]
    exact h.known id (hsame.poller ▸ hid)
  current l hl := by
    rw [hsame.poller]
    exact h.current l (hsame.loops ▸ hl)
  started hpolling := by
    rw [hsame.started]
    exact h.started (hsame.isPolling ▸ hpolling)
  idle hzero := by
    rw [hsame.loops, hsame.poller]
    exact h.idle (hsame.pollInterval ▸ hzero)

/-- There is one loop, or none if the one that is known has ended. -/
theorem length_polls (h : w.PollsOnce) : w.polls.length = if w.isPolling then 1 else 0 := by
  have hmem {l : PollLoop} : l ∈ w.polls ↔ l ∈ w.loops ∧ w.watcher.poller = some l.id := by
    simp only [polls, List.mem_filter, Bool.not_eq_true']
    exact and_congr_right fun hl => h.current l hl
  split
  · next hpolling =>
    obtain ⟨l, hl, hknown⟩ := isPolling_iff.1 hpolling
    have hpos := List.length_pos_of_mem (hmem.2 ⟨hl, hknown⟩)
    have hnodup : (w.polls.map (·.id)).Nodup := h.numbered.nodup.sublist (List.filter_sublist.map _)
    have hall : ∀ id ∈ w.polls.map (·.id), l.id = id := by
      intro id hid
      obtain ⟨m, hm, rfl⟩ := List.mem_map.1 hid
      exact Option.some.inj (hknown.symm.trans (hmem.1 hm).2)
    -- all of them have the number that is known, and no number comes twice
    have hcount := List.nodup_iff_count_le_one.1 hnodup l.id
    rw [List.count_eq_length.2 hall, List.length_map] at hcount
    omega
  · next hpolling =>
    refine List.length_eq_zero_iff.2 (List.eq_nil_iff_forall_not_mem.2 fun l hl => hpolling ?_)
    exact isPolling_iff.2 ⟨l, hmem.1 hl⟩

/-! ### Turns of loops -/

theorem setLoop (h : w.PollsOnce) {l : PollLoop} (hl : l ∈ w.loops) (state : PollState) :
    (w.setLoop { l with state }).PollsOnce := by
  refine ⟨h.numbered.setLoop _, h.known, fun m hm => ?_, fun hpolling => ?_, fun hzero => ?_⟩
  · obtain ⟨k, hk, rfl⟩ := List.mem_map.1 hm
    split
    · exact h.current l hl
    · exact h.current k hk
  · rw [isPolling_setLoop] at hpolling
    exact h.started hpolling
  · exact absurd hl ((h.idle hzero).1 ▸ List.not_mem_nil)

/-- A loop that was told to stop is not the one that is known. -/
theorem poller_ne (h : w.PollsOnce) {l : PollLoop} (hl : l ∈ w.loops) (htold : l.aborted = true) :
    w.watcher.poller ≠ some l.id := by
  intro hknown
  rw [(h.current l hl).2 hknown] at htold
  cases htold

theorem isPolling_removeLoop (h : w.PollsOnce) {l : PollLoop} (hl : l ∈ w.loops) :
    (w.removeLoop l.id).isPolling = (l.aborted && w.isPolling) := by
  have hremoved {id : Nat} (hknown : w.watcher.poller = some id) :
      (w.removeLoop l.id).isPolling = (w.removeLoop l.id).isAlive id := by
    unfold World.isPolling
    rw [show (w.removeLoop l.id).watcher = w.watcher from rfl, hknown]
  by_cases htold : l.aborted = true
  · rw [htold, Bool.true_and]
    have hother := h.poller_ne hl htold
    cases hknown : w.watcher.poller with
    | none =>
      unfold World.isPolling
      rw [show (w.removeLoop l.id).watcher = w.watcher from rfl, hknown]
    | some id =>
      have hne : id ≠ l.id := fun heq => hother (hknown.trans (congrArg some heq))
      rw [hremoved hknown, Bool.eq_iff_iff, isAlive_removeLoop, and_iff_right hne]
      unfold World.isPolling
      rw [hknown]
  · have hlive : l.aborted = false := by simpa using htold
    rw [hlive, Bool.false_and, hremoved ((h.current l hl).1 hlive)]
    exact Bool.eq_false_iff.2 fun halive => (isAlive_removeLoop.1 halive).1 rfl

theorem removeLoop (h : w.PollsOnce) {l : PollLoop} (hl : l ∈ w.loops) :
    (w.removeLoop l.id).PollsOnce := by
  refine ⟨h.numbered.removeLoop _, h.known, fun m hm => ?_, fun hpolling => ?_, fun hzero => ?_⟩
  · exact h.current m (List.mem_of_mem_filter hm)
  · rw [h.isPolling_removeLoop hl, Bool.and_eq_true] at hpolling
    exact h.started hpolling.2
  · exact absurd hl ((h.idle hzero).1 ▸ List.not_mem_nil)

end PollsOnce

/-! ### Starts and stops -/

section
variable (w)

/-- A start up to the report of a new loop, and whether there is one to report. -/
def beginStart : World ε × Bool :=
  if w.isPolling then (w, false)
  else
    let wasStarted := w.watcher.started
    let w := w.onWatcher ({ · with started := true })
    if w.watcher.pollInterval.isZero then
      (if wasStarted then w else w.log (onDemandEvent w.watcher), false)
    else (w.spawn, true)

/-- The report at the end of a start. -/
def reportStart [Exchange ε] : World ε :=
  w.log (startedEvent (Exchange.name w.exchange) w.watcher)

theorem start_eq_reportStart [Exchange ε] :
    w.start = if w.beginStart.2 then w.beginStart.1.reportStart else w.beginStart.1 := by
  unfold start beginStart
  split
  · rfl
  · dsimp only
    split <;> rfl

/-- A start does nothing where a loop is running; else it raises the flag, and makes a loop if there
is an interval. -/
theorem beginStart_cases :
    w.isPolling = true ∧ w.beginStart = (w, false) ∨
      w.isPolling = false ∧
        (w.watcher.pollInterval.isZero = true ∧
            (∃ journal, w.beginStart =
              ({ w.onWatcher ({ · with started := true }) with journal }, false)) ∨
          w.watcher.pollInterval.isZero = false ∧
            w.beginStart = ((w.onWatcher ({ · with started := true })).spawn, true)) := by
  unfold beginStart
  by_cases hpolling : w.isPolling = true
  · exact .inl ⟨hpolling, if_pos hpolling⟩
  · rw [if_neg hpolling]
    refine .inr ⟨by simpa using hpolling, ?_⟩
    by_cases hzero : w.watcher.pollInterval.isZero = true
    · refine .inl ⟨hzero, ?_⟩
      dsimp only
      rw [watcher_onWatcher, if_pos hzero]
      split <;> exact ⟨_, rfl⟩
    · exact .inr ⟨by simpa using hzero, if_neg hzero⟩

/-- A stop lowers the flag, and tells the loop that is known before it forgets it. -/
theorem stop_eq :
    ∃ journal, w.stop = { w with
      loops := match w.watcher.poller with
        | some id => w.loops.map (abort id)
        | none => w.loops
      watcher := { w.watcher with poller := none, started := false }
      journal } := by
  unfold stop
  obtain ⟨now, exchange, watcher, loops, nextLoop, released, journal⟩ := w
  obtain ⟨strategy, pollInterval, lock, inFlight, lastFetch, buffer, signals, view, poller,
    started⟩ := watcher
  cases poller <;> cases started <;> exact ⟨_, rfl⟩

@[simp] theorem pollInterval_beginStart :
    w.beginStart.1.watcher.pollInterval = w.watcher.pollInterval := by
  rcases w.beginStart_cases with ⟨-, h⟩ | ⟨-, ⟨-, journal, h⟩ | ⟨-, h⟩⟩ <;> rw [h] <;> rfl

@[simp] theorem pollInterval_stop : w.stop.watcher.pollInterval = w.watcher.pollInterval := by
  obtain ⟨journal, h⟩ := w.stop_eq
  rw [h]

end

namespace PollsOnce

theorem spawn (h : w.PollsOnce) (hended : w.isPolling = false) (hstarted : w.watcher.started = true)
    (hinterval : w.watcher.pollInterval.isZero = false) :
    w.spawn.PollsOnce ∧ w.spawn.isPolling = true := by
  have hmem {l : PollLoop} :
      l ∈ w.spawn.loops ↔ l ∈ w.loops ∨ l = ⟨w.nextLoop, .starting, false⟩ := by
    simp [World.spawn]
  refine ⟨⟨(LoopsKept.spawn w).numbered h.numbered, fun id hid => ?_, fun l hl => ?_,
    fun _ => hstarted, fun hzero => ?_⟩, isPolling_iff.2 ⟨_, hmem.2 (.inr rfl), rfl⟩⟩
  · obtain rfl := Option.some.inj hid
    exact Nat.lt_succ_self _
  · show _ ↔ some w.nextLoop = some l.id
    rcases hmem.1 hl with hold | rfl
    · -- an old loop that was not told to stop would be the one that is known, and running
      have htold : l.aborted = true := by
        by_contra hnot
        have hknown := (h.current l hold).1 (by simpa using hnot)
        rw [isPolling_iff.2 ⟨l, hold, hknown⟩] at hended
        cases hended
      have hne := Nat.ne_of_lt (h.numbered.lt_next l hold)
      simp only [htold, Bool.true_eq_false, Option.some.injEq, false_iff]
      exact fun heq => hne heq.symm
    · simp
  · rw [show w.spawn.watcher.pollInterval = w.watcher.pollInterval from rfl, hinterval] at hzero
    cases hzero

/-- After a start a loop is running, unless there is no interval. -/
theorem beginStart (h : w.PollsOnce) :
    w.beginStart.1.PollsOnce ∧
      w.beginStart.1.isPolling = !w.watcher.pollInterval.isZero ∧
      w.beginStart.1.watcher.started = true := by
  rcases w.beginStart_cases with ⟨hpolling, he⟩ | ⟨hended, ⟨hzero, journal, he⟩ | ⟨hinterval, he⟩⟩
  · have hinterval : w.watcher.pollInterval.isZero = false := by
      by_contra hzero
      obtain ⟨l, hl, -⟩ := isPolling_iff.1 hpolling
      rw [(h.idle (by simpa using hzero)).1] at hl
      cases hl
    rw [he, hinterval]
    exact ⟨h, hpolling, h.started hpolling⟩
  · rw [he, hzero]
    exact ⟨⟨⟨h.numbered.nodup, h.numbered.lt_next⟩, h.known, h.current, fun _ => rfl, h.idle⟩,
      hended, rfl⟩
  · have hraised : (w.onWatcher ({ · with started := true })).PollsOnce :=
      ⟨⟨h.numbered.nodup, h.numbered.lt_next⟩, h.known, h.current, fun _ => rfl, h.idle⟩
    obtain ⟨honce, hpolling⟩ := hraised.spawn hended rfl hinterval
    rw [he, hinterval]
    exact ⟨honce, hpolling, rfl⟩

/-- After a stop no loop is running. -/
theorem stop (h : w.PollsOnce) :
    w.stop.PollsOnce ∧ w.stop.isPolling = false ∧ w.stop.watcher.started = false := by
  have hnumbered := (LoopsKept.stop w).numbered h.numbered
  obtain ⟨journal, he⟩ := w.stop_eq
  have hforgot : w.stop.watcher.poller = none := by rw [he]
  have hpolling : w.stop.isPolling = false := by
    unfold World.isPolling
    rw [hforgot]
  refine ⟨⟨hnumbered, fun id hid => ?_, fun l hl => ?_, fun hp => ?_, fun hzero => ?_⟩, hpolling,
    by rw [he]⟩
  · rw [hforgot] at hid
    cases hid
  · rw [hforgot]
    simp only [reduceCtorEq, iff_false, Bool.not_eq_false]
    rw [he] at hl
    cases hknown : w.watcher.poller with
    | none =>
      rw [hknown] at hl
      by_contra hnot
      have hid := (h.current l hl).1 (by simpa using hnot)
      rw [hknown] at hid
      cases hid
    | some id =>
      rw [hknown] at hl
      obtain ⟨m, hm, rfl⟩ := List.mem_map.1 hl
      unfold abort
      split
      · rfl
      · -- a loop that is not told now is not the one that is known, so it was told before
        next hother =>
        by_contra hnot
        have hid := (h.current m hm).1 (by simpa using hnot)
        exact hother (Option.some.inj (hid.symm.trans hknown))
  · rw [hpolling] at hp
    cases hp
  · have hidle := h.idle (by rw [he] at hzero; exact hzero)
    refine ⟨?_, hforgot⟩
    rw [he]
    simp only [hidle.2]
    exact hidle.1

end PollsOnce

end World

end Portfolio
