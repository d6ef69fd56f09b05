import Portfolio.Proofs.Calls.Exclusion
import Portfolio.Proofs.Calls.Stamps
import Portfolio.Simulation.ScriptedExchange

/-! # Joining a fetch in flight

A refresh that finds the flag up and whose leader lands an object before its deadline is over at its
first turn after the landing, and has asked for nothing (`Calls.join_landing`). What carries the
proof: a follower only waits as long as its deadline has not come or a signal has been raised
(`Calls.Follows`), no signal is raised while the leader's request is out (`Undisturbed`), and its
landing raises one. -/

namespace Portfolio

variable {ε : Type}

/-- A refresh that finds the flag up waits, if it may wait at all. -/
theorem Refresh.begin_of_inFlight [Exchange ε] {w : World ε} {fallback : Params}
    (hf : w.watcher.inFlight = true)
    (hlt : w.now < w.now + w.watcher.strategy.balanceTtl.nanos) :
    Refresh.begin w fallback = (w, .blocked (.joining w.watcher.seen
      (w.now + w.watcher.strategy.balanceTtl.nanos) fallback)) := by
  have hover : Refresh.joinOver w w.watcher.seen
      (w.now + w.watcher.strategy.balanceTtl.nanos) = false := by
    simp only [Refresh.joinOver, Watcher.seen, Nat.lt_irrefl, decide_false, Bool.false_or,
      decide_eq_false_iff_not]
    omega
  simp [Refresh.begin, hf, Refresh.join, hover]

namespace Calls

/-! ## Places over time -/

section
variable [Exchange ε]

theorem length_step (s : Calls ε) (m : Move ε) : s.slots.length ≤ (s.step m).slots.length := by
  cases m with
  | enter | lock => simp [step]
  | resume | drop =>
    simp only [step]
    split
    · simp
    · exact Nat.le_refl _
  | _ => exact Nat.le_refl _

theorem length_run (s : Calls ε) (ms : List (Move ε)) :
    s.slots.length ≤ (s.run ms).slots.length := by
  induction ms generalizing s with
  | nil => exact Nat.le_refl _
  | cons m ms ih => exact Nat.le_trans (s.length_step m) (ih _)

/-- A move leaves a place as it is, or it is about the call there. -/
theorem call?_step (s : Calls ε) {place : Nat} (hp : place < s.slots.length) (m : Move ε) :
    (s.step m).call? place = s.call? place ∨
      (m = .drop place ∧ (s.step m).call? place = none) ∨
        ∃ c, m = .resume place ∧ s.call? place = some c ∧
          (s.step m).call? place = (c.resume s.world).2 := by
  cases m with
  | enter | lock => exact .inl (by simp [step, call?, List.getElem?_append_left hp])
  | resume other =>
    by_cases ho : other = place
    · subst ho
      cases hc : s.call? other with
      | none => exact .inl (by simp [step, hc])
      | some c => exact .inr (.inr ⟨c, rfl, rfl, by rw [step_resume hc]; simp [call?, hp]⟩)
    · refine .inl ?_
      simp only [step]
      split
      · simp [call?, ho]
      · rfl
  | drop other =>
    by_cases ho : other = place
    · subst ho
      cases hc : s.call? other with
      | none => exact .inl (by simp [step, hc])
      | some c => exact .inr (.inl ⟨rfl, by rw [step_drop hc]; simp [call?, hp]⟩)
    · refine .inl ?_
      simp only [step]
      split
      · simp [call?, ho]
      · rfl
  | _ => exact .inl rfl

end

/-! ## Followers -/

/-- The call in a place waits for a fetch in flight, or is over. -/
def Follows (s : Calls ε) (place : Nat) (seen : Seen) (deadline : Int) (fallback : Params) : Prop :=
  s.call? place = some (.refresh (.joining seen deadline fallback)) ∨ s.call? place = none

end Calls

section
variable [Exchange ε]

/-- After a signal a follower is over at its turn. -/
theorem Call.resume_joining_of_signal {w : World ε} {seen : Seen} {deadline : Int}
    {fallback : Params} (h : seen.signals < w.watcher.signals) :
    (Call.refresh (.joining seen deadline fallback)).resume w = (w, none) := by
  have hnews : w.watcher.hasNews seen = true := by
    simp [Watcher.hasNews, Nat.ne_of_gt h]
  simp [Call.resume, Refresh.resume, Refresh.join, Refresh.joinOver, h, hnews, Progress.left]

/-- Before its deadline and without a signal a follower goes on waiting. -/
theorem Call.resume_joining_of_lt {w : World ε} {seen : Seen} {deadline : Int}
    {fallback : Params} (h : w.now < deadline) (hs : w.watcher.signals ≤ seen.signals) :
    (Call.refresh (.joining seen deadline fallback)).resume w =
      (w, some (.refresh (.joining seen deadline fallback))) := by
  have hover : Refresh.joinOver w seen deadline = false := by
    simp [Refresh.joinOver, hs, h]
  simp [Call.resume, Refresh.resume, Refresh.join, hover, Progress.left]

namespace Calls

variable {s : Calls ε} {place : Nat} {seen : Seen} {deadline : Int} {fallback : Params}

/-- In time, or after a signal, the turn of a follower changes nothing in the world. -/
theorem Follows.resume {c : Call} (h : s.Follows place seen deadline fallback)
    (hd : s.world.now < deadline ∨ seen.signals < s.world.watcher.signals)
    (hc : s.call? place = some c) :
    (c.resume s.world).1 = s.world ∧
      ((c.resume s.world).2 = none ∨
        (c.resume s.world).2 = some (.refresh (.joining seen deadline fallback))) := by
  obtain hj | hn := h
  · obtain rfl : c = _ := Option.some_inj.1 (hc.symm.trans hj)
    by_cases hs : seen.signals < s.world.watcher.signals
    · rw [Call.resume_joining_of_signal hs]
      exact ⟨rfl, .inl rfl⟩
    · have hlt : s.world.now < deadline := hd.resolve_right hs
      rw [Call.resume_joining_of_lt hlt (Nat.le_of_not_lt hs)]
      exact ⟨rfl, .inr rfl⟩
  · rw [hn] at hc
    cases hc

theorem Follows.step (h : s.Follows place seen deadline fallback) (hp : place < s.slots.length)
    (hd : s.world.now < deadline ∨ seen.signals < s.world.watcher.signals) (m : Move ε) :
    (s.step m).Follows place seen deadline fallback := by
  obtain hsame | ⟨-, hnone⟩ | ⟨c, -, hc, hnext⟩ := s.call?_step hp m
  · rw [Follows, hsame]
    exact h
  · exact .inr hnone
  · obtain ⟨-, hover | hwaits⟩ := h.resume hd hc
    · exact .inr (hnext.trans hover)
    · exact .inl (hnext.trans hwaits)

/-- A run that ends before the deadline, or begins after a signal, has followers only wait or
end. -/
theorem Follows.run (h : s.Follows place seen deadline fallback) (hp : place < s.slots.length)
    {ms : List (Move ε)}
    (hd : (s.run ms).world.now < deadline ∨ seen.signals < s.world.watcher.signals) :
    (s.run ms).Follows place seen deadline fallback := by
  induction ms generalizing s with
  | nil => exact h
  | cons m ms ih =>
    have hnow : s.world.now ≤ (s.run (m :: ms)).world.now := (later_run s (m :: ms)).now
    have hsig : s.world.watcher.signals ≤ (s.step m).world.watcher.signals :=
      (later_run s [m]).signals
    refine ih (h.step hp ?_ m) (Nat.lt_of_lt_of_le hp (s.length_step m)) ?_
    · exact hd.imp_left fun hlt => Int.lt_of_le_of_lt hnow hlt
    · exact hd.imp_right fun hlt => Nat.lt_of_lt_of_le hlt hsig

/-- A follower that is not dropped waits as long as its deadline has not come and no signal was
raised. -/
theorem joining_run (h : s.call? place = some (.refresh (.joining seen deadline fallback)))
    (hp : place < s.slots.length) {ms : List (Move ε)} (hdrop : .drop place ∉ ms)
    (hd : (s.run ms).world.now < deadline)
    (hs : (s.run ms).world.watcher.signals ≤ seen.signals) :
    (s.run ms).call? place = some (.refresh (.joining seen deadline fallback)) := by
  induction ms generalizing s with
  | nil => exact h
  | cons m ms ih =>
    have hlater := later_run s (m :: ms)
    have hnow : s.world.now < deadline := Int.lt_of_le_of_lt hlater.now hd
    have hsig : s.world.watcher.signals ≤ seen.signals := Nat.le_trans hlater.signals hs
    refine ih ?_ (Nat.lt_of_lt_of_le hp (s.length_step m)) (fun hm => hdrop (.tail _ hm)) hd hs
    obtain hsame | ⟨rfl, -⟩ | ⟨c, -, hc, hnext⟩ := s.call?_step hp m
    · rw [hsame]
      exact h
    · exact absurd (.head _) hdrop
    · obtain rfl : c = _ := Option.some_inj.1 (hc.symm.trans h)
      rw [hnext, Call.resume_joining_of_lt hnow hsig]

/-- No turn of a follower on the way to a moment before its deadline changes anything in the
world. -/
theorem Follows.resume_before (h : s.Follows place seen deadline fallback)
    (hp : place < s.slots.length) {ms rest : List (Move ε)}
    (hd : (s.run (ms ++ rest)).world.now < deadline) {c : Call}
    (hc : (s.run ms).call? place = some c) :
    (c.resume (s.run ms).world).1 = (s.run ms).world := by
  rw [run_append] at hd
  have hlt : (s.run ms).world.now < deadline := Int.lt_of_le_of_lt (later_run _ rest).now hd
  exact ((h.run hp (.inl hlt)).resume (.inl hlt) hc).1

/-- A follower that is still there after a signal is ready, and over at its turn. -/
theorem Follows.resume_after (h : s.Follows place seen deadline fallback)
    (hp : place < s.slots.length) (hs : seen.signals < s.world.watcher.signals)
    {after : List (Move ε)} {c : Call} (hc : (s.run after).call? place = some c) :
    c = .refresh (.joining seen deadline fallback) ∧
      Refresh.isReady (s.run after).world (.joining seen deadline fallback) = true ∧
        c.resume (s.run after).world = ((s.run after).world, none) := by
  have hsig : seen.signals < (s.run after).world.watcher.signals :=
    Nat.lt_of_lt_of_le hs (later_run s after).signals
  have hrun : (s.run after).Follows place seen deadline fallback := h.run hp (.inr hs)
  obtain hj | hn := hrun
  · obtain rfl : c = _ := Option.some_inj.1 (hc.symm.trans hj)
    refine ⟨rfl, ?_, Call.resume_joining_of_signal hsig⟩
    simp [Refresh.isReady, Refresh.joinOver, hsig]
  · rw [hn] at hc
    cases hc

/-- A caller that finds the flag up waits in the next place, and has changed nothing. -/
theorem step_enter_of_inFlight (hf : s.world.watcher.inFlight = true)
    (hlt : s.world.now < s.world.now + s.world.watcher.strategy.balanceTtl.nanos) :
    s.step (.enter fallback) = ⟨s.world, s.slots ++ [some (.refresh (.joining s.world.watcher.seen
      (s.world.now + s.world.watcher.strategy.balanceTtl.nanos) fallback))]⟩ := by
  rw [step, Refresh.begin_of_inFlight hf hlt]
  rfl

end Calls

end

/-! ## Leaders -/

/-- The move raises no signal by itself. -/
def Calls.Move.isSilent : Calls.Move ε → Bool
  | .renewView | .signal => false
  | _ => true

/-- While the request of a leader is out no signal was raised since there were `n`; once it is over
its ticket is not given out again. -/
def Undisturbed (leader : Call) (ticket n : Nat) (w : World ε) (cs : List Call) : Prop :=
  Exclusive w.watcher cs ∧
    (leader ∈ cs ∧ w.watcher.signals = n ∨
      ticket ∉ w.watcher.lock.queue ∧ ticket < w.watcher.lock.next)

namespace Undisturbed

variable {leader c : Call} {ticket n t : Nat} {w w' : World ε} {cs : List Call}

/-- The lock and the count are as they were, and so is the leader. -/
theorem congr {cs' : List Call} (h : Undisturbed leader ticket n w cs)
    (he : Exclusive w'.watcher cs') (hm : leader ∈ cs → leader ∈ cs')
    (hl : w'.watcher.lock = w.watcher.lock) (hs : w'.watcher.signals = w.watcher.signals) :
    Undisturbed leader ticket n w' cs' :=
  ⟨he, by rw [hl, hs]; exact h.2.imp_left fun hlead => ⟨hm hlead.1, hlead.2⟩⟩

/-- Somebody else draws a ticket. -/
theorem draw (h : Undisturbed leader ticket n w cs)
    (he : Exclusive (Refresh.drawn w).watcher (c :: cs)) :
    Undisturbed leader ticket n (Refresh.drawn w) (c :: cs) := by
  refine ⟨he, ?_⟩
  obtain ⟨hm, hs⟩ | ⟨hq, hlt⟩ := h.2
  · exact .inl ⟨.tail _ hm, hs⟩
  · refine .inr ⟨fun hm => ?_, Nat.lt_succ_of_lt hlt⟩
    rcases List.mem_append.1 hm with hm | hm
    · exact hq hm
    · exact Nat.ne_of_lt hlt (List.mem_singleton.1 hm)

/-- Somebody gives up a ticket, maybe the leader. -/
theorem leave (h : Undisturbed leader ticket n w (c :: cs)) (ht : leader.ticket? = some ticket)
    (hc : c.ticket? = some t) (he : Exclusive w'.watcher cs)
    (hl : w'.watcher.lock = w.watcher.lock.leave t)
    (hs : leader ∈ cs → w'.watcher.signals = w.watcher.signals) :
    Undisturbed leader ticket n w' cs := by
  refine ⟨he, ?_⟩
  rw [hl]
  obtain ⟨hm, hn⟩ | ⟨hq, hlt⟩ := h.2
  · rcases List.mem_cons.1 hm with rfl | hm
    · obtain rfl : ticket = t := Option.some_inj.1 (ht.symm.trans hc)
      have hq : ticket ∈ w.watcher.lock.queue :=
        h.1.queue.mem_iff.2 (List.mem_filterMap.2 ⟨leader, .head _, ht⟩)
      exact .inr ⟨h.1.nodup.not_mem_erase, h.1.drawn ticket hq⟩
    · exact .inl ⟨hm, (hs hm).trans hn⟩
  · exact .inr ⟨fun hm => hq (List.mem_of_mem_erase hm), hlt⟩

/-- A call that is not the leader goes away or becomes another. -/
theorem mem_of_mem_cons (hc : c ≠ leader) (hm : leader ∈ c :: cs) : leader ∈ cs :=
  (List.mem_cons.1 hm).resolve_left fun he => hc he.symm

variable [Exchange ε]

/-- Only the leader can land while it is there. -/
theorem finish {started : Timestamp} {due : Int} {reply : Reply Json.Value}
    (h : Undisturbed leader ticket n w (.refresh (.fetching t started due reply) :: cs))
    (hg : leader.isGuard = true) (ht : leader.ticket? = some ticket)
    (he : Exclusive (Refresh.finish w t started reply).1.watcher cs) :
    Undisturbed leader ticket n (Refresh.finish w t started reply).1 cs := by
  refine h.leave ht rfl he ?_ fun hm => ?_
  · rw [Refresh.watcher_finish]
    split
    · exact Watcher.lock_land ..
    · rfl
  · obtain ⟨a, ha, hh⟩ := h.1.turn _ (.head _) rfl
    have hnone := List.any_eq_false.1 (h.1.no_other_guard ha hh)
    exact absurd hg (hnone leader hm)

omit [Exchange ε] in
theorem drop (h : Undisturbed leader ticket n w (c :: cs)) (ht : leader.ticket? = some ticket) :
    Undisturbed leader ticket n (c.drop w) cs := by
  have he := h.1.drop
  cases c with
  | refresh r =>
    cases r with
    | joining seen deadline fallback =>
      have hne : Call.refresh (.joining seen deadline fallback) ≠ leader := by
        rintro rfl
        cases ht
      exact h.congr he (mem_of_mem_cons hne) rfl rfl
    | queueing ticket fallback => exact h.leave ht rfl he rfl fun _ => rfl
    | fetching ticket started due reply => exact h.leave ht rfl he rfl fun _ => rfl
  | locking ticket => exact h.leave ht rfl he rfl fun _ => rfl
  | holding ticket => exact h.leave ht rfl he rfl fun _ => rfl

theorem callInvariant (hg : leader.isGuard = true) (ht : leader.ticket? = some ticket) :
    CallInvariant fun (w : World ε) cs => Undisturbed leader ticket n w cs where
  perm h hp := h.congr (h.1.perm hp) hp.mem_iff.1 rfl rfl
  turn cs :=
    { join := fun h hf => h.congr ((Exclusive.turnInvariant cs).join h.1 hf) (.tail _) rfl rfl
      leave := fun h ho => by
        refine h.congr ((Exclusive.turnInvariant cs).leave h.1 ho) (mem_of_mem_cons ?_) rfl rfl
        rintro rfl
        cases hg
      draw := fun h => h.draw ((Exclusive.turnInvariant cs).draw h.1)
      ask := fun h hturn => by
        refine h.congr ((Exclusive.turnInvariant cs).ask h.1 hturn)
          (fun hm => .tail _ (mem_of_mem_cons ?_ hm)) rfl rfl
        rintro rfl
        cases hg
      finish := fun h hd => h.finish hg ht ((Exclusive.turnInvariant cs).finish h.1 hd) }
  lock h := h.draw (Exclusive.callInvariant.lock h.1)
  take h hturn := by
    refine h.congr (Exclusive.callInvariant.take h.1 hturn)
      (fun hm => .tail _ (mem_of_mem_cons ?_ hm)) rfl rfl
    rintro rfl
    cases hg
  drop h := h.drop ht

/-- What is done beside the calls raises no signal, if it is not done for that. -/
theorem other {s : Calls ε} (h : Undisturbed leader ticket n s.world s.live) {m : Calls.Move ε}
    (hm : m.isCall = false) (hsilent : m.isSilent = true) :
    Undisturbed leader ticket n (s.step m).world s.live := by
  have he := h.1.other hm
  cases m with
  | enter | lock | resume | drop => cases hm
  | renewView | signal => cases hsilent
  | start =>
    obtain ⟨poller, started, loops, nextLoop, journal, hw⟩ := s.world.start_eq
    have hs : (s.step .start).world = _ := hw
    exact h.congr he id (by rw [hs]) (by rw [hs])
  | stop =>
    obtain ⟨poller, started, loops, journal, hw, -⟩ := s.world.stop_cases
    have hs : (s.step .stop).world = _ := hw
    exact h.congr he id (by rw [hs]) (by rw [hs])
  | business exchange events =>
    refine h.congr he id ?_ ?_ <;> simp [Calls.step, Calls.onWorld]
  | elapse | reset | push | release | loops => exact h.congr he id rfl rfl

theorem run {s : Calls ε} (h : Undisturbed leader ticket n s.world s.live)
    (hg : leader.isGuard = true) (ht : leader.ticket? = some ticket) {ms : List (Calls.Move ε)}
    (hsilent : ∀ m ∈ ms, m.isSilent = true) :
    Undisturbed leader ticket n (s.run ms).world (s.run ms).live :=
  (callInvariant hg ht).run h fun _ hs m hm ho => hs.other ho (hsilent m hm)

omit [Exchange ε] in
/-- As long as the leader is there the count has not changed. -/
theorem signals_eq (h : Undisturbed leader ticket n w cs) (ht : leader.ticket? = some ticket)
    (hm : leader ∈ cs) : w.watcher.signals = n := by
  obtain ⟨-, hs⟩ | ⟨hq, -⟩ := h.2
  · exact hs
  · exact absurd (h.1.queue.mem_iff.2 (List.mem_filterMap.2 ⟨leader, hm, ht⟩)) hq

end Undisturbed

/-! ## The landing -/

namespace Calls

variable [Exchange ε] {s : Calls ε} {place ticket : Nat} {started : Timestamp} {due : Int}
  {reply : Reply Json.Value} {payload : Json.Value}

theorem world_land (hc : s.call? place = some (.refresh (.fetching ticket started due reply)))
    (hd : due ≤ s.world.now) :
    (s.step (.resume place)).world = (Refresh.finish s.world ticket started reply).1 := by
  rw [step_resume hc]
  simp [Call.resume, Refresh.resume, hd]

theorem watcher_land (hc : s.call? place = some (.refresh (.fetching ticket started due reply)))
    (hd : due ≤ s.world.now) (hp : reply.payload? = some payload) :
    (s.step (.resume place)).world.watcher = s.world.watcher.land ticket payload started := by
  rw [world_land hc hd, Refresh.watcher_finish, hp]

/-- As long as the request of a leader is out and nobody raises a signal by hand, a follower that is
not dropped waits. -/
theorem joining_while_asked {leader follower : Nat} {seen : Seen} {deadline : Int}
    {fallback : Params} {ms : List (Move ε)} (he : Exclusive s.world.watcher s.live)
    (hout : s.call? leader = some (.refresh (.fetching ticket started due reply)))
    (hstill : (s.run ms).call? leader = some (.refresh (.fetching ticket started due reply)))
    (hwaits : s.call? follower = some (.refresh (.joining seen deadline fallback)))
    (hseen : s.world.watcher.signals = seen.signals) (hsilent : ∀ m ∈ ms, m.isSilent = true)
    (hdrop : .drop follower ∉ ms) (hnow : (s.run ms).world.now < deadline) :
    (s.run ms).call? follower = some (.refresh (.joining seen deadline fallback)) := by
  have h : Undisturbed (.refresh (.fetching ticket started due reply)) ticket seen.signals
      (s.run ms).world (s.run ms).live :=
    Undisturbed.run ⟨he, .inl ⟨mem_live hout, hseen⟩⟩ rfl rfl hsilent
  have hsig : (s.run ms).world.watcher.signals = seen.signals :=
    h.signals_eq rfl (mem_live hstill)
  exact joining_run hwaits (lt_of_call? hwaits) hdrop hnow (Nat.le_of_eq hsig)

/-- Once a request has landed nothing older is known or asked for. -/
theorem notBefore_land (he : Exclusive s.world.watcher s.live)
    (hs : StartedInPast s.world s.live)
    (hc : s.call? place = some (.refresh (.fetching ticket started due reply)))
    (hd : due ≤ s.world.now) (hp : reply.payload? = some payload) :
    NotBefore started (s.step (.resume place)).world (s.step (.resume place)).live := by
  have hw := watcher_land hc hd hp
  have hin : started ≤ s.world.time := by
    have hmem : some (Call.refresh (.fetching ticket started due reply)) ∈ s.slots :=
      List.mem_of_getElem? (getElem?_of_call? hc)
    exact hs _ (List.reduceOption_mem_iff.2 hmem) started rfl
  have he' : Exclusive (s.step (.resume place)).world.watcher (s.step (.resume place)).live :=
    he.run [.resume place]
  refine ⟨Timestamp.le_trans hin (later_run s [.resume place]).time, ?_, fun r hr => ?_,
    fun c hcl u hu => ?_⟩
  · rw [hw, Watcher.asOf_land]
    exact Timestamp.le_refl _
  · rw [hw, Watcher.buffer_land, RecordBuffer.latest?_push] at hr
    cases hr
    exact Timestamp.le_refl _
  · have hflag := he'.flag
    rw [hw, Watcher.inFlight_land] at hflag
    exact absurd (Call.isGuard_of_started? hu) (List.any_eq_false.1 hflag.symm c hcl)

/-- Single flight. A caller enters while the request of a leader is out, and the leader gets its
turn with an object before the caller's deadline. The caller changes nothing in the world, up to the
landing or after it, so it never asks the exchange. If nobody raised a signal by hand it waits until
the landing; from then on it is ready, and over at its first turn. What it finds then is not older
than the leader's request, unless somebody resets the table or pushes an older record. The landing
raises the count over that of every earlier moment, so it does not matter when the caller took it
down. -/
theorem join_landing (now : Int) (exchange : ε) (strategy : Strategy) (pollInterval : Duration)
    (capacity : Nat) (before between : List (Move ε)) (fallback : Params) {leader ticket : Nat}
    {started : Timestamp} {due : Int} {reply : Reply Json.Value} {payload : Json.Value} :
    let s := (Calls.new now exchange (.new strategy pollInterval capacity)).run before
    let place := s.slots.length
    let deadline := s.world.now + s.world.watcher.strategy.balanceTtl.nanos
    let waiting := Call.refresh (.joining s.world.watcher.seen deadline fallback)
    let entered := s.step (.enter fallback)
    let there := entered.run between
    let landed := there.step (.resume leader)
    s.call? leader = some (.refresh (.fetching ticket started due reply)) →
    there.call? leader = some (.refresh (.fetching ticket started due reply)) →
    due ≤ there.world.now → there.world.now < deadline → reply.payload? = some payload →
      (s.world.watcher.inFlight = true ∧ entered.world = s.world ∧
        entered.call? place = some waiting) ∧
      (∀ ms, ms <+: between → ∀ c, (entered.run ms).call? place = some c →
        (c.resume (entered.run ms).world).1 = (entered.run ms).world) ∧
      ((∀ m ∈ between, m.isSilent = true) → .drop place ∉ between →
        there.call? place = some waiting) ∧
      (∀ after c, (landed.run after).call? place = some c →
        c = waiting ∧
        Refresh.isReady (landed.run after).world
          (.joining s.world.watcher.seen deadline fallback) = true ∧
        c.resume (landed.run after).world = ((landed.run after).world, none) ∧
        ((∀ m ∈ after, m.KeepsStamp started) →
          started ≤ (landed.run after).world.watcher.view.asOf)) ∧
      (∀ earlier ms, Calls.run earlier ms = s →
        earlier.world.watcher.signals < landed.world.watcher.signals) := by
  intro s place deadline waiting entered there landed hout hstill hdue hnow hpay
  have he : Exclusive s.world.watcher s.live :=
    (Exclusive.new now exchange strategy pollInterval capacity).run before
  have hpast : StartedInPast s.world s.live :=
    StartedInPast.run (s := Calls.new ..) (fun c hc => absurd hc List.not_mem_nil) before
  have hflag : s.world.watcher.inFlight = true := by
    rw [he.flag]
    exact List.any_eq_true.2 ⟨_, mem_live hout, rfl⟩
  -- the entry: the caller waits, and has changed nothing
  have hlater : World.Later s.world there.world := later_run s (.enter fallback :: between)
  have hentered : entered = ⟨s.world, s.slots ++ [some waiting]⟩ :=
    step_enter_of_inFlight hflag (Int.lt_of_le_of_lt hlater.now hnow)
  have hworld : entered.world = s.world := by rw [hentered]
  have hwaits : entered.call? place = some waiting := by rw [hentered]; simp [call?, place]
  have hplace : place < entered.slots.length := lt_of_call? hwaits
  have hlead : entered.call? leader = some (.refresh (.fetching ticket started due reply)) := by
    rw [← hout, hentered]
    simp [call?, List.getElem?_append_left (lt_of_call? hout)]
  -- the landing: the count is raised, and the caller is there until then
  have hraised : s.world.watcher.signals < landed.world.watcher.signals := by
    rw [show landed.world.watcher = _ from watcher_land hstill hdue hpay, Watcher.signals_land]
    exact Nat.lt_succ_of_le hlater.signals
  have hthere : place < there.slots.length :=
    Nat.lt_of_lt_of_le hplace (length_run entered between)
  have hfollows : landed.Follows place s.world.watcher.seen deadline fallback :=
    (Follows.run (.inl hwaits) hplace (.inl hnow)).step hthere (.inl hnow) _
  have hlanded : place < landed.slots.length := Nat.lt_of_lt_of_le hthere (length_step _ _)
  refine ⟨⟨hflag, hworld, hwaits⟩, ?_, ?_, ?_, ?_⟩
  · rintro ms ⟨rest, rfl⟩ c hc
    exact Follows.resume_before (.inl hwaits) hplace hnow hc
  · intro hsilent hdrop
    exact joining_while_asked (he.run [.enter fallback]) hlead hstill hwaits
      (congrArg (·.watcher.signals) hworld) hsilent hdrop hnow
  · intro after c hc
    obtain ⟨hc', hready, hover⟩ := hfollows.resume_after hlanded hraised hc
    refine ⟨hc', hready, hover, fun hkeeps => ?_⟩
    have he' := he.run (.enter fallback :: between)
    have hpast' := hpast.run (.enter fallback :: between)
    exact ((notBefore_land he' hpast' hstill hdue hpay).run hkeeps).view
  · intro earlier ms hs
    exact Nat.lt_of_le_of_lt (hs ▸ (later_run earlier ms).signals) hraised

/-- A request that takes two nanoseconds, and a caller that waits five at most. -/
theorem join_landing_scripted :
    let exchange := ScriptedExchange.new "sim" [⟨.ok (.object []), 2⟩] []
    let strategy := Strategy.new "spot" "sim" "USDT" ⟨5⟩
    let s := (Calls.new 0 exchange (.new strategy .zero 1)).run [.enter []]
    let there := (s.step (.enter [])).run [.elapse 2]
    let waiting := Call.refresh (.joining s.world.watcher.seen 5 [])
    s.call? 0 = some (.refresh (.fetching 0 ⟨0, 0⟩ 2 ⟨.answer (.object []), 2, []⟩)) ∧
      there.call? 1 = some waiting ∧
        waiting.resume (there.step (.resume 0)).world = ((there.step (.resume 0)).world, none) := by
  intro exchange strategy s there waiting
  have hout : s.call? 0 =
      some (.refresh (.fetching 0 ⟨0, 0⟩ 2 ⟨.answer (.object []), 2, []⟩)) := rfl
  obtain ⟨-, -, hwaits, hreturns, -⟩ := join_landing 0 exchange strategy .zero 1 [.enter []]
    [.elapse 2] [] hout rfl (by decide) (by decide) rfl
  have hthere : there.call? 1 = some waiting :=
    hwaits (by simp [Move.isSilent]) (by simp)
  have hlanded : (there.step (.resume 0)).call? 1 = some waiting := rfl
  obtain ⟨-, -, hresume, -⟩ := hreturns [] waiting hlanded
  exact ⟨hout, hthere, hresume⟩

end Calls

end Portfolio
