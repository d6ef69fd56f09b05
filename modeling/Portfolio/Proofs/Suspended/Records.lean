import Portfolio.Proofs.Suspended.Order
import Portfolio.Proofs.Watcher.Buffer
import Portfolio.Simulation.ScriptedExchange

/-! # Records in order

Refreshes that may be suspended at every await store their records in the order of their requests:
the history goes from old to new whoever stores next (`Suspended.pairwise_stored`), since a request
is sent by who has the lock and the lock is kept until its record is stored. The time that is taken
down last is the time of the newest record whenever the lock is free, unless a refresh was dropped
between storing its record and taking its time down (`Suspended.records_inOrder`). -/

namespace Portfolio

namespace Stage

/-- The refresh is between the two halves of its push. -/
def isStamping : Stage → Bool
  | stamping .. => true
  | _ => false

/-- The record that the refresh stores when it goes on. -/
def record? : Stage → Option FetchRecord
  | storing _ r => some r
  | _ => none

end Stage

namespace Suspended

variable {ε : Type}

def records (s : Suspended ε) : List FetchRecord :=
  s.world.watcher.buffer.records

def newestTime? (s : Suspended ε) : Option Timestamp :=
  s.world.watcher.buffer.latestTime?

def lastFetch (s : Suspended ε) : Option Timestamp :=
  s.world.watcher.lastFetch

/-- No refresh has the lock. -/
def isFree (s : Suspended ε) : Bool :=
  !s.world.watcher.inFlight

/-- The record that a move stores. -/
def storedBy (s : Suspended ε) : Move → Option FetchRecord
  | .advance place => (s.stage? place).bind Stage.record?
  | _ => none

/-- The move drops a refresh that has stored its record and not taken its time down. -/
def splits (s : Suspended ε) : Move → Bool
  | .drop place => (s.stage? place).any Stage.isStamping
  | _ => false

variable [Exchange ε]

/-- The records that a run stores, oldest first. -/
def stored : Suspended ε → List Move → List FetchRecord
  | _, [] => []
  | s, m :: ms => (s.storedBy m).toList ++ stored (s.step m) ms

/-- The run drops no refresh between the two halves of its push. -/
def isUnsplit : Suspended ε → List Move → Bool
  | _, [] => true
  | s, m :: ms => !s.splits m && isUnsplit (s.step m) ms

/-! ## Pushes -/

/-- What a move does to the history and to the time of the last fetch: it stores a record, takes
down the time of a record, or neither. -/
inductive Pushes (s : Suspended ε) (m : Move) : Prop
  | stores {ticket : Nat} {r : FetchRecord} {rest : List Stage} (hm : s.storedBy m = some r)
      (hl : s.live.Perm (.storing ticket r :: rest))
      (hcs : (s.step m).live.Perm (.stamping ticket r :: rest))
      (hbuffer : (s.step m).world.watcher.buffer = s.world.watcher.buffer.push r)
      (hlast : (s.step m).world.watcher.lastFetch = s.world.watcher.lastFetch)
  | stamps {ticket : Nat} {r : FetchRecord} {rest : List Stage} (hm : s.storedBy m = none)
      (hl : s.live.Perm (.stamping ticket r :: rest))
      (hcs : (s.step m).live.Perm (.loading :: rest))
      (hbuffer : (s.step m).world.watcher.buffer = s.world.watcher.buffer)
      (hlast : (s.step m).world.watcher.lastFetch = some r.timestamp)
  | keeps (hm : s.storedBy m = none)
      (hbuffer : (s.step m).world.watcher.buffer = s.world.watcher.buffer)
      (hlast : (s.step m).world.watcher.lastFetch = s.world.watcher.lastFetch)
      (hnew : ∀ c ∈ (s.step m).live, c.isStamping = true → c ∈ s.live)
      (hold : s.splits m = false → ∀ c ∈ s.live, c.isStamping = true → c ∈ (s.step m).live)

/-- A refresh that is at no half of a push changes neither. -/
theorem act_apart {w w' : World ε} {c : Stage} {c' : Option Stage} (ha : Stage.Act w c w' c')
    (hc : c.record? = none) (hc' : c.isStamping = false) :
    w'.watcher.buffer = w.watcher.buffer ∧ w'.watcher.lastFetch = w.watcher.lastFetch ∧
      ∀ d, c' = some d → d.isStamping = false := by
  cases ha with
  | listens _ hd =>
    refine ⟨rfl, rfl, fun d hcd => ?_⟩
    have := hd d hcd
    cases d <;> first | rfl | cases this
  | waits => exact ⟨rfl, rfl, by rintro d ⟨⟩; exact hc'⟩
  | draws | asks => exact ⟨rfl, rfl, by rintro d ⟨⟩; rfl⟩
  | hears =>
    rw [World.watcher_logAll]
    exact ⟨rfl, rfl, by rintro d ⟨⟩; rfl⟩
  | fails hw =>
    rw [hw]
    exact ⟨rfl, rfl, nofun⟩
  | stores => cases hc
  | stamps => cases hc'
  | finds r? =>
    refine ⟨rfl, rfl, fun d hd => ?_⟩
    obtain ⟨r, -, rfl⟩ := Option.map_eq_some_iff.1 hd
    rfl
  | writes => exact ⟨rfl, rfl, nofun⟩

theorem pushes_advance {s : Suspended ε} {place : Nat} {c : Stage}
    (hc : s.stage? place = some c) : Pushes s (.advance place) := by
  obtain ⟨rest, hl, hset⟩ := exists_reduceOption_set hc
  have hstep := step_advance hc
  have hlive := hset (c.advance s.world).2
  cases hrecord : c.record? with
  | some r =>
    have hm : s.storedBy (.advance place) = some r := by rw [storedBy, hc]; exact hrecord
    cases c with
    | storing ticket r' =>
      cases hrecord
      exact .stores hm hl (by rw [hstep]; exact hlive) (by rw [hstep]; rfl) (by rw [hstep]; rfl)
    | _ => cases hrecord
  | none =>
    have hm : s.storedBy (.advance place) = none := by rw [storedBy, hc]; exact hrecord
    cases hstamping : c.isStamping with
    | true =>
      cases c with
      | stamping ticket r =>
        exact .stamps hm hl (by rw [hstep]; exact hlive) (by rw [hstep]; rfl) (by rw [hstep]; rfl)
      | _ => cases hstamping
    | false =>
      obtain ⟨hbuffer, hlast, hnext⟩ := act_apart (c.act s.world) hrecord hstamping
      refine .keeps hm (by rw [hstep]; exact hbuffer) (by rw [hstep]; exact hlast)
        (fun d hd hds => ?_) fun _ d hd hds => ?_
      · rw [hstep] at hd
        obtain hd | hd := List.mem_append.1 (hlive.mem_iff.1 hd)
        · rw [hnext d (Option.mem_toList.1 hd)] at hds
          cases hds
        · exact hl.mem_iff.2 (.tail _ hd)
      · obtain rfl | hd := List.mem_cons.1 (hl.mem_iff.1 hd)
        · rw [hstamping] at hds
          cases hds
        · rw [hstep]
          exact hlive.mem_iff.2 (List.mem_append_right _ hd)

theorem pushes_drop {s : Suspended ε} {place : Nat} {c : Stage}
    (hc : s.stage? place = some c) : Pushes s (.drop place) := by
  obtain ⟨rest, hl, hset⟩ := exists_reduceOption_set hc
  have hlive : (s.step (.drop place)).live.Perm rest := by
    rw [step_drop hc]
    exact hset none
  obtain ⟨lock, inFlight, hw⟩ := c.drop_eq s.world
  refine .keeps rfl (by rw [step_drop hc, hw]) (by rw [step_drop hc, hw])
    (fun d hd _ => hl.mem_iff.2 (.tail _ (hlive.mem_iff.1 hd))) fun hsplit d hd hds => ?_
  obtain rfl | hd := List.mem_cons.1 (hl.mem_iff.1 hd)
  · rw [splits, hc, Option.any_some, hds] at hsplit
    cases hsplit
  · exact hlive.mem_iff.2 hd

theorem pushes (s : Suspended ε) (m : Move) : Pushes s m := by
  have hidle {m : Move} (hm : s.storedBy m = none) (hstep : s.step m = s) : Pushes s m :=
    .keeps hm (by rw [hstep]) (by rw [hstep]) (fun c hc _ => hstep ▸ hc)
      fun _ c hc _ => hstep.symm ▸ hc
  cases m with
  | enter fallback =>
    have hlive : (s.step (.enter fallback)).live = s.live ++ [entered s.world fallback] := by
      simp only [step, live, List.reduceOption_append, List.reduceOption_singleton, Option.toList]
    refine .keeps rfl rfl rfl (fun c hc hcs => ?_) fun _ c hc _ => ?_
    · rw [hlive] at hc
      obtain hc | hc := List.mem_append.1 hc
      · exact hc
      · cases List.mem_singleton.1 hc
        cases hcs
    · rw [hlive]
      exact List.mem_append_left _ hc
  | advance place =>
    cases hc : s.stage? place with
    | some c => exact pushes_advance hc
    | none => exact hidle (by rw [storedBy, hc]; rfl) (by rw [step, hc])
  | drop place =>
    cases hc : s.stage? place with
    | some c => exact pushes_drop hc
    | none => exact hidle rfl (by rw [step, hc])
  | elapse length => exact .keeps rfl rfl rfl (fun _ h _ => h) fun _ _ h _ => h

/-! ## The history -/

theorem buffer_step (s : Suspended ε) (m : Move) :
    (s.step m).world.watcher.buffer =
      (s.storedBy m).toList.foldl RecordBuffer.push s.world.watcher.buffer := by
  cases s.pushes m with
  | stores hm _ _ hbuffer => rw [hm]; exact hbuffer
  | stamps hm _ _ hbuffer => rw [hm]; exact hbuffer
  | keeps hm hbuffer => rw [hm]; exact hbuffer

/-- The history is what the run stored, as far as there is room. -/
theorem buffer_run (s : Suspended ε) (ms : List Move) :
    (s.run ms).world.watcher.buffer =
      (s.stored ms).foldl RecordBuffer.push s.world.watcher.buffer := by
  induction ms generalizing s with
  | nil => rfl
  | cons m ms ih => rw [run_cons, ih, buffer_step, stored, List.foldl_append]

/-- A record that is stored is at least as new as the newest one, for its request was sent by who
has had the lock since. -/
theorem newest_le_stored {began : Int} {s : Suspended ε} (h : InOrder began s.world s.live)
    {m : Move} {r r' : FetchRecord} (hm : s.storedBy m = some r)
    (hr' : s.world.watcher.buffer.latest? = some r') : r'.timestamp ≤ r.timestamp := by
  cases s.pushes m with
  | @stores ticket r₁ rest hm₁ hl =>
    cases hm.symm.trans hm₁
    have hmem : .storing ticket r ∈ s.live := hl.mem_iff.2 (.head _)
    exact (h.bound _ (.started hmem rfl)).record r' hr'
  | stamps hm₁ => cases hm.symm.trans hm₁
  | keeps hm₁ => cases hm.symm.trans hm₁

/-- What a run stores goes from old to new, and on from the newest record. -/
theorem pairwise_stored {began : Int} {s : Suspended ε} (h : InOrder began s.world s.live)
    (ms : List Move) :
    (s.world.watcher.buffer.latest?.toList ++ s.stored ms).Pairwise
      (·.timestamp ≤ ·.timestamp) := by
  induction ms generalizing s with
  | nil =>
    rw [stored, List.append_nil]
    cases s.world.watcher.buffer.latest? with
    | none => exact .nil
    | some r => exact List.pairwise_singleton _ r
  | cons m ms ih =>
    obtain ⟨cs, hcs, ha⟩ := s.acts m
    have hrest := ih ((h.acts ha).perm hcs)
    rw [buffer_step] at hrest
    rw [stored]
    cases hm : s.storedBy m with
    | none =>
      rw [hm] at hrest
      exact hrest
    | some r =>
      rw [hm] at hrest
      have hlatest : ([r].foldl RecordBuffer.push s.world.watcher.buffer).latest? = some r :=
        RecordBuffer.latest?_push ..
      rw [Option.toList_some, hlatest, Option.toList_some, List.singleton_append] at hrest
      cases hr' : s.world.watcher.buffer.latest? with
      | none => exact hrest
      | some r' =>
        have hle := newest_le_stored h hm hr'
        refine List.pairwise_cons.2 ⟨fun x hx => ?_, hrest⟩
        obtain rfl | hx := List.mem_cons.1 hx
        · exact hle
        · exact Timestamp.le_trans hle ((List.pairwise_cons.1 hrest).1 x hx)

/-! ## The time of the last fetch -/

omit [Exchange ε] in
/-- A refresh that has stored its record and not taken its time down brings the newest record, and
no time was taken down before there was a record. -/
structure Taken (s : Suspended ε) : Prop where
  newest : ∀ ticket r, .stamping ticket r ∈ s.live → s.world.watcher.buffer.latest? = some r
  known : s.world.watcher.lastFetch ≠ none → s.world.watcher.buffer.latest? ≠ none

omit [Exchange ε] in
/-- The time that was taken down last is that of the newest record, or some refresh is about to take
its time down. -/
def TimeAtHand (s : Suspended ε) : Prop :=
  s.world.watcher.lastFetch = s.world.watcher.buffer.latestTime? ∨
    ∃ c ∈ s.live, c.isStamping = true

omit [Exchange ε] in
/-- No other refresh has the lock. -/
theorem not_stamping_of_storing {w : Watcher} {ticket ticket' : Nat} {r r' : FetchRecord}
    {rest : List Stage} (h : Exclusive w ((Stage.storing ticket r :: rest).filterMap Stage.call?)) :
    .stamping ticket' r' ∉ rest := by
  intro hmem
  obtain ⟨a, ha, hh⟩ := h.turn (.holding ticket) (.head _) rfl
  have hnone := List.any_eq_false.1 (h.no_other_guard ha hh)
  exact hnone (.holding ticket') (List.mem_filterMap.2 ⟨_, hmem, rfl⟩) rfl

theorem Taken.step {s : Suspended ε} (h : Taken s)
    (hlock : Exclusive s.world.watcher (s.live.filterMap Stage.call?)) (m : Move) :
    Taken (s.step m) := by
  cases s.pushes m with
  | @stores ticket r rest hm hl hcs hbuffer hlast =>
    have hlatest : (s.step m).world.watcher.buffer.latest? = some r := by
      rw [hbuffer]
      exact RecordBuffer.latest?_push ..
    refine ⟨fun ticket' r' hr' => ?_, fun _ => by simp [hlatest]⟩
    obtain heq | hr' := List.mem_cons.1 (hcs.mem_iff.1 hr')
    · cases heq
      exact hlatest
    · exact (not_stamping_of_storing (hlock.perm (hl.filterMap _)) hr').elim
  | @stamps ticket r rest hm hl hcs hbuffer hlast =>
    refine ⟨fun ticket' r' hr' => ?_, fun _ => ?_⟩
    · rw [hbuffer]
      obtain hr' | hr' := List.mem_cons.1 (hcs.mem_iff.1 hr')
      · cases hr'
      · exact h.newest ticket' r' (hl.mem_iff.2 (.tail _ hr'))
    · rw [hbuffer, h.newest ticket r (hl.mem_iff.2 (.head _))]
      exact Option.some_ne_none r
  | keeps hm hbuffer hlast hnew =>
    refine ⟨fun ticket r hr => ?_, fun hsome => ?_⟩
    · rw [hbuffer]
      exact h.newest ticket r (hnew _ hr rfl)
    · rw [hlast] at hsome
      rw [hbuffer]
      exact h.known hsome

theorem TimeAtHand.step {s : Suspended ε} (h : TimeAtHand s) (ht : Taken s) {m : Move}
    (hm : s.splits m = false) : TimeAtHand (s.step m) := by
  cases s.pushes m with
  | stores _ _ hcs => exact .inr ⟨_, hcs.mem_iff.2 (.head _), rfl⟩
  | @stamps ticket r _ _ hl _ hbuffer hlast =>
    refine .inl ?_
    rw [hlast, hbuffer, RecordBuffer.latestTime?, ht.newest ticket r (hl.mem_iff.2 (.head _))]
    rfl
  | keeps _ hbuffer hlast _ hold =>
    refine h.imp (fun heq => by rw [hlast, hbuffer, heq]) ?_
    rintro ⟨c, hc, hcs⟩
    exact ⟨c, hold hm c hc hcs, hcs⟩

theorem Taken.run {began : Int} {s : Suspended ε} (h : Taken s)
    (horder : InOrder began s.world s.live) (ms : List Move) : Taken (s.run ms) := by
  induction ms generalizing s with
  | nil => exact h
  | cons m ms ih => exact ih (h.step horder.lock m) (horder.run [m])

theorem TimeAtHand.run {began : Int} {s : Suspended ε} (h : TimeAtHand s) (ht : Taken s)
    (horder : InOrder began s.world s.live) {ms : List Move} (hms : s.isUnsplit ms = true) :
    TimeAtHand (s.run ms) := by
  induction ms generalizing s with
  | nil => exact h
  | cons m ms ih =>
    simp only [isUnsplit, Bool.and_eq_true, Bool.not_eq_true'] at hms
    exact ih (h.step ht hms.1) (ht.step horder.lock m) (horder.run [m]) hms.2

omit [Exchange ε] in
/-- While the lock is free nobody is about to take a time down. -/
theorem TimeAtHand.eq_of_free {s : Suspended ε} (h : TimeAtHand s)
    (hlock : Exclusive s.world.watcher (s.live.filterMap Stage.call?))
    (hfree : s.world.watcher.inFlight = false) :
    s.world.watcher.lastFetch = s.world.watcher.buffer.latestTime? := by
  obtain heq | ⟨c, hc, hcs⟩ := h
  · exact heq
  rw [hlock.flag, List.any_eq_false] at hfree
  cases c with
  | stamping ticket r =>
    exact (hfree (.holding ticket) (List.mem_filterMap.2 ⟨_, hc, rfl⟩) rfl).elim
  | _ => cases hcs

/-- A time that was taken down is replaced and never lost. -/
theorem lastFetch_run_ne_none {s : Suspended ε} (h : s.world.watcher.lastFetch ≠ none)
    (ms : List Move) : (s.run ms).world.watcher.lastFetch ≠ none := by
  induction ms generalizing s with
  | nil => exact h
  | cons m ms ih =>
    refine ih ?_
    cases s.pushes m with
    | stores _ _ _ _ hlast => rwa [hlast]
    | stamps _ _ _ _ hlast => simp [hlast]
    | keeps _ _ hlast => rwa [hlast]

/-! ## Runs -/

omit [Exchange ε] in
theorem taken_new (now : Int) (exchange : ε) (strategy : Strategy) (pollInterval : Duration)
    (capacity : Nat) :
    let s := Suspended.new now exchange (.new strategy pollInterval capacity)
    Taken s ∧ TimeAtHand s :=
  ⟨⟨fun _ _ hr => absurd hr List.not_mem_nil, fun h => absurd rfl h⟩, .inl rfl⟩

theorem latest?_run_new (now : Int) (exchange : ε) (strategy : Strategy) (pollInterval : Duration)
    (capacity : Nat) (ms : List Move) :
    let s := Suspended.new now exchange (.new strategy pollInterval capacity)
    (s.run ms).world.watcher.buffer.latest? = (s.stored ms).getLast? := by
  intro s
  rw [buffer_run, RecordBuffer.latest?_foldl_push]
  exact Option.or_none ..

theorem stored_append (s : Suspended ε) (ms ns : List Move) :
    s.stored (ms ++ ns) = s.stored ms ++ (s.run ms).stored ns := by
  induction ms generalizing s with
  | nil => rfl
  | cons m ms ih => rw [List.cons_append, stored, ih, stored, List.append_assoc, run_cons]

/-- Records are in the order of their requests. After any run of refreshes that may be suspended at
every await, and dropped there, the records of the history go from old to new. While the lock is
free the time of the last fetch is the time of the newest record, if no refresh was dropped between
the two halves of its push. There is neither before the first record is stored, and after it there
is always a newest record; and a time of the last fetch, once taken down, does not go away. -/
theorem records_inOrder (now : Int) (exchange : ε) (strategy : Strategy) (pollInterval : Duration)
    (capacity : Nat) (ms : List Move) :
    let s := Suspended.new now exchange (.new strategy pollInterval capacity)
    let t := s.run ms
    t.records.Pairwise (·.timestamp ≤ ·.timestamp) ∧
    (s.isUnsplit ms = true → t.isFree = true → t.lastFetch = t.newestTime?) ∧
    (s.stored ms = [] → t.lastFetch = none ∧ t.newestTime? = none) ∧
    (s.stored ms ≠ [] → ∀ ns, (t.run ns).newestTime? ≠ none) ∧
    (t.lastFetch ≠ none → ∀ ns, (t.run ns).lastFetch ≠ none) := by
  intro s t
  have horder : InOrder now s.world s.live := .new now exchange strategy pollInterval capacity
  obtain ⟨htaken, hhand⟩ := taken_new now exchange strategy pollInterval capacity
  have hlatest := latest?_run_new now exchange strategy pollInterval capacity
  refine ⟨?_, fun hms hfree => ?_, fun hnone => ?_, fun hsome ns => ?_, fun hsome ns => ?_⟩
  · have hall : (s.stored ms).Pairwise (·.timestamp ≤ ·.timestamp) := pairwise_stored horder ms
    have hsuffix : t.records <:+ s.stored ms := by
      rw [records, buffer_run]
      exact RecordBuffer.foldl_push_suffix ..
    exact hall.sublist hsuffix.sublist
  · exact (hhand.run htaken horder hms).eq_of_free (horder.run ms).lock
      (Bool.not_eq_true' _ ▸ hfree)
  · have hlast : t.world.watcher.buffer.latest? = none := by rw [hlatest ms, hnone]; rfl
    refine ⟨?_, by rw [newestTime?, RecordBuffer.latestTime?, hlast]; rfl⟩
    exact Classical.not_not.1 fun hsome => (htaken.run horder ms).known hsome hlast
  · rw [← run_append, newestTime?, RecordBuffer.latestTime?, hlatest, stored_append, Ne,
      Option.map_eq_none_iff, List.getLast?_eq_none_iff, List.append_eq_nil_iff]
    exact fun h => hsome h.1
  · exact lastFetch_run_ne_none hsome ns

/-- Two refreshes that begin at once: the second queues, and sends its request when the first has
given the lock back and not yet made the table. -/
theorem records_inOrder_scripted :
    let exchange : ScriptedExchange := .new "sim" [⟨.ok (.object []), 0⟩] []
    let s := Suspended.new 0 exchange (.new (.new "spot" "sim" "USDT" ⟨5⟩) .zero 2)
    let ms := .enter [] :: .enter [] :: List.replicate 3 (.advance 0) ++
      List.replicate 2 (.advance 1) ++ .elapse 5 :: .advance 1 ::
        List.replicate 3 (.advance 0) ++ List.replicate 4 (.advance 1)
    let t := s.run ms
    s.isUnsplit ms = true ∧ t.isFree = true ∧ s.stored ms ≠ [] ∧
      t.records.map (·.timestamp) = [⟨0, 0⟩, ⟨0, 5⟩] ∧ t.lastFetch = some ⟨0, 5⟩ ∧
      ∀ ns, (t.run ns).lastFetch ≠ none := by
  intro exchange s ms t
  obtain ⟨-, htimes, -, -, hkept⟩ :=
    records_inOrder 0 exchange (.new "spot" "sim" "USDT" ⟨5⟩) .zero 2 ms
  have hunsplit : s.isUnsplit ms = true := by decide +kernel
  have hfree : t.isFree = true := by decide +kernel
  have hnewest : t.newestTime? = some ⟨0, 5⟩ := by decide +kernel
  have hlast : t.lastFetch = some ⟨0, 5⟩ := (htimes hunsplit hfree).trans hnewest
  have hstored : s.stored ms ≠ [] :=
    List.length_pos_iff.1 (show 0 < (s.stored ms).length by decide +kernel)
  have hsome : t.lastFetch ≠ none := by
    rw [hlast]
    exact Option.some_ne_none _
  exact ⟨hunsplit, hfree, hstored, by decide +kernel, hlast, hkept hsome⟩

end Suspended

end Portfolio
