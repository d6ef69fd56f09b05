import Portfolio.Proofs.Calls.Join

/-! # What each call did

A meter on the exchange writes the balance requests down (`Metered`), so what a call did can be read
off the moves at which it acts: the requests that it sent and the records that it landed
(`Calls.requestsOf`, `Calls.recordsOf`). `Refresh.Turned` lists what a turn can do for a refresh
whose request is not out yet, and `Course` what a call has done by any moment of a run
(`Course.run`). -/

namespace Portfolio

/-! ## A meter on the exchange -/

/-- A balance request with the time at which it was sent, and its reply. -/
structure Request where
  at_ : Int
  params : Params
  reply : Reply Json.Value

/-- The record that the request brings, stamped with its own time, if the reply counts. -/
def Request.record? (r : Request) : Option FetchRecord :=
  r.reply.payload?.map (⟨·, .ofNanos r.at_⟩)

/-- An exchange with the balance requests that were sent to it, the first one first. -/
structure Metered (ε : Type) where
  exchange : ε
  sent : List Request

instance {ε : Type} [Exchange ε] : Exchange (Metered ε) where
  name m := Exchange.name m.exchange
  fetchBalance m now params :=
    let r := Exchange.fetchBalance m.exchange now params
    (⟨r.1, m.sent ++ [⟨now, params, r.2⟩]⟩, r.2)
  fetchPrice m now pair :=
    let r := Exchange.fetchPrice m.exchange now pair
    ({ m with exchange := r.1 }, r.2)

variable {ε : Type}

/-- The requests that were sent on the way from one world to another. -/
def World.requestsTo (w w' : World (Metered ε)) : List Request :=
  w'.exchange.sent.drop w.exchange.sent.length

def World.withLock (w : World ε) (lock : FetchLock) : World ε :=
  w.onWatcher ({ · with lock })

theorem World.requestsTo_of_eq {w w' : World (Metered ε)} (h : w'.exchange = w.exchange) :
    w.requestsTo w' = [] := by
  rw [World.requestsTo, h, List.drop_length]

/-! ## Changes of the data -/

namespace Watcher

/-- History, time of the last fetch, table and count of signals are as they were. -/
structure SameData (w w' : Watcher) : Prop where
  buffer : w'.buffer = w.buffer
  lastFetch : w'.lastFetch = w.lastFetch
  view : w'.view = w.view
  signals : w'.signals = w.signals

/-- The record is stored and its time taken down, the table is made from it, and one signal is
raised. -/
structure Lands (r : FetchRecord) (w w' : Watcher) : Prop where
  buffer : w'.buffer = w.buffer.push r
  lastFetch : w'.lastFetch = some r.timestamp
  view : w'.view = w.view.report r.timestamp (Payload.read r.payload)
  signals : w'.signals = w.signals + 1

/-- The record that was landed on the way from one state to another: the newest one, if a signal was
raised. -/
def recordsTo (w w' : Watcher) : List FetchRecord :=
  if w'.signals = w.signals then [] else w'.buffer.latest?.toList

/-- All or nothing: the data stays, or a record lands. -/
inductive Changes (w w' : Watcher) : List FetchRecord → Prop
  | untouched (h : SameData w w') : Changes w w' []
  | lands {r : FetchRecord} (h : Lands r w w') : Changes w w' [r]

variable {w w' w'' : Watcher}

theorem SameData.refl (w : Watcher) : SameData w w :=
  ⟨rfl, rfl, rfl, rfl⟩

theorem SameData.trans (h : SameData w w') (h' : SameData w' w'') : SameData w w'' where
  buffer := h'.buffer.trans h.buffer
  lastFetch := h'.lastFetch.trans h.lastFetch
  view := h'.view.trans h.view
  signals := h'.signals.trans h.signals

theorem SameData.recordsTo (h : SameData w w') : w.recordsTo w' = [] := by
  rw [Watcher.recordsTo, if_pos h.signals]

theorem Lands.recordsTo {r : FetchRecord} (h : Lands r w w') : w.recordsTo w' = [r] := by
  have hne : w'.signals ≠ w.signals := by rw [h.signals]; omega
  rw [Watcher.recordsTo, if_neg hne, h.buffer, RecordBuffer.latest?_push, Option.toList_some]

theorem Lands.of_sameData {r : FetchRecord} (h : SameData w w') (h' : Lands r w' w'') :
    Lands r w w'' where
  buffer := h'.buffer.trans (congrArg (·.push r) h.buffer)
  lastFetch := h'.lastFetch
  view := h'.view.trans (congrArg (fun v => v.report r.timestamp (Payload.read r.payload)) h.view)
  signals := h'.signals.trans (congrArg (· + 1) h.signals)

theorem Changes.of_sameData {records : List FetchRecord} (h : SameData w w')
    (h' : Changes w' w'' records) : Changes w w'' records := by
  cases h' with
  | untouched h' => exact .untouched (h.trans h')
  | lands h' => exact .lands (.of_sameData h h')

theorem Changes.recordsTo {records : List FetchRecord} (h : Changes w w' records) :
    w.recordsTo w' = records := by
  cases h with
  | untouched h => exact h.recordsTo
  | lands h => exact h.recordsTo

theorem lands_land (w : Watcher) (ticket : Nat) (payload : Json.Value) (started : Timestamp) :
    Lands ⟨payload, started⟩ w (w.land ticket payload started) := by
  rw [land_eq]
  exact ⟨rfl, rfl, rfl, rfl⟩

end Watcher

/-! ## Turns of a refresh -/

open Refresh

section
variable [Exchange ε]

def Request.of (w : World ε) (fallback : Params) : Request :=
  ⟨w.now, w.watcher.strategy.requestParams fallback, replyNow w fallback⟩

/-- What a turn can do for a refresh whose request is not out yet. It looks for news since `seen?`
as long as it has not drawn a ticket. -/
inductive Refresh.Turned (w : World ε) (seen? : Option Seen) : World ε → Option Refresh → Prop
  | listens {seen : Seen} {deadline : Int} {fallback : Params} (h : seen? = some seen) :
      Turned w seen? w (some (.joining seen deadline fallback))
  | joins {seen : Seen} (h : seen? = some seen) (hnews : w.watcher.hasNews seen = true) :
      Turned w seen? w none
  | queues (lock : FetchLock) (ticket : Nat) (fallback : Params) :
      Turned w seen? (w.withLock lock) (some (.queueing ticket fallback))
  | asks (lock : FetchLock) (ticket : Nat) (fallback : Params) :
      Turned w seen? (asked (w.withLock lock) fallback)
        (some (.fetching ticket w.time (w.now + (replyNow w fallback).latency)
          (replyNow w fallback)))
  | settles (lock : FetchLock) (ticket : Nat) (fallback : Params) :
      Turned w seen? (finish (asked (w.withLock lock) fallback) ticket w.time
        (replyNow w fallback)).1 none

namespace Refresh.Turned

variable {w : World ε} {seen? : Option Seen}

theorem await (lock : FetchLock) (ticket : Nat) (fallback : Params) :
    Turned w seen? (Refresh.await (w.withLock lock) ticket fallback).1
      (Refresh.await (w.withLock lock) ticket fallback).2.left := by
  unfold Refresh.await
  split
  · rw [fetch_eq]
    split
    · rw [left_finish]
      exact .settles lock ticket fallback
    · exact .asks lock ticket fallback
  · exact .queues lock ticket fallback

theorem join {seen : Seen} (deadline : Int) (fallback : Params) (h : seen? = some seen) :
    Turned w seen? (Refresh.join w seen deadline fallback).1
      (Refresh.join w seen deadline fallback).2.left := by
  unfold Refresh.join
  split
  · split
    · next hnews => exact .joins h hnews
    · exact await w.watcher.lock.draw.1 w.watcher.lock.next fallback
  · exact .listens h

theorem begin (w : World ε) (fallback : Params) :
    Turned w (some w.watcher.seen) (Refresh.begin w fallback).1
      (Refresh.begin w fallback).2.left := by
  unfold Refresh.begin
  split
  · exact join _ fallback rfl
  · exact await w.watcher.lock.draw.1 w.watcher.lock.next fallback

end Refresh.Turned

/-- The end of a fetch lands what the reply brings, and changes nothing if it brings nothing. -/
theorem Refresh.changes_finish (w : World ε) (ticket : Nat) (started : Timestamp)
    (reply : Reply Json.Value) :
    w.watcher.Changes (finish w ticket started reply).1.watcher
      (reply.payload?.map (FetchRecord.mk · started)).toList := by
  rw [watcher_finish]
  cases reply.payload? with
  | some payload => exact .lands (Watcher.lands_land ..)
  | none => exact .untouched ⟨rfl, rfl, rfl, rfl⟩

end

/-! ## The course of a call -/

/-- What a call has done: where it stands now, the requests that it sent, the records that it
landed, and whether it was given up. Until it draws a ticket it looks for news since `seen?`, and
`news` holds if it found any. -/
inductive Course (seen? : Option Seen) (news : Prop) :
    Option Call → List Request → List FetchRecord → Bool → Prop
  | listens {seen : Seen} {deadline : Int} {fallback : Params} (h : seen? = some seen) :
      Course seen? news (some (.refresh (.joining seen deadline fallback))) [] [] false
  | queues (ticket : Nat) (fallback : Params) :
      Course seen? news (some (.refresh (.queueing ticket fallback))) [] [] false
  | asks (ticket : Nat) (request : Request) :
      Course seen? news (some (.refresh (.fetching ticket (.ofNanos request.at_)
        (request.at_ + request.reply.latency) request.reply))) [request] [] false
  | joins (h : news) : Course seen? news none [] [] false
  | settles (request : Request) :
      Course seen? news none [request] request.record?.toList false
  | givesUp {requests : List Request} (h : requests.length ≤ 1) :
      Course seen? news none requests [] true

/-- No call sends more than one request. -/
theorem Course.length_requests_le {seen? : Option Seen} {news : Prop} {c? : Option Call}
    {requests : List Request} {records : List FetchRecord} {gone : Bool}
    (h : Course seen? news c? requests records gone) : requests.length ≤ 1 := by
  cases h with
  | givesUp h => exact h
  | asks | settles => exact Nat.le_refl 1
  | listens | queues | joins => exact Nat.zero_le 1

section
variable [Exchange ε] {w w' : World (Metered ε)} {seen? : Option Seen} {news : Prop}

theorem Refresh.Turned.course {r? : Option Refresh} (h : Turned w seen? w' r?)
    (hnews : ∀ seen, seen? = some seen → w.watcher.hasNews seen = true → news) :
    ∃ records, w.watcher.Changes w'.watcher records ∧
      Course seen? news (r?.map .refresh) (w.requestsTo w') records false := by
  cases h with
  | listens h =>
    rw [World.requestsTo_of_eq rfl]
    exact ⟨[], .untouched (.refl _), .listens h⟩
  | joins h hn =>
    rw [World.requestsTo_of_eq rfl]
    exact ⟨[], .untouched (.refl _), .joins (hnews _ h hn)⟩
  | queues lock ticket fallback =>
    have hsent : w.requestsTo (w.withLock lock) = [] := World.requestsTo_of_eq rfl
    rw [hsent]
    exact ⟨[], .untouched ⟨rfl, rfl, rfl, rfl⟩, .queues ticket fallback⟩
  | asks lock ticket fallback =>
    have hsent : w.requestsTo (asked (w.withLock lock) fallback) = [.of w fallback] :=
      List.drop_left
    rw [hsent]
    exact ⟨[], .untouched ⟨rfl, rfl, rfl, rfl⟩, .asks ticket (.of w fallback)⟩
  | settles lock ticket fallback =>
    have hsent : w.requestsTo (finish (asked (w.withLock lock) fallback) ticket w.time
        (replyNow w fallback)).1 = [.of w fallback] := by
      rw [finish_fst]
      exact List.drop_left
    rw [hsent]
    have hsame : w.watcher.SameData (asked (w.withLock lock) fallback).watcher :=
      ⟨rfl, rfl, rfl, rfl⟩
    have hchanges := changes_finish (asked (w.withLock lock) fallback) ticket w.time
      (replyNow w fallback)
    exact ⟨_, .of_sameData hsame hchanges, .settles (.of w fallback)⟩

theorem World.requestsTo_finish (w : World (Metered ε)) (ticket : Nat) (started : Timestamp)
    (reply : Reply Json.Value) : w.requestsTo (finish w ticket started reply).1 = [] := by
  refine World.requestsTo_of_eq ?_
  rw [finish_fst]

theorem Course.resume {c : Call} {requests : List Request} {records : List FetchRecord}
    (h : Course seen? news (some c) requests records false)
    (hnews : ∀ seen, seen? = some seen → w.watcher.hasNews seen = true → news) :
    ∃ landed, w.watcher.Changes (c.resume w).1.watcher landed ∧
      Course seen? news (c.resume w).2 (requests ++ w.requestsTo (c.resume w).1)
        (records ++ landed) false := by
  cases h with
  | @listens seen deadline fallback h => exact (Turned.join deadline fallback h).course hnews
  | queues ticket fallback => exact (Turned.await w.watcher.lock ticket fallback).course hnews
  | asks ticket request =>
    simp only [Call.resume, Refresh.resume]
    split
    · rw [left_finish, World.requestsTo_finish]
      exact ⟨_, changes_finish w ticket (.ofNanos request.at_) request.reply, .settles request⟩
    · rw [World.requestsTo_of_eq rfl]
      exact ⟨[], .untouched (.refl _), .asks ticket request⟩

omit [Exchange ε] in
theorem Call.sameData_drop (c : Call) (w : World ε) : w.watcher.SameData (c.drop w).watcher := by
  obtain ⟨lock, inFlight, hw⟩ := c.drop_eq w
  rw [hw]
  exact ⟨rfl, rfl, rfl, rfl⟩

omit [Exchange ε] in
theorem World.requestsTo_drop (w : World (Metered ε)) (c : Call) :
    w.requestsTo (c.drop w) = [] := by
  obtain ⟨lock, inFlight, hw⟩ := c.drop_eq w
  rw [hw]
  exact World.requestsTo_of_eq rfl

omit [Exchange ε] in
theorem Course.drop {c : Call} {requests : List Request} {records : List FetchRecord} {gone : Bool}
    (h : Course seen? news (some c) requests records gone) :
    Course seen? news none requests records true := by
  cases h with
  | listens | queues | asks => exact .givesUp (by simp)

end

/-! ## Changes by moves -/

section
variable [Exchange ε]

theorem Refresh.Turned.changes {w w' : World ε} {seen? : Option Seen} {r? : Option Refresh}
    (h : Turned w seen? w' r?) : ∃ records, w.watcher.Changes w'.watcher records := by
  cases h with
  | listens | joins => exact ⟨[], .untouched (.refl _)⟩
  | queues | asks => exact ⟨[], .untouched ⟨rfl, rfl, rfl, rfl⟩⟩
  | settles lock ticket fallback =>
    have hsame : w.watcher.SameData (asked (w.withLock lock) fallback).watcher :=
      ⟨rfl, rfl, rfl, rfl⟩
    exact ⟨_, .of_sameData hsame (changes_finish ..)⟩

theorem Call.changes_resume (c : Call) (w : World ε) :
    ∃ records, w.watcher.Changes (c.resume w).1.watcher records := by
  cases c with
  | refresh r =>
    cases r with
    | joining seen deadline fallback => exact (Turned.join deadline fallback rfl).changes
    | queueing ticket fallback =>
      have hturned : Turned w none _ _ := .await w.watcher.lock ticket fallback
      exact hturned.changes
    | fetching ticket started due reply =>
      simp only [Call.resume, Refresh.resume]
      split
      · exact ⟨_, changes_finish ..⟩
      · exact ⟨[], .untouched (.refl _)⟩
  | locking ticket =>
    simp only [Call.resume]
    split <;> exact ⟨[], .untouched ⟨rfl, rfl, rfl, rfl⟩⟩
  | holding ticket => exact ⟨[], .untouched (.refl _)⟩

/-- The move changes the data of the watcher beside the calls. -/
def Calls.Move.isByHand : Calls.Move ε → Bool
  | .reset | .renewView | .signal | .push .. => true
  | _ => false

theorem Calls.sameData_other (s : Calls ε) {m : Calls.Move ε} (hm : m.isCall = false)
    (hhand : m.isByHand = false) : s.world.watcher.SameData (s.step m).world.watcher := by
  cases m with
  | enter | lock | resume | drop => cases hm
  | reset | renewView | signal | push => cases hhand
  | start =>
    obtain ⟨poller, started, loops, nextLoop, journal, hw⟩ := s.world.start_eq
    have hs : (s.step .start).world = _ := hw
    rw [hs]
    exact ⟨rfl, rfl, rfl, rfl⟩
  | stop =>
    obtain ⟨poller, started, loops, journal, hw, -⟩ := s.world.stop_cases
    have hs : (s.step .stop).world = _ := hw
    rw [hs]
    exact ⟨rfl, rfl, rfl, rfl⟩
  | business exchange events =>
    have hs : (s.step (.business exchange events)).world.watcher = s.world.watcher :=
      World.watcher_logAll ..
    rw [hs]
    exact .refl _
  | elapse | release | loops => exact ⟨rfl, rfl, rfl, rfl⟩

/-- A move of a call leaves the data alone or lands a record. -/
theorem Calls.changes_step (s : Calls ε) {m : Calls.Move ε} (hm : m.isCall = true) :
    ∃ records, s.world.watcher.Changes (s.step m).world.watcher records := by
  cases m with
  | enter fallback => exact (Turned.begin s.world fallback).changes
  | lock => exact ⟨[], .untouched ⟨rfl, rfl, rfl, rfl⟩⟩
  | resume place =>
    simp only [step]
    split
    · next c _ => exact c.changes_resume s.world
    · exact ⟨[], .untouched (.refl _)⟩
  | drop place =>
    simp only [step]
    split
    · next c _ => exact ⟨[], .untouched (c.sameData_drop s.world)⟩
    · exact ⟨[], .untouched (.refl _)⟩
  | _ => cases hm

end

/-! ## What a call did in a run -/

namespace Calls

/-- The move is one of the call in the place. -/
def isOf (s : Calls ε) (place : Nat) : Move ε → Bool
  | .enter _ | .lock => s.slots.length == place
  | .resume other | .drop other => other == place
  | _ => false

/-- The move gives up the call in the place. -/
def givesUp (s : Calls ε) (place : Nat) : Move ε → Bool
  | .drop other => other == place && (s.call? place).isSome
  | _ => false

section
variable [Exchange ε]

/-- The requests that the call in the place sent. -/
def requestsOf (place : Nat) : Calls (Metered ε) → List (Move (Metered ε)) → List Request
  | _, [] => []
  | s, m :: ms =>
    (if s.isOf place m then s.world.requestsTo (s.step m).world else []) ++
      requestsOf place (s.step m) ms

/-- The records that the call in the place landed. -/
def recordsOf (place : Nat) : Calls ε → List (Move ε) → List FetchRecord
  | _, [] => []
  | s, m :: ms =>
    (if s.isOf place m then s.world.watcher.recordsTo (s.step m).world.watcher else []) ++
      recordsOf place (s.step m) ms

/-- The call in the place was given up. -/
def isGivenUp (place : Nat) : Calls ε → List (Move ε) → Bool
  | _, [] => false
  | s, m :: ms => s.givesUp place m || isGivenUp place (s.step m) ms

theorem requestsOf_append (s : Calls (Metered ε)) (place : Nat) (ms ns : List (Move (Metered ε))) :
    s.requestsOf place (ms ++ ns) = s.requestsOf place ms ++ (s.run ms).requestsOf place ns := by
  induction ms generalizing s with
  | nil => rfl
  | cons m ms ih =>
    simp only [List.cons_append, requestsOf, ih, run_cons, List.append_assoc]

theorem isGivenUp_append (s : Calls ε) (place : Nat) (ms ns : List (Move ε)) :
    s.isGivenUp place (ms ++ ns) = (s.isGivenUp place ms || (s.run ms).isGivenUp place ns) := by
  induction ms generalizing s with
  | nil => rfl
  | cons m ms ih =>
    simp only [List.cons_append, isGivenUp, ih, run_cons, Bool.or_assoc]

/-- A record of the call was landed by one of its moves. -/
theorem mem_recordsOf {s : Calls ε} {place : Nat} {ms : List (Move ε)} {r : FetchRecord} :
    r ∈ s.recordsOf place ms ↔ ∃ earlier m, earlier ++ [m] <+: ms ∧
      (s.run earlier).isOf place m = true ∧
        r ∈ (s.run earlier).world.watcher.recordsTo ((s.run earlier).step m).world.watcher := by
  induction ms generalizing s with
  | nil => simp [recordsOf]
  | cons n ms ih =>
    simp only [recordsOf, List.mem_append, ih]
    constructor
    · rintro (hr | ⟨earlier, m, hm, hof, hr⟩)
      · split at hr
        · next hof => exact ⟨[], n, List.cons_prefix_cons.2 ⟨rfl, List.nil_prefix⟩, hof, hr⟩
        · cases hr
      · exact ⟨n :: earlier, m, List.cons_prefix_cons.2 ⟨rfl, hm⟩, hof, hr⟩
    · rintro ⟨earlier, m, hm, hof, hr⟩
      cases earlier with
      | nil =>
        obtain ⟨rfl, -⟩ := List.cons_prefix_cons.1 hm
        exact .inl (by rw [if_pos (show s.isOf place m = true from hof)]; exact hr)
      | cons e earlier =>
        obtain ⟨rfl, hms⟩ := List.cons_prefix_cons.1 hm
        exact .inr ⟨earlier, m, hms, hof, hr⟩

end

end Calls

section
variable [Exchange ε] {s : Calls (Metered ε)} {place : Nat} {seen? : Option Seen} {news : Prop}
  {requests : List Request} {records : List FetchRecord} {gone : Bool}

theorem Calls.step_of_over (hover : s.call? place = none) (hp : place < s.slots.length)
    {m : Calls.Move (Metered ε)} (hm : s.isOf place m = true) :
    s.step m = s ∧ s.givesUp place m = false := by
  cases m with
  | enter | lock => exact absurd (beq_iff_eq.1 hm) (Nat.ne_of_gt hp)
  | resume other =>
    obtain rfl := beq_iff_eq.1 hm
    simp [Calls.step, Calls.givesUp, hover]
  | drop other =>
    obtain rfl := beq_iff_eq.1 hm
    simp [Calls.step, Calls.givesUp, hover]
  | _ => cases hm

theorem Calls.step_of_call {c : Call} (hc : s.call? place = some c)
    {m : Calls.Move (Metered ε)} (hm : s.isOf place m = true) :
    (s.givesUp place m = false ∧ (s.step m).world = (c.resume s.world).1 ∧
      (s.step m).call? place = (c.resume s.world).2) ∨
    (s.givesUp place m = true ∧ (s.step m).world = c.drop s.world ∧
      (s.step m).call? place = none) := by
  have hp : place < s.slots.length := lt_of_call? hc
  cases m with
  | enter | lock => exact absurd (beq_iff_eq.1 hm) (Nat.ne_of_gt hp)
  | resume other =>
    obtain rfl := beq_iff_eq.1 hm
    rw [step_resume hc]
    exact .inl ⟨rfl, rfl, by simp [call?, hp]⟩
  | drop other =>
    obtain rfl := beq_iff_eq.1 hm
    rw [step_drop hc]
    exact .inr ⟨by simp [Calls.givesUp, hc], rfl, by simp [call?, hp]⟩
  | _ => cases hm

theorem Calls.call?_step_of_other (hp : place < s.slots.length) {m : Calls.Move (Metered ε)}
    (hm : s.isOf place m = false) :
    (s.step m).call? place = s.call? place ∧ s.givesUp place m = false := by
  constructor
  · obtain hsame | ⟨rfl, -⟩ | ⟨c, rfl, -⟩ := s.call?_step hp m
    · exact hsame
    · simp [Calls.isOf] at hm
    · simp [Calls.isOf] at hm
  · cases m <;> simp_all [Calls.isOf, Calls.givesUp]

theorem Course.step (h : Course seen? news (s.call? place) requests records gone)
    (hp : place < s.slots.length) (m : Calls.Move (Metered ε))
    (hnews : (s.call? place).isSome = true → ∀ seen, seen? = some seen →
      s.world.watcher.hasNews seen = true → news) :
    Course seen? news ((s.step m).call? place)
      (requests ++ if s.isOf place m then s.world.requestsTo (s.step m).world else [])
      (records ++
        if s.isOf place m then s.world.watcher.recordsTo (s.step m).world.watcher else [])
      (gone || s.givesUp place m) := by
  cases hm : s.isOf place m with
  | false =>
    obtain ⟨hsame, hgives⟩ := Calls.call?_step_of_other hp hm
    simpa [hsame, hgives] using h
  | true =>
    cases hc : s.call? place with
    | none =>
      obtain ⟨hstep, hgives⟩ := Calls.step_of_over hc hp hm
      have hsame : s.world.watcher.SameData s.world.watcher := .refl _
      have hsent : s.world.requestsTo s.world = [] := World.requestsTo_of_eq rfl
      rw [hc] at h
      simpa [hstep, hgives, hc, hsent, hsame.recordsTo] using h
    | some c =>
      rw [hc] at h
      obtain ⟨hgives, hworld, hnext⟩ | ⟨hgives, hworld, hnext⟩ := Calls.step_of_call hc hm
      · obtain rfl : gone = false := by cases h <;> rfl
        obtain ⟨landed, hchanges, hcourse⟩ := h.resume (hnews (by rw [hc]; rfl))
        simpa [hworld, hgives, hnext, hchanges.recordsTo] using hcourse
      · have hsame : s.world.watcher.SameData (c.drop s.world).watcher := c.sameData_drop s.world
        have hsent : s.world.requestsTo (c.drop s.world) = [] := World.requestsTo_drop s.world c
        simpa [hworld, hgives, hnext, hsent, hsame.recordsTo] using h.drop

/-- A run, if what the call takes for news while it looks for them is news. -/
theorem Course.run (h : Course seen? news (s.call? place) requests records gone)
    (hp : place < s.slots.length) (ms : List (Calls.Move (Metered ε)))
    (hnews : ∀ before, before <+: ms → ((s.run before).call? place).isSome = true →
      ∀ seen, seen? = some seen → (s.run before).world.watcher.hasNews seen = true → news) :
    Course seen? news ((s.run ms).call? place) (requests ++ s.requestsOf place ms)
      (records ++ s.recordsOf place ms) (gone || s.isGivenUp place ms) := by
  induction ms generalizing s requests records gone with
  | nil => simpa [Calls.requestsOf, Calls.recordsOf, Calls.isGivenUp] using h
  | cons m ms ih =>
    have hstep := h.step hp m (hnews [] List.nil_prefix)
    have hp' : place < (s.step m).slots.length := Nat.lt_of_lt_of_le hp (s.length_step m)
    have hrun := ih hstep hp' fun before hb =>
      hnews (m :: before) (List.cons_prefix_cons.2 ⟨rfl, hb⟩)
    simpa only [Calls.run_cons, Calls.requestsOf, Calls.recordsOf, Calls.isGivenUp,
      List.append_assoc, Bool.or_assoc] using hrun

theorem Course.enter (s : Calls (Metered ε)) (fallback : Params)
    (hnews : s.world.watcher.hasNews s.world.watcher.seen = true → news) :
    let s' := s.step (.enter fallback)
    Course (some s.world.watcher.seen) news (s'.call? s.slots.length)
      (s.world.requestsTo s'.world) (s.world.watcher.recordsTo s'.world.watcher) false := by
  intro s'
  obtain ⟨landed, hchanges, hcourse⟩ := (Turned.begin s.world fallback).course (by
    rintro _ ⟨⟩ hn
    exact hnews hn)
  have hplace : s'.call? s.slots.length =
      (Refresh.begin s.world fallback).2.left.map Call.refresh := by
    simp [s', Calls.step, Calls.call?]
  have hlanded : s.world.watcher.recordsTo s'.world.watcher = landed := hchanges.recordsTo
  rw [hplace, hlanded]
  exact hcourse

/-- The life of a refresh, from its entry on. -/
theorem Course.life (s : Calls (Metered ε)) (fallback : Params) (ms : List (Calls.Move (Metered ε)))
    (hentry : s.world.watcher.hasNews s.world.watcher.seen = true → news)
    (hnews : ∀ before, before <+: ms →
      ((s.run (.enter fallback :: before)).call? s.slots.length).isSome = true →
        (s.run (.enter fallback :: before)).world.watcher.hasNews s.world.watcher.seen = true →
          news) :
    Course (some s.world.watcher.seen) news
      ((s.run (.enter fallback :: ms)).call? s.slots.length)
      (s.requestsOf s.slots.length (.enter fallback :: ms))
      (s.recordsOf s.slots.length (.enter fallback :: ms))
      (s.isGivenUp s.slots.length (.enter fallback :: ms)) := by
  have hp : s.slots.length < (s.step (.enter fallback)).slots.length := by simp [Calls.step]
  have hrun := (Course.enter s fallback hentry).run hp ms (by
    rintro before hb hthere _ ⟨⟩ hn
    exact hnews before hb hthere hn)
  have hof : s.isOf s.slots.length (.enter fallback) = true := beq_self_eq_true _
  simpa only [Calls.run_cons, Calls.requestsOf, Calls.recordsOf, Calls.isGivenUp, hof, if_true,
    Calls.givesUp] using hrun

end

end Portfolio
