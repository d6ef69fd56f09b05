import Portfolio.Live.Refresh

/-! # What a turn of a refresh can do

A turn of a refresh is made of five acts: it joins the fetch in flight, stops waiting for it, draws
a ticket, asks the exchange, and ends with the reply. `TurnInvariant P` says that every act keeps
`P`; then a whole turn keeps it, whether it begins a refresh (`TurnInvariant.begin`) or goes on with
one (`TurnInvariant.resume`). -/

namespace Portfolio

/-- The payload that a reply brings, if it is one that counts. -/
def Reply.payload? (r : Reply Json.Value) : Option Json.Value :=
  match r.outcome with
  | .answer v => if v.isObject then some v else none
  | .failure _ | .crash _ => none

namespace Refresh

variable {ε : Type}

/-- The world after a caller drew a ticket. -/
def drawn (w : World ε) : World ε :=
  w.onWatcher ({ · with lock := w.watcher.lock.draw.1 })

section
variable [Exchange ε]

/-- The reply to a balance request that is sent now. -/
def replyNow (w : World ε) (fallback : Params) : Reply Json.Value :=
  (Exchange.fetchBalance w.exchange w.now (w.watcher.strategy.requestParams fallback)).2

/-- The world after a balance request was sent. -/
def asked (w : World ε) (fallback : Params) : World ε :=
  { w.onWatcher .enter with
    exchange :=
      (Exchange.fetchBalance w.exchange w.now (w.watcher.strategy.requestParams fallback)).1 }

/-! ## The parts of a turn -/

theorem fetch_eq (w : World ε) (ticket : Nat) (fallback : Params) :
    fetch w ticket fallback =
      if (replyNow w fallback).latency = 0 then
        finish (asked w fallback) ticket w.time (replyNow w fallback)
      else
        (asked w fallback,
          .blocked (.fetching ticket w.time (w.now + (replyNow w fallback).latency)
            (replyNow w fallback))) := rfl

theorem queue_eq (w : World ε) (fallback : Params) :
    queue w fallback = await (drawn w) w.watcher.lock.next fallback := rfl

theorem watcher_finish (w : World ε) (ticket : Nat) (started : Timestamp)
    (reply : Reply Json.Value) :
    (finish w ticket started reply).1.watcher =
      match reply.payload? with
      | some payload => w.watcher.land ticket payload started
      | none => w.watcher.release ticket := by
  unfold finish Reply.payload?
  cases reply.outcome with
  | answer v => by_cases hv : v.isObject = true <;> simp [readReply, hv]
  | failure e => simp [readReply]
  | crash fault => simp

/-- An ending changes nothing but the watcher and the journal. -/
theorem finish_fst (w : World ε) (ticket : Nat) (started : Timestamp) (reply : Reply Json.Value) :
    (finish w ticket started reply).1 =
      { w with
        watcher := (finish w ticket started reply).1.watcher
        journal := (finish w ticket started reply).1.journal } := by
  have hlog (u : World ε) (es : List Event) (f : Watcher → Watcher) :
      (u.logAll es).onWatcher f =
        { u with watcher := f u.watcher, journal := (u.logAll es).journal } := by
    rw [World.logAll_eq]; rfl
  unfold finish
  cases reply.outcome with
  | answer v => by_cases hv : v.isObject = true <;> simp [readReply, hv, hlog] <;>
      rw [World.logAll_eq]
  | failure e => simp [readReply, hlog]; rw [World.logAll_eq]
  | crash fault => simp [hlog]

/-- A payload that counts lands, and the refresh is done. -/
theorem finish_of_payload (w : World ε) (ticket : Nat) (started : Timestamp)
    {reply : Reply Json.Value} {payload : Json.Value} (h : reply.payload? = some payload) :
    ∃ w', finish w ticket started reply = (w', .done ()) ∧
      w'.watcher = w.watcher.land ticket payload started := by
  have hdone : (finish w ticket started reply).2 = .done () := by
    unfold finish
    unfold Reply.payload? at h
    cases ho : reply.outcome with
    | answer v => by_cases hv : v.isObject = true <;> simp [readReply, hv]
    | failure e => simp [readReply]
    | crash fault => simp [ho] at h
  refine ⟨(finish w ticket started reply).1, Prod.ext rfl hdone, ?_⟩
  rw [watcher_finish, h]

/-- A refresh that has its reply does not wait any more. -/
theorem left_finish (w : World ε) (ticket : Nat) (started : Timestamp) (reply : Reply Json.Value) :
    (finish w ticket started reply).2.left = none := by
  unfold finish
  cases reply.outcome with
  | answer v => by_cases hv : v.isObject = true <;> simp [readReply, hv, Progress.left]
  | failure e => simp [readReply, Progress.left]
  | crash fault => rfl

end

end Refresh

open Refresh

/-- Every act of a refresh keeps `P`, which speaks of the world and of the refresh if it waits. -/
structure TurnInvariant {ε : Type} [Exchange ε] (P : World ε → Option Refresh → Prop) : Prop where
  join : ∀ {w fallback}, P w none → w.watcher.inFlight = true →
    P w (some (.joining w.watcher.seen (w.now + w.watcher.strategy.balanceTtl.nanos) fallback))
  leave : ∀ {w seen deadline fallback}, P w (some (.joining seen deadline fallback)) →
    joinOver w seen deadline = true → P w none
  draw : ∀ {w fallback}, P w none →
    P (drawn w) (some (.queueing w.watcher.lock.next fallback))
  ask : ∀ {w ticket fallback}, P w (some (.queueing ticket fallback)) →
    w.watcher.lock.isTurn ticket = true →
    P (asked w fallback) (some (.fetching ticket w.time
      (w.now + (replyNow w fallback).latency) (replyNow w fallback)))
  finish : ∀ {w ticket started due reply}, P w (some (.fetching ticket started due reply)) →
    due ≤ w.now → P (Refresh.finish w ticket started reply).1 none

namespace TurnInvariant

variable {ε : Type} [Exchange ε] {P : World ε → Option Refresh → Prop} (h : TurnInvariant P)
include h

theorem await {w : World ε} {ticket : Nat} {fallback : Params}
    (hp : P w (some (.queueing ticket fallback))) :
    P (Refresh.await w ticket fallback).1 (Refresh.await w ticket fallback).2.left := by
  unfold Refresh.await
  split
  · next ht =>
    have ha := h.ask hp ht
    rw [fetch_eq]
    split
    · next h0 =>
      rw [left_finish]
      refine h.finish ha ?_
      show w.now + ((replyNow w fallback).latency : Int) ≤ w.now
      omega
    · exact ha
  · exact hp

theorem queue {w : World ε} {fallback : Params} (hp : P w none) :
    P (Refresh.queue w fallback).1 (Refresh.queue w fallback).2.left :=
  h.await (h.draw hp)

theorem wait {w : World ε} {seen : Seen} {deadline : Int} {fallback : Params}
    (hp : P w (some (.joining seen deadline fallback))) :
    P (Refresh.join w seen deadline fallback).1
      (Refresh.join w seen deadline fallback).2.left := by
  unfold Refresh.join
  split
  · next ho =>
    split
    · exact h.leave hp ho
    · exact h.queue (h.leave hp ho)
  · exact hp

theorem begin {w : World ε} {fallback : Params} (hp : P w none) :
    P (Refresh.begin w fallback).1 (Refresh.begin w fallback).2.left := by
  unfold Refresh.begin
  split
  · next hf => exact h.wait (h.join hp hf)
  · exact h.queue hp

theorem resume {w : World ε} {r : Refresh} (hp : P w (some r)) :
    P (r.resume w).1 (r.resume w).2.left := by
  cases r with
  | joining seen deadline fallback => exact h.wait hp
  | queueing ticket fallback => exact h.await hp
  | fetching ticket started due reply =>
    simp only [Refresh.resume]
    split
    · next hd => rw [left_finish]; exact h.finish hp hd
    · exact hp

end TurnInvariant

end Portfolio
