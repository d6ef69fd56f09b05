import Portfolio.Proofs.Calls.Ledger
import Portfolio.Proofs.Calls.Join

/-! # After the wait for a fetch in flight

A refresh looks for news while it waits for a fetch in flight and not again afterwards. News in that
time save its request (`Calls.Follows.requestsOf_eq_nil`); from the moment it has drawn a ticket it
sends one, whatever lands before its turn (`Calls.queued_asks_once`). -/

namespace Portfolio

/-- The refresh waits for its turn to fetch. -/
def Call.isQueueing : Call → Bool
  | refresh (.queueing ..) => true
  | _ => false

theorem Call.exists_of_any_isQueueing {c? : Option Call} (h : c?.any Call.isQueueing = true) :
    ∃ ticket fallback, c? = some (.refresh (.queueing ticket fallback)) := by
  cases c? with
  | none => cases h
  | some c =>
    cases c with
    | refresh r =>
      cases r with
      | queueing ticket fallback => exact ⟨ticket, fallback, rfl⟩
      | joining | fetching => cases h
    | locking | holding => cases h

namespace Course

variable {seen? : Option Seen} {news : Prop} {requests : List Request}
  {records : List FetchRecord} {gone : Bool}

theorem of_joining {seen : Seen} {deadline : Int} {fallback : Params}
    (h : Course seen? news (some (.refresh (.joining seen deadline fallback))) requests records
      gone) : seen? = some seen ∧ requests = [] := by
  cases h with
  | listens h => exact ⟨h, rfl⟩

theorem of_queueing {ticket : Nat} {fallback : Params}
    (h : Course seen? news (some (.refresh (.queueing ticket fallback))) requests records gone) :
    requests = [] ∧ gone = false := by
  cases h with
  | queues => exact ⟨rfl, rfl⟩

/-- A call that looks for no news asks once, at the end of its wait for the lock. -/
theorem length_requests {c? : Option Call} (h : Course none False c? requests records false) :
    requests.length = if c?.any Call.isQueueing then 0 else 1 := by
  cases h with
  | listens h => cases h
  | queues | asks | settles => rfl
  | joins h => exact h.elim

end Course

namespace Calls

variable {ε : Type} [Exchange ε] {s : Calls (Metered ε)} {place : Nat}

/-- A refresh that was still waiting for a fetch in flight when a signal was raised sends nothing
from then on. -/
theorem Follows.requestsOf_eq_nil {seen : Seen} {deadline : Int} {fallback : Params}
    (h : s.Follows place seen deadline fallback) (hp : place < s.slots.length)
    (hs : seen.signals < s.world.watcher.signals) (ms : List (Move (Metered ε))) :
    s.requestsOf place ms = [] := by
  induction ms generalizing s with
  | nil => rfl
  | cons m ms ih =>
    have hrest : (s.step m).requestsOf place ms = [] :=
      ih (h.step hp (.inr hs) m) (Nat.lt_of_lt_of_le hp (s.length_step m))
        (Nat.lt_of_lt_of_le hs (later_run s [m]).signals)
    rw [requestsOf, hrest, List.append_nil]
    split
    · next hof =>
      cases hc : s.call? place with
      | none =>
        rw [(step_of_over hc hp hof).1]
        exact World.requestsTo_of_eq rfl
      | some c =>
        obtain ⟨-, hworld, -⟩ | ⟨-, hworld, -⟩ := step_of_call hc hof
        · rw [hworld, (h.resume (.inr hs) hc).1]
          exact World.requestsTo_of_eq rfl
        · rw [hworld, World.requestsTo_drop]
    · rfl

/-- A refresh compares what it saw when it began with what is there once, at the end of its wait for
a fetch in flight. If a signal was raised before that it never sends a request. If it has drawn a
ticket it has sent none so far, and unless it is given up it sends exactly one at the end of its
wait for the lock, whatever landed in the meantime: so of any number of callers that wait for the
lock each one asks the exchange. -/
theorem queued_asks_once (now : Int) (exchange : Metered ε) (strategy : Strategy)
    (pollInterval : Duration) (capacity : Nat) (before : List (Move (Metered ε)))
    (fallback : Params) (earlier rest : List (Move (Metered ε))) :
    let s := (Calls.new now exchange (.new strategy pollInterval capacity)).run before
    let place := s.slots.length
    let moves := .enter fallback :: (earlier ++ rest)
    let there := s.run (.enter fallback :: earlier)
    (∀ seen deadline params,
      there.call? place = some (.refresh (.joining seen deadline params)) →
        s.world.watcher.signals < there.world.watcher.signals → s.requestsOf place moves = []) ∧
      ∀ ticket params, there.call? place = some (.refresh (.queueing ticket params)) →
        s.requestsOf place (.enter fallback :: earlier) = [] ∧
          (s.isGivenUp place moves = false → (s.requestsOf place moves).length =
            if ((s.run moves).call? place).any Call.isQueueing then 0 else 1) := by
  intro s place moves there
  have hlife : Course (some s.world.watcher.seen) True (there.call? place)
      (s.requestsOf place (.enter fallback :: earlier))
      (s.recordsOf place (.enter fallback :: earlier))
      (s.isGivenUp place (.enter fallback :: earlier)) :=
    .life s fallback earlier (fun _ => trivial) fun _ _ _ _ => trivial
  have hrequests : s.requestsOf place moves =
      s.requestsOf place (.enter fallback :: earlier) ++ there.requestsOf place rest :=
    requestsOf_append s place (.enter fallback :: earlier) rest
  have hgone : s.isGivenUp place moves =
      (s.isGivenUp place (.enter fallback :: earlier) || there.isGivenUp place rest) :=
    isGivenUp_append s place (.enter fallback :: earlier) rest
  have hend : s.run moves = there.run rest := run_append s (.enter fallback :: earlier) rest
  constructor
  · intro seen deadline params hjoins hraised
    rw [hjoins] at hlife
    obtain ⟨hseen, hnone⟩ := hlife.of_joining
    obtain rfl : s.world.watcher.seen = seen := Option.some_inj.1 hseen
    have hfollows : there.Follows place s.world.watcher.seen deadline params := .inl hjoins
    rw [hrequests, hnone, hfollows.requestsOf_eq_nil (lt_of_call? hjoins) hraised, List.nil_append]
  · intro ticket params hqueues
    rw [hqueues] at hlife
    obtain ⟨hnone, hkept⟩ := hlife.of_queueing
    refine ⟨hnone, fun hgone' => ?_⟩
    rw [hgone, hkept, Bool.false_or] at hgone'
    have hthere : Course none False (there.call? place) [] [] false := by
      rw [hqueues]
      exact .queues ticket params
    have hcourse := hthere.run (lt_of_call? hqueues) rest (by rintro _ _ _ _ ⟨⟩)
    rw [hgone', Bool.or_false] at hcourse
    rw [hrequests, hnone, hend]
    exact hcourse.length_requests

/-- Two callers that wait one nanosecond at most for a request that takes two: its record lands
while both are in the queue, and each of them sends a request of its own. -/
theorem queued_asks_once_scripted :
    let exchange : Metered ScriptedExchange := ⟨.new "sim" [⟨.ok (.object []), 2⟩] [], []⟩
    let s := Calls.new 0 exchange (.new (.new "spot" "sim" "USDT" ⟨1⟩) .zero 1)
    let queued : List (Move (Metered ScriptedExchange)) := [.elapse 1, .resume 1, .resume 2]
    let rest : List (Move (Metered ScriptedExchange)) :=
      [.elapse 1, .resume 0, .resume 1, .elapse 2, .resume 1, .resume 2, .elapse 2, .resume 2]
    (s.run (.enter [] :: .enter [] :: .enter [] :: queued ++ [.elapse 1, .resume 0])
      ).world.watcher.signals = 1 ∧
      ((s.run [.enter []]).requestsOf 1 (.enter [] :: (.enter [] :: queued ++ rest))).length = 1 ∧
        ((s.run [.enter [], .enter []]).requestsOf 2 (.enter [] :: (queued ++ rest))).length =
          1 := by
  intro exchange s queued rest
  obtain ⟨-, hfirst⟩ := queued_asks_once 0 exchange (.new "spot" "sim" "USDT" ⟨1⟩) .zero 1
    [.enter []] [] (.enter [] :: queued) rest
  obtain ⟨-, hsecond⟩ := queued_asks_once 0 exchange (.new "spot" "sim" "USDT" ⟨1⟩) .zero 1
    [.enter [], .enter []] [] queued rest
  have hthere : (((s.run [.enter []]).run (.enter [] :: .enter [] :: queued)).call? 1).any
      Call.isQueueing = true := by decide +kernel
  have hthere' : (((s.run [.enter [], .enter []]).run (.enter [] :: queued)).call? 2).any
      Call.isQueueing = true := by decide +kernel
  obtain ⟨ticket, params, hqueues⟩ := Call.exists_of_any_isQueueing hthere
  obtain ⟨ticket', params', hqueues'⟩ := Call.exists_of_any_isQueueing hthere'
  obtain ⟨-, hone⟩ := hfirst ticket params hqueues
  obtain ⟨-, hother⟩ := hsecond ticket' params' hqueues'
  exact ⟨by decide +kernel, (hone (by decide +kernel)).trans (if_neg (by decide +kernel)),
    (hother (by decide +kernel)).trans (if_neg (by decide +kernel))⟩

end Calls

end Portfolio
