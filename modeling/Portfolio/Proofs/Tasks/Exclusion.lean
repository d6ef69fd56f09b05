import Portfolio.Proofs.Calls.Exclusion
import Portfolio.Proofs.Tasks.Basic

/-! # One fetch at a time

Whatever the tasks on a new watcher do, in whatever order they get their turns and whichever of them
are dropped, one balance request at most is outstanding, the flag is up exactly while somebody has
the lock, and the queue holds the tickets of those who are still there. So every way out of a fetch
frees the lock (`Tasks.fetch_exclusion`). -/

namespace Portfolio

/-- The lock was given back: the flag is down and the turn is the next one's. -/
def Watcher.Freed (before after : Watcher) : Prop :=
  after.inFlight = false ∧ after.lock.queue = before.lock.queue.tail

namespace Exclusive

variable {w : Watcher} {cs : List Call} {c : Call} {t : Nat}

/-- Who has the lock is first in the queue. -/
theorem leave_queue (h : Exclusive w cs) (hc : c ∈ cs) (hg : c.isGuard = true)
    (ht : c.ticket? = some t) : (w.lock.leave t).queue = w.lock.queue.tail := by
  obtain ⟨a, ha, hh⟩ := h.turn c hc hg
  obtain rfl : a = t := Option.some_inj.1 (ha.symm.trans ht)
  obtain ⟨rest, hq⟩ := List.head?_eq_some_iff.1 hh
  simp [FetchLock.leave, hq]

variable {ε : Type}

/-- Giving up while one has the lock frees it. -/
theorem freed_drop {w : World ε} (h : Exclusive w.watcher cs) (hc : c ∈ cs)
    (hg : c.isGuard = true) : w.watcher.Freed (c.drop w).watcher := by
  cases c with
  | refresh r =>
    cases r with
    | joining | queueing => cases hg
    | fetching ticket started due reply => exact ⟨rfl, h.leave_queue hc hg rfl⟩
  | locking ticket => cases hg
  | holding ticket => exact ⟨rfl, h.leave_queue hc hg rfl⟩

/-- The reply to a request frees the lock, whatever it is. -/
theorem freed_finish [Exchange ε] {w : World ε} (h : Exclusive w.watcher cs) {started : Timestamp}
    {due : Int} {reply : Reply Json.Value}
    (hc : .refresh (.fetching t started due reply) ∈ cs) :
    w.watcher.Freed (Refresh.finish w t started reply).1.watcher := by
  have hq := h.leave_queue hc rfl rfl
  rw [Refresh.watcher_finish]
  split
  · exact ⟨Watcher.inFlight_land .., by rw [Watcher.lock_land]; exact hq⟩
  · exact ⟨rfl, hq⟩

/-- Where nobody has a ticket, whoever draws one has its turn. -/
theorem isTurn_draw (h : Exclusive w cs) (hn : ∀ c ∈ cs, c.ticket? = none) :
    w.lock.draw.1.isTurn w.lock.draw.2 = true := by
  simp [FetchLock.draw, FetchLock.isTurn, (h.idle hn).2]

end Exclusive

namespace Tasks

variable {ε : Type} [Exchange ε]

theorem exclusive_run (now : Int) (exchange : ε) (strategy : Strategy) (pollInterval : Duration)
    (capacity : Nat) (ms : List (Move ε)) :
    let s := (new now exchange (.new strategy pollInterval capacity)).run ms
    Exclusive s.world.watcher s.calls := by
  obtain ⟨cs, hw, hl⟩ := exists_run now exchange (.new strategy pollInterval capacity) ms
  have h := (Exclusive.new now exchange strategy pollInterval capacity).run cs
  rw [hw] at h
  exact h.perm hl

/-- Mutual exclusion over whole runs: one request at most, the flag that of the one who has the
lock, a queue of those who are there, and every end of a turn at the lock frees it, by whatever
reply or by being given up. -/
theorem fetch_exclusion (now : Int) (exchange : ε) (strategy : Strategy) (pollInterval : Duration)
    (capacity : Nat) (ms : List (Move ε)) :
    let s := (new now exchange (.new strategy pollInterval capacity)).run ms
    let w := s.world
    s.calls.countP Call.isFetching ≤ 1 ∧
    s.calls.countP Call.isGuard ≤ 1 ∧
    (w.watcher.inFlight = true ↔ ∃ c ∈ s.calls, c.isGuard = true) ∧
    w.watcher.lock.queue.Perm (s.calls.filterMap Call.ticket?) ∧
    (∀ ticket started due reply, .refresh (.fetching ticket started due reply) ∈ s.calls →
      due ≤ w.now →
        w.watcher.Freed (Refresh.resume w (.fetching ticket started due reply)).1.watcher ∧
        (Refresh.resume w (.fetching ticket started due reply)).2.left = none) ∧
    (∀ c ∈ s.calls, c.isGuard = true → w.watcher.Freed (c.drop w).watcher) ∧
    ((∀ c ∈ s.calls, c.ticket? = none) →
      w.watcher.inFlight = false ∧ w.watcher.lock.queue = [] ∧
        w.watcher.lock.draw.1.isTurn w.watcher.lock.draw.2 = true) := by
  intro s w
  have h : Exclusive w.watcher s.calls :=
    exclusive_run now exchange strategy pollInterval capacity ms
  refine ⟨h.countP_isFetching, h.countP_isGuard, ?_, h.queue, ?_, ?_, ?_⟩
  · rw [h.flag, List.any_eq_true]
  · intro ticket started due reply hc hd
    simp only [Refresh.resume, hd, if_true]
    exact ⟨h.freed_finish hc, Refresh.left_finish ..⟩
  · exact fun c hc hg => h.freed_drop hc hg
  · intro hn
    exact ⟨(h.idle hn).1, (h.idle hn).2, h.isTurn_draw hn⟩

end Tasks

end Portfolio
