import Portfolio.Live.World

/-! # A task alone

A task to which nothing happens gets its turns at times that never go back and pass every other
(`Turns`). `Ends` says that it comes to an end with a result, and `EndsUnless` that it may come to a
fault of one kind instead; a task that waits for a time comes to that time (`EndsUnless.of_wait`),
and one that gets on whenever its time has come has an end (`EndsUnless.of_rank`). -/

namespace Portfolio

variable {ε σ α : Type}

/-- The times of a task's turns from now on. -/
structure Turns (now : Int) (times : Nat → Int) : Prop where
  start : now ≤ times 0
  mono : ∀ i, times i ≤ times (i + 1)
  unbounded : ∀ t, ∃ i, t ≤ times i

namespace Turns

variable {now : Int} {times : Nat → Int} (h : Turns now times)
include h

theorem le (i : Nat) : now ≤ times i := by
  induction i with
  | zero => exact h.start
  | succ i ih => exact Int.le_trans ih (h.mono i)

/-- The turns after one of them. -/
theorem tail (i : Nat) : Turns (times i) fun j => times (j + (i + 1)) where
  start := by
    rw [Nat.zero_add]
    exact h.mono i
  mono j := by
    rw [show j + 1 + (i + 1) = j + (i + 1) + 1 by omega]
    exact h.mono _
  unbounded t := by
    obtain ⟨k, hk⟩ := h.unbounded t
    refine ⟨k, Int.le_trans hk ?_⟩
    induction i with
    | zero => exact h.mono k
    | succ i ih => exact Int.le_trans ih (h.mono _)

end Turns

/-- The world at another time. -/
def World.at_ (w : World ε) (t : Int) : World ε :=
  { w with now := t }

/-- A task after some turns, if nothing else happens. -/
def alone (resume : World ε → σ → World ε × Progress σ α) :
    (Nat → Int) → Nat → World ε × Progress σ α → World ε × Progress σ α
  | times, n + 1, (w, .blocked s) => alone resume (times <| · + 1) n (resume (w.at_ (times 0)) s)
  | _, _, r => r

/-- A task that does not wait stays as it is. -/
theorem alone_of_le {resume : World ε → σ → World ε × Progress σ α} {times : Nat → Int}
    {r : World ε × Progress σ α} {n m : Nat} (hle : n ≤ m)
    (h : ∀ s, (alone resume times n r).2 ≠ .blocked s) :
    alone resume times m r = alone resume times n r := by
  induction n generalizing m times r with
  | zero =>
    obtain ⟨w, p⟩ := r
    cases p with
    | blocked s => exact absurd rfl (h s)
    | done | crashed => cases m <;> rfl
  | succ n ih =>
    obtain ⟨w, p⟩ := r
    obtain ⟨m, rfl⟩ : ∃ k, m = k + 1 := ⟨m - 1, by omega⟩
    cases p with
    | blocked s => exact ih (by omega) h
    | done | crashed => rfl

/-- The task comes to an end, in a world and with a result. -/
def Ends (resume : World ε → σ → World ε × Progress σ α) (times : Nat → Int)
    (r : World ε × Progress σ α) (P : World ε → α → Prop) : Prop :=
  ∃ n w a, alone resume times n r = (w, .done a) ∧ P w a

namespace Ends

variable {resume : World ε → σ → World ε × Progress σ α} {times : Nat → Int} {w : World ε}
  {P : World ε → α → Prop}

theorem done {a : α} (h : P w a) : Ends resume times (w, .done a) P :=
  ⟨0, w, a, rfl, h⟩

theorem mono {r : World ε × Progress σ α} {Q : World ε → α → Prop} (h : Ends resume times r P)
    (hpq : ∀ w a, P w a → Q w a) : Ends resume times r Q := by
  obtain ⟨n, w, a, hr, hp⟩ := h
  exact ⟨n, w, a, hr, hpq w a hp⟩

theorem turn {s : σ}
    (h : Ends resume (times <| · + 1) (resume (w.at_ (times 0)) s) P) :
    Ends resume times (w, .blocked s) P := by
  obtain ⟨n, w', a, hr, hp⟩ := h
  exact ⟨n + 1, w', a, hr, hp⟩

end Ends

/-- The task comes to an end, or to a fault in a world that is `late`. -/
def EndsUnless (late : World ε → Prop) (resume : World ε → σ → World ε × Progress σ α)
    (times : Nat → Int) (r : World ε × Progress σ α) (P : World ε → α → Prop) : Prop :=
  Ends resume times r P ∨ ∃ n w, alone resume times n r = (w, .crashed) ∧ late w

namespace EndsUnless

variable {late : World ε → Prop} {resume : World ε → σ → World ε × Progress σ α}
  {times : Nat → Int} {w : World ε} {r : World ε × Progress σ α} {P : World ε → α → Prop}

theorem done {a : α} (h : P w a) : EndsUnless late resume times (w, .done a) P :=
  .inl (.done h)

theorem crashed (h : late w) : EndsUnless late resume times (w, .crashed) P :=
  .inr ⟨0, w, rfl, h⟩

theorem mono {Q : World ε → α → Prop} (h : EndsUnless late resume times r P)
    (hpq : ∀ w a, P w a → Q w a) : EndsUnless late resume times r Q :=
  h.imp_left fun h => h.mono hpq

theorem ends (h : EndsUnless (fun _ => False) resume times r P) : Ends resume times r P :=
  h.resolve_right fun ⟨_, _, _, hlate⟩ => hlate

theorem turn {s : σ}
    (h : EndsUnless late resume (times <| · + 1) (resume (w.at_ (times 0)) s) P) :
    EndsUnless late resume times (w, .blocked s) P := by
  obtain h | ⟨n, w', hr, hlate⟩ := h
  · exact .inl h.turn
  · exact .inr ⟨n + 1, w', hr, hlate⟩

/-- A task that waits for a time, and goes on at its first turn then or later. The induction is on
the number of that turn. -/
theorem of_wait {s : σ} (due : Int) (ht : Turns w.now times)
    (hstay : ∀ t, w.now ≤ t → t < due → resume (w.at_ t) s = (w.at_ t, .blocked s))
    (hgo : ∀ i, due ≤ times i →
      EndsUnless late resume (fun j => times (j + (i + 1))) (resume (w.at_ (times i)) s) P) :
    EndsUnless late resume times (w, .blocked s) P := by
  obtain ⟨i, hi⟩ := ht.unbounded due
  induction i generalizing w times with
  | zero => exact turn (hgo 0 hi)
  | succ i ih =>
    by_cases hdue : due ≤ times 0
    · exact turn (hgo 0 hdue)
    · refine turn ?_
      rw [hstay (times 0) ht.start (Int.not_le.1 hdue)]
      refine ih (w := w.at_ (times 0)) (ht.tail 0) (fun t hle hlt => ?_) (fun j hj => ?_) hi
      · exact hstay t (Int.le_trans ht.start hle) hlt
      · exact hgo (j + 1) hj

/-- A task whose turns end it, or lower its rank, or come before the time for which it waits and
leave the two as they are. The induction is on the rank, and for each rank on the number of the turn
at which that time has come. -/
theorem of_rank {I : World ε → σ → Prop} (rank : σ → Nat) (due : σ → Int)
    (hturn : ∀ w s t, I w s →
      (∃ w' a, resume (w.at_ t) s = (w', .done a) ∧ P w' a) ∨
        (∃ w', resume (w.at_ t) s = (w', .crashed) ∧ late w') ∨
        ∃ w' s', resume (w.at_ t) s = (w', .blocked s') ∧ I w' s' ∧ w'.now = t ∧
          (rank s' < rank s ∨ rank s' = rank s ∧ due s' = due s ∧ t < due s))
    {s : σ} (h : I w s) (ht : Turns w.now times) :
    EndsUnless late resume times (w, .blocked s) P := by
  induction hn : rank s using Nat.strongRecOn generalizing w s times with
  | ind n ih =>
    subst hn
    obtain ⟨i, hi⟩ := ht.unbounded (due s)
    induction i generalizing w s times with
    | zero =>
      refine .turn ?_
      obtain ⟨w', a, hr, hp⟩ | ⟨w', hr, hlate⟩ | ⟨w', s', hr, h', hnow, hlt | ⟨-, -, hearly⟩⟩ :=
        hturn w s (times 0) h
      · rw [hr]
        exact .done hp
      · rw [hr]
        exact .crashed hlate
      · rw [hr]
        exact ih _ hlt h' (hnow ▸ ht.tail 0) rfl
      · exact absurd hi (Int.not_le.2 hearly)
    | succ i ihi =>
      refine .turn ?_
      obtain ⟨w', a, hr, hp⟩ | ⟨w', hr, hlate⟩ | ⟨w', s', hr, h', hnow, hlt | ⟨hrank, hsame, -⟩⟩ :=
        hturn w s (times 0) h
      · rw [hr]
        exact .done hp
      · rw [hr]
        exact .crashed hlate
      · rw [hr]
        exact ih _ hlt h' (hnow ▸ ht.tail 0) rfl
      · rw [hr]
        exact ihi h' (hnow ▸ ht.tail 0) (hrank ▸ ih) (hsame ▸ hi)

/-- A task that is done at some turn comes to no fault. -/
theorem ends_of_done (h : EndsUnless late resume times r P) {n : Nat} {a : α}
    (hdone : alone resume times n r = (w, .done a)) : Ends resume times r P := by
  refine h.resolve_right ?_
  rintro ⟨m, w', hcrashed, -⟩
  obtain hle | hle := Nat.le_total n m
  · rw [alone_of_le hle (by rw [hdone]; rintro s ⟨⟩), hdone] at hcrashed
    cases hcrashed
  · rw [alone_of_le hle (by rw [hcrashed]; rintro s ⟨⟩), hcrashed] at hdone
    cases hdone

end EndsUnless

/-- A task none of whose turns is a fault. -/
theorem Ends.of_rank {resume : World ε → σ → World ε × Progress σ α} {times : Nat → Int}
    {w : World ε} {P : World ε → α → Prop} {I : World ε → σ → Prop} (rank : σ → Nat)
    (due : σ → Int)
    (hturn : ∀ w s t, I w s →
      (∃ w' a, resume (w.at_ t) s = (w', .done a) ∧ P w' a) ∨
        ∃ w' s', resume (w.at_ t) s = (w', .blocked s') ∧ I w' s' ∧ w'.now = t ∧
          (rank s' < rank s ∨ rank s' = rank s ∧ due s' = due s ∧ t < due s))
    {s : σ} (h : I w s) (ht : Turns w.now times) : Ends resume times (w, .blocked s) P :=
  (EndsUnless.of_rank rank due (fun w s t h => (hturn w s t h).imp_right .inr) h ht).ends

end Portfolio
