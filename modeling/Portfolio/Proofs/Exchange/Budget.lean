import Mathlib.Data.List.Basic
import Mathlib.Algebra.Order.Group.Int
import Portfolio.Exchange.Budget

/-! # Requests in a minute

A budget counts by minutes of its own: one begins with the budget, and another with the first
request that comes more than a minute after the last one began. Each of them has room for the limit
(`RequestBudget.length_counted_le`). But a minute on the clock can lie across two of them, at the
end of one and at the beginning of the next, so it has room for twice the limit and no more
(`RequestBudget.admissions_per_minute`), and the limit alone does not bound it
(`RequestBudget.minute_exceeds_limit`). -/

namespace Portfolio

/-- A request that was accepted. -/
structure Admission where
  /-- When the minute began in which it was counted. -/
  counted : Int
  time : Int
  deriving DecidableEq, Repr

namespace RequestBudget

/-- The requests that are accepted, of requests at some times. -/
def admissions (b : RequestBudget) : List Int → List Admission
  | [] => []
  | now :: times =>
    match b.take now with
    | .ok b' => ⟨b'.began, now⟩ :: b'.admissions times
    | .error _ => b.admissions times

/-- The request came in the minute that begins at a time, both of its ends included. -/
def within (start : Int) (a : Admission) : Bool :=
  start ≤ a.time && a.time ≤ start + minute

/-! ## One request -/

/-- A request in the budget's minute is accepted if there is room, and one after it always. -/
theorem take_cases (b : RequestBudget) (now : Int) :
    (∃ spent, b.take now = .error spent ∧ b.limit ≤ b.used) ∨
      ∃ b', b.take now = .ok b' ∧ b'.limit = b.limit ∧
        (b'.began = b.began ∧ now ≤ b.began + minute ∧ b'.used = b.used + 1 ∧ b.used < b.limit ∨
          b'.began = now ∧ b.began + minute < now ∧ b'.used = 1) := by
  have hpos := b.limit_pos
  unfold take renew
  by_cases hover : b.began + minute < now
  · right
    refine ⟨{ b with began := now, used := 1 }, ?_, rfl, .inr ⟨rfl, hover, rfl⟩⟩
    simp only [if_pos hover]
    rw [if_neg (by omega)]
  · simp only [if_neg hover]
    by_cases hfull : b.limit ≤ b.used
    · exact .inl ⟨_, if_pos hfull, hfull⟩
    · right
      refine ⟨{ b with used := b.used + 1 }, if_neg hfull, rfl, .inl ⟨rfl, ?_, rfl, ?_⟩⟩ <;> omega

theorem admissions_error {b : RequestBudget} {now : Int} {spent : BudgetSpent}
    (h : b.take now = .error spent) (times : List Int) :
    b.admissions (now :: times) = b.admissions times := by
  simp only [admissions, h]

theorem admissions_ok {b b' : RequestBudget} {now : Int} (h : b.take now = .ok b')
    (times : List Int) :
    b.admissions (now :: times) = ⟨b'.began, now⟩ :: b'.admissions times := by
  simp only [admissions, h]

/-! ## Minutes of the budget -/

/-- What is accepted is counted in the minute of the budget, or in one that begins after it. -/
theorem counted_of_mem {b : RequestBudget} {times : List Int} {a : Admission}
    (ha : a ∈ b.admissions times) : a.counted = b.began ∨ b.began + minute < a.counted := by
  have hminute : 0 < minute := by decide
  induction times generalizing b with
  | nil => cases ha
  | cons now times ih =>
    rcases b.take_cases now with ⟨spent, h, -⟩ | ⟨b', h, -, hb'⟩
    · rw [admissions_error h] at ha
      exact ih ha
    · rw [admissions_ok h] at ha
      have hbegan : b'.began = b.began ∨ b.began + minute < b'.began := by
        rcases hb' with ⟨he, -⟩ | ⟨he, hlate, -⟩
        · exact .inl he
        · exact .inr (he ▸ hlate)
      rcases List.mem_cons.1 ha with rfl | ha
      · exact hbegan
      · have := ih ha
        omega

/-- The minute that a budget is in has room for what is left, and a later one for the limit. -/
theorem length_counted_le (b : RequestBudget) (hused : b.used ≤ b.limit) (times : List Int)
    (began : Int) :
    ((b.admissions times).filter (·.counted = began)).length ≤
      if began = b.began then b.limit - b.used else b.limit := by
  have hminute : 0 < minute := by decide
  induction times generalizing b with
  | nil => simp [admissions]
  | cons now times ih =>
    rcases b.take_cases now with ⟨spent, h, -⟩ | ⟨b', h, hlimit, hb'⟩
    · rw [admissions_error h]
      exact ih b hused
    · rw [admissions_ok h]
      rcases hb' with ⟨hbegan, -, hroom, hlt⟩ | ⟨hbegan, hlate, hone⟩
      · have hrest := ih b' (by omega)
        rw [hbegan, hlimit, hroom] at hrest
        by_cases he : began = b.began
        · rw [List.filter_cons_of_pos (by simp [hbegan, he]), List.length_cons, if_pos he]
          rw [if_pos he] at hrest
          omega
        · rw [List.filter_cons_of_neg (by simp [hbegan, Ne.symm he]), if_neg he]
          rwa [if_neg he] at hrest
      · have hpos := b.limit_pos
        have hrest := ih b' (by omega)
        by_cases he : began = b'.began
        · rw [List.filter_cons_of_pos (by simp [he]), List.length_cons, if_neg (by omega)]
          rw [if_pos he] at hrest
          omega
        · rw [List.filter_cons_of_neg (by simp [Ne.symm he])]
          rw [if_neg he, hlimit] at hrest
          -- nothing is counted in the old minute any more
          by_cases hold : began = b.began
          · have hnone : (b'.admissions times).filter (·.counted = began) = [] := by
              refine List.filter_eq_nil_iff.2 fun a ha => ?_
              have := counted_of_mem ha
              simp only [decide_eq_true_eq]
              omega
            rw [hnone]
            simp
          · rwa [if_neg hold]

/-! ## Minutes on the clock -/

theorem time_mem {b : RequestBudget} {times : List Int} {a : Admission}
    (ha : a ∈ b.admissions times) : a.time ∈ times := by
  induction times generalizing b with
  | nil => cases ha
  | cons now times ih =>
    rcases b.take_cases now with ⟨spent, h, -⟩ | ⟨b', h, -⟩
    · rw [admissions_error h] at ha
      exact List.mem_cons_of_mem _ (ih ha)
    · rw [admissions_ok h] at ha
      rcases List.mem_cons.1 ha with rfl | ha
      · exact List.mem_cons_self
      · exact List.mem_cons_of_mem _ (ih ha)

/-- Where requests come in order, a minute that begins after the budget's has its requests after
it began. -/
theorem counted_le_time {b : RequestBudget} {times : List Int} (hsorted : times.Pairwise (· ≤ ·))
    {a : Admission} (ha : a ∈ b.admissions times) : a.counted = b.began ∨ a.counted ≤ a.time := by
  induction times generalizing b with
  | nil => cases ha
  | cons now times ih =>
    obtain ⟨hnow, hsorted⟩ := List.pairwise_cons.1 hsorted
    rcases b.take_cases now with ⟨spent, h, -⟩ | ⟨b', h, -, hb'⟩
    · rw [admissions_error h] at ha
      exact ih hsorted ha
    · rw [admissions_ok h] at ha
      rcases List.mem_cons.1 ha with rfl | ha
      · rcases hb' with ⟨he, -⟩ | ⟨he, -⟩
        · exact .inl he
        · exact .inr (le_of_eq he)
      · have htime := hnow _ (time_mem ha)
        rcases hb' with ⟨he, -⟩ | ⟨he, -⟩ <;> rcases ih hsorted ha with hc | hc <;> omega

/-- Until the budget's minute is over there is room for what is left of it. -/
theorem length_early_le (b : RequestBudget) (hused : b.used ≤ b.limit) {times : List Int}
    (hsorted : times.Pairwise (· ≤ ·)) :
    ((b.admissions times).filter (·.time ≤ b.began + minute)).length ≤ b.limit - b.used := by
  have hcounted := b.length_counted_le hused times b.began
  rw [if_pos rfl, ← List.countP_eq_length_filter] at hcounted
  rw [← List.countP_eq_length_filter]
  refine le_trans (List.countP_mono_left fun a ha hearly => ?_) hcounted
  have hafter := counted_of_mem ha
  have hbefore := counted_le_time hsorted ha
  simp only [decide_eq_true_eq] at hearly ⊢
  omega

/-- A minute on the clock that all requests come after has room for what is left of the budget's
minute, and for the limit. -/
theorem length_within_of_forall_le (b : RequestBudget) (hused : b.used ≤ b.limit)
    {times : List Int} (hsorted : times.Pairwise (· ≤ ·)) {start : Int}
    (hstart : ∀ t ∈ times, start ≤ t) :
    ((b.admissions times).filter (within start)).length ≤ b.limit - b.used + b.limit := by
  induction times generalizing b with
  | nil => simp [admissions]
  | cons now times ih =>
    obtain ⟨-, htail⟩ := List.pairwise_cons.1 hsorted
    have hrest : ∀ t ∈ times, start ≤ t := fun t ht => hstart t (List.mem_cons_of_mem _ ht)
    rcases b.take_cases now with ⟨spent, h, -⟩ | ⟨b', h, hlimit, hb'⟩
    · rw [admissions_error h]
      exact ih b hused htail hrest
    · rw [admissions_ok h]
      have hone := List.length_filter_le (within start) [⟨b'.began, now⟩]
      rw [← List.singleton_append, List.filter_append, List.length_append]
      rcases hb' with ⟨-, -, hroom, hlt⟩ | ⟨hbegan, -, hroom⟩
      · have := ih b' (by omega) htail hrest
        simp only [List.length_singleton] at hone
        omega
      · -- the new minute of the budget lasts beyond the minute on the clock
        have hpos := b.limit_pos
        have hearly := b'.length_early_le (by omega) htail
        have hle : ((b'.admissions times).filter (within start)).length ≤
            ((b'.admissions times).filter (·.time ≤ b'.began + minute)).length := by
          rw [← List.countP_eq_length_filter, ← List.countP_eq_length_filter]
          refine List.countP_mono_left fun a _ ha => ?_
          have hnow := hstart now List.mem_cons_self
          simp only [within, Bool.and_eq_true, decide_eq_true_eq] at ha ⊢
          omega
        simp only [List.length_singleton] at hone
        omega

theorem length_within_le (b : RequestBudget) (hused : b.used ≤ b.limit) {times : List Int}
    (hsorted : times.Pairwise (· ≤ ·)) (start : Int) :
    ((b.admissions times).filter (within start)).length ≤ 2 * b.limit := by
  induction times generalizing b with
  | nil => simp [admissions]
  | cons now times ih =>
    obtain ⟨hnow, htail⟩ := List.pairwise_cons.1 hsorted
    by_cases hstart : start ≤ now
    · have hall : ∀ t ∈ now :: times, start ≤ t := by
        intro t ht
        rcases List.mem_cons.1 ht with rfl | ht
        · exact hstart
        · exact le_trans hstart (hnow t ht)
      have := b.length_within_of_forall_le hused hsorted hall
      omega
    · -- the first request comes too early to be in the minute on the clock
      have hpos := b.limit_pos
      rcases b.take_cases now with ⟨spent, h, -⟩ | ⟨b', h, hlimit, hb'⟩
      · rw [admissions_error h]
        exact ih b hused htail
      · rw [admissions_ok h, List.filter_cons_of_neg (by simp [within, hstart]), ← hlimit]
        refine ih b' ?_ htail
        rcases hb' with ⟨-, -, hroom, hlt⟩ | ⟨-, -, hroom⟩ <;> omega

/-! ## Two full minutes that meet -/

/-- Requests at one time in the budget's minute are all accepted while there is room. -/
theorem admissions_replicate_append (b : RequestBudget) {now : Int} (hnow : now ≤ b.began + minute)
    {n : Nat} (hroom : b.used + n ≤ b.limit) (times : List Int) :
    b.admissions (List.replicate n now ++ times) =
      List.replicate n ⟨b.began, now⟩ ++ { b with used := b.used + n }.admissions times := by
  induction n generalizing b with
  | zero => rfl
  | succ n ih =>
    rcases b.take_cases now with ⟨spent, h, hfull⟩ | ⟨b', h, hlimit, hb'⟩
    · omega
    · have hb : b' = { b with used := b.used + 1 } := by
        obtain ⟨limit, began, used, hpos⟩ := b'
        obtain ⟨rfl, -, rfl, -⟩ | ⟨-, hlate, -⟩ := hb'
        · cases hlimit
          rfl
        · omega
      subst hb
      simp only [List.replicate_succ, List.cons_append]
      rw [admissions_ok h, ih { b with used := b.used + 1 } hnow (by simp only; omega)]
      simp only [Nat.add_assoc, Nat.add_comm 1 n]

/-- Requests at one time after the budget's minute are all accepted, up to the limit. -/
theorem admissions_replicate_late (b : RequestBudget) {now : Int} (hnow : b.began + minute < now)
    {n : Nat} (hroom : n ≤ b.limit) :
    b.admissions (List.replicate n now) = List.replicate n ⟨now, now⟩ := by
  have hminute : 0 < minute := by decide
  have hpos := b.limit_pos
  cases n with
  | zero => rfl
  | succ n =>
    have htake : b.take now = .ok { b with began := now, used := 1 } := by
      unfold take renew
      simp only [if_pos hnow]
      rw [if_neg (by omega)]
    have hrest : ({ b with began := now, used := 1 } : RequestBudget).admissions
        (List.replicate n now ++ []) = _ :=
      admissions_replicate_append _ (by simp only; omega) (by simp only; omega) []
    rw [List.append_nil] at hrest
    rw [List.replicate_succ, admissions_ok htake, hrest]
    simp only [admissions, List.append_nil, List.replicate_succ]

/-- A full minute of the budget, and another right after it. -/
def bursts (b : RequestBudget) : List Int :=
  List.replicate b.limit (b.began + minute) ++ List.replicate b.limit (b.began + minute + 1)

theorem pairwise_bursts (b : RequestBudget) : b.bursts.Pairwise (· ≤ ·) := by
  refine List.pairwise_append.2 ⟨?_, ?_, fun t ht u hu => ?_⟩
  · exact List.pairwise_replicate.2 (.inr le_rfl)
  · exact List.pairwise_replicate.2 (.inr le_rfl)
  · rw [List.eq_of_mem_replicate ht, List.eq_of_mem_replicate hu]
    omega

/-- All the requests of two bursts are accepted, and they come in one minute on the clock. -/
theorem length_within_bursts (b : RequestBudget) (hfresh : b.used = 0) :
    ((b.admissions b.bursts).filter (within (b.began + minute))).length = 2 * b.limit := by
  have hminute : 0 < minute := by decide
  have hall : b.admissions b.bursts =
      List.replicate b.limit ⟨b.began, b.began + minute⟩ ++
        List.replicate b.limit ⟨b.began + minute + 1, b.began + minute + 1⟩ := by
    rw [bursts, admissions_replicate_append b le_rfl (by omega),
      admissions_replicate_late _ (by simp only; omega) (by simp only; omega)]
  rw [hall, List.filter_eq_self.2 ?_, List.length_append, List.length_replicate,
    List.length_replicate, Nat.two_mul]
  intro a ha
  rcases List.mem_append.1 ha with ha | ha <;> rw [List.eq_of_mem_replicate ha] <;>
    simp only [within, Bool.and_eq_true, decide_eq_true_eq] <;> omega

/-! ## A new budget -/

@[simp] theorem used_new (limit : Option Nat) (created : Int) : (new limit created).used = 0 := by
  unfold new
  split <;> rfl

/-- Of the requests that come in order to a new budget, each of its minutes accepts the limit at
most and any minute on the clock twice the limit at most; and there are requests of which a minute
on the clock accepts twice the limit. -/
theorem admissions_per_minute (limit : Option Nat) (created : Int) :
    (∀ times : List Int, times.Pairwise (· ≤ ·) →
      (∀ began, (((new limit created).admissions times).filter (·.counted = began)).length ≤
        (new limit created).limit) ∧
      ∀ start, (((new limit created).admissions times).filter (within start)).length ≤
        2 * (new limit created).limit) ∧
    ∃ (times : List Int) (start : Int), times.Pairwise (· ≤ ·) ∧
      (((new limit created).admissions times).filter (within start)).length =
        2 * (new limit created).limit := by
  generalize hb : new limit created = b
  have hfresh : b.used = 0 := hb ▸ used_new limit created
  have hused : b.used ≤ b.limit := by omega
  refine ⟨fun times hsorted => ⟨fun began => ?_, fun start => ?_⟩, ?_⟩
  · have := b.length_counted_le hused times began
    split at this <;> omega
  · exact b.length_within_le hused hsorted start
  · exact ⟨b.bursts, b.began + minute, b.pairwise_bursts, b.length_within_bursts hfresh⟩

/-- The bounds for three requests of which the first two come within a minute. -/
theorem admissions_per_minute_of_three :
    [minute, minute + 1, 3 * minute].Pairwise (· ≤ ·) ∧
      (∀ began, (((new (some 1) 0).admissions [minute, minute + 1, 3 * minute]).filter
        (·.counted = began)).length ≤ 1) ∧
      ∀ start, (((new (some 1) 0).admissions [minute, minute + 1, 3 * minute]).filter
        (within start)).length ≤ 2 := by
  have hsorted : [minute, minute + 1, 3 * minute].Pairwise (· ≤ ·) := by decide
  exact ⟨hsorted, (admissions_per_minute (some 1) 0).1 _ hsorted⟩

/-- A limit of one request a minute, and two requests of which one comes at the end of the first
minute and the other right after it. -/
theorem minute_exceeds_limit :
    ¬ ∀ (limit : Option Nat) (created start : Int) (times : List Int), times.Pairwise (· ≤ ·) →
      (((new limit created).admissions times).filter (within start)).length ≤
        (new limit created).limit := by
  intro hbound
  have htwo := hbound (some 1) 0 minute [minute, minute + 1] (by decide)
  exact absurd htwo (by decide)

end RequestBudget

end Portfolio
