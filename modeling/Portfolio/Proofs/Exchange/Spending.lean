import Mathlib.Data.List.Induction
import Portfolio.Exchange.Poloniex.Client
import Portfolio.Proofs.Exchange.Budget

/-! # What a budget counts

The minutes of a budget can be told from the times of all requests, accepted or not: one begins with
the budget, and another with the first request that comes more than a minute after the last one
began (`RequestBudget.minutes`). At every time a budget has counted the requests that it accepted in
the current minute, no more and no less, and it refuses a request if these are as many as the limit
(`RequestBudget.counts_current_minute`). A refusal leaves the budget as it is. -/

namespace Portfolio

namespace RequestBudget

/-- The budget after a request at a time. A request renews the budget before it can be refused. -/
def after (b : RequestBudget) (now : Int) : RequestBudget :=
  match b.take now with
  | .ok b' => b'
  | .error _ => b.renew now

/-- The budget after requests at some times. -/
def afterAll (b : RequestBudget) (times : List Int) : RequestBudget :=
  times.foldl after b

/-- Which of the requests at some times are accepted. -/
def verdicts (b : RequestBudget) : List Int → List Bool
  | [] => []
  | now :: times => (b.take now).isOk :: (b.after now).verdicts times

/-- When the minute of a request began, if the minute before it began at `began`. -/
def minuteOf (began now : Int) : Int :=
  if began + minute < now then now else began

/-- When the minutes of requests at some times began. -/
def minutes (began : Int) : List Int → List Int
  | [] => []
  | now :: times => minuteOf began now :: minutes (minuteOf began now) times

/-- How many of the requests at some times are accepted in the minute that began at `began`. -/
def accepted (b : RequestBudget) (times : List Int) (began : Int) : Nat :=
  ((minutes b.began times).zip (b.verdicts times)).count (began, true)

variable {b : RequestBudget} {now : Int}

/-! ## One request -/

/-- A refusal comes within the minute of a budget that is spent. -/
theorem take_eq_error_iff {spent : BudgetSpent} :
    b.take now = .error spent ↔
      now ≤ b.began + minute ∧ b.limit ≤ b.used ∧ spent = ⟨b.used, b.limit⟩ := by
  have hpos := b.limit_pos
  unfold take renew
  by_cases hover : b.began + minute < now
  · simp only [if_pos hover]
    rw [if_neg (by omega)]
    constructor
    · intro h
      cases h
    · rintro ⟨hearly, -⟩
      omega
  · simp only [if_neg hover]
    split
    · next hfull =>
      constructor
      · intro h
        cases h
        exact ⟨by omega, hfull, rfl⟩
      · rintro ⟨-, -, rfl⟩
        rfl
    · next hroom =>
      constructor
      · intro h
        cases h
      · rintro ⟨-, hfull, -⟩
        omega

theorem after_of_ok {b' : RequestBudget} (h : b.take now = .ok b') : b.after now = b' := by
  simp only [after, h]

/-- A refusal changes nothing. -/
theorem after_of_error {spent : BudgetSpent} (h : b.take now = .error spent) :
    b.after now = b := by
  have hearly := (take_eq_error_iff.1 h).1
  simp only [after, h, renew]
  rw [if_neg (by omega)]

theorem isOk_of_ok {b' : RequestBudget} (h : b.take now = .ok b') :
    (b.take now).isOk = true := by
  rw [h]
  rfl

theorem isOk_of_error {spent : BudgetSpent} (h : b.take now = .error spent) :
    (b.take now).isOk = false := by
  rw [h]
  rfl

/-! ## Minutes -/

theorem le_minuteOf (began now : Int) : began ≤ minuteOf began now := by
  have hminute : 0 < minute := by decide
  unfold minuteOf
  split <;> omega

/-- No minute began after the current one. -/
theorem le_of_mem_minutes {began m : Int} {times : List Int} (h : m ∈ minutes began times) :
    m ≤ times.foldl minuteOf began := by
  have hle (began : Int) (times : List Int) : began ≤ times.foldl minuteOf began := by
    induction times generalizing began with
    | nil => exact le_refl began
    | cons now times ih => exact (le_minuteOf began now).trans (ih _)
  induction times generalizing began with
  | nil => cases h
  | cons now times ih =>
    rcases List.mem_cons.1 h with rfl | h
    · exact hle _ times
    · exact ih h

theorem minutes_concat (began : Int) (times : List Int) (now : Int) :
    minutes began (times ++ [now]) =
      minutes began times ++ [minuteOf (times.foldl minuteOf began) now] := by
  induction times generalizing began with
  | nil => rfl
  | cons t times ih => simp [minutes, ih]

theorem length_minutes (began : Int) (times : List Int) :
    (minutes began times).length = times.length := by
  induction times generalizing began with
  | nil => rfl
  | cons now times ih => simp [minutes, ih]

/-! ## Requests one after the other -/

theorem afterAll_concat (b : RequestBudget) (times : List Int) (now : Int) :
    b.afterAll (times ++ [now]) = (b.afterAll times).after now := by
  simp [afterAll]

theorem verdicts_concat (b : RequestBudget) (times : List Int) (now : Int) :
    b.verdicts (times ++ [now]) = b.verdicts times ++ [((b.afterAll times).take now).isOk] := by
  induction times generalizing b with
  | nil => rfl
  | cons t times ih =>
    simp only [List.cons_append, verdicts, ih]
    rfl

theorem length_verdicts (b : RequestBudget) (times : List Int) :
    (b.verdicts times).length = times.length := by
  induction times generalizing b with
  | nil => rfl
  | cons now times ih => simp [verdicts, ih]

theorem accepted_concat (b : RequestBudget) (times : List Int) (now began : Int) :
    b.accepted (times ++ [now]) began = b.accepted times began +
      if minuteOf (times.foldl minuteOf b.began) now = began ∧
        ((b.afterAll times).take now).isOk = true then 1 else 0 := by
  unfold accepted
  rw [minutes_concat, verdicts_concat,
    List.zip_append (by rw [length_minutes, length_verdicts]), List.count_append]
  simp [List.count_singleton]

/-- Nothing was accepted in a minute that has still to begin. -/
theorem accepted_eq_zero (b : RequestBudget) {times : List Int} {began : Int}
    (h : times.foldl minuteOf b.began < began) : b.accepted times began = 0 := by
  unfold accepted
  rw [List.count_eq_zero]
  intro hmem
  have := le_of_mem_minutes (List.of_mem_zip hmem).1
  omega

/-- What a budget has come to after requests at some times. -/
structure Counts (fresh : RequestBudget) (times : List Int) (b : RequestBudget) : Prop where
  limit : b.limit = fresh.limit
  began : b.began = times.foldl minuteOf fresh.began
  used : b.used = fresh.accepted times b.began
  used_le : b.used ≤ b.limit

theorem counts_nil (h : b.used = 0) : Counts b [] b := by
  refine ⟨rfl, rfl, ?_, by omega⟩
  rw [h]
  rfl

/-- One more request: it is refused, counted in the current minute or the first of a new one. -/
theorem Counts.concat {fresh : RequestBudget} {times : List Int}
    (h : Counts fresh times (fresh.afterAll times)) (now : Int) :
    Counts fresh (times ++ [now]) (fresh.afterAll (times ++ [now])) := by
  have hminute : 0 < minute := by decide
  rw [afterAll_concat]
  have haccepted := accepted_concat fresh times now
  generalize fresh.afterAll times = b at h haccepted ⊢
  obtain ⟨hlimit, hbegan, hused, hle⟩ := h
  rw [← hbegan] at haccepted
  have hfold : (times ++ [now]).foldl minuteOf fresh.began = minuteOf b.began now := by
    rw [List.foldl_append, ← hbegan]
    rfl
  rcases b.take_cases now with ⟨spent, herror, -⟩ | ⟨b', hok, hlimit', hb'⟩
  · have hearly := (take_eq_error_iff.1 herror).1
    rw [after_of_error herror]
    refine ⟨hlimit, ?_, ?_, hle⟩
    · rw [hfold, minuteOf, if_neg (by omega)]
    · rw [haccepted, isOk_of_error herror]
      simpa using hused
  · rw [after_of_ok hok]
    rw [isOk_of_ok hok] at haccepted
    rcases hb' with ⟨hsame, hearly, hone, hroom⟩ | ⟨hnew, hlate, hone⟩
    · have hcurrent : minuteOf b.began now = b.began := by
        rw [minuteOf, if_neg (by omega)]
      refine ⟨hlimit'.trans hlimit, ?_, ?_, by omega⟩
      · rw [hfold, hcurrent, hsame]
      · rw [haccepted, hsame, hcurrent, hone, hused]
        simp
    · have hcurrent : minuteOf b.began now = now := by
        rw [minuteOf, if_pos hlate]
      have hnone : fresh.accepted times now = 0 := fresh.accepted_eq_zero (by omega)
      have hpos := b'.limit_pos
      refine ⟨hlimit'.trans hlimit, ?_, ?_, by omega⟩
      · rw [hfold, hcurrent, hnew]
      · rw [haccepted, hnew, hcurrent, hone, hnone]
        simp

theorem counts_afterAll {fresh : RequestBudget} (h : fresh.used = 0) (times : List Int) :
    Counts fresh times (fresh.afterAll times) := by
  induction times using List.reverseRecOn with
  | nil => exact counts_nil h
  | append_singleton times now ih => exact ih.concat now

theorem limit_new (limit : Option Nat) (created : Int) :
    (new limit created).limit = (limit.filter (0 < ·)).getD defaultLimit := by
  rcases limit with _ | _ | n <;> rfl

@[simp] theorem began_new (limit : Option Nat) (created : Int) :
    (new limit created).began = created := by
  unfold new
  split <;> rfl

/-- A request is refused exactly if as many as the limit were accepted in its minute. -/
theorem Counts.refuses_iff {fresh : RequestBudget} {times : List Int} (h : Counts fresh times b)
    (now : Int) :
    (∃ spent, b.take now = .error spent) ↔
      fresh.accepted times (minuteOf (times.foldl minuteOf fresh.began) now) = b.limit := by
  obtain ⟨-, hbegan, hused, hle⟩ := h
  have hpos := b.limit_pos
  rw [← hbegan]
  constructor
  · rintro ⟨spent, herror⟩
    obtain ⟨hearly, hfull, -⟩ := take_eq_error_iff.1 herror
    rw [minuteOf, if_neg (by omega), ← hused]
    omega
  · intro hfull
    by_cases hover : b.began + minute < now
    · -- nothing is accepted yet in a minute that this request begins
      have hminute : 0 < minute := by decide
      rw [minuteOf, if_pos hover, fresh.accepted_eq_zero (by omega)] at hfull
      omega
    · rw [minuteOf, if_neg hover, ← hused] at hfull
      exact ⟨_, take_eq_error_iff.2 ⟨by omega, by omega, rfl⟩⟩

/-- A new budget after requests at any times, and one more request. The budget's minute is the
current one, and it has used what it accepted in it, which is never more than the limit. A request
is refused exactly if as many as the limit were accepted in its minute; a refusal says so and leaves
the budget as it is. -/
theorem counts_current_minute (limit : Option Nat) (created : Int) (times : List Int) :
    ((new limit created).afterAll times).limit = (limit.filter (0 < ·)).getD defaultLimit ∧
    0 < ((new limit created).afterAll times).limit ∧
    ((new limit created).afterAll times).began = times.foldl minuteOf created ∧
    ((new limit created).afterAll times).used =
      (new limit created).accepted times (times.foldl minuteOf created) ∧
    ((new limit created).afterAll times).used ≤ ((new limit created).afterAll times).limit ∧
    ∀ now,
      ((∃ spent, ((new limit created).afterAll times).take now = .error spent) ↔
        (new limit created).accepted times (minuteOf (times.foldl minuteOf created) now) =
          ((new limit created).afterAll times).limit) ∧
      ∀ spent, ((new limit created).afterAll times).take now = .error spent →
        spent = ⟨((new limit created).afterAll times).limit,
          ((new limit created).afterAll times).limit⟩ ∧
        ((new limit created).afterAll times).after now = (new limit created).afterAll times := by
  have hcounts := counts_afterAll (used_new limit created) times
  have hrefuses := hcounts.refuses_iff
  generalize (new limit created).afterAll times = b at hcounts hrefuses ⊢
  obtain ⟨hlimit, hbegan, hused, hle⟩ := hcounts
  rw [began_new] at hbegan hrefuses
  rw [hbegan] at hused
  refine ⟨hlimit.trans (limit_new limit created), b.limit_pos, hbegan, hused, hle, fun now =>
    ⟨hrefuses now, ?_⟩⟩
  intro spent h
  obtain ⟨-, hfull, rfl⟩ := take_eq_error_iff.1 h
  have hspent : b.used = b.limit := by omega
  exact ⟨by rw [hspent], after_of_error h⟩

end RequestBudget

/-- A client's budget is spent by every request that it is asked for, whatever becomes of it. -/
theorem Poloniex.Client.budget_get {τ : Type} [Poloniex.Transport τ] (c : Poloniex.Client τ)
    (now : Int) (endpoint : String) (params : Params) (signed : Bool) :
    (c.get now endpoint params signed).1.budget = c.budget.after now := by
  unfold Poloniex.Client.get
  split
  · next h => exact (RequestBudget.after_of_error h).symm
  · next h =>
    rw [RequestBudget.after_of_ok h]
    dsimp only
    split <;> rfl

end Portfolio
