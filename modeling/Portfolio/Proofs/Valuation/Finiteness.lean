import Portfolio.Proofs.Alone.Bound
import Portfolio.Proofs.Number.Overflow
import Portfolio.Proofs.Valuation.Ending

/-! # When a total is finite

What is not finite does not get into the sum, but the sum itself may overflow, and then it stays an
infinity (`Valuation.total_of_infinite`). -/

namespace Portfolio

open Binary64

namespace Valuation

variable {cash : Float} {values : List Float}

theorem isFinite_settled (cash : Float) : isFinite (settled cash) = true := by
  unfold settled
  split
  · next h => exact h
  · decide

theorem total_append (cash : Float) (values more : List Float) :
    total cash (values ++ more) = total (total cash values) more :=
  List.foldl_append

/-- Once the sum is an infinity it stays one. -/
theorem total_of_infinite (h : Infinite cash) (values : List Float) :
    total cash values = cash := by
  induction values with
  | nil => rfl
  | cons v values ih =>
    have hstep : (if isFinite v then cash + v else cash) = cash := by
      split
      · next hv => exact add_of_infinite h hv
      · rfl
    rw [total, List.foldl_cons, hstep]
    exact ih

/-- One more contribution. -/
theorem total_step (h : isFinite cash = true) (v : Float) :
    isFinite (if isFinite v then cash + v else cash) = true ∨
      Infinite (if isFinite v then cash + v else cash) := by
  split
  · next hv =>
    cases hsum : isFinite (cash + v) with
    | true => exact .inl rfl
    | false => exact .inr (infinite_of_not_isFinite hsum (add_ne_nan h hv))
  · exact .inl h

/-- The sum is never NaN. -/
theorem total_cases (h : isFinite cash = true) (values : List Float) :
    isFinite (total cash values) = true ∨ Infinite (total cash values) := by
  induction values generalizing cash with
  | nil => exact .inl h
  | cons v values ih =>
    rw [total, List.foldl_cons]
    obtain hfinite | hinfinite := total_step h v
    · exact ih hfinite
    · have hstays := total_of_infinite hinfinite values
      exact .inr (show Infinite (total _ values) by rwa [hstays])

/-- The sum is finite if no contribution on the way made it overflow. -/
theorem isFinite_total_iff (h : isFinite cash = true) (values : List Float) :
    isFinite (total cash values) = true ↔
      ∀ n, isFinite (total cash (values.take n)) = true := by
  constructor
  · intro hfinite n
    obtain hn | hinfinite := total_cases h (values.take n)
    · exact hn
    · have hsplit : total cash values = total (total cash (values.take n)) (values.drop n) := by
        rw [← total_append, List.take_append_drop]
      rw [hsplit, total_of_infinite hinfinite, hinfinite.not_isFinite] at hfinite
      cases hfinite
  · intro hall
    have hwhole := hall values.length
    rwa [List.take_length] at hwhole

/-- Where the sum overflows: at a finite contribution to a finite sum. -/
theorem exists_overflow (h : isFinite cash = true) (hsum : isFinite (total cash values) = false) :
    ∃ before v after, values = before ++ v :: after ∧
      isFinite (total cash before) = true ∧ isFinite v = true ∧
      isFinite (total cash before + v) = false ∧ total cash values = total cash before + v := by
  induction values generalizing cash with
  | nil => rw [show total cash [] = cash from rfl, h] at hsum; cases hsum
  | cons v values ih =>
    have hnext : total cash (v :: values) =
        total (if isFinite v then cash + v else cash) values := rfl
    obtain hfinite | hinfinite := total_step h v
    · obtain ⟨before, u, after, rfl, hbefore, hu, hover, heq⟩ := ih hfinite (hnext ▸ hsum)
      exact ⟨v :: before, u, after, rfl, hbefore, hu, hover, hnext.trans heq⟩
    · by_cases hv : isFinite v = true
      · rw [if_pos hv] at hinfinite hnext
        refine ⟨[], v, values, rfl, h, hv, hinfinite.not_isFinite, ?_⟩
        exact hnext.trans (total_of_infinite hinfinite values)
      · rw [if_neg hv] at hinfinite
        rw [hinfinite.not_isFinite] at h
        cases h

/-! ## Runs -/

variable {ε : Type} [Exchange ε]

/-- What a valuation returns: the total of finite cash and of what the assets contribute. It is
never NaN, and it is finite if and only if every sum on the way is. If it is not, it is the infinity
to which a finite sum overflowed when a finite contribution was added. -/
structure Totals (s : Strategy) (o : ValuationOptions) (seen : List (World ε)) (x cash : Float)
    (worlds : List (World ε)) : Prop extends Adds s o seen x cash worlds where
  isFinite_cash : isFinite cash = true
  ne_nan : x ≠ Float.nan
  isFinite_iff : isFinite x = true ↔ ∀ n, isFinite (Valuation.total cash
    ((List.zipWith (fun a w => a.worth w o) s.assets worlds).take n)) = true
  overflows : isFinite x = false → (x = infinity ∨ x = -infinity) ∧
    ∃ before v after, List.zipWith (fun a w => a.worth w o) s.assets worlds = before ++ v :: after ∧
      isFinite (Valuation.total cash before) = true ∧ isFinite v = true ∧
        x = Valuation.total cash before + v

variable {s : Strategy} {o : ValuationOptions} {seen : List (World ε)} {x : Float}

omit [Exchange ε] in
theorem IsCash.isFinite {cash : Float} (h : IsCash s o seen cash) : isFinite cash = true := by
  unfold IsCash at h
  split at h
  · rw [h]
    exact isFinite_settled _
  · obtain ⟨w, -, -, rfl⟩ := h
    exact isFinite_settled _

theorem Run.totals {w : World ε} (h : Run s o seen (w, .done x)) :
    ∃ cash worlds, Totals s o seen x cash worlds := by
  obtain ⟨cash, worlds, hadds⟩ := h.adds
  have hcash := hadds.isCash.isFinite
  have hx := hadds.total
  refine ⟨cash, worlds, hadds, hcash, ?_, ?_, fun hover => ?_⟩
  · rw [hx]
    obtain hfinite | hinfinite := total_cases hcash _
    · exact ne_nan_of_isFinite hfinite
    · exact hinfinite.ne_nan
  · rw [hx]
    exact isFinite_total_iff hcash _
  · rw [hx] at hover
    obtain ⟨before, v, after, hsplit, hbefore, hv, -, heq⟩ := exists_overflow hcash hover
    obtain hfinite | hinfinite := total_cases hcash
      (List.zipWith (fun a w => a.worth w o) s.assets worlds)
    · rw [hfinite] at hover
      cases hover
    · exact ⟨hx ▸ hinfinite.eq_or_eq, before, v, after, hsplit, hbefore, hv, hx.trans heq⟩

/-- Whatever the other tasks do, and whatever the exchange answers, a valuation that is done
returns a total that is finite unless a sum on the way overflows. And it is done at last, if it is
the only task of a watcher whose lock is free, and no answer is a fault, unless it reads balances on
terms on which it may have to wait until a moment that the clock cannot tell. -/
theorem finite_unless_overflow (o : ValuationOptions) :
    (∀ {s : Strategy} {seen : List (World ε)} {w : World ε} {x : Float},
      Run s o seen (w, .done x) → ∃ cash worlds, Totals s o seen x cash worlds) ∧
    ∀ {w : World ε} {times : Nat → Int}, Faultless ε → w.watcher.Idle → Turns w.now times →
      EndsUnless (fun w' => w'.OverrunsFor o) resume times (begin w o) fun w' x =>
        ∃ seen cash worlds, Run w.watcher.strategy o seen (w', .done x) ∧
          Totals w.watcher.strategy o seen x cash worlds := by
  refine ⟨Run.totals, fun {w times} hx hidle ht => ?_⟩
  refine (ends_begin hx hidle.exclusive ht o).mono ?_
  rintro w' x ⟨seen, hrun⟩
  obtain ⟨cash, worlds, htotals⟩ := hrun.totals
  exact ⟨seen, cash, worlds, hrun, htotals⟩

/-- Cash and holdings that are finite, at a price of one, whose sum is not. -/
theorem finite_unless_overflow_scripted :
    let asset : Asset := ⟨"BTC/USDT", "BTC", "USDT", 1e308, .flat 1.0, .flat 1.0⟩
    let strategy : Strategy :=
      { Strategy.new "spot" "sim" "USDT" ⟨5⟩ with cash := ⟨"USDT", 1e308⟩, assets := [asset] }
    let w := World.new 0 (ScriptedExchange.new "sim" [] [("BTC/USDT", ⟨.ok 1.0, 0⟩)])
      (.new strategy .zero 1)
    let o : ValuationOptions := ⟨true, .default⟩
    (∃ w' cash worlds, begin w o = (w', .done infinity) ∧
      Totals strategy o (looksAtFirst w o) infinity cash worlds) ∧
      Ends resume (fun i => (i : Int)) (begin w o) fun w' x => ∃ seen cash worlds,
        Run strategy o seen (w', .done x) ∧ Totals strategy o seen x cash worlds := by
  intro asset strategy w o
  obtain ⟨htotals, hends⟩ := @finite_unless_overflow ScriptedExchange _ o
  have hturns : Turns w.now fun i => (i : Int) :=
    ⟨Int.le_refl 0, fun i => by omega, fun t => ⟨t.toNat, by omega⟩⟩
  obtain ⟨w', hdone⟩ : ∃ w', begin w o = (w', .done infinity) :=
    Progress.exists_eq_of_result? (by decide +kernel)
  have hrun : Run strategy o (looksAtFirst w o) (begin w o) := .begins rfl
  rw [hdone] at hrun
  obtain ⟨cash, worlds, htotal⟩ := htotals hrun
  have hends := hends (w := w) ScriptedExchange.faultless ⟨rfl, rfl⟩ hturns
  exact ⟨⟨w', cash, worlds, hdone, htotal⟩,
    hends.resolve_right fun ⟨_, _, _, hbooks, _⟩ => Bool.noConfusion hbooks⟩

end Valuation

end Portfolio
