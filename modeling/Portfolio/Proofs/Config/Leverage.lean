import Portfolio.Proofs.Config.Acceptance
import Portfolio.Proofs.Number.Magnitude

/-! # The leverage of accepted strategies

A leverage is refused if it is at most zero, and a collateral is divided by one that is more than
zero. NaN is neither, so it is accepted and then not divided by; every other leverage that is
accepted is positive, and the collateral of both sides is divided by it
(`Config.leverage_positive_unless_nan`). -/

namespace Portfolio

namespace StrategySettings

variable {settings : StrategySettings} {b : BalanceSettings} {s : Strategy} {c : Config}

/-- Both sides of every asset have the leverage of the settings. -/
theorem leverage_of_build (h : settings.build b = .ok s) :
    ∀ a ∈ s.assets, a.long.leverage = settings.effectiveLeverage ∧
      a.short.leverage = settings.effectiveLeverage := by
  obtain ⟨maxFeeRate, cash, assets, -, -, hassets, rfl⟩ := build_eq_ok_iff.1 h
  intro a ha
  obtain ⟨pair, -, hpair⟩ := exists_mem_of_forall₂ hassets a ha
  obtain ⟨-, -, hlong, hshort⟩ := Asset.ofPair?_eq_some_iff.1 hpair
  exact ⟨by rw [hlong]; rfl, by rw [hshort]; rfl⟩

/-- A leverage that is admissible is positive or NaN. -/
theorem Admissible.leverage_pos_iff (h : settings.Admissible c) :
    0.0 < settings.effectiveLeverage ↔ settings.leverage ≠ some Float.nan := by
  unfold effectiveLeverage
  cases hleverage : settings.leverage with
  | none => exact iff_of_true (by decide) nofun
  | some x =>
    rw [Option.getD_some, Binary64.pos_iff, and_iff_right (h.leverage x hleverage), ne_eq, ne_eq,
      Option.some_inj]

/-- What a collateral is divided by, at whatever size and price a side of an asset of the strategy
is. -/
structure Levers (settings : StrategySettings) (s : Strategy) : Prop where
  long : ∀ a ∈ s.assets, a.long.leverage = settings.effectiveLeverage
  short : ∀ a ∈ s.assets, a.short.leverage = settings.effectiveLeverage
  /-- The leverage is positive, and it is the divisor. -/
  used : settings.leverage ≠ some Float.nan → 0.0 < settings.effectiveLeverage ∧
    ∀ (side : PositionSide) (price maxFeeRate : Float),
      side.leverage = settings.effectiveLeverage → side.collateral price maxFeeRate =
        (side.marketValue price - side.marketValue price * maxFeeRate) /
          settings.effectiveLeverage
  /-- The leverage is not positive, and one is the divisor. -/
  unused : settings.leverage = some Float.nan → ¬ 0.0 < settings.effectiveLeverage ∧
    ∀ (side : PositionSide) (price maxFeeRate : Float),
      side.leverage = settings.effectiveLeverage → side.collateral price maxFeeRate =
        (side.marketValue price - side.marketValue price * maxFeeRate) / 1.0

theorem levers_of_build (hadmissible : settings.Admissible c) (h : settings.build b = .ok s) :
    settings.Levers s where
  long a ha := (leverage_of_build h a ha).1
  short a ha := (leverage_of_build h a ha).2
  used hnumber := by
    have hpos := hadmissible.leverage_pos_iff.2 hnumber
    refine ⟨hpos, fun side price maxFeeRate hside => ?_⟩
    rw [PositionSide.collateral, PositionSide.divisor, hside, if_pos hpos]
  unused hnan := by
    have hpos : ¬ 0.0 < settings.effectiveLeverage :=
      fun hpos => hadmissible.leverage_pos_iff.1 hpos hnan
    refine ⟨hpos, fun side price maxFeeRate hside => ?_⟩
    rw [PositionSide.collateral, PositionSide.divisor, hside, if_neg hpos]

end StrategySettings

/-- The strategies of a configuration that is accepted can all be built. The leverage of each is
positive on both sides of every asset and what their collateral is divided by, unless it is NaN:
that is accepted too, is not positive, and leaves the collateral divided by one. -/
theorem Config.leverage_positive_unless_nan {c : Config} (h : c.validate = .ok ()) :
    ∃ strategies, c.resolveStrategies = .ok strategies ∧
      List.Forall₂ StrategySettings.Levers c.strategies strategies := by
  obtain ⟨strategies, hresolve, hbuilt⟩ := resolveStrategies_of_validate h
  have hboth := (List.forall₂_and_left _ _).2 ⟨c.admissible_of_validate h, hbuilt⟩
  exact ⟨strategies, hresolve, hboth.imp fun _ _ hs => StrategySettings.levers_of_build hs.1 hs.2⟩

/-- A position of six at a price of one ties up two with a leverage of three, and all six with one
that is NaN. -/
theorem Config.leverage_positive_unless_nan_six :
    let three : StrategySettings :=
      ⟨"three", "sim", "USDT", true, none, some 3.0, none, none, ["BTC/USDT"], []⟩
    let nan : StrategySettings := { three with name := "nan", leverage := some Float.nan }
    let c : Config :=
      ⟨⟨"totals", "development", none⟩, [("sim", ⟨true, false, none, "", ""⟩)], .default,
        [three, nan]⟩
    c.validate = .ok () ∧ ∃ first second, c.resolveStrategies = .ok [first, second] ∧
      (∀ a ∈ first.assets, 0.0 < a.long.leverage ∧
        (PositionSide.mk 6.0 1.0 a.long.leverage).collateral 1.0 0.0 = 2.0) ∧
      ∀ a ∈ second.assets, ¬ 0.0 < a.long.leverage ∧
        (PositionSide.mk 6.0 1.0 a.long.leverage).collateral 1.0 0.0 = 6.0 := by
  intro three nan c
  have hvalid : c.validate = .ok () := by decide +kernel
  obtain ⟨_, hresolve, _ | ⟨hthree, _ | ⟨hnan, _ | _⟩⟩⟩ := leverage_positive_unless_nan hvalid
  refine ⟨hvalid, _, _, hresolve, fun a ha => ?_, fun a ha => ?_⟩
  · obtain ⟨hpos, hused⟩ := hthree.used (by decide)
    rw [hthree.long a ha]
    refine ⟨hpos, (hused ⟨6.0, 1.0, _⟩ 1.0 0.0 rfl).trans ?_⟩
    decide +kernel
  · obtain ⟨hpos, hunused⟩ := hnan.unused rfl
    rw [hnan.long a ha]
    refine ⟨hpos, (hunused ⟨6.0, 1.0, _⟩ 1.0 0.0 rfl).trans ?_⟩
    decide +kernel

end Portfolio
