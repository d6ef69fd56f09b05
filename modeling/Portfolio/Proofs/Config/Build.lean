import Mathlib.Data.List.Forall2
import Portfolio.Config.Validation

/-! # What an accepted configuration builds

The asset of a pair has its text for a name: the base, a slash and the quote
(`Asset.ofPair?_eq_some_iff`). A strategy is built if its decimals are decimals and its pairs are
pairs (`StrategySettings.build_eq_ok_iff`). Of a configuration that is accepted every strategy was
built once already, so all of them can be built (`Config.resolveStrategies_of_validate`). -/

namespace Portfolio

variable {α β ρ : Type}

theorem bind_eq_ok_iff {x : Except ρ α} {f : α → Except ρ β} {b : β} :
    (x >>= f) = .ok b ↔ ∃ a, x = .ok a ∧ f a = .ok b := by
  cases x with
  | error e =>
    constructor
    · rintro ⟨⟩
    · rintro ⟨_, ⟨⟩, _⟩
  | ok a =>
    constructor
    · exact fun h => ⟨a, rfl, h⟩
    · rintro ⟨_, ⟨⟩, h⟩
      exact h

theorem mapM_eq_ok_iff {f : α → Except ρ β} {as : List α} {bs : List β} :
    as.mapM f = .ok bs ↔ List.Forall₂ (fun a b => f a = .ok b) as bs := by
  induction as generalizing bs with
  | nil =>
    constructor
    · rintro ⟨⟩
      exact .nil
    · rintro ⟨⟩
      rfl
  | cons a as ih =>
    rw [List.mapM_cons, bind_eq_ok_iff]
    simp only [bind_eq_ok_iff, ih]
    constructor
    · rintro ⟨b, hb, rest, hrest, ⟨⟩⟩
      exact .cons hb hrest
    · rintro (_ | ⟨hb, hrest⟩)
      exact ⟨_, hb, _, hrest, rfl⟩

theorem bind_eq_error_iff {x : Except ρ α} {f : α → Except ρ β} {e : ρ} :
    (x >>= f) = .error e ↔ x = .error e ∨ ∃ a, x = .ok a ∧ f a = .error e := by
  cases x with
  | error e' =>
    constructor
    · rintro ⟨⟩
      exact .inl rfl
    · rintro (⟨⟨⟩⟩ | ⟨_, ⟨⟩, _⟩)
      rfl
  | ok a =>
    constructor
    · exact fun h => .inr ⟨a, rfl, h⟩
    · rintro (⟨⟨⟩⟩ | ⟨_, ⟨⟩, h⟩)
      exact h

theorem exists_mem_of_mapM_eq_error {f : α → Except ρ β} {as : List α} {e : ρ}
    (h : as.mapM f = .error e) : ∃ a ∈ as, f a = .error e := by
  induction as with
  | nil => cases h
  | cons a as ih =>
    rw [List.mapM_cons, bind_eq_error_iff] at h
    rcases h with h | ⟨b, -, h⟩
    · exact ⟨a, .head _, h⟩
    · rcases bind_eq_error_iff.1 h with h | ⟨_, -, ⟨⟩⟩
      obtain ⟨a', ha', he⟩ := ih h
      exact ⟨a', .tail _ ha', he⟩

/-- A list has a partner if each of its members has one. -/
theorem exists_forall₂_iff {R : α → β → Prop} {as : List α} :
    (∃ bs, List.Forall₂ R as bs) ↔ ∀ a ∈ as, ∃ b, R a b := by
  induction as with
  | nil => simp
  | cons a as ih =>
    rw [List.forall_mem_cons, ← ih]
    constructor
    · rintro ⟨_, _ | ⟨hb, hbs⟩⟩
      exact ⟨⟨_, hb⟩, _, hbs⟩
    · rintro ⟨⟨b, hb⟩, bs, hbs⟩
      exact ⟨b :: bs, .cons hb hbs⟩

theorem exists_mem_of_forall₂ {R : α → β → Prop} {as : List α} {bs : List β}
    (h : List.Forall₂ R as bs) : ∀ b ∈ bs, ∃ a ∈ as, R a b := by
  induction h with
  | nil => exact fun _ hb => absurd hb List.not_mem_nil
  | cons hab _ ih =>
    intro b hb
    rcases List.mem_cons.1 hb with rfl | hb
    · exact ⟨_, .head _, hab⟩
    · obtain ⟨a, ha, hr⟩ := ih b hb
      exact ⟨a, .tail _ ha, hr⟩

/-! ## Pairs -/

namespace Asset

theorem splitPair?_eq_some_iff {cs base quote : List Char} :
    splitPair? cs = some (base, quote) ↔ cs = base ++ '/' :: quote ∧ '/' ∉ base := by
  have hbefore {c : Char} (hc : c ∈ cs.takeWhile (· != '/')) : c ≠ '/' := by
    simpa using List.all_eq_true.1 List.all_takeWhile c hc
  unfold splitPair?
  constructor
  · intro h
    have hsplit := List.takeWhile_append_dropWhile (p := (· != '/')) (l := cs)
    have hfirst := List.head?_dropWhile_not (· != '/') cs
    split at h
    · cases h
    · next c rest hdrop =>
      rw [hdrop] at hsplit hfirst
      obtain rfl : c = '/' := by simpa using hfirst
      cases h
      exact ⟨hsplit.symm, fun hmem => hbefore hmem rfl⟩
  · rintro ⟨rfl, hbase⟩
    have hplain : ∀ c ∈ base, (c != '/') = true := fun c hc => by
      simpa using fun heq : c = '/' => hbase (heq ▸ hc)
    rw [List.dropWhile_append_of_pos hplain, List.takeWhile_append_of_pos hplain]
    simp

/-- The asset stands for the pair: its base, a slash that is the first one, and its quote. -/
structure IsOfPair (a : Asset) (pair : String) : Prop where
  pair_eq : a.pair = pair
  text : pair = a.base ++ "/" ++ a.quote
  base_ne : a.base ≠ ""
  noSlash : '/' ∉ a.base.toList
  quote_ne : a.quote ≠ ""

theorem ofPair?_eq_some_iff {pair : String} {leverage : Float} {a : Asset} :
    ofPair? pair leverage = some a ↔ a.IsOfPair pair ∧ a.holdings = 0.0 ∧
      a.long = .flat leverage ∧ a.short = .flat leverage := by
  unfold ofPair?
  constructor
  · intro h
    split at h
    · cases h
    · next base quote hsplit =>
      obtain ⟨htext, hbase⟩ := splitPair?_eq_some_iff.1 hsplit
      split at h
      · cases h
      · next hempty =>
        obtain ⟨hb, hq⟩ := not_or.1 hempty
        obtain rfl := Option.some_inj.1 h
        refine ⟨⟨rfl, ?_, ?_, ?_, ?_⟩, rfl, rfl, rfl⟩
        · rw [← String.toList_inj, htext]
          simp
        · simpa [← String.toList_inj] using hb
        · simpa using hbase
        · simpa [← String.toList_inj] using hq
  · rintro ⟨⟨hpair, htext, hb, hbase, hq⟩, hholdings, hlong, hshort⟩
    have hsplit : splitPair? pair.toList = some (a.base.toList, a.quote.toList) :=
      splitPair?_eq_some_iff.2 ⟨by rw [htext]; simp, hbase⟩
    rw [hsplit]
    obtain ⟨aPair, aBase, aQuote, aHoldings, aLong, aShort⟩ := a
    simp_all

end Asset

/-! ## Strategies -/

namespace StrategySettings

variable {s : StrategySettings} {b : BalanceSettings} {built : Strategy}

theorem asset_eq_ok_iff {pair : String} {a : Asset} :
    s.asset pair = .ok a ↔ Asset.ofPair? pair s.effectiveLeverage = some a := by
  unfold asset
  split
  · next a' h => rw [h, Except.ok.injEq, Option.some.injEq]
  · next h =>
    rw [h]
    constructor <;> rintro ⟨⟩

/-- When a strategy is built, and what it is then. -/
theorem build_eq_ok_iff :
    s.build b = .ok built ↔ ∃ maxFeeRate cash assets,
      s.decimal "max_fee_rate" s.maxFeeRate = .ok maxFeeRate ∧
      s.decimal "cash" s.cash = .ok cash ∧
      List.Forall₂ (fun pair a => Asset.ofPair? pair s.effectiveLeverage = some a) s.pairs assets ∧
      built = { Strategy.new s.name s.exchange s.quoteCurrency (s.balanceTtl.getD b.balanceTtl) with
        margin := s.margin, maxFeeRate, cash := ⟨s.quoteCurrency, cash⟩, assets,
        fetchParams := s.fetchParams } := by
  simp only [build, bind_eq_ok_iff, mapM_eq_ok_iff, asset_eq_ok_iff]
  constructor
  · rintro ⟨maxFeeRate, hfee, cash, hcash, assets, hassets, ⟨⟩⟩
    exact ⟨maxFeeRate, cash, assets, hfee, hcash, hassets, rfl⟩
  · rintro ⟨maxFeeRate, cash, assets, hfee, hcash, hassets, rfl⟩
    exact ⟨maxFeeRate, hfee, cash, hcash, assets, hassets, rfl⟩

end StrategySettings

/-! ## Configurations -/

namespace Config

variable {c : Config}

/-- A strategy is accepted if nothing is wrong with it, it can be built, and its fee rate is one. -/
theorem checkStrategy_eq_ok_iff {seen : List String} {s : StrategySettings} :
    c.checkStrategy seen s = .ok () ↔ c.strategyFault? seen s = none ∧
      ∃ built, s.build c.balance = .ok built ∧ isFeeRate built.maxFeeRate = true := by
  unfold checkStrategy
  cases hfault : c.strategyFault? seen s with
  | some fault =>
    constructor
    · rintro ⟨⟩
    · rintro ⟨⟨⟩, _⟩
  | none =>
    show (do let built ← s.build c.balance
             if isFeeRate built.maxFeeRate then pure () else s.fail .feeRate) = .ok () ↔ _
    rw [bind_eq_ok_iff, and_iff_right rfl]
    refine exists_congr fun built => and_congr_right fun _ => ?_
    split
    · next h => exact iff_of_true rfl h
    · next h => exact iff_of_false (by rintro ⟨⟩) h

theorem exchangeFault?_eq_none_iff {name : String} :
    c.exchangeFault? name = none ↔ ∃ e, c.exchanges.lookup name = some e ∧ e.enabled = true := by
  unfold exchangeFault?
  cases c.exchanges.lookup name with
  | none => simp
  | some e => simp

/-- Strategies are accepted one after the other, each beside the names of those before it. -/
theorem exists_checkStrategy_of_checkStrategies {seen : List String}
    {settings : List StrategySettings} (h : c.checkStrategies seen settings = .ok ()) :
    ∀ s ∈ settings, ∃ seen, c.checkStrategy seen s = .ok () := by
  induction settings generalizing seen with
  | nil => exact fun _ hs => absurd hs List.not_mem_nil
  | cons first rest ih =>
    obtain ⟨⟨⟩, hfirst, hrest⟩ := bind_eq_ok_iff.1 h
    intro s hs
    obtain rfl | hs := List.mem_cons.1 hs
    · exact ⟨seen, hfirst⟩
    · exact ih hrest s hs

theorem checkStrategies_of_validate (h : c.validate = .ok ()) :
    c.checkStrategies [] c.strategies = .ok () := by
  unfold validate at h
  split at h
  · cases h
  · exact h

/-- Every strategy of a configuration that is accepted can be built. -/
theorem resolveStrategies_of_validate (h : c.validate = .ok ()) :
    ∃ strategies, c.resolveStrategies = .ok strategies ∧
      List.Forall₂ (fun s built => s.build c.balance = .ok built) c.strategies strategies := by
  have hbuild : ∀ s ∈ c.strategies, ∃ built, s.build c.balance = .ok built := by
    intro s hs
    obtain ⟨seen, hchecked⟩ :=
      exists_checkStrategy_of_checkStrategies (checkStrategies_of_validate h) s hs
    obtain ⟨-, built, hbuilt, -⟩ := checkStrategy_eq_ok_iff.1 hchecked
    exact ⟨built, hbuilt⟩
  obtain ⟨strategies, hstrategies⟩ := exists_forall₂_iff.2 hbuild
  exact ⟨strategies, mapM_eq_ok_iff.2 hstrategies, hstrategies⟩

end Config

end Portfolio
