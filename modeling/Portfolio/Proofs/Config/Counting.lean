import Mathlib.Data.List.Nodup
import Portfolio.Proofs.Config.Build
import Portfolio.Proofs.Valuation.Run
import Portfolio.Simulation.ScriptedExchange

/-! # What the total of an accepted strategy counts

By the balances on the exchange the total of a spot strategy adds the free balance of the quote
currency and, for each asset, the free balance of its base at the price of its pair
(`Valuation.Run.addsFree`). Whether it so counts a currency twice, or adds what is priced in another
currency, depends on the pairs (`StrategySettings.countsOnce_iff`), which nothing checks beyond
their form: pairs that are listed twice and pairs in another quote are accepted
(`Config.counts_once_unless_pairs_clash`). -/

namespace Portfolio

/-- The currencies whose free balances the total adds, one for each term. -/
def Strategy.counted (s : Strategy) : List String :=
  s.cash.currency :: s.assets.map Asset.base

/-- The total counts every currency once and in the quote currency. -/
structure Strategy.CountsOnce (s : Strategy) : Prop where
  distinct : (s.assets.map Asset.base).Nodup
  cash : s.cash.currency ∉ s.assets.map Asset.base
  quoted : ∀ a ∈ s.assets, a.quote = s.quoteCurrency

theorem Strategy.CountsOnce.count_le_one {s : Strategy} (h : s.CountsOnce) (currency : String) :
    s.counted.count currency ≤ 1 :=
  List.nodup_iff_count_le_one.1 (List.nodup_cons.2 ⟨h.cash, h.distinct⟩) currency

namespace StrategySettings

/-- The pairs are different, and each is one of another currency in the quote currency. -/
structure PlainPairs (s : StrategySettings) : Prop where
  distinct : s.pairs.Nodup
  quoted : ∀ pair ∈ s.pairs, ∃ base, pair = base ++ "/" ++ s.quoteCurrency ∧
    '/' ∉ base.toList ∧ base ≠ s.quoteCurrency

end StrategySettings

namespace Asset

theorem IsOfPair.eq_of_text {a : Asset} {pair base quote : String} (h : a.IsOfPair pair)
    (htext : pair = base ++ "/" ++ quote) (hbase : '/' ∉ base.toList) :
    a.base = base ∧ a.quote = quote := by
  have hown : splitPair? pair.toList = some (a.base.toList, a.quote.toList) :=
    splitPair?_eq_some_iff.2 ⟨by rw [h.text]; simp, h.noSlash⟩
  have hother : splitPair? pair.toList = some (base.toList, quote.toList) :=
    splitPair?_eq_some_iff.2 ⟨by rw [htext]; simp, hbase⟩
  rw [hown, Option.some_inj, Prod.mk.injEq, String.toList_inj, String.toList_inj] at hother
  exact hother

end Asset

namespace StrategySettings

variable {s : StrategySettings} {b : BalanceSettings} {built : Strategy}

theorem quoteCurrency_of_build (h : s.build b = .ok built) :
    built.quoteCurrency = s.quoteCurrency ∧ built.cash.currency = s.quoteCurrency := by
  obtain ⟨maxFeeRate, cash, assets, -, -, -, rfl⟩ := build_eq_ok_iff.1 h
  exact ⟨rfl, rfl⟩

/-- A strategy that was built has an asset for each of the pairs, in their order. -/
theorem map_pair_assets (h : s.build b = .ok built) :
    built.assets.map Asset.pair = s.pairs ∧ ∀ a ∈ built.assets, a.IsOfPair a.pair := by
  obtain ⟨maxFeeRate, cash, assets, -, -, hassets, rfl⟩ := build_eq_ok_iff.1 h
  have hof : List.Forall₂ (fun a pair => a.IsOfPair a.pair ∧ a.pair = pair) assets s.pairs :=
    .flip (hassets.imp fun pair a ha => by
      have hpair := (Asset.ofPair?_eq_some_iff.1 ha).1
      exact ⟨by rw [hpair.pair_eq]; exact hpair, hpair.pair_eq⟩)
  obtain ⟨hall, hpairs⟩ := (List.forall₂_and_left _ _).1 hof
  refine ⟨?_, hall⟩
  rw [← List.forall₂_eq_eq_eq, List.forall₂_map_left_iff]
  exact hpairs

/-- What the total counts depends on the pairs alone. -/
theorem countsOnce_iff (h : s.build b = .ok built) : built.CountsOnce ↔ s.PlainPairs := by
  obtain ⟨hquote, hcash⟩ := quoteCurrency_of_build h
  obtain ⟨hpairs, hof⟩ := map_pair_assets h
  have hinjective : Function.Injective fun base : String => base ++ "/" ++ s.quoteCurrency := by
    intro base base' heq
    simpa [← String.toList_inj] using heq
  -- among pairs in one quote the bases are different if the pairs are
  have hdistinct (hquoted : ∀ a ∈ built.assets, a.quote = s.quoteCurrency) :
      s.pairs.Nodup ↔ (built.assets.map Asset.base).Nodup := by
    rw [← List.nodup_map_iff (l := built.assets.map Asset.base) hinjective, List.map_map, ← hpairs]
    refine iff_of_eq (congrArg _ (List.map_congr_left fun a ha => ?_))
    rw [(hof a ha).text, hquoted a ha]
    rfl
  constructor
  · rintro ⟨hbases, hother, hquoted⟩
    rw [hquote] at hquoted
    refine ⟨(hdistinct hquoted).2 hbases, fun pair hpair => ?_⟩
    rw [← hpairs] at hpair
    obtain ⟨a, ha, rfl⟩ := List.mem_map.1 hpair
    refine ⟨a.base, hquoted a ha ▸ (hof a ha).text, (hof a ha).noSlash, fun heq => hother ?_⟩
    rw [hcash, ← heq]
    exact List.mem_map_of_mem ha
  · rintro ⟨hdifferent, hplain⟩
    have hasset : ∀ a ∈ built.assets, a.base ≠ s.quoteCurrency ∧ a.quote = s.quoteCurrency := by
      intro a ha
      obtain ⟨base, htext, hbase, hne⟩ := hplain a.pair (hpairs ▸ List.mem_map_of_mem ha)
      obtain ⟨rfl, hq⟩ := (hof a ha).eq_of_text htext hbase
      exact ⟨hne, hq⟩
    refine ⟨(hdistinct fun a ha => (hasset a ha).2).1 hdifferent, fun hmem => ?_, fun a ha => ?_⟩
    · obtain ⟨a, ha, heq⟩ := List.mem_map.1 hmem
      exact (hasset a ha).1 (heq.trans hcash)
    · rw [hquote]
      exact (hasset a ha).2

end StrategySettings

namespace Valuation

variable {ε : Type} [Exchange ε]

/-- The total of free balances: that of the cash's currency, and for each asset that of its base at
the price of its pair, each as one of some worlds shows it. Without a price it counts as nothing. -/
structure AddsFree (s : Strategy) (seen : List (World ε)) (x : Float) (first : World ε)
    (worlds : List (World ε)) : Prop where
  first_mem : first ∈ seen
  length : worlds.length = s.assets.length
  mem : ∀ w ∈ worlds, w ∈ seen
  total : x = total (settled (first.free s.cash.currency))
    (List.zipWith (fun a w => w.free a.base * (w.price? a.pair).getD 0.0) s.assets worlds)

theorem Run.addsFree {s : Strategy} {o : ValuationOptions} {seen : List (World ε)} {w : World ε}
    {x : Float} (h : Run s o seen (w, .done x)) (hspot : s.margin = false)
    (hexchange : o.useLocalBalances = false) : ∃ first worlds, AddsFree s seen x first worlds := by
  obtain ⟨cash, worlds, hcash, hlength, hmem, htotal⟩ := h.adds
  rw [IsCash, hexchange, if_neg Bool.false_ne_true] at hcash
  obtain ⟨first, hfirst, -, rfl⟩ := hcash
  refine ⟨first, worlds, hfirst, hlength, fun w hw => (hmem w hw).1, ?_⟩
  rw [htotal, ← List.map_uncurry_zip_eq_zipWith, ← List.map_uncurry_zip_eq_zipWith]
  refine congrArg _ (List.map_congr_left fun pair hpair => ?_)
  obtain ⟨a, w⟩ := pair
  have hs : w.watcher.strategy = s := (hmem w (List.of_mem_zip hpair).2).2
  show a.contribution w.watcher.strategy.margin o.useLocalBalances _ _ _ = _
  rw [hs, hspot, hexchange]
  rfl

end Valuation

/-- What the total of a strategy that was built from some settings counts. -/
structure StrategySettings.Counts (ε : Type) [Exchange ε] (settings : StrategySettings)
    (s : Strategy) : Prop where
  pairs : s.assets.map Asset.pair = settings.pairs
  countsOnce_iff : s.CountsOnce ↔ settings.PlainPairs
  count_le_one : settings.PlainPairs → ∀ currency, s.counted.count currency ≤ 1
  adds : ∀ {o : ValuationOptions} {seen : List (World ε)} {w : World ε} {x : Float},
    s.margin = false → o.useLocalBalances = false → Valuation.Run s o seen (w, .done x) →
      ∃ first worlds, Valuation.AddsFree s seen x first worlds

/-- A configuration that is accepted makes a strategy of each of its settings, with an asset for
each pair. By the balances on the exchange the total of a spot strategy adds the free balance of the
cash's currency, and for each asset the free balance of its base at the price of its pair. It counts
every currency once and in the quote currency if and only if the pairs are different and each is one
of another currency in the quote currency, which is not checked. -/
theorem Config.counts_once_unless_pairs_clash {ε : Type} [Exchange ε] {c : Config}
    (h : c.validate = .ok ()) :
    ∃ strategies, c.resolveStrategies = .ok strategies ∧
      List.Forall₂ (StrategySettings.Counts ε) c.strategies strategies := by
  obtain ⟨strategies, hresolve, hbuilt⟩ := resolveStrategies_of_validate h
  refine ⟨strategies, hresolve, hbuilt.imp fun settings s hs => ?_⟩
  have hiff := StrategySettings.countsOnce_iff hs
  exact ⟨(StrategySettings.map_pair_assets hs).1, hiff,
    fun hplain => (hiff.2 hplain).count_le_one, fun hspot hexchange hrun =>
      hrun.addsFree hspot hexchange⟩

/-- A pair that is listed twice and a pair in another quote are accepted: one BTC at 100 USDT counts
twice, and one ETH at half a BTC counts as half a USDT. -/
theorem Config.counts_once_unless_pairs_clash_scripted :
    let settings : StrategySettings :=
      ⟨"spot", "sim", "USDT", false, none, none, none, none, ["BTC/USDT", "BTC/USDT", "ETH/BTC"],
        []⟩
    let c : Config :=
      ⟨⟨"totals", "development", none⟩, [("sim", ⟨true, false, none, "", ""⟩)], .default,
        [settings]⟩
    let btc : Asset := ⟨"BTC/USDT", "BTC", "USDT", 0.0, .flat 1.0, .flat 1.0⟩
    let eth : Asset := ⟨"ETH/BTC", "ETH", "BTC", 0.0, .flat 1.0, .flat 1.0⟩
    let s : Strategy :=
      { Strategy.new "spot" "sim" "USDT" (.ofSeconds 10) with assets := [btc, btc, eth] }
    let one := Json.Value.object [("free", .number (.int 1))]
    let exchange := ScriptedExchange.new "sim" [⟨.ok (.object [("BTC", one), ("ETH", one)]), 0⟩]
      [("BTC/USDT", ⟨.ok 100.0, 0⟩), ("ETH/BTC", ⟨.ok 0.5, 0⟩)]
    let w := ((Calls.new 0 exchange (.new s .zero 1)).run [.enter []]).world
    c.validate = .ok () ∧ c.resolveStrategies = .ok [s] ∧ ¬ s.CountsOnce ∧
      s.counted.count "BTC" = 2 ∧ ∃ w' first worlds,
        Valuation.begin w .default = (w', .done 200.5) ∧
        Valuation.AddsFree s (Valuation.looksAtFirst w .default) 200.5 first worlds := by
  intro settings c btc eth s one exchange w
  have hvalid : c.validate = .ok () := by decide +kernel
  have hresolve : c.resolveStrategies = .ok [s] := rfl
  obtain ⟨strategies, hstrategies, hcounts⟩ :=
    @counts_once_unless_pairs_clash ScriptedExchange _ c hvalid
  obtain rfl : [s] = strategies := Except.ok.inj (hresolve.symm.trans hstrategies)
  obtain ⟨-, hiff, -, hadds⟩ := (List.forall₂_cons.1 hcounts).1
  refine ⟨hvalid, hresolve, fun honce => ?_, by decide +kernel, ?_⟩
  · have hdistinct := (hiff.1 honce).distinct
    revert hdistinct
    decide +kernel
  · obtain ⟨w', hdone⟩ : ∃ w', Valuation.begin w .default = (w', .done 200.5) :=
      Progress.exists_eq_of_result? (by decide +kernel)
    have hrun : Valuation.Run s .default (Valuation.looksAtFirst w .default)
        (Valuation.begin w .default) := .begins rfl
    rw [hdone] at hrun
    obtain ⟨first, worlds, htotal⟩ := hadds rfl rfl hrun
    exact ⟨w', first, worlds, hdone, htotal⟩

end Portfolio
