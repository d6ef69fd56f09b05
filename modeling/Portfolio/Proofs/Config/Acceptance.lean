import Portfolio.Proofs.Config.Build
import Portfolio.Proofs.Keyed
import Portfolio.Proofs.Number.Written

/-! # Which configurations are accepted

A strategy passes its check if it is admissible by itself and no strategy before it has its name
(`Config.checkStrategy_iff_admissible`), and the check of a list stops at the first strategy that
does not pass, with an error that names it (`Config.checkStrategies_eq_error_iff`). So a
configuration is accepted exactly if it is complete, its strategies have names of their own and each
of them is admissible, and the strategy that an error names is the first one at fault. None of this
depends on the order in which the exchanges are kept (`Config.accepted_exactly`). -/

namespace Portfolio

/-! ## Pairs -/

/-- Some text, a slash that is the first one, and some text. -/
def Asset.IsPair (pair : String) : Prop :=
  ∃ base quote, pair = base ++ "/" ++ quote ∧ '/' ∉ base.toList ∧ base ≠ "" ∧ quote ≠ ""

theorem Asset.exists_ofPair?_iff {pair : String} {leverage : Float} :
    (∃ a, ofPair? pair leverage = some a) ↔ IsPair pair := by
  simp only [ofPair?_eq_some_iff]
  constructor
  · rintro ⟨a, h, -⟩
    exact ⟨a.base, a.quote, h.text, h.noSlash, h.base_ne, h.quote_ne⟩
  · rintro ⟨base, quote, htext, hslash, hbase, hquote⟩
    let a : Asset :=
      { pair, base, quote, holdings := 0.0, long := .flat leverage, short := .flat leverage }
    exact ⟨a, ⟨rfl, htext, hbase, hslash, hquote⟩, rfl, rfl, rfl⟩

/-! ## Decimals -/

namespace StrategySettings

variable {s : StrategySettings}

/-- A field without a text counts as zero, and one with a text as its decimal. -/
theorem exists_decimal_iff (field : String) (text? : Option String) {P : Float → Prop}
    (hzero : P 0.0) :
    (∃ x, s.decimal field text? = .ok x ∧ P x) ↔
      ∀ text ∈ text?, ∃ d : Decimal, d.IsTextOf text ∧ P d.toFloat := by
  cases text? with
  | none => simpa [decimal] using hzero
  | some text =>
    cases hd : Decimal.ofChars? (Text.trim text.toList) with
    | none => simp [decimal, Decimal.IsTextOf, hd, fail]
    | some d => simp [decimal, Decimal.IsTextOf, hd]

theorem decimal_eq_error {field : String} {text? : Option String} {e : ConfigError}
    (h : s.decimal field text? = .error e) : ∃ fault, e = .strategy s.name fault := by
  unfold decimal at h
  split at h
  · cases h
  · split at h
    · cases h
    · cases h
      exact ⟨_, rfl⟩

theorem build_eq_error {b : BalanceSettings} {e : ConfigError} (h : s.build b = .error e) :
    ∃ fault, e = .strategy s.name fault := by
  rcases bind_eq_error_iff.1 h with h | ⟨_, -, h⟩
  · exact decimal_eq_error h
  rcases bind_eq_error_iff.1 h with h | ⟨_, -, h⟩
  · exact decimal_eq_error h
  rcases bind_eq_error_iff.1 h with h | ⟨_, -, ⟨⟩⟩
  obtain ⟨pair, -, h⟩ := exists_mem_of_mapM_eq_error h
  unfold asset at h
  split at h
  · cases h
  · cases h
    exact ⟨_, rfl⟩

/-! ## Strategies -/

/-- What is asked of a strategy by itself. The fee rate is the binary64 number of its decimal. -/
structure Admissible (c : Config) (s : StrategySettings) : Prop where
  exchange : ∃ e, c.exchanges.lookup s.exchange = some e ∧ e.enabled = true
  quoteCurrency : s.quoteCurrency ≠ ""
  somePair : s.pairs ≠ []
  leverage : ∀ x ∈ s.leverage, ¬ x ≤ 0.0
  pairs : ∀ pair ∈ s.pairs, Asset.IsPair pair
  cash : ∀ text ∈ s.cash, ∃ d : Decimal, d.IsTextOf text
  maxFeeRate : ∀ text ∈ s.maxFeeRate,
    ∃ d : Decimal, d.IsTextOf text ∧ 0.0 ≤ d.toFloat ∧ d.toFloat < 1.0

/-- A strategy can be built and has a fee rate if its decimals and its pairs are what they have to
be. -/
theorem exists_build_iff {b : BalanceSettings} :
    (∃ built, s.build b = .ok built ∧ Config.isFeeRate built.maxFeeRate = true) ↔
      (∀ text ∈ s.maxFeeRate,
        ∃ d : Decimal, d.IsTextOf text ∧ 0.0 ≤ d.toFloat ∧ d.toFloat < 1.0) ∧
      (∀ text ∈ s.cash, ∃ d : Decimal, d.IsTextOf text) ∧
      ∀ pair ∈ s.pairs, Asset.IsPair pair := by
  have hrate := exists_decimal_iff (s := s) (P := fun x => 0.0 ≤ x ∧ x < 1.0) "max_fee_rate"
    s.maxFeeRate (by decide)
  have hcash := exists_decimal_iff (s := s) (P := fun _ => True) "cash" s.cash trivial
  have hpairs : (∃ assets, List.Forall₂
      (fun pair a => Asset.ofPair? pair s.effectiveLeverage = some a) s.pairs assets) ↔ _ :=
    exists_forall₂_iff
  simp only [and_true] at hcash
  simp only [Asset.exists_ofPair?_iff] at hpairs
  rw [← hrate, ← hcash, ← hpairs]
  simp only [build_eq_ok_iff, Config.isFeeRate, Bool.and_eq_true, decide_eq_true_eq]
  constructor
  · rintro ⟨_, ⟨rate, cash, assets, hrate, hcash, hassets, rfl⟩, hok⟩
    exact ⟨⟨rate, hrate, hok⟩, ⟨cash, hcash⟩, assets, hassets⟩
  · rintro ⟨⟨rate, hrate, hok⟩, ⟨cash, hcash⟩, assets, hassets⟩
    exact ⟨_, ⟨rate, cash, assets, hrate, hcash, hassets, rfl⟩, hok⟩

end StrategySettings

namespace Config

variable {c : Config} {seen : List String} {s : StrategySettings}
  {settings : List StrategySettings} {e : ConfigError}

theorem strategyFault?_eq_none_iff :
    c.strategyFault? seen s = none ↔ s.name ∉ seen ∧
      (∃ e, c.exchanges.lookup s.exchange = some e ∧ e.enabled = true) ∧ s.quoteCurrency ≠ "" ∧
        s.pairs ≠ [] ∧ ∀ x ∈ s.leverage, ¬ x ≤ 0.0 := by
  have hrest : (if s.quoteCurrency.isEmpty then some StrategyFault.noQuoteCurrency
      else if s.pairs.isEmpty then some .noPairs
      else if s.leverage.any (· ≤ 0.0) then some .leverage else none) = none ↔
        s.quoteCurrency ≠ "" ∧ s.pairs ≠ [] ∧ ∀ x ∈ s.leverage, ¬ x ≤ 0.0 := by
    have hany : s.leverage.any (· ≤ 0.0) = true ↔ ¬ ∀ x ∈ s.leverage, ¬ x ≤ 0.0 := by
      cases s.leverage <;> simp
    by_cases hquote : s.quoteCurrency = ""
    · simp [hquote]
    · by_cases hpairs : s.pairs = []
      · simp [hquote, hpairs]
      · rw [if_neg (by simpa using hquote), if_neg (by simpa using hpairs)]
        simp only [hany, ite_eq_right_iff, reduceCtorEq, imp_false, Classical.not_not]
        exact ⟨fun h => ⟨hquote, hpairs, h⟩, fun h => h.2.2⟩
  unfold strategyFault?
  by_cases hseen : s.name ∈ seen
  · simp [hseen]
  · rw [if_neg (by simpa using hseen), Option.or_eq_none_iff, exchangeFault?_eq_none_iff, hrest]
    exact (and_iff_right hseen).symm

/-- A strategy passes if it is admissible and its name is new. -/
theorem checkStrategy_iff_admissible :
    c.checkStrategy seen s = .ok () ↔ s.name ∉ seen ∧ s.Admissible c := by
  rw [checkStrategy_eq_ok_iff, strategyFault?_eq_none_iff, StrategySettings.exists_build_iff]
  constructor
  · rintro ⟨⟨hname, hexchange, hquote, hpairs, hleverage⟩, hrate, hcash, hpair⟩
    exact ⟨hname, hexchange, hquote, hpairs, hleverage, hpair, hcash, hrate⟩
  · rintro ⟨hname, h⟩
    exact ⟨⟨hname, h.exchange, h.quoteCurrency, h.somePair, h.leverage⟩, h.maxFeeRate, h.cash,
      h.pairs⟩

/-- An error of a strategy names it. -/
theorem checkStrategy_eq_error (h : c.checkStrategy seen s = .error e) :
    ∃ fault, e = .strategy s.name fault := by
  unfold checkStrategy at h
  cases hfault : c.strategyFault? seen s with
  | some fault =>
    rw [hfault] at h
    cases h
    exact ⟨fault, rfl⟩
  | none =>
    rw [hfault] at h
    change (s.build c.balance >>= fun built =>
      if isFeeRate built.maxFeeRate then pure () else s.fail .feeRate) = .error e at h
    rcases bind_eq_error_iff.1 h with h | ⟨built, -, h⟩
    · exact StrategySettings.build_eq_error h
    · split at h
      · cases h
      · cases h
        exact ⟨_, rfl⟩

/-! ## Lists of strategies -/

theorem checkStrategies_cons_eq_ok_iff {rest : List StrategySettings} :
    c.checkStrategies seen (s :: rest) = .ok () ↔
      c.checkStrategy seen s = .ok () ∧ c.checkStrategies (s.name :: seen) rest = .ok () := by
  rw [checkStrategies, bind_eq_ok_iff]
  exact ⟨fun ⟨_, h⟩ => h, fun h => ⟨(), h⟩⟩

/-- A list passes if its strategies are admissible and have names of their own. -/
theorem checkStrategies_eq_ok_iff :
    c.checkStrategies seen settings = .ok () ↔
      (∀ s ∈ settings, s.name ∉ seen ∧ s.Admissible c) ∧
        (settings.map StrategySettings.name).Nodup := by
  induction settings generalizing seen with
  | nil => simp [checkStrategies]
  | cons s rest ih =>
    rw [checkStrategies_cons_eq_ok_iff, ih, checkStrategy_iff_admissible, List.forall_mem_cons,
      List.map_cons, List.nodup_cons]
    constructor
    · rintro ⟨hs, hrest, hdistinct⟩
      refine ⟨⟨hs, fun t ht => ?_⟩, fun hmem => ?_, hdistinct⟩
      · exact ⟨fun h => (hrest t ht).1 (.tail _ h), (hrest t ht).2⟩
      · obtain ⟨t, ht, hname⟩ := List.mem_map.1 hmem
        exact (hrest t ht).1 (hname ▸ .head _)
    · rintro ⟨⟨hs, hrest⟩, hnew, hdistinct⟩
      refine ⟨hs, fun t ht => ⟨fun h => ?_, (hrest t ht).2⟩, hdistinct⟩
      rcases List.mem_cons.1 h with hname | h
      · exact hnew (hname ▸ List.mem_map_of_mem ht)
      · exact (hrest t ht).1 h

/-- The check of a list ends with the error of the first strategy that does not pass. -/
theorem checkStrategies_eq_error_iff :
    c.checkStrategies seen settings = .error e ↔ ∃ before s after,
      settings = before ++ s :: after ∧ c.checkStrategies seen before = .ok () ∧
        c.checkStrategy ((before.map StrategySettings.name).reverse ++ seen) s = .error e := by
  induction settings generalizing seen with
  | nil => simp [checkStrategies]
  | cons s rest ih =>
    rw [checkStrategies, bind_eq_error_iff]
    constructor
    · rintro (hs | ⟨_, hs, hrest⟩)
      · exact ⟨[], s, rest, rfl, rfl, by simpa using hs⟩
      · obtain ⟨before, t, after, rfl, hbefore, ht⟩ := ih.1 hrest
        exact ⟨s :: before, t, after, rfl, checkStrategies_cons_eq_ok_iff.2 ⟨hs, hbefore⟩,
          by simpa using ht⟩
    · rintro ⟨before, t, after, heq, hbefore, ht⟩
      cases before with
      | nil =>
        obtain ⟨rfl, rfl⟩ := List.cons.inj heq
        exact .inl (by simpa using ht)
      | cons first before =>
        obtain ⟨rfl, rfl⟩ := List.cons.inj heq
        obtain ⟨hs, hrest⟩ := checkStrategies_cons_eq_ok_iff.1 hbefore
        exact .inr ⟨(), hs, ih.2 ⟨before, t, after, rfl, hrest, by simpa using ht⟩⟩

/-- The strategy that an error names is the first one at fault. -/
theorem exists_named_fault_iff {name : String} :
    (∃ fault, c.checkStrategies [] settings = .error (.strategy name fault)) ↔
      ∃ before s after, settings = before ++ s :: after ∧ s.name = name ∧
        (before.map StrategySettings.name).Nodup ∧ (∀ t ∈ before, t.Admissible c) ∧
          (s.name ∈ before.map StrategySettings.name ∨ ¬ s.Admissible c) := by
  have hpass {before : List StrategySettings} {s : StrategySettings} :
      c.checkStrategy ((before.map StrategySettings.name).reverse ++ []) s = .ok () ↔
        s.name ∉ before.map StrategySettings.name ∧ s.Admissible c := by
    rw [checkStrategy_iff_admissible, List.append_nil, List.mem_reverse]
  constructor
  · rintro ⟨fault, h⟩
    obtain ⟨before, s, after, heq, hbefore, hs⟩ := checkStrategies_eq_error_iff.1 h
    obtain ⟨hadmissible, hdistinct⟩ := checkStrategies_eq_ok_iff.1 hbefore
    obtain ⟨fault', hfault⟩ := checkStrategy_eq_error hs
    cases hfault
    refine ⟨before, s, after, heq, rfl, hdistinct, fun t ht => (hadmissible t ht).2, ?_⟩
    by_contra hnone
    rw [not_or, Classical.not_not] at hnone
    rw [hpass.2 hnone] at hs
    cases hs
  · rintro ⟨before, s, after, heq, rfl, hdistinct, hadmissible, hfault⟩
    have hbefore : c.checkStrategies [] before = .ok () := checkStrategies_eq_ok_iff.2
      ⟨fun t ht => ⟨List.not_mem_nil, hadmissible t ht⟩, hdistinct⟩
    cases hs : c.checkStrategy ((before.map StrategySettings.name).reverse ++ []) s with
    | ok u =>
      obtain ⟨hnew, hs⟩ := hpass.1 hs
      rcases hfault with hname | hnot
      · exact absurd hname hnew
      · exact absurd hs hnot
    | error e =>
      obtain ⟨fault, rfl⟩ := checkStrategy_eq_error hs
      exact ⟨fault, checkStrategies_eq_error_iff.2 ⟨before, s, after, heq, hbefore, hs⟩⟩

/-! ## Configurations -/

/-- What is asked of a configuration beside its strategies. -/
structure Complete (c : Config) : Prop where
  name : c.app.name ≠ ""
  someStrategy : c.strategies ≠ []
  bufferCapacity : c.balance.bufferCapacity ≠ 0
  credentials : c.app.env ≠ "development" →
    ∀ e ∈ c.exchanges, e.2.enabled = true → e.2.apiKey ≠ "" ∧ e.2.apiSecret ≠ ""

theorem lacksCredentials?_eq_none_iff :
    c.lacksCredentials? = none ↔ (c.app.env ≠ "development" →
      ∀ e ∈ c.exchanges, e.2.enabled = true → e.2.apiKey ≠ "" ∧ e.2.apiSecret ≠ "") := by
  have hproduction : c.app.isProduction = true ↔ c.app.env ≠ "development" := by
    simp [AppSettings.isProduction, AppSettings.development]
  unfold lacksCredentials?
  split
  · next h =>
    simp [hproduction.1 h, ExchangeSettings.lacksCredentials]
  · next h => simp [Classical.not_not.1 (mt hproduction.2 h)]

theorem fault?_eq_none_iff : c.fault? = none ↔ c.Complete := by
  unfold fault?
  constructor
  · intro h
    split at h
    · cases h
    split at h
    · cases h
    split at h
    · cases h
    next hname hsome hbuffer =>
    exact ⟨by simpa using hname, by simpa using hsome, hbuffer,
      lacksCredentials?_eq_none_iff.1 (Option.map_eq_none_iff.1 h)⟩
  · intro h
    simp [h.name, h.someStrategy, h.bufferCapacity, lacksCredentials?_eq_none_iff.2 h.credentials]

theorem validate_eq_ok_iff :
    c.validate = .ok () ↔ c.Complete ∧ c.checkStrategies [] c.strategies = .ok () := by
  rw [← fault?_eq_none_iff, validate]
  cases c.fault? <;> simp

theorem admissible_of_validate (h : c.validate = .ok ()) : ∀ s ∈ c.strategies, s.Admissible c :=
  fun s hs => ((checkStrategies_eq_ok_iff.1 (validate_eq_ok_iff.1 h).2).1 s hs).2

theorem validate_eq_strategy_error_iff {name : String} {fault : StrategyFault} :
    c.validate = .error (.strategy name fault) ↔
      c.Complete ∧ c.checkStrategies [] c.strategies = .error (.strategy name fault) := by
  rw [← fault?_eq_none_iff, validate]
  cases c.fault? <;> simp

/-! ## The order of the exchanges -/

section

variable {exchanges : List (String × ExchangeSettings)}
  (hlookup : ∀ name, exchanges.lookup name = c.exchanges.lookup name)
include hlookup

theorem checkStrategy_of_lookup :
    { c with exchanges }.checkStrategy seen s = c.checkStrategy seen s := by
  unfold checkStrategy strategyFault? exchangeFault?
  rw [hlookup]

theorem checkStrategies_of_lookup :
    { c with exchanges }.checkStrategies seen settings = c.checkStrategies seen settings := by
  induction settings generalizing seen with
  | nil => rfl
  | cons s rest ih => rw [checkStrategies, checkStrategies, checkStrategy_of_lookup hlookup, ih]

end

/-- The order in which exchanges are kept says at most which one is named as lacking credentials. -/
theorem validate_perm {exchanges : List (String × ExchangeSettings)}
    (hperm : c.exchanges.Perm exchanges) (hdistinct : (c.exchanges.map Prod.fst).Nodup) :
    { c with exchanges }.validate = c.validate ∨
      ∃ name name', c.validate =
          .error (.invalid (.noCredentials name (ExchangeSettings.variableStem name))) ∧
        { c with exchanges }.validate =
          .error (.invalid (.noCredentials name' (ExchangeSettings.variableStem name'))) := by
  have hlacks : { c with exchanges }.lacksCredentials? = none ↔ c.lacksCredentials? = none := by
    simp only [lacksCredentials?_eq_none_iff, hperm.mem_iff]
  have hcheck : { c with exchanges }.checkStrategies [] c.strategies =
      c.checkStrategies [] c.strategies :=
    checkStrategies_of_lookup fun _ => (Keyed.lookup_perm hdistinct hperm).symm
  by_cases hname : c.app.name.isEmpty
  · exact .inl (by simp [validate, fault?, hname])
  by_cases hnone : c.strategies.isEmpty
  · exact .inl (by simp [validate, fault?, hname, hnone])
  by_cases hbuffer : c.balance.bufferCapacity = 0
  · exact .inl (by simp [validate, fault?, hname, hnone, hbuffer])
  cases h : c.lacksCredentials? with
  | none =>
    refine .inl ?_
    simp [validate, fault?, hname, hnone, hbuffer, h, hlacks.2 h, hcheck]
  | some name =>
    obtain ⟨name', h'⟩ : ∃ name', { c with exchanges }.lacksCredentials? = some name' :=
      Option.ne_none_iff_exists'.1 fun hnone' => by rw [hlacks.1 hnone'] at h; cases h
    refine .inr ⟨name, name', ?_, ?_⟩
    · simp [validate, fault?, hname, hnone, hbuffer, h]
    · simp [validate, fault?, hname, hnone, hbuffer, h']

/-! ## The verdict -/

/-- A configuration is accepted if and only if it is complete, its strategies have names of their
own and each of them is admissible. The verdict is the same in whichever order the exchanges are
kept, apart from which of them is named as lacking credentials. A strategy is named by an error if
and only if the configuration is complete and it is the first strategy that has the name of one
before it or is not admissible. -/
theorem accepted_exactly (c : Config) :
    (c.validate = .ok () ↔ c.Complete ∧ (c.strategies.map StrategySettings.name).Nodup ∧
      ∀ s ∈ c.strategies, s.Admissible c) ∧
    (∀ exchanges, c.exchanges.Perm exchanges → (c.exchanges.map Prod.fst).Nodup →
      { c with exchanges }.validate = c.validate ∨
        ∃ name name', c.validate =
            .error (.invalid (.noCredentials name (ExchangeSettings.variableStem name))) ∧
          { c with exchanges }.validate =
            .error (.invalid (.noCredentials name' (ExchangeSettings.variableStem name')))) ∧
    ∀ name, (∃ fault, c.validate = .error (.strategy name fault)) ↔
      c.Complete ∧ ∃ before s after, c.strategies = before ++ s :: after ∧ s.name = name ∧
        (before.map StrategySettings.name).Nodup ∧ (∀ t ∈ before, t.Admissible c) ∧
          (s.name ∈ before.map StrategySettings.name ∨ ¬ s.Admissible c) := by
  refine ⟨?_, fun exchanges hperm hdistinct => validate_perm hperm hdistinct, fun name => ?_⟩
  · rw [validate_eq_ok_iff, checkStrategies_eq_ok_iff]
    simp only [List.not_mem_nil, not_false_eq_true, true_and]
    exact and_congr_right' and_comm
  · simp only [validate_eq_strategy_error_iff, exists_and_left, exists_named_fault_iff]

/-- One of two exchanges is disabled. A strategy on the other one is accepted in whichever order the
two are kept, and one with no leverage that comes after it is named. -/
theorem accepted_exactly_disabled :
    let on : ExchangeSettings := ⟨true, false, none, "", ""⟩
    let off : ExchangeSettings := ⟨false, false, none, "", ""⟩
    let spot : StrategySettings :=
      ⟨"spot", "a", "USDT", false, none, none, some " 0.002 ", none, ["BTC/USDT"], []⟩
    let margin : StrategySettings := { spot with name := "margin", leverage := some 0.0 }
    let c : Config :=
      ⟨⟨"totals", "development", none⟩, [("a", on), ("b", off)], .default, [spot]⟩
    let two : Config := { c with strategies := [spot, margin] }
    c.validate = .ok () ∧ { c with exchanges := [("b", off), ("a", on)] }.validate = .ok () ∧
      ∃ fault, two.validate = .error (.strategy "margin" fault) := by
  intro on off spot margin c two
  obtain ⟨hiff, horder, -⟩ := accepted_exactly c
  have hvalid : c.validate = .ok () := by decide +kernel
  obtain ⟨hcomplete, -, hadmissible⟩ := hiff.1 hvalid
  refine ⟨hvalid, ?_, ((accepted_exactly two).2.2 "margin").2 ?_⟩
  · rcases horder _ (.swap ("b", off) ("a", on) []) (by decide) with hsame | ⟨name, -, hnot, -⟩
    · exact hsame.trans hvalid
    · rw [hvalid] at hnot
      cases hnot
  · have hspot : spot.Admissible c := hadmissible spot (.head _)
    have hmargin : ¬ margin.Admissible two := fun h => h.leverage 0.0 rfl (by decide)
    refine ⟨⟨hcomplete.name, List.cons_ne_nil _ _, hcomplete.bufferCapacity, hcomplete.credentials⟩,
      [spot], margin, [], rfl, rfl, List.nodup_singleton _, fun t ht => ?_, .inr hmargin⟩
    obtain rfl := List.mem_singleton.1 ht
    exact ⟨hspot.exchange, hspot.quoteCurrency, hspot.somePair, hspot.leverage, hspot.pairs,
      hspot.cash, hspot.maxFeeRate⟩

end Config

end Portfolio
