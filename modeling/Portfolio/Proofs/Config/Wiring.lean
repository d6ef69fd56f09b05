import Portfolio.Program.Session
import Portfolio.Proofs.Config.Acceptance

/-! # Sessions of an accepted configuration

Of a configuration that is accepted all strategies can be built, one for each of its settings
(`Config.describes_of_validate`), and the exchange of each is there and enabled. So a session opens
wherever the exchanges can be connected and the machine has the memory for the buffers, which no
check compares with anything, and every strategy has the client of the exchange that has exactly the
name it gives (`Session.connect_of_validate`): that an exchange is known under its name in any case
plays no part. -/

namespace Portfolio

theorem map_eq_ok_iff {α β ρ : Type} {f : α → β} {x : Except ρ α} {b : β} :
    x.map f = .ok b ↔ ∃ a, x = .ok a ∧ f a = b := by
  cases x with
  | error e => simp [Except.map]
  | ok a => simp [Except.map]

/-! ## Strategies -/

/-- The strategy that some settings describe. -/
structure StrategySettings.Describes (settings : StrategySettings) (b : BalanceSettings)
    (s : Strategy) : Prop where
  name : s.name = settings.name
  exchange : s.exchange = settings.exchange
  quoteCurrency : s.quoteCurrency = settings.quoteCurrency
  margin : s.margin = settings.margin
  fetchParams : s.fetchParams = settings.fetchParams
  balanceTtl : s.balanceTtl = settings.balanceTtl.getD b.balanceTtl
  cash : s.cash.currency = settings.quoteCurrency
  assets : List.Forall₂ (fun pair a => a.IsOfPair pair) settings.pairs s.assets

theorem StrategySettings.describes_of_build {settings : StrategySettings} {b : BalanceSettings}
    {s : Strategy} (h : settings.build b = .ok s) : settings.Describes b s := by
  obtain ⟨maxFeeRate, cash, assets, -, -, hassets, rfl⟩ := build_eq_ok_iff.1 h
  exact ⟨rfl, rfl, rfl, rfl, rfl, rfl, rfl,
    hassets.imp fun _ _ ha => (Asset.ofPair?_eq_some_iff.1 ha).1⟩

namespace Config

variable {c : Config}

theorem describes_of_validate (h : c.validate = .ok ()) :
    ∃ strategies, c.resolveStrategies = .ok strategies ∧
      List.Forall₂ (fun settings s => settings.Describes c.balance s) c.strategies strategies := by
  obtain ⟨strategies, hresolve, hbuilt⟩ := resolveStrategies_of_validate h
  exact ⟨strategies, hresolve, hbuilt.imp fun _ _ => StrategySettings.describes_of_build⟩

end Config

variable {τ : Type}

namespace Registry

/-- The client of an exchange that is known has the credentials and the limit of its settings. -/
theorem client?_eq_ok {now : Int} {transport : τ} {name : String} {e : ExchangeSettings}
    {client : Poloniex.Client τ} (h : client? now transport name e = .ok client) :
    client = .new ⟨e.apiKey, e.apiSecret⟩ e.rateLimit now transport := by
  unfold client? at h
  split at h
  · exact (Except.ok.inj h).symm
  · cases h

/-- Clients are kept under the exact names of their exchanges, whatever stands for the same exchange
in another case. -/
theorem lookup_connect {now : Int} {transport : τ} {exchanges : List (String × ExchangeSettings)}
    {clients : Registry τ} (h : (connect now transport exchanges).2 = .ok clients) {name : String}
    {e : ExchangeSettings} (he : exchanges.lookup name = some e) (henabled : e.enabled = true) :
    clients.lookup name = some (.new ⟨e.apiKey, e.apiSecret⟩ e.rateLimit now transport) := by
  induction exchanges generalizing clients with
  | nil => cases he
  | cons first rest ih =>
    obtain ⟨other, s⟩ := first
    rw [List.lookup_cons] at he
    unfold connect at h
    -- the first entry of the name is enabled, so its client comes first among those of the name
    by_cases hname : name = other
    · rw [beq_iff_eq.2 hname] at he
      obtain rfl := Option.some.inj he
      rw [if_pos henabled] at h
      split at h
      · cases h
      · next client hclient =>
        obtain ⟨others, -, rfl⟩ := map_eq_ok_iff.1 h
        rw [List.lookup_cons, beq_iff_eq.2 hname, client?_eq_ok hclient]
    · rw [beq_eq_false_iff_ne.2 hname] at he
      split at h
      · split at h
        · cases h
        · obtain ⟨others, hothers, rfl⟩ := map_eq_ok_iff.1 h
          rw [List.lookup_cons, beq_eq_false_iff_ne.2 hname]
          exact ih hothers he
      · exact ih h he

end Registry

theorem Watcher.create_of_fits {memory capacity : Nat} (h : RecordBuffer.Fits memory capacity)
    (s : Strategy) (pollInterval : Duration) :
    create memory s pollInterval capacity = .ok (.new s pollInterval capacity) := by
  rw [create, RecordBuffer.allocate_of_fits h]
  rfl

theorem Watcher.create_of_fault {memory capacity : Nat} {fault : MemoryFault}
    (h : RecordBuffer.allocate memory capacity = .error fault) (s : Strategy)
    (pollInterval : Duration) : create memory s pollInterval capacity = .error fault := by
  rw [create, h]
  rfl

namespace Session

/-- The world is a strategy's at the start, with a new client of the exchange that has exactly the
name the strategy gives. -/
def IsWired (c : Config) (now : Int) (transport : τ) (s : Strategy)
    (w : World (Poloniex.Client τ)) : Prop :=
  ∃ e, c.exchanges.lookup s.exchange = some e ∧ e.enabled = true ∧
    w = world now c.balance (.new ⟨e.apiKey, e.apiSecret⟩ e.rateLimit now transport) s

section
variable {c : Config} {now : Int} {memory : Nat} {transport : τ} {clients : Registry τ}
  (hclients : (Registry.connect now transport c.exchanges).2 = .ok clients)
  {strategies : List Strategy}
  (hknown : ∀ s ∈ strategies, ∃ e, c.exchanges.lookup s.exchange = some e ∧ e.enabled = true)
include hclients hknown

theorem track_of_fits (hfits : RecordBuffer.Fits memory c.balance.bufferCapacity) :
    ∃ worlds, (track now memory c.balance clients strategies).2 = .ok worlds ∧
      List.Forall₂ (IsWired c now transport) strategies worlds := by
  induction strategies with
  | nil => exact ⟨[], rfl, .nil⟩
  | cons s rest ih =>
    obtain ⟨e, he, henabled⟩ := hknown s (.head _)
    obtain ⟨worlds, hworlds, hwired⟩ := ih fun s hs => hknown s (.tail _ hs)
    unfold track openWorld
    rw [Registry.lookup_connect hclients he henabled, Watcher.create_of_fits hfits]
    exact ⟨_, map_eq_ok_iff.2 ⟨worlds, hworlds, rfl⟩, .cons ⟨e, he, henabled, rfl⟩ hwired⟩

theorem track_of_fault (hsome : strategies ≠ []) {fault : MemoryFault}
    (hfault : RecordBuffer.allocate memory c.balance.bufferCapacity = .error fault) :
    (track now memory c.balance clients strategies).2 = .error (.crashed fault) := by
  cases strategies with
  | nil => exact absurd rfl hsome
  | cons s rest =>
    obtain ⟨e, he, henabled⟩ := hknown s (.head _)
    unfold track openWorld
    rw [Registry.lookup_connect hclients he henabled, Watcher.create_of_fault hfault]
    rfl

end

/-- Every strategy of a configuration that is accepted is built from its settings; and if the
exchanges can be connected and the machine has the memory for a buffer, then a session opens with a
world for every strategy, in their order, each with the client of the exchange that has exactly the
name that the strategy gives. Without that memory the opening ends by the fault of the buffer. -/
theorem connect_of_validate {c : Config} (h : c.validate = .ok ()) :
    ∃ strategies, c.resolveStrategies = .ok strategies ∧
      List.Forall₂ (fun settings s => settings.Describes c.balance s) c.strategies strategies ∧
      ∀ {τ : Type} (now : Int) (memory : Nat) (transport : τ) (clients : Registry τ),
        (Registry.connect now transport c.exchanges).2 = .ok clients →
          (RecordBuffer.Fits memory c.balance.bufferCapacity →
            ∃ session, (connect c now memory transport).2 = .ok session ∧
              session.clients = clients ∧
              List.Forall₂ (IsWired c now transport) strategies session.worlds) ∧
          (¬ RecordBuffer.Fits memory c.balance.bufferCapacity →
            ∃ fault, RecordBuffer.allocate memory c.balance.bufferCapacity = .error fault ∧
              (connect c now memory transport).2 = .error (.crashed fault)) := by
  obtain ⟨strategies, hresolve, hdescribes⟩ := c.describes_of_validate h
  refine ⟨strategies, hresolve, hdescribes, fun now memory transport clients hclients => ?_⟩
  have hknown : ∀ s ∈ strategies,
      ∃ e, c.exchanges.lookup s.exchange = some e ∧ e.enabled = true := by
    intro s hs
    obtain ⟨settings, hsettings, hdescribed⟩ := exists_mem_of_forall₂ hdescribes s hs
    rw [hdescribed.exchange]
    exact (c.admissible_of_validate h settings hsettings).exchange
  have hsome : strategies ≠ [] := by
    rintro rfl
    exact (Config.validate_eq_ok_iff.1 h).1.someStrategy (List.forall₂_nil_right_iff.1 hdescribes)
  have hconnect : Registry.connect now transport c.exchanges = (_, .ok clients) :=
    Prod.ext rfl hclients
  unfold connect
  rw [hconnect, hresolve]
  refine ⟨fun hfits => ?_, fun hfits => ?_⟩
  · obtain ⟨worlds, hworlds, hwired⟩ := track_of_fits hclients hknown hfits
    exact ⟨_, map_eq_ok_iff.2 ⟨worlds, hworlds, rfl⟩, rfl, hwired⟩
  · obtain ⟨fault, hfault⟩ := RecordBuffer.allocate_of_not_fits hfits
    refine ⟨fault, hfault, ?_⟩
    dsimp only
    rw [track_of_fault hclients hknown hsome hfault]
    rfl

/-- Two accounts on one exchange whose names differ in case, and an exchange that is disabled and
not known. -/
def twoNames : Config :=
  let spot : StrategySettings :=
    ⟨"spot", "Poloniex", "USDT", false, none, none, none, none, ["BTC/USDT"], []⟩
  let margin : StrategySettings :=
    ⟨"margin", "POLONIEX", "USDT", true, some "1.5", some 2.0, some "0.002", some (.ofSeconds 1),
      ["ETH/USDT", "BTC/USDT"], [("account_type", "futures")]⟩
  ⟨⟨"totals", "production", none⟩,
    [("Poloniex", ⟨true, false, none, "a", "b"⟩), ("POLONIEX", ⟨true, false, some 10, "c", "d"⟩),
      ("other", ⟨false, false, none, "", ""⟩)],
    .default, [spot, margin]⟩

/-- Its session opens with as much memory as can be addressed; with the largest capacity that can be
written it is accepted all the same, and no session opens. -/
theorem connect_twoNames :
    let large : Config :=
      { twoNames with balance := { twoNames.balance with bufferCapacity := 2 ^ 64 - 1 } }
    let memory := RecordBuffer.addressable
    twoNames.validate = .ok () ∧ large.validate = .ok () ∧ ∃ clients : Registry Unit,
      (Registry.connect 0 () twoNames.exchanges).2 = .ok clients ∧
      (∃ strategies session, twoNames.resolveStrategies = .ok strategies ∧
        (connect twoNames 0 memory ()).2 = .ok session ∧ session.worlds.length = 2 ∧
        List.Forall₂ (IsWired twoNames 0 ()) strategies session.worlds) ∧
      (connect large 0 memory ()).2 = .error (.crashed .capacityOverflow) := by
  intro large memory
  have hvalid : twoNames.validate = .ok () := by decide +kernel
  have hlarge : large.validate = .ok () := by decide +kernel
  obtain ⟨strategies, hresolve, hdescribes, hsession⟩ := connect_of_validate hvalid
  obtain ⟨_, -, -, hnone⟩ := connect_of_validate hlarge
  have hfirst : "Poloniex".toLower = Poloniex.exchangeName := by decide +kernel
  have hsecond : "POLONIEX".toLower = Poloniex.exchangeName := by decide +kernel
  have hclients : (Registry.connect 0 () twoNames.exchanges).2 = .ok
      [("Poloniex", .new ⟨"a", "b"⟩ none 0 ()), ("POLONIEX", .new ⟨"c", "d"⟩ (some 10) 0 ())] := by
    simp [twoNames, Registry.connect, Registry.client?, hfirst, hsecond, Except.map]
  obtain ⟨session, hopen, -, hwired⟩ := (hsession 0 memory () _ hclients).1 (by decide)
  have hlength : session.worlds.length = 2 := hwired.length_eq ▸ hdescribes.length_eq.symm
  obtain ⟨fault, hfault, hcrashed⟩ := (hnone 0 memory () _ hclients).2 (by decide)
  rw [RecordBuffer.allocate_of_overflow (by decide)] at hfault
  cases hfault
  exact ⟨hvalid, hlarge, _, hclients, ⟨strategies, session, hresolve, hopen, hlength, hwired⟩,
    hcrashed⟩

end Session

end Portfolio
