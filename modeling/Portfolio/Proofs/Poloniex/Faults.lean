import Portfolio.Proofs.Number.Sum
import Portfolio.Proofs.Poloniex.Payload
import Portfolio.Proofs.Polling.Survival
import Portfolio.Exchange.Poloniex.Adapter

/-! # Balances that are too large

An amount that is no decimal counts as zero, but two amounts can be decimals whose sum is none. A
body with such a holding in an account of the type that was asked for is a fault
(`Poloniex.balanceOutcome_of_tooLarge`), and nothing else is
(`Poloniex.settles_balanceOutcome`). The poll loop ends with that reply, and with no other
(`Poloniex.poll_survives_unless_tooLarge`). -/

namespace Portfolio

/-- The fault that stops the caller. -/
def Outcome.fault? {α : Type} : Outcome α → Option String
  | .crash fault => some fault
  | .answer _ | .failure _ => none

theorem Outcome.fault?_eq_some_iff {α : Type} {o : Outcome α} {fault : String} :
    o.fault? = some fault ↔ o = .crash fault := by
  cases o <;> simp [fault?]

namespace Poloniex

/-- The two amounts of a holding have no sum in ninety-six bits. -/
def Holding.IsTooLarge (h : Holding) : Prop :=
  (2 : ℚ) ^ 96 - 1 / 2 ≤ |(decimalOf h.available).value + (decimalOf h.hold).value|

/-- An account of the type has a holding that is too large. -/
def TooLarge (body : List UInt8) (accountType : String) : Prop :=
  ∃ accounts, readAccounts? body = some accounts ∧
    ∃ h ∈ holdingsOf accounts accountType, h.IsTooLarge

/-- An object or an error. -/
def Settles (o : Outcome Json.Value) : Prop :=
  (∃ entries, o = .answer (.object entries)) ∨ ∃ e, o = .failure e

/-! ## Payloads -/

theorem Holding.entry?_eq_none_iff {h : Holding} : h.entry? = none ↔ h.IsTooLarge := by
  unfold entry?
  rw [Option.map_eq_none_iff]
  exact Decimal.add?_eq_none_iff ..

theorem foldlM_entries_eq_none_iff {holdings : List Holding} (acc : List (String × Json.Value)) :
    holdings.foldlM (fun acc h => h.entry?.map (Keyed.set acc h.currency)) acc = none ↔
      ∃ h ∈ holdings, h.IsTooLarge := by
  induction holdings generalizing acc with
  | nil => simp
  | cons h holdings ih =>
    rw [List.foldlM_cons]
    cases hentry : h.entry? with
    | none => simpa using .inl (Holding.entry?_eq_none_iff.1 hentry)
    | some v =>
      have hfits : ¬ h.IsTooLarge := fun hlarge => by
        rw [Holding.entry?_eq_none_iff.2 hlarge] at hentry
        cases hentry
      simpa [hfits] using ih _

theorem payload?_eq_none_iff {accounts : List Account} {accountType : String} :
    payload? accounts accountType = none ↔
      ∃ h ∈ holdingsOf accounts accountType, h.IsTooLarge := by
  unfold payload?
  rw [Option.map_eq_none_iff]
  exact foldlM_entries_eq_none_iff []

/-! ## Bodies -/

theorem balanceOutcome_of_tooLarge {body : List UInt8} {type : String} (h : TooLarge body type) :
    balanceOutcome body type = .crash "Addition overflowed" := by
  obtain ⟨accounts, hread, hlarge⟩ := h
  unfold balanceOutcome
  rw [hread]
  simp only [payload?_eq_none_iff.2 hlarge]

theorem settles_balanceOutcome {body : List UInt8} {type : String} (h : ¬ TooLarge body type) :
    Settles (balanceOutcome body type) := by
  unfold balanceOutcome
  cases hread : readAccounts? body with
  | none => exact .inr ⟨_, rfl⟩
  | some accounts =>
    simp only
    cases hpayload : payload? accounts type with
    | none => exact absurd ⟨accounts, hread, payload?_eq_none_iff.1 hpayload⟩ h
    | some payload =>
      obtain ⟨entries, -, rfl⟩ := Option.map_eq_some_iff.1 hpayload
      exact .inl ⟨entries, rfl⟩

theorem Settles.sound {r : Reply Json.Value} (h : Settles r.outcome) : r.Sound := by
  intro fault hfault
  rw [hfault] at h
  rcases h with ⟨entries, he⟩ | ⟨e, he⟩ <;> cases he

/-! ## Requests -/

namespace Client

variable {τ : Type} [Transport τ]

/-- The body that answers a balance request is too large for the account type. -/
def MeetsTooLarge (c : Client τ) (now : Int) (params : Params) : Prop :=
  ∃ body, (c.get now "/accounts/balances" [("accountType", accountType params)] true).2.result =
    .ok body ∧ TooLarge body (accountType params)

variable {c : Client τ} {now : Int} {params : Params}

theorem fetchBalance_of_tooLarge (h : c.MeetsTooLarge now params) :
    (c.fetchBalance now params).2.outcome = .crash "Addition overflowed" := by
  obtain ⟨body, hresult, hlarge⟩ := h
  unfold fetchBalance Fetched.toReply
  simp only [hresult]
  exact balanceOutcome_of_tooLarge hlarge

theorem settles_fetchBalance (h : ¬ c.MeetsTooLarge now params) :
    Settles (c.fetchBalance now params).2.outcome := by
  unfold fetchBalance Fetched.toReply
  simp only
  cases hresult :
      (c.get now "/accounts/balances" [("accountType", accountType params)] true).2.result with
  | error e => exact .inr ⟨_, rfl⟩
  | ok body => exact settles_balanceOutcome fun hlarge => h ⟨body, hresult, hlarge⟩

theorem sound_fetchPrice (c : Client τ) (now : Int) (pair : String) :
    (c.fetchPrice now pair).2.Sound := by
  intro fault
  unfold fetchPrice Fetched.toReply priceOutcome
  simp only
  split
  · split
    · simp
    · split <;> simp
  · simp

/-- A server without such bodies is no cause of faults. -/
theorem faultless (h : ∀ (c : Client τ) now params, ¬ c.MeetsTooLarge now params) :
    Faultless (Client τ) where
  balance c now params := (settles_fetchBalance (h c now params)).sound
  price := sound_fetchPrice

end Client

/-! ## The poll loop -/

/-- The outcome of a body is an object or an error unless the body is too large for the account
type, and so is the outcome of every balance request. A poll loop goes on after every reply but that
to a body that is too large; and where the server sends no such body, the loop of a watcher that
somebody holds never ends before it is told to. -/
theorem poll_survives_unless_tooLarge {τ : Type} [Transport τ] :
    (∀ body type, (¬ TooLarge body type → Settles (balanceOutcome body type)) ∧
      (TooLarge body type → balanceOutcome body type = .crash "Addition overflowed")) ∧
    (∀ (c : Client τ) now params,
      (¬ c.MeetsTooLarge now params → Settles (c.fetchBalance now params).2.outcome) ∧
      (c.MeetsTooLarge now params →
        (c.fetchBalance now params).2.outcome = .crash "Addition overflowed")) ∧
    (∀ (w : World (Client τ)) (l : PollLoop) reply body type, l.Hears w reply →
      reply.outcome = balanceOutcome body type →
        ((w.runLoop l).isAlive l.id = true ↔ ¬ TooLarge body type)) ∧
    ((∀ (c : Client τ) now params, ¬ c.MeetsTooLarge now params) →
      ∀ now (c : Client τ) strategy pollInterval capacity ms,
        let w := ((Tasks.new now c (.new strategy pollInterval capacity)).run ms).world
        w.released = false → ∀ id, w.watcher.poller = some id → w.isAlive id = true) := by
  refine ⟨fun body type => ⟨settles_balanceOutcome, balanceOutcome_of_tooLarge⟩,
    fun c now params => ⟨Client.settles_fetchBalance, Client.fetchBalance_of_tooLarge⟩,
    fun w l reply body type hhears houtcome => ?_, fun hserver => ?_⟩
  · rw [World.isAlive_runLoop hhears]
    constructor
    · intro hsound hlarge
      exact hsound _ (houtcome.trans (balanceOutcome_of_tooLarge hlarge))
    · intro hfits
      have hsettles := settles_balanceOutcome hfits
      rw [← houtcome] at hsettles
      exact hsettles.sound
  · exact Tasks.isAlive_run (Client.faultless hserver)

/-- A server that always sends one body, after some time. -/
structure SameAnswer where
  body : List UInt8
  latency : Nat

instance : Transport SameAnswer where
  send t _ := (t, ⟨.ok ⟨200, t.body⟩, t.latency⟩)

/-- An account with the largest decimal available and one more on hold. -/
def largestAndOne : List UInt8 :=
  Utf8.encode ("[\x7b\"accountType\":\"SPOT\",\"balances\":[\x7b\"currency\":\"BTC\"," ++
    "\"available\":\"79228162514264337593543950335\",\"hold\":\"1\"\x7d]\x7d]")

theorem tooLarge_largestAndOne : TooLarge largestAndOne "SPOT" := by
  have hread : readAccounts? largestAndOne =
      some [⟨"SPOT", [⟨"BTC", "79228162514264337593543950335", "1"⟩]⟩] := by decide +kernel
  refine ⟨_, hread, _, List.mem_cons_self, ?_⟩
  rw [← Holding.entry?_eq_none_iff]
  decide +kernel

/-- A server that cannot be reached sends nothing that is too large. -/
theorem not_meetsTooLarge_unreachable (c : Client Unreachable) (now : Int) (params : Params) :
    ¬ c.MeetsTooLarge now params := by
  intro h
  obtain ⟨body, hresult, -⟩ := h
  unfold Client.get at hresult
  split at hresult
  · cases hresult
  · dsimp only at hresult
    split at hresult
    · cases hresult
    · cases hresult

/-- A watcher with an interval that was started and whose loop had its first turn. -/
def polled {τ : Type} [Transport τ] (transport : τ) : Tasks (Client τ) :=
  (Tasks.new 0 (.new ⟨"key", "secret"⟩ none 0 transport)
    (.new (.new "spot" "poloniex" "USDT" (.ofSeconds 10)) (.ofSeconds 30) 16)).run
      [.begin .start, .loop 0]

/-- The loop ends with the reply of such a server, and is still there where no server can be
reached. -/
theorem poll_ends_with_largestAndOne :
    let c : Client SameAnswer := .new ⟨"key", "secret"⟩ none 0 ⟨largestAndOne, 10⟩
    let w := ((polled (⟨largestAndOne, 10⟩ : SameAnswer)).step (.elapse 10)).world
    let u := (polled (⟨"refused"⟩ : Unreachable)).world
    (c.fetchBalance 0 []).2.outcome = .crash "Addition overflowed" ∧
      (∃ l reply, w.loops = [l] ∧ l.Hears w reply ∧ (w.runLoop l).isAlive l.id = false) ∧
      u.watcher.poller = some 0 ∧ u.isAlive 0 = true := by
  intro c w u
  obtain ⟨-, hfetch, hturn, -⟩ := @poll_survives_unless_tooLarge SameAnswer _
  have hmeets : c.MeetsTooLarge 0 [] := ⟨largestAndOne, by decide +kernel, tooLarge_largestAndOne⟩
  obtain ⟨l, hl⟩ : ∃ l, w.loops = [l] := List.length_eq_one_iff.1 (by decide +kernel)
  have hlive : w.loops.map (·.aborted) = [false] := by decide +kernel
  -- replies cannot be compared, so the one that is awaited is known by its fault
  have hwaits : w.loops.map (fun l => l.state.awaited?.map fun a =>
      (a.1, a.2.1, a.2.2.outcome.fault?)) =
        [some (30000000000, 10, some "Addition overflowed")] := by decide +kernel
  rw [hl, List.map_singleton, List.singleton_inj] at hlive hwaits
  obtain ⟨⟨next, due, reply⟩, hawaited, he⟩ := Option.map_eq_some_iff.1 hwaits
  obtain ⟨rfl, rfl, hfault⟩ : next = 30000000000 ∧ due = 10 ∧ _ := by simpa using he
  have hcrash := Outcome.fault?_eq_some_iff.1 hfault
  have hhears : l.Hears w reply :=
    ⟨hl ▸ List.mem_cons_self, hlive, _, _, hawaited, by decide +kernel, by decide +kernel⟩
  have hends := hturn w l reply largestAndOne "SPOT" hhears
    (hcrash.trans (balanceOutcome_of_tooLarge tooLarge_largestAndOne).symm)
  refine ⟨(hfetch c 0 []).2 hmeets, ⟨l, reply, hl, hhears, ?_⟩, by decide +kernel, ?_⟩
  · by_contra halive
    exact hends.1 (by simpa using halive) tooLarge_largestAndOne
  · obtain ⟨-, -, -, hserver⟩ := @poll_survives_unless_tooLarge Unreachable _
    exact hserver not_meetsTooLarge_unreachable 0 _ _ _ _ _ (by decide +kernel) 0
      (by decide +kernel)

end Poloniex

end Portfolio
