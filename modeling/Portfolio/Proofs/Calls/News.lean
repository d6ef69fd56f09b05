import Portfolio.Proofs.Calls.Later
import Portfolio.Proofs.Calls.Ledger
import Portfolio.Proofs.View.Amounts
import Portfolio.Simulation.ScriptedExchange

/-! # No refresh ends for nothing

As long as nobody changes the data by hand, what a refresh takes for news is a record that somebody
else landed while it was there, so it ends with a request of its own or after such a landing
(`Calls.refresh_asks_or_hears`). News is also another balance of the quote currency, which NaN would
be at any time: what the exchange answers with finite numbers puts none into the table
(`Numeric`). -/

namespace Portfolio

variable {ε : Type}

/-! ## No NaN in the table -/

/-- A set of exchange states that requests do not leave, and in which every answer has finite
numbers only. -/
structure AnswersFinite [Exchange ε] (S : ε → Prop) : Prop where
  answer : ∀ {x}, S x → ∀ now params v,
    (Exchange.fetchBalance x now params).2.outcome = .answer v → v.AllFinite
  next : ∀ {x}, S x → ∀ now params, S (Exchange.fetchBalance x now params).1

/-- The move leaves the exchange in the set, if it uses it for something else. -/
def Calls.Move.StaysIn (S : ε → Prop) : Calls.Move ε → Prop
  | .business exchange _ => S exchange
  | _ => True

/-- The payload that a call will land, if it waits for one that counts. -/
def Call.payload? : Call → Option Json.Value
  | .refresh (.fetching _ _ _ reply) => reply.payload?
  | _ => none

/-- No amount in the table is NaN, and none of a reply that is still out will be. -/
structure Numeric (S : ε → Prop) (w : World ε) (cs : List Call) : Prop where
  exchange : S w.exchange
  view : ∀ b ∈ w.watcher.view.balances, b.amounts.IsNumber
  replies : ∀ c ∈ cs, ∀ v, c.payload? = some v → v.AllFinite

namespace Numeric

variable {S : ε → Prop} {w w' : World ε} {c c' : Call} {cs cs' : List Call}

theorem congr (h : Numeric S w cs) (he : w'.exchange = w.exchange)
    (hv : w'.watcher.view = w.watcher.view) : Numeric S w' cs :=
  ⟨he ▸ h.exchange, hv ▸ h.view, h.replies⟩

theorem cons (h : Numeric S w cs) (he : w'.exchange = w.exchange)
    (hv : w'.watcher.view = w.watcher.view) (hc : c.payload? = none) : Numeric S w' (c :: cs) where
  exchange := he ▸ h.exchange
  view := hv ▸ h.view
  replies d hd v hdv := by
    rcases List.mem_cons.1 hd with rfl | hd
    · rw [hc] at hdv
      cases hdv
    · exact h.replies d hd v hdv

theorem tail (h : Numeric S w (c :: cs)) : Numeric S w cs :=
  ⟨h.exchange, h.view, fun d hd => h.replies d (.tail _ hd)⟩

variable [Exchange ε]

theorem finish {ticket : Nat} {started : Timestamp} {due : Int} {reply : Reply Json.Value}
    (h : Numeric S w (.refresh (.fetching ticket started due reply) :: cs)) :
    Numeric S (Refresh.finish w ticket started reply).1 cs := by
  refine ⟨?_, ?_, h.tail.replies⟩
  · rw [Refresh.finish_fst]
    exact h.exchange
  · rw [Refresh.watcher_finish]
    cases hp : reply.payload? with
    | none => exact h.view
    | some payload =>
      have hfinite : payload.AllFinite := h.replies _ (.head _) payload hp
      simp only [Watcher.land_eq]
      exact BalanceTable.isNumber_report fun e he => Payload.isNumber_of_mem_read hfinite he

theorem ask (hS : AnswersFinite S) {ticket : Nat} {fallback : Params} (h : Numeric S w (c :: cs)) :
    Numeric S (Refresh.asked w fallback) (.refresh (.fetching ticket w.time
      (w.now + (Refresh.replyNow w fallback).latency) (Refresh.replyNow w fallback)) :: cs) where
  exchange := hS.next h.exchange _ _
  view := h.view
  replies d hd v hdv := by
    rcases List.mem_cons.1 hd with rfl | hd
    · refine hS.answer h.exchange w.now (w.watcher.strategy.requestParams fallback) v ?_
      have hpayload : (Refresh.replyNow w fallback).payload? = some v := hdv
      unfold Reply.payload? at hpayload
      split at hpayload
      · next u hu =>
        split at hpayload
        · rwa [← Option.some_inj.1 hpayload]
        · cases hpayload
      · cases hpayload
      · cases hpayload
    · exact h.tail.replies d hd v hdv

theorem callInvariant (hS : AnswersFinite S) : CallInvariant (Numeric (ε := ε) S) where
  perm h hp := ⟨h.exchange, h.view, fun c hc => h.replies c (hp.mem_iff.2 hc)⟩
  turn cs :=
    { join := fun h _ => h.cons rfl rfl rfl
      leave := fun h _ => h.tail
      draw := fun h => h.cons rfl rfl rfl
      ask := fun h _ => h.ask hS
      finish := fun h _ => h.finish }
  lock h := h.cons rfl rfl rfl
  take h _ := h.tail.cons rfl rfl rfl
  drop {w cs c} h := by
    obtain ⟨lock, inFlight, hw⟩ := c.drop_eq w
    rw [hw]
    exact h.tail.congr rfl rfl

theorem other {s : Calls ε} (h : Numeric S s.world s.live) {m : Calls.Move ε}
    (hm : m.isCall = false) (hhand : m.isByHand = false) (hin : m.StaysIn S) :
    Numeric S (s.step m).world s.live := by
  have hview := (s.sameData_other hm hhand).view
  refine ⟨?_, hview ▸ h.view, h.replies⟩
  cases m with
  | enter | lock | resume | drop => cases hm
  | reset | renewView | signal | push => cases hhand
  | start =>
    obtain ⟨poller, started, loops, nextLoop, journal, hw⟩ := s.world.start_eq
    have hs : (s.step .start).world = _ := hw
    rw [hs]
    exact h.exchange
  | stop =>
    obtain ⟨poller, started, loops, journal, hw, -⟩ := s.world.stop_cases
    have hs : (s.step .stop).world = _ := hw
    rw [hs]
    exact h.exchange
  | business exchange events =>
    have hs : (s.step (.business exchange events)).world.exchange = exchange :=
      World.exchange_logAll ..
    rw [hs]
    exact hin
  | elapse | release | loops => exact h.exchange

omit [Exchange ε] in
theorem new (now : Int) (x : ε) (hx : S x) (strategy : Strategy) (pollInterval : Duration)
    (capacity : Nat) :
    let s := Calls.new now x (.new strategy pollInterval capacity)
    Numeric S s.world s.live :=
  ⟨hx, fun _ hb => absurd hb List.not_mem_nil, fun _ hc => absurd hc List.not_mem_nil⟩

theorem run (hS : AnswersFinite S) {s : Calls ε} (h : Numeric S s.world s.live)
    {ms : List (Calls.Move ε)} (hms : ∀ m ∈ ms, m.isByHand = false ∧ m.StaysIn S) :
    Numeric S (s.run ms).world (s.run ms).live :=
  (callInvariant hS).run h fun _ hs m hm ho => hs.other ho (hms m hm).1 (hms m hm).2

end Numeric

/-! ## News -/

theorem Course.records_eq_nil {seen? : Option Seen} {news : Prop} {c : Call}
    {requests : List Request} {records : List FetchRecord} {gone : Bool}
    (h : Course seen? news (some c) requests records gone) : records = [] := by
  cases h <;> rfl

/-- A call that ended by itself has sent its request, or has heard news. -/
theorem Course.asks_or_hears {seen? : Option Seen} {news : Prop} {requests : List Request}
    {records : List FetchRecord} (h : Course seen? news none requests records false) :
    requests.length = 1 ∨ news := by
  cases h with
  | joins h => exact .inr h
  | settles => exact .inl rfl

/-- Nothing has landed, and nothing is NaN: there are no news. -/
theorem Watcher.hasNews_eq_false {w w' : Watcher} (h : w.SameData w')
    (hstrategy : w'.strategy = w.strategy) (hview : ∀ b ∈ w.view.balances, b.amounts.IsNumber) :
    w'.hasNews w.seen = false := by
  simp only [hasNews, seen, h.signals, h.lastFetch, h.view, hstrategy, bne_self_eq_false,
    Bool.false_or]
  exact BalanceTable.lookup_bne_self hview _

namespace Calls

/-- While the call in a place was there another one landed a record. -/
def LandingBeside [Exchange ε] (s : Calls ε) (place : Nat) (ms : List (Move ε)) : Prop :=
  ∃ earlier m other r, earlier ++ [m] <+: ms ∧ other ≠ place ∧
    (s.run earlier).isOf other m = true ∧
      (s.run earlier).world.watcher.Lands r (s.run (earlier ++ [m])).world.watcher ∧
        ((s.run (earlier ++ [m])).call? place).isSome = true

section
variable [Exchange ε] {s : Calls (Metered ε)} {place : Nat}

theorem LandingBeside.mono {ms ms' : List (Move (Metered ε))} (h : s.LandingBeside place ms)
    (hp : ms <+: ms') : s.LandingBeside place ms' := by
  obtain ⟨earlier, m, other, r, hm, hrest⟩ := h
  exact ⟨earlier, m, other, r, hm.trans hp, hrest⟩

theorem isSome_of_step (hp : place < s.slots.length) {m : Move (Metered ε)}
    (h : ((s.step m).call? place).isSome = true) : (s.call? place).isSome = true := by
  obtain hsame | ⟨-, hnone⟩ | ⟨c, -, hc, -⟩ := s.call?_step hp m
  · rwa [← hsame]
  · rw [hnone] at h
    cases h
  · rw [hc]
    rfl

omit [Exchange ε] in
theorem exists_isOf (s : Calls ε) {m : Move ε} (hm : m.isCall = true) :
    ∃ other, s.isOf other m = true := by
  cases m with
  | enter | lock => exact ⟨s.slots.length, beq_self_eq_true _⟩
  | resume other | drop other => exact ⟨other, beq_self_eq_true _⟩
  | _ => cases hm

/-- A refresh that is still there has landed nothing by its last move, or by any other. -/
theorem isOf_eq_false_of_lands {fallback : Params} {ms earlier : List (Move (Metered ε))}
    {m : Move (Metered ε)} {r : FetchRecord} (hm : earlier ++ [m] <+: .enter fallback :: ms)
    (hthere : ((s.run (.enter fallback :: ms)).call? s.slots.length).isSome = true)
    (hlands : (s.run earlier).world.watcher.Lands r ((s.run earlier).step m).world.watcher) :
    (s.run earlier).isOf s.slots.length m = false := by
  by_contra hof
  have hlife : Course (some s.world.watcher.seen) True _ _ _ _ :=
    .life s fallback ms (fun _ => trivial) fun _ _ _ _ => trivial
  obtain ⟨c, hc⟩ := Option.isSome_iff_exists.1 hthere
  rw [hc] at hlife
  have hr : r ∈ s.recordsOf s.slots.length (.enter fallback :: ms) := by
    refine mem_recordsOf.2 ⟨earlier, m, hm, Bool.not_eq_false _ ▸ hof, ?_⟩
    rw [hlands.recordsTo]
    exact List.mem_singleton_self r
  rw [hlife.records_eq_nil] at hr
  cases hr

/-- One more move of a run in which a refresh is there. -/
theorem sameData_or_landingBeside_step {fallback : Params} {ms earlier : List (Move (Metered ε))}
    {m : Move (Metered ε)} (hm : .enter fallback :: ms = earlier ++ [m])
    (hhand : m.isByHand = false)
    (hthere : ((s.run (.enter fallback :: ms)).call? s.slots.length).isSome = true) :
    (s.run earlier).world.watcher.SameData (s.run (.enter fallback :: ms)).world.watcher ∨
      s.LandingBeside s.slots.length (.enter fallback :: ms) := by
  have hafter : s.run (.enter fallback :: ms) = (s.run earlier).step m := by
    rw [hm, run_append, run_cons, run_nil]
  cases hcall : m.isCall with
  | false =>
    rw [hafter]
    exact .inl (sameData_other _ hcall hhand)
  | true =>
    obtain ⟨_, hsame | @⟨r, hlands⟩⟩ := (s.run earlier).changes_step hcall
    · rw [hafter]
      exact .inl hsame
    · obtain ⟨other, hof⟩ := exists_isOf (s.run earlier) hcall
      have hnotOwn := isOf_eq_false_of_lands (hm ▸ List.prefix_rfl) hthere hlands
      refine .inr ⟨earlier, m, other, r, hm ▸ List.prefix_rfl, ?_, hof, ?_, ?_⟩
      · rintro rfl
        rw [hof] at hnotOwn
        cases hnotOwn
      · rw [← hm, hafter]
        exact hlands
      · rwa [← hm]

/-- As long as a refresh is there the data is what it was at the entry, or another call has landed a
record. -/
theorem sameData_or_landingBeside {fallback : Params} {ms : List (Move (Metered ε))}
    (hhand : ∀ m ∈ ms, m.isByHand = false)
    (hthere : ((s.run (.enter fallback :: ms)).call? s.slots.length).isSome = true) :
    s.world.watcher.SameData (s.run (.enter fallback :: ms)).world.watcher ∨
      s.LandingBeside s.slots.length (.enter fallback :: ms) := by
  induction ms using List.reverseRecOn with
  | nil =>
    have hm : [(.enter fallback : Move (Metered ε))] = [] ++ [.enter fallback] := rfl
    exact sameData_or_landingBeside_step hm rfl hthere
  | append_singleton ms m ih =>
    have hp : s.slots.length < (s.run (.enter fallback :: ms)).slots.length := by
      have hentered : s.slots.length < (s.step (.enter fallback)).slots.length := by simp [step]
      exact Nat.lt_of_lt_of_le hentered (length_run _ ms)
    have hbefore : ((s.run (.enter fallback :: ms)).call? s.slots.length).isSome = true := by
      refine isSome_of_step hp (m := m) ?_
      rwa [← List.cons_append, run_append] at hthere
    obtain hsame | hbeside := ih (fun n hn => hhand n (List.mem_append_left _ hn)) hbefore
    · obtain hsame' | hbeside := sameData_or_landingBeside_step (List.cons_append ..).symm
        (hhand m (List.mem_append_right _ (.head _))) hthere
      · exact .inl (hsame.trans hsame')
      · exact .inr hbeside
    · exact .inr (hbeside.mono (List.prefix_append ..))

/-- No refresh ends for nothing. As long as nobody changes the data by hand and the exchange answers
with finite numbers, no amount in the table is NaN, so that what is found in it equals itself; and a
refresh that ends without having been given up has sent one request, or another one landed a record
after its entry and before its end. -/
theorem refresh_asks_or_hears {S : ε → Prop} (hS : AnswersFinite S) (now : Int)
    (exchange : Metered ε) (strategy : Strategy) (pollInterval : Duration) (capacity : Nat)
    (before : List (Move (Metered ε))) (fallback : Params) (ms : List (Move (Metered ε)))
    (hexchange : S exchange.exchange)
    (hmoves : ∀ m ∈ before ++ ms, m.isByHand = false ∧ m.StaysIn (S ·.exchange)) :
    let s := (Calls.new now exchange (.new strategy pollInterval capacity)).run before
    let place := s.slots.length
    let moves := .enter fallback :: ms
    (∀ b ∈ (s.run moves).world.watcher.view.balances, b.amounts.IsNumber) ∧
      (∀ key, ((s.run moves).world.watcher.view.lookup key !=
        (s.run moves).world.watcher.view.lookup key) = false) ∧
      ((s.run moves).call? place = none → s.isGivenUp place moves = false →
        (s.requestsOf place moves).length = 1 ∨ s.LandingBeside place moves) := by
  intro s place moves
  have hS' : AnswersFinite fun x : Metered ε => S x.exchange :=
    ⟨fun hx now params v h => hS.answer hx now params v h,
      fun hx now params => hS.next hx now params⟩
  let start := Calls.new now exchange (.new strategy pollInterval capacity)
  have hnew : Numeric (fun x : Metered ε => S x.exchange) start.world start.live :=
    .new now exchange hexchange strategy pollInterval capacity
  have hstart : Numeric (S ·.exchange) s.world s.live :=
    hnew.run hS' fun m hm => hmoves m (List.mem_append_left _ hm)
  have hend : Numeric (S ·.exchange) (s.run moves).world (s.run moves).live := by
    refine hstart.run hS' fun m hm => ?_
    rcases List.mem_cons.1 hm with rfl | hm
    · exact ⟨rfl, trivial⟩
    · exact hmoves m (List.mem_append_right _ hm)
  have hlife : Course (some s.world.watcher.seen) (s.LandingBeside place moves)
      ((s.run moves).call? place) (s.requestsOf place moves) (s.recordsOf place moves)
        (s.isGivenUp place moves) := by
    refine .life s fallback ms (fun hnews => ?_) fun b hb hthere hnews => ?_
    · rw [Watcher.hasNews_eq_false (.refl _) rfl hstart.view] at hnews
      cases hnews
    · have hhand : ∀ m ∈ b, m.isByHand = false := fun m hm =>
        (hmoves m (List.mem_append_right _ (hb.subset hm))).1
      obtain hsame | hbeside := sameData_or_landingBeside hhand hthere
      · rw [Watcher.hasNews_eq_false hsame (later_run s _).strategy hstart.view] at hnews
        cases hnews
      · exact hbeside.mono (List.cons_prefix_cons.2 ⟨rfl, hb⟩)
  refine ⟨hend.view, BalanceTable.lookup_bne_self hend.view, fun hover hkept => ?_⟩
  rw [hkept, hover] at hlife
  exact hlife.asks_or_hears

end

end Calls

/-! ## Scripted exchanges -/

/-- A script in which every answer has finite numbers only. -/
theorem ScriptedExchange.answersFinite : AnswersFinite fun x : ScriptedExchange =>
    ∀ r ∈ x.replies, ∀ v, r.result = .ok v → v.AllFinite where
  answer {x} hx now params v hv := by
    have hreply {r : ScriptedReply Json.Value} (hr : r ∈ x.replies)
        (hv : (toReply r).outcome = .answer v) : v.AllFinite := by
      unfold toReply at hv
      split at hv
      · next u hu =>
        cases hv
        exact hx r hr v hu
      · cases hv
    have hfetch : (x.fetchBalance params).2.outcome = .answer v := hv
    unfold fetchBalance at hfetch
    dsimp only at hfetch
    split at hfetch
    · cases hfetch
    · next r hr => exact hreply (hr ▸ .head _) hfetch
    · next r rest _ hr => exact hreply (hr ▸ .head _) hfetch
  next {x} hx now params := by
    show ∀ r ∈ (x.fetchBalance params).1.replies, ∀ v, r.result = .ok v → v.AllFinite
    unfold fetchBalance
    dsimp only
    split
    · exact hx
    · exact hx
    · next r rest _ hr => exact fun q hq => hx q (hr ▸ .tail _ hq)

/-- A request that takes two nanoseconds, and a second caller that waits for it and sends none. -/
theorem Calls.refresh_asks_or_hears_scripted :
    let payload := Json.Value.object [("USDT", .object [("total", .number (.int 1))])]
    let exchange : Metered ScriptedExchange := ⟨.new "sim" [⟨.ok payload, 2⟩] [], []⟩
    let s := (Calls.new 0 exchange (.new (.new "spot" "sim" "USDT" ⟨5⟩) .zero 1)).run [.enter []]
    let moves := [.enter [], .elapse 2, .resume 0, .resume 1]
    s.requestsOf 1 moves = [] ∧ s.LandingBeside 1 moves := by
  intro payload exchange s moves
  have hpayload : payload.AllFinite := by
    have hone : (Json.Number.int 1).IsFinite := show Word.Holds 64 1 by decide
    refine .object fun m hm => ?_
    rw [List.mem_singleton.1 hm]
    refine .object fun m hm => ?_
    rw [List.mem_singleton.1 hm]
    exact .number hone
  have hexchange : ∀ r ∈ exchange.exchange.replies, ∀ v, r.result = .ok v → v.AllFinite := by
    intro r hr v hv
    obtain rfl : r = ⟨.ok payload, 2⟩ := List.mem_singleton.1 hr
    cases hv
    exact hpayload
  have hmoves : ∀ m ∈ [.enter []] ++ moves.tail, m.isByHand = false ∧
      m.StaysIn fun x : Metered ScriptedExchange => ∀ r ∈ x.exchange.replies, ∀ v,
        r.result = .ok v → v.AllFinite := by
    simp [moves, Move.isByHand, Move.StaysIn]
  obtain ⟨-, -, hends⟩ := refresh_asks_or_hears ScriptedExchange.answersFinite 0 exchange
    (.new "spot" "sim" "USDT" ⟨5⟩) .zero 1 [.enter []] [] moves.tail hexchange hmoves
  have hnone : s.requestsOf 1 moves = [] := rfl
  refine ⟨hnone, (hends rfl rfl).resolve_left fun hone => ?_⟩
  have hlength : (s.requestsOf 1 moves).length = 1 := hone
  rw [hnone] at hlength
  cases hlength

end Portfolio
