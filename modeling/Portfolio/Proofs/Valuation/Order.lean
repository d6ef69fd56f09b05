import Mathlib.Data.List.Forall2
import Portfolio.Proofs.Alone.Fetches
import Portfolio.Proofs.Valuation.Ending

/-! # A total in whatever order the prices come

A valuation that goes by the books, or by what was fetched before, however old, waits for no
balance (`ValuationOptions.AtOnce`). So it asks for every price in its first turn, in the order of
the assets (`World.quotes`), and from then on each of its parts holds its own reply until the time
of that reply has come (`Share.Holds`). In what order they come, and what other tasks do meanwhile
(`Valuation.Begun`), tells on nothing: the total is that of the replies in the order of the assets
(`Valuation.total_in_order`). -/

namespace Portfolio

variable {ε : Type}

/-! ## What the total is made of -/

/-- The replies to requests for some prices, sent one after the other at one time. -/
def Exchange.quotes [Exchange ε] (now : Int) : ε → List String → List (Reply Float)
  | _, [] => []
  | x, pair :: pairs =>
    let r := Exchange.fetchPrice x now pair
    r.2 :: quotes now r.1 pairs

theorem Exchange.sound_quotes [Exchange ε] (hx : Faultless ε) (now : Int) (x : ε)
    (pairs : List String) : ∀ reply ∈ Exchange.quotes now x pairs, reply.Sound := by
  induction pairs generalizing x with
  | nil => simp [quotes]
  | cons pair pairs ih => exact List.forall_mem_cons.2 ⟨hx.price x now pair, ih _⟩

theorem Exchange.length_quotes [Exchange ε] (now : Int) (x : ε) (pairs : List String) :
    (Exchange.quotes now x pairs).length = pairs.length := by
  induction pairs generalizing x with
  | nil => rfl
  | cons pair pairs ih => simp [quotes, ih]

namespace World

/-- The replies to requests for the prices of all assets. -/
def quotes [Exchange ε] (w : World ε) : List (Reply Float) :=
  Exchange.quotes w.now w.exchange (w.watcher.strategy.assets.map Asset.pair)

/-- The free balance of a currency, where it counts towards a contribution. -/
def freeFor (w : World ε) (o : ValuationOptions) (currency : String) : Float :=
  if w.watcher.strategy.margin || o.useLocalBalances then 0.0 else w.free currency

/-- The cash to which the contributions are added. -/
def baseCash (w : World ε) (o : ValuationOptions) : Float :=
  let cash := w.watcher.strategy.cash
  Valuation.settled (if o.useLocalBalances then cash.value else w.free cash.currency)

end World

/-- What an asset contributes at a price. -/
def Strategy.term (s : Strategy) (useLocal : Bool) (free : String → Float) (a : Asset)
    (price : Option Float) : Float :=
  a.contribution s.margin useLocal s.maxFeeRate (free a.base) price

/-- What the assets contribute at their prices. -/
def Strategy.terms (s : Strategy) (useLocal : Bool) (free : String → Float)
    (prices : List (Option Float)) : List Float :=
  List.zipWith (s.term useLocal free) s.assets prices

/-- A price tells on the term of its own asset only. -/
theorem Strategy.terms_set {s : Strategy} (useLocal : Bool) (free : String → Float)
    (prices : List (Option Float)) {i : Nat} {a : Asset} (h : s.assets[i]? = some a)
    (price : Option Float) :
    s.terms useLocal free (prices.set i price) =
      (s.terms useLocal free prices).set i (s.term useLocal free a price) := by
  obtain ⟨hi, ha⟩ := List.getElem?_eq_some_iff.1 h
  refine List.ext_getElem? fun j => ?_
  simp only [terms, List.getElem?_zipWith, List.getElem?_set, List.length_zipWith]
  by_cases hj : i = j
  · subst hj
    by_cases hp : i < prices.length
    · have hmin : i < min s.assets.length prices.length := Nat.lt_min.2 ⟨hi, hp⟩
      simp [hi, hp, ha, hmin]
    · have hmin : ¬ i < min s.assets.length prices.length := fun h => hp (Nat.lt_min.1 h).2
      simp [hi, hp, hmin]
  · simp [hj]

/-- No balance is waited for: the valuation goes by the books, or by what was fetched before,
however old. -/
def ValuationOptions.AtOnce (o : ValuationOptions) (w : Watcher) : Prop :=
  o.useLocalBalances = true ∨
    w.hasFetched = true ∧ o.live.since = none ∧ o.live.force = false

/-! ## What a valuation leaves alone -/

namespace World

/-- Nothing was done but to report. -/
def Reports (w w' : World ε) : Prop :=
  ∃ journal, w' = { w with journal }

theorem Reports.refl (w : World ε) : w.Reports w :=
  ⟨_, rfl⟩

theorem Reports.trans {w w' w'' : World ε} (h : w.Reports w') (h' : w'.Reports w'') :
    w.Reports w'' := by
  obtain ⟨_, rfl⟩ := h
  obtain ⟨_, rfl⟩ := h'
  exact ⟨_, rfl⟩

theorem reports_logAll (w : World ε) (es : List Event) : w.Reports (w.logAll es) :=
  ⟨_, w.logAll_eq es⟩

/-- No balance was asked for, and the watcher is as it was but for its start. By the books it was
not even started, and an on-demand watcher gets no poll loop. -/
structure Spares (useLocal : Bool) (w w' : World (Metered ε)) : Prop where
  sent : w'.exchange.sent = w.exchange.sent
  watcher : ∃ poller started, w'.watcher = { w.watcher with poller, started }
  loops : useLocal = true ∨ w.watcher.pollInterval.isZero = true → w'.loops = w.loops
  byBooks : useLocal = true → w'.watcher = w.watcher

namespace Spares

variable {useLocal : Bool} {w w' w'' : World (Metered ε)}

theorem trans (h : Spares useLocal w w') (h' : Spares useLocal w' w'') :
    Spares useLocal w w'' where
  sent := h'.sent.trans h.sent
  watcher := by
    obtain ⟨_, _, hw⟩ := h.watcher
    obtain ⟨poller, started, hw'⟩ := h'.watcher
    exact ⟨poller, started, by rw [hw', hw]⟩
  loops hcase := by
    obtain ⟨_, _, hw⟩ := h.watcher
    have hcase' : useLocal = true ∨ w'.watcher.pollInterval.isZero = true := by rwa [hw]
    exact (h'.loops hcase').trans (h.loops hcase)
  byBooks hlocal := (h'.byBooks hlocal).trans (h.byBooks hlocal)

theorem of_exchange {exchange : Metered ε} (hsent : exchange.sent = w.exchange.sent)
    (journal : List (Int × Event)) : Spares useLocal w { w with exchange, journal } :=
  ⟨hsent, ⟨_, _, rfl⟩, fun _ => rfl, fun _ => rfl⟩

theorem of_reports (h : w.Reports w') : Spares useLocal w w' := by
  obtain ⟨journal, rfl⟩ := h
  exact of_exchange rfl journal

theorem sameData (h : Spares useLocal w w') : w.watcher.SameData w'.watcher := by
  obtain ⟨_, _, hw⟩ := h.watcher
  rw [hw]
  exact ⟨rfl, rfl, rfl, rfl⟩

theorem strategy (h : Spares useLocal w w') : w'.watcher.strategy = w.watcher.strategy := by
  obtain ⟨_, _, hw⟩ := h.watcher
  rw [hw]

theorem free (h : Spares useLocal w w') (currency : String) :
    w'.free currency = w.free currency := by
  rw [World.free, World.free, h.sameData.read]

theorem freeFor (h : Spares useLocal w w') (o : ValuationOptions) : w'.freeFor o = w.freeFor o := by
  funext currency
  rw [World.freeFor, World.freeFor, h.strategy, h.free]

theorem atOnce (h : Spares useLocal w w') {o : ValuationOptions} (ho : o.AtOnce w.watcher) :
    o.AtOnce w'.watcher := by
  rwa [ValuationOptions.AtOnce, h.sameData.hasFetched]

end Spares

/-- Nothing was done but to start the watcher, where that was needed, and to report. -/
structure Opens (useLocal : Bool) (w w' : World (Metered ε)) : Prop
    extends Spares useLocal w w' where
  now : w'.now = w.now
  exchange : w'.exchange = w.exchange

namespace Opens

variable {useLocal : Bool} {w w' w'' : World (Metered ε)}

theorem of_reports (h : w.Reports w') : Opens useLocal w w' := by
  refine ⟨.of_reports h, ?_, ?_⟩
  all_goals
    obtain ⟨_, rfl⟩ := h
    rfl

theorem trans (h : Opens useLocal w w') (h' : Opens useLocal w' w'') : Opens useLocal w w'' :=
  ⟨h.toSpares.trans h'.toSpares, h'.now.trans h.now, h'.exchange.trans h.exchange⟩

theorem start [Exchange ε] (w : World (Metered ε)) : Opens false w w.start := by
  obtain ⟨poller, started, loops, nextLoop, journal, hw⟩ := w.start_eq
  refine ⟨⟨?_, ⟨poller, started, by rw [hw]⟩, fun hcase => ?_, nofun⟩, by rw [hw], by rw [hw]⟩
  · rw [hw]
  · have hzero : w.watcher.pollInterval.isZero = true := hcase.resolve_left nofun
    unfold World.start
    split
    · rfl
    · simp only [watcher_onWatcher, hzero, if_true]
      split <;> rfl

end Opens

end World

/-- A read that accepts what was fetched before, however old, is over at once. -/
theorem LiveRead.begin_of_any_age [Exchange ε] {w : World (Metered ε)} {q : LiveQuery}
    (hfetched : w.watcher.hasFetched = true) (hsince : q.options.since = none)
    (hforce : q.options.force = false) :
    ∃ w', World.Opens false w w' ∧ begin w q = (w', .done (w.watcher.read q.currency)) := by
  have hwait : mustWait w.watcher q = false := by
    simp [mustWait, hsince, hforce]
  rw [begin_eq_serve (mustRefresh_of_fetched hfetched hforce) hwait]
  simp only [serve, (sameData_start w).read]
  refine ⟨_, (World.Opens.start w).trans (.of_reports ?_), rfl⟩
  split
  · exact ⟨_, rfl⟩
  · exact .refl _

/-! ## Shares -/

namespace Share

section
variable (s : Strategy) (o : ValuationOptions) (free : String → Float) (start : Int)

/-- The work waits for a reply to a request sent at the start, or is done at its outcome. -/
def Holds (reply : Reply Float) (share : Share) : Prop :=
  share.state = .pricing (free share.asset.base) (start + reply.latency) reply ∨
    share.state =
      .finished (s.term o.useLocalBalances free share.asset reply.outcome.answer?)

/-- What a turn at that time makes of the work that holds a reply. -/
def Turned (now : Int) (reply : Reply Float) (a : Asset) : Progress ShareState Float → Prop
  | .blocked state => Holds s o free start reply ⟨a, state⟩ ∧ now < start + reply.latency
  | .done value => value = s.term o.useLocalBalances free a reply.outcome.answer?
  | .crashed => ¬ reply.Sound

/-- What a turn at that time makes of the work on some assets. -/
def AllTurned (now : Int) (replies : List (Reply Float)) (assets : List Asset) :
    Option (List Share) → Prop
  | some shares => shares.map asset = assets ∧
    List.Forall₂ (fun reply share => Holds s o free start reply share ∧
      (share.value? = none → now < start + reply.latency)) replies shares
  | none => ∃ reply ∈ replies, ¬ reply.Sound

end

section
variable {s : Strategy} {o : ValuationOptions} {free : String → Float} {start now : Int}
  {reply : Reply Float} {replies : List (Reply Float)}

theorem Holds.ne_reading {share : Share} (h : Holds s o free start reply share) (l : LiveRead) :
    share.state ≠ .reading l := by
  rcases h with h | h <;> simp [h]

theorem ne_reading_of_holds {shares : List Share}
    (h : List.Forall₂ (Holds s o free start) replies shares) :
    ∀ share ∈ shares, ∀ l, share.state ≠ .reading l := by
  induction h with
  | nil => simp
  | cons hfirst _ ih => exact List.forall_mem_cons.2 ⟨hfirst.ne_reading, ih⟩

theorem drop_eq_self (w : World ε) {share : Share} (h : ∀ l, share.state ≠ .reading l) :
    drop w share = w := by
  unfold drop
  split
  · next l hl => exact absurd hl (h l)
  all_goals rfl

theorem dropAll_eq_self (w : World ε) {shares : List Share}
    (h : ∀ share ∈ shares, ∀ l, share.state ≠ .reading l) : dropAll w shares = w := by
  induction shares with
  | nil => rfl
  | cons share rest ih =>
    rw [dropAll, List.foldl_cons, drop_eq_self w (h share (.head _))]
    exact ih fun other hother => h other (.tail _ hother)

variable {w : World ε}

theorem turned_close {a : Asset} (hs : w.watcher.strategy = s) (reply : Reply Float) :
    w.Reports (close w o a (free a.base) reply).1 ∧
      Turned s o free start now reply a (close w o a (free a.base) reply).2 := by
  subst hs
  unfold close
  dsimp only
  have hreports := w.reports_logAll reply.events
  cases hreply : reply.outcome with
  | answer price => exact ⟨hreports, by rw [Turned, hreply]; rfl⟩
  | failure e => exact ⟨hreports, by rw [Turned, hreply]; rfl⟩
  | crash fault => exact ⟨hreports, fun hsound => hsound fault hreply⟩

variable [Exchange ε]

theorem turned_resume {share : Share} (hs : w.watcher.strategy = s)
    (h : Holds s o free start reply share) :
    w.Reports (share.resume w o).1 ∧
      Turned s o free start w.now reply share.asset (share.resume w o).2 := by
  unfold resume
  rcases h with h | h <;> simp only [h]
  · split
    · exact turned_close hs reply
    · next hearly => exact ⟨.refl w, .inl rfl, Int.not_le.1 hearly⟩
  · exact ⟨.refl w, rfl⟩

/-- To ask for a price is to hold the reply and to have a turn. -/
theorem ask_eq_resume (w : World ε) (o : ValuationOptions) (a : Asset) (free : Float) :
    let r := Exchange.fetchPrice w.exchange w.now a.pair
    ask w o a free =
      resume { w with exchange := r.1 } o ⟨a, .pricing free (w.now + r.2.latency) r.2⟩ := by
  intro r
  have hdue : w.now + (r.2.latency : Int) ≤ w.now ↔ r.2.latency = 0 := by omega
  simp only [ask, resume, hdue]
  rfl

/-- The world after the turns of the work on some assets is that after one of them, for those that
come to nothing leave no trace. -/
theorem fst_resumeAll_cons {share : Share} {rest : List Share}
    (hrest : ∀ other ∈ rest, ∀ l, other.state ≠ .reading l)
    (hfirst : Turned s o free start now reply share.asset (share.resume w o).2) :
    (resumeAll o w (share :: rest)).1 = (share.resume w o).1 ∨
      (resumeAll o w (share :: rest)).1 = (resumeAll o (share.resume w o).1 rest).1 := by
  simp only [resumeAll]
  generalize share.resume w o = r at hfirst
  obtain ⟨w', p⟩ := r
  cases p with
  | crashed => exact .inl (dropAll_eq_self w' hrest)
  | done value => exact .inr rfl
  | blocked state =>
    refine .inr ?_
    dsimp only
    generalize resumeAll o w' rest = r
    obtain ⟨w'', _ | shares⟩ := r
    · exact drop_eq_self w'' hfirst.1.ne_reading
    · rfl

theorem allTurned_cons {share : Share} {rest : List Share} {assets : List Asset}
    (hfirst : Turned s o free start now reply share.asset (share.resume w o).2)
    (hrest : AllTurned s o free start now replies assets
      (resumeAll o (share.resume w o).1 rest).2) :
    AllTurned s o free start now (reply :: replies) (share.asset :: assets)
      (resumeAll o w (share :: rest)).2 := by
  simp only [resumeAll]
  generalize share.resume w o = r at hfirst hrest
  obtain ⟨w', p⟩ := r
  -- the first one after its turn, beside the others after theirs
  have hcons {state : ShareState} (hstate : Holds s o free start reply ⟨share.asset, state⟩)
      (hlate : (⟨share.asset, state⟩ : Share).value? = none → now < start + reply.latency) :
      AllTurned s o free start now (reply :: replies) (share.asset :: assets)
        ((resumeAll o w' rest).2.map (⟨share.asset, state⟩ :: ·)) := by
    dsimp only at hrest
    generalize (resumeAll o w' rest).2 = others at hrest ⊢
    cases others with
    | none =>
      obtain ⟨bad, hbad, hfault⟩ := hrest
      exact ⟨bad, .tail _ hbad, hfault⟩
    | some shares =>
      obtain ⟨hassets, hhold⟩ := hrest
      exact ⟨congrArg (share.asset :: ·) hassets, .cons ⟨hstate, hlate⟩ hhold⟩
  cases p with
  | crashed => exact ⟨reply, .head _, hfirst⟩
  | done value =>
    exact hcons (.inr (congrArg ShareState.finished hfirst)) fun hnone => by cases hnone
  | blocked state =>
    have hboth := hcons hfirst.1 fun _ => hfirst.2
    dsimp only
    generalize resumeAll o w' rest = r at hboth ⊢
    obtain ⟨w'', _ | shares⟩ := r <;> exact hboth

theorem allTurned_resumeAll {shares : List Share} (hs : w.watcher.strategy = s)
    (h : List.Forall₂ (Holds s o free start) replies shares) :
    w.Reports (resumeAll o w shares).1 ∧
      AllTurned s o free start w.now replies (shares.map asset) (resumeAll o w shares).2 := by
  induction h generalizing w with
  | nil => exact ⟨.refl w, rfl, .nil⟩
  | @cons reply share replies rest hfirst hrest ih =>
    obtain ⟨hreports, hturned⟩ := turned_resume hs hfirst
    have hw : (share.resume w o).1.watcher.strategy = s ∧ (share.resume w o).1.now = w.now := by
      obtain ⟨journal, hw⟩ := hreports
      rw [hw]
      exact ⟨hs, rfl⟩
    obtain ⟨hreports', hall⟩ := ih hw.1
    rw [hw.2] at hall
    refine ⟨?_, allTurned_cons hturned hall⟩
    rcases fst_resumeAll_cons (ne_reading_of_holds hrest) hturned with heq | heq
    · rw [heq]
      exact hreports
    · rw [heq]
      exact hreports.trans hreports'

end

/-! ## The first turn -/

section
variable [Exchange ε] {s : Strategy} {o : ValuationOptions} {w : World (Metered ε)}

/-- The first turn of the work on an asset goes as far as to ask for the price, with the free
balance at hand where it counts. -/
theorem resume_fresh (ho : o.AtOnce w.watcher) (a : Asset) :
    ∃ w', World.Opens o.useLocalBalances w w' ∧
      resume w o ⟨a, .fresh⟩ = ask w' o a (w.freeFor o a.base) := by
  simp only [resume, World.freeFor]
  split
  · exact ⟨w, .of_reports (.refl w), rfl⟩
  · next hcounts =>
    obtain ⟨-, hlocal⟩ : _ ∧ o.useLocalBalances = false := by simpa using hcounts
    obtain ⟨hfetched, hsince, hforce⟩ := ho.resolve_left (by simp [hlocal])
    obtain ⟨w', hopens, hread⟩ := LiveRead.begin_of_any_age (q := ⟨some a.base, o.live⟩)
      hfetched hsince hforce
    exact ⟨w', hlocal ▸ hopens, by rw [hread]; rfl⟩

theorem turned_begin (ho : o.AtOnce w.watcher) (hs : w.watcher.strategy = s) (a : Asset) :
    let r := Exchange.fetchPrice w.exchange w.now a.pair
    let first := resume w o ⟨a, .fresh⟩
    World.Spares o.useLocalBalances w first.1 ∧ first.1.exchange = r.1 ∧ first.1.now = w.now ∧
      Turned s o (w.freeFor o) w.now w.now r.2 a first.2 := by
  intro r first
  obtain ⟨w', hopens, hask⟩ := resume_fresh ho a
  have hr : Exchange.fetchPrice w'.exchange w'.now a.pair = r := by
    rw [hopens.exchange, hopens.now]
  have hfirst : first = resume { w' with exchange := r.1 } o
      ⟨a, .pricing (w.freeFor o a.base) (w'.now + r.2.latency) r.2⟩ := by
    refine hask.trans ?_
    rw [ask_eq_resume, hr]
  have hs' : w'.watcher.strategy = s := hopens.strategy.trans hs
  have hholds : Holds s o (w.freeFor o) w'.now r.2
      ⟨a, .pricing (w.freeFor o a.base) (w'.now + r.2.latency) r.2⟩ := .inl rfl
  obtain ⟨⟨journal, hreports⟩, hturned⟩ :=
    turned_resume (w := { w' with exchange := r.1 }) hs' hholds
  have hsent : r.1.sent = w'.exchange.sent := by rw [hopens.exchange]; rfl
  rw [hfirst]
  refine ⟨?_, ?_, ?_, ?_⟩
  · rw [hreports]
    exact hopens.toSpares.trans (.of_exchange hsent journal)
  · rw [hreports]
  · rw [hreports]
    exact hopens.now
  · rw [← hopens.now]
    exact hturned

theorem allTurned_begin (assets : List Asset) {free : String → Float} {start : Int}
    (ho : o.AtOnce w.watcher) (hs : w.watcher.strategy = s) (hfree : w.freeFor o = free)
    (hnow : w.now = start) :
    let all := resumeAll o w (assets.map (⟨·, .fresh⟩))
    World.Spares o.useLocalBalances w all.1 ∧
      AllTurned s o free start start (Exchange.quotes start w.exchange (assets.map Asset.pair))
        assets all.2 := by
  induction assets generalizing w with
  | nil => exact ⟨.of_reports (.refl w), rfl, .nil⟩
  | cons a rest ih =>
    obtain ⟨hspares, hexchange, hnow', hturned⟩ := turned_begin ho hs a
    obtain ⟨hspares', hall⟩ := ih (hspares.atOnce ho) (hspares.strategy.trans hs)
      ((hspares.freeFor o).trans hfree) (hnow'.trans hnow)
    rw [hfree, hnow] at hturned
    rw [hexchange, hnow] at hall
    intro all
    refine ⟨?_, allTurned_cons hturned hall⟩
    have hstay : ∀ other ∈ rest.map (⟨·, .fresh⟩ : Asset → Share),
        ∀ l, other.state ≠ .reading l := by simp
    rcases fst_resumeAll_cons hstay hturned with heq | heq
    · exact heq ▸ hspares
    · exact heq ▸ hspares.trans hspares'

end

theorem values_of_holds {s : Strategy} {o : ValuationOptions} {free : String → Float} {start : Int}
    {replies : List (Reply Float)} {values : List (Asset × Float)}
    (h : List.Forall₂ (fun reply (v : Asset × Float) =>
      Holds s o free start reply ⟨v.1, .finished v.2⟩) replies values) :
    values.map (·.2) = List.zipWith (s.term o.useLocalBalances free) (values.map (·.1))
      (replies.map (·.outcome.answer?)) := by
  induction h with
  | nil => rfl
  | @cons reply v replies rest hfirst _ ih =>
    have hvalue : v.2 = s.term o.useLocalBalances free v.1 reply.outcome.answer? := by
      rcases hfirst with hstate | hstate
      · cases hstate
      · exact ShareState.finished.inj hstate
    rw [List.map_cons, ih, hvalue]
    rfl

end Share

/-! ## Valuations -/

namespace Valuation

/-- A valuation that began in a world, at any later moment. At each of its turns it goes on in
whatever world the other tasks have left. -/
inductive Begun [Exchange ε] (w : World ε) (o : ValuationOptions) :
    World ε × Progress Valuation Float → Prop
  | begins : Begun w o (begin w o)
  | resumes {w' w'' : World ε} {v : Valuation} (h : Begun w o (w', .blocked v))
      (hs : w''.watcher.strategy = w.watcher.strategy) : Begun w o (v.resume w'')

/-- What a valuation makes of the replies, while it waits and at its end. -/
def Holds (s : Strategy) (o : ValuationOptions) (free : String → Float) (start : Int)
    (cash : Float) (replies : List (Reply Float)) : Progress Valuation Float → Prop
  | .blocked (.summing o' cash' shares) => o' = o ∧ cash' = cash ∧
    shares.map Share.asset = s.assets ∧ List.Forall₂ (Share.Holds s o free start) replies shares
  | .blocked (.cashing ..) => False
  | .done x =>
    x = total cash (s.terms o.useLocalBalances free (replies.map (·.outcome.answer?)))
  | .crashed => ∃ reply ∈ replies, ¬ reply.Sound

variable [Exchange ε] {s : Strategy} {o : ValuationOptions} {free : String → Float}
  {start now : Int} {cash : Float} {replies : List (Reply Float)}

theorem holds_sum (cash : Float) {w : World ε} {shares : List Share}
    (hall : Share.AllTurned s o free start now replies s.assets (Share.resumeAll o w shares).2) :
    (Share.resumeAll o w shares).1.Reports (sum w o cash shares).1 ∧
      Holds s o free start cash replies (sum w o cash shares).2 ∧
      ((∀ reply ∈ replies, start + reply.latency ≤ now) →
        ∀ v, (sum w o cash shares).2 ≠ .blocked v) := by
  unfold sum
  generalize Share.resumeAll o w shares = r at hall ⊢
  obtain ⟨w', _ | shares'⟩ := r
  · exact ⟨.refl w', hall, fun _ _ => nofun⟩
  · obtain ⟨hassets, hhold⟩ := hall
    have hstates := hhold.imp fun _ _ h => h.1
    dsimp only
    split
    · next values hvalues =>
      obtain rfl := Share.eq_finished_of_values hvalues
      have hnames : values.map (·.1) = s.assets := by
        rw [← hassets, List.map_map]
        rfl
      refine ⟨w'.reports_logAll _, ?_, fun _ _ => nofun⟩
      show total cash (values.map (·.2)) = _
      rw [Share.values_of_holds (List.forall₂_map_right_iff.1 hstates), hnames]
      rfl
    · next hnone =>
      refine ⟨.refl w', ⟨rfl, rfl, hassets, hstates⟩, fun hdue => ?_⟩
      have hthere : ∀ share ∈ shares', share.value? ≠ none := by
        clear hnone hstates hassets
        induction hhold with
        | nil => simp
        | cons hfirst _ ih =>
          obtain ⟨hle, hrest⟩ := List.forall_mem_cons.1 hdue
          refine List.forall_mem_cons.2 ⟨fun hwaits => ?_, ih hrest⟩
          exact Int.not_lt.2 hle (hfirst.2 hwaits)
      obtain ⟨values, hvalues⟩ := Share.exists_values hthere
      rw [hvalues] at hnone
      cases hnone

theorem holds_resume {w : World ε} {v : Valuation} (hs : w.watcher.strategy = s)
    (h : Holds s o free start cash replies (.blocked v)) :
    w.Reports (v.resume w).1 ∧ Holds s o free start cash replies (v.resume w).2 ∧
      ((∀ reply ∈ replies, start + reply.latency ≤ w.now) →
        ∀ v', (v.resume w).2 ≠ .blocked v') := by
  cases v with
  | cashing => exact h.elim
  | summing o' cash' shares =>
    obtain ⟨rfl, rfl, hassets, hhold⟩ := h
    obtain ⟨hreports, hall⟩ := Share.allTurned_resumeAll hs hhold
    rw [hassets] at hall
    obtain ⟨hreports', hholds, hdue⟩ := holds_sum cash' hall
    exact ⟨hreports.trans hreports', hholds, hdue⟩

omit [Exchange ε] in
theorem Holds.blocked_or_done {p : Progress Valuation Float}
    (h : Holds s o free start cash replies p) (hsound : ∀ reply ∈ replies, reply.Sound) :
    (∃ v, p = .blocked v) ∨ p = .done
      (total cash (s.terms o.useLocalBalances free (replies.map (·.outcome.answer?)))) := by
  cases p with
  | blocked v => exact .inl ⟨v, rfl⟩
  | done x => exact .inr (congrArg Progress.done h)
  | crashed =>
    obtain ⟨reply, hreply, hfault⟩ := h
    exact absurd (hsound reply hreply) hfault

section
variable {w : World (Metered ε)}

/-- The first turn of a valuation, whose cash is there at once. -/
theorem begin_eq_sum (ho : o.AtOnce w.watcher) :
    ∃ w', World.Opens o.useLocalBalances w w' ∧
      begin w o = sum w' o (w.baseCash o) (w.watcher.strategy.assets.map (⟨·, .fresh⟩)) := by
  have hafterCash (w : World (Metered ε)) (cash : Float) : ∃ w', w.Reports w' ∧ afterCash w o cash =
      sum w' o (settled cash) (w.watcher.strategy.assets.map (⟨·, .fresh⟩)) := by
    simp only [afterCash, settled]
    split
    · exact ⟨w, .refl w, rfl⟩
    · exact ⟨_, ⟨_, rfl⟩, rfl⟩
  simp only [begin, World.baseCash]
  split
  · obtain ⟨w', hreports, hsum⟩ := hafterCash w w.watcher.strategy.cash.value
    exact ⟨w', .of_reports hreports, hsum⟩
  · next hlocal =>
    have hlocal : o.useLocalBalances = false := by simpa using hlocal
    obtain ⟨hfetched, hsince, hforce⟩ := ho.resolve_left (by simp [hlocal])
    obtain ⟨w₁, hopens, hread⟩ := LiveRead.begin_of_any_age
      (q := ⟨some w.watcher.strategy.cash.currency, o.live⟩) hfetched hsince hforce
    obtain ⟨w', hreports, hsum⟩ := hafterCash w₁ (w.free w.watcher.strategy.cash.currency)
    rw [hopens.strategy] at hsum
    refine ⟨w', hlocal ▸ hopens.trans (.of_reports hreports), ?_⟩
    rw [hread]
    exact hsum

theorem holds_begin (ho : o.AtOnce w.watcher) :
    World.Spares o.useLocalBalances w (begin w o).1 ∧
      Holds w.watcher.strategy o (w.freeFor o) w.now (w.baseCash o) w.quotes (begin w o).2 := by
  obtain ⟨w', hopens, hbegin⟩ := begin_eq_sum ho
  obtain ⟨hspares, hall⟩ := Share.allTurned_begin w.watcher.strategy.assets
    (hopens.atOnce ho) hopens.strategy (hopens.freeFor o) hopens.now
  rw [hopens.exchange] at hall
  obtain ⟨hreports, hholds, -⟩ := holds_sum (w.baseCash o) hall
  rw [hbegin]
  exact ⟨hopens.toSpares.trans (hspares.trans (.of_reports hreports)), hholds⟩

theorem Begun.holds {r : World (Metered ε) × Progress Valuation Float} (ho : o.AtOnce w.watcher)
    (h : Begun w o r) :
    Holds w.watcher.strategy o (w.freeFor o) w.now (w.baseCash o) w.quotes r.2 := by
  induction h with
  | begins => exact (holds_begin ho).2
  | resumes _ hs ih => exact (holds_resume hs ih).2.1

theorem spares_alone (times : Nat → Int) {p : Progress Valuation Float}
    (hs : w.watcher.strategy = s) (h : Holds s o free start cash replies p) (n : Nat) :
    World.Spares o.useLocalBalances w (alone resume times n (w, p)).1 := by
  induction n generalizing times w p with
  | zero => cases p <;> exact .of_reports (.refl w)
  | succ n ih =>
    cases p with
    | done | crashed => exact .of_reports (.refl w)
    | blocked v =>
      obtain ⟨hreports, hholds, -⟩ := holds_resume (w := w.at_ (times 0)) hs h
      have hlater : World.Spares o.useLocalBalances w (w.at_ (times 0)) :=
        ⟨rfl, ⟨_, _, rfl⟩, fun _ => rfl, fun _ => rfl⟩
      have hturn := hlater.trans (.of_reports hreports)
      exact hturn.trans (ih _ (hturn.strategy.trans hs) hholds)

/-- A valuation that is the only task is done when the last reply is there. -/
theorem ends_of_holds {times : Nat → Int} {p : Progress Valuation Float}
    (hs : w.watcher.strategy = s) (h : Holds s o free start cash replies p)
    (hsound : ∀ reply ∈ replies, reply.Sound) (ht : Turns w.now times) :
    Ends resume times (w, p) fun _ x =>
      x = total cash (s.terms o.useLocalBalances free (replies.map (·.outcome.answer?))) := by
  obtain ⟨v, rfl⟩ | rfl := h.blocked_or_done hsound
  swap
  · exact .done rfl
  let dues := replies.map fun reply => (⟨0, .time (start + reply.latency)⟩ : Delay)
  let I (w : World (Metered ε)) (v : Valuation) : Prop :=
    w.watcher.strategy = s ∧ Holds s o free start cash replies (.blocked v)
  have hI : I w v := ⟨hs, h⟩
  refine Ends.of_rank (fun _ => 0) (fun _ => Delay.last dues) (fun w v t hI => ?_) hI ht
  obtain ⟨⟨journal, hreports⟩, hholds, hover⟩ := holds_resume (w := w.at_ t) hI.1 hI.2
  rw [← Prod.eta (v.resume _), hreports]
  obtain ⟨v', hv'⟩ | hdone := hholds.blocked_or_done hsound
  · rw [hv'] at hholds ⊢
    refine .inr ⟨_, v', rfl, ⟨hI.1, hholds⟩, rfl, .inr ⟨rfl, rfl, ?_⟩⟩
    by_contra hlate
    refine hover (fun reply hreply => ?_) v' hv'
    exact Int.le_trans (Delay.le_last (List.mem_map_of_mem hreply) rfl) (Int.not_lt.1 hlate)
  · exact .inl ⟨_, _, by rw [hdone], rfl⟩

end

/-- A valuation that waits for no balance, with an exchange that may answer anything. The total is
the cash and what each asset contributes at the outcome of its own price request, added in the order
of the assets, whatever the replies take and whatever the other tasks do between its turns. The
outcome of one request tells on the term of its own asset only. No turn asks for a balance: the
first one leaves the data as it was, and by the books the whole watcher, and the later ones only
report. The valuation is done at its first turn at which all replies are there, if none is a
fault. -/
theorem total_in_order (w : World (Metered ε)) (o : ValuationOptions) (ho : o.AtOnce w.watcher) :
    let s := w.watcher.strategy
    let terms := s.terms o.useLocalBalances (w.freeFor o)
    let prices := w.quotes.map (·.outcome.answer?)
    prices.length = s.assets.length ∧
      (∀ i a price, s.assets[i]? = some a → terms (prices.set i price) =
        (terms prices).set i (s.term o.useLocalBalances (w.freeFor o) a price)) ∧
      World.Spares o.useLocalBalances w (begin w o).1 ∧
      (∀ (w' : World (Metered ε)) p, Begun w o (w', p) →
        (∀ x, p = .done x → x = total (w.baseCash o) (terms prices)) ∧
        (p = .crashed → ∃ reply ∈ w.quotes, ¬ reply.Sound) ∧
        ∀ (v : Valuation) (w'' : World (Metered ε)), p = .blocked v →
          w''.watcher.strategy = s → w''.Reports (v.resume w'').1 ∧
            ((∀ reply ∈ w.quotes, w.now + reply.latency ≤ w''.now) →
              ∀ v', (v.resume w'').2 ≠ .blocked v')) ∧
      ∀ times, Turns w.now times → (∀ reply ∈ w.quotes, reply.Sound) →
        Ends resume times (begin w o) fun w' x =>
          x = total (w.baseCash o) (terms prices) ∧ World.Spares o.useLocalBalances w w' := by
  intro s terms prices
  obtain ⟨hspares, hholds⟩ := holds_begin ho
  refine ⟨?_, fun i a price ha => Strategy.terms_set _ _ _ ha price, hspares,
    fun w' p hbegun => ?_, fun times ht hsound => ?_⟩
  · rw [List.length_map, World.quotes, Exchange.length_quotes, List.length_map]
  · have h := hbegun.holds ho
    refine ⟨?_, ?_, ?_⟩
    · rintro x rfl
      exact h
    · rintro rfl
      exact h
    · rintro v w'' rfl hs
      obtain ⟨hreports, -, hover⟩ := holds_resume hs h
      exact ⟨hreports, hover⟩
  · have hnow : (begin w o).1.now = w.now := Reads.now (leads_begin w o)
    obtain ⟨n, w', x, hn, hx⟩ := ends_of_holds hspares.strategy hholds hsound (hnow ▸ ht)
    refine ⟨n, w', x, hn, hx, ?_⟩
    have hstays := hspares.trans (spares_alone times hspares.strategy hholds n)
    rw [← Prod.eta (begin w o)] at hn
    rwa [hn] at hstays

/-- Of two assets, valued by balances that were fetched, the first one's price comes last and the
second one's fails. -/
theorem total_in_order_scripted :
    let amount (n : Int) : Json.Value := .object [("free", .number (.int n))]
    let exchange : Metered ScriptedExchange :=
      ⟨ScriptedExchange.new "sim" [⟨.ok (.object [("USDT", amount 10), ("BTC", amount 3)]), 0⟩]
        [("BTC/USDT", ⟨.ok 2.0, 5⟩), ("ETH/USDT", ⟨.error (.connection "down"), 1⟩)], []⟩
    let assets : List Asset := [⟨"BTC/USDT", "BTC", "USDT", 0.0, .flat 1.0, .flat 1.0⟩,
      ⟨"ETH/USDT", "ETH", "USDT", 0.0, .flat 1.0, .flat 1.0⟩]
    let strategy := { Strategy.new "spot" "sim" "USDT" ⟨5⟩ with assets }
    let w := ((Calls.new 0 exchange (.new strategy .zero 4)).run [.enter []]).world
    let o : ValuationOptions := .default
    o.AtOnce w.watcher ∧ Ends resume (fun i => (i : Int)) (begin w o) fun w' x =>
      x = 16.0 ∧ World.Spares false w w' := by
  intro amount exchange assets strategy w o
  have hatOnce : o.AtOnce w.watcher := .inr ⟨rfl, rfl, rfl⟩
  have hturns : Turns w.now fun i => (i : Int) :=
    ⟨by decide, fun i => by omega, fun t => ⟨t.toNat, by omega⟩⟩
  have hsound : ∀ reply ∈ w.quotes, reply.Sound :=
    Exchange.sound_quotes (Metered.faultless ScriptedExchange.faultless) _ _ _
  obtain ⟨-, -, -, -, hends⟩ := total_in_order w o hatOnce
  refine ⟨hatOnce, (hends _ hturns hsound).mono ?_⟩
  rintro w' x ⟨rfl, hspares⟩
  exact ⟨by decide +kernel, hspares⟩

end Valuation

end Portfolio
