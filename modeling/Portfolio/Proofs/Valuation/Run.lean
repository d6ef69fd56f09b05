import Portfolio.Proofs.Calls.Later
import Portfolio.Proofs.Calls.Readers

/-! # What a valuation adds up

A valuation gets its turns in whatever worlds the other tasks have left (`Valuation.Run`). It looks
at the world once for the cash and once for each asset, whose free balance and price it takes there.
What it returns is the sum of what it saw (`Valuation.Run.adds`): the cash, and for each asset its
contribution in the world in which its price was asked for, in the order of the assets. -/

namespace Portfolio

variable {ε : Type}

/-- The answer of a request that did not fail. -/
def Outcome.answer? {α : Type} : Outcome α → Option α
  | .answer a => some a
  | .failure _ | .crash _ => none

/-- The world in which a task came to its end. -/
def Progress.doneIn? {ω σ α : Type} : ω × Progress σ α → Option ω
  | (w, .done _) => some w
  | _ => none

/-- The result of a task that came to its end. -/
def Progress.result? {σ α : Type} : Progress σ α → Option α
  | .done a => some a
  | .blocked _ | .crashed => none

theorem Progress.exists_eq_of_result? {ω σ α : Type} {r : ω × Progress σ α} {a : α}
    (h : r.2.result? = some a) : ∃ w, r = (w, .done a) := by
  obtain ⟨w, p⟩ := r
  cases p with
  | done b =>
    obtain rfl := Option.some_inj.1 h
    exact ⟨w, rfl⟩
  | blocked | crashed => cases h

/-- The free balance of a currency that the watcher shows. -/
def World.free (w : World ε) (currency : String) : Float :=
  Reading.amount (w.watcher.read (some currency)) .free

section
variable [Exchange ε]

/-- The price of a pair, asked for now. -/
def World.price? (w : World ε) (pair : String) : Option Float :=
  (Exchange.fetchPrice w.exchange w.now pair).2.outcome.answer?

/-- What an asset contributes as the world is. -/
def Asset.worth (a : Asset) (w : World ε) (o : ValuationOptions) : Float :=
  a.contribution w.watcher.strategy.margin o.useLocalBalances w.watcher.strategy.maxFeeRate
    (w.free a.base) (w.price? a.pair)

end

/-! ## Live reads -/

namespace LiveRead

/-- The read serves what the watcher shows at its end. -/
def Serves (q : LiveQuery) : World ε × Progress LiveRead (Option Reading) → Prop
  | (w, .done served) => served = w.watcher.read q.currency
  | (_, .blocked l) => l.query = q
  | (_, .crashed) => True

variable {q : LiveQuery}

theorem Serves.andThen {σ α : Type} {r : World ε × Progress σ α} {wrap : σ → LiveRead}
    {next : World ε → α → World ε × Progress LiveRead (Option Reading)}
    (hwrap : ∀ s, (wrap s).query = q) (hnext : ∀ w a, Serves q (next w a)) :
    Serves q (Progress.andThen r wrap next) := by
  obtain ⟨w, p⟩ := r
  cases p with
  | blocked s => exact hwrap s
  | done a => exact hnext w a
  | crashed => trivial

theorem serves_serve (w : World ε) (q : LiveQuery) : Serves q (serve w q) := by
  unfold serve
  dsimp only
  split <;> rfl

variable [Exchange ε]

theorem serves_afterWait (r : World ε × Progress FreshWait Bool) : Serves q (afterWait q r) := by
  refine .andThen (fun _ => rfl) fun w fresh => ?_
  split
  · exact serves_serve w q
  · exact .andThen (fun _ => rfl) fun w _ => serves_serve w q

theorem serves_secondStage (w : World ε) (q : LiveQuery) : Serves q (secondStage w q) := by
  unfold secondStage
  split
  · exact serves_afterWait _
  · exact serves_serve w q

theorem serves_begin (w : World ε) (q : LiveQuery) : Serves q (begin w q) := by
  unfold begin
  dsimp only
  split
  · exact .andThen (fun _ => rfl) fun w _ => serves_secondStage w q
  · exact serves_secondStage _ q

theorem serves_resume (w : World ε) (l : LiveRead) : Serves l.query (l.resume w) := by
  cases l with
  | refreshing q r => exact .andThen (fun _ => rfl) fun w _ => serves_secondStage w q
  | waiting q f => exact serves_afterWait _
  | retrying q r => exact .andThen (fun _ => rfl) fun w _ => serves_serve w q

end LiveRead

/-! ## Settings -/

section
variable [Exchange ε] {w w' : World ε} {cs cs' : List Call}

/-- Whoever reads balances leaves the settings alone. -/
theorem Leads.strategy {ok : Calls.Move ε → Prop} (h : Leads ok w cs w' cs') :
    w'.watcher.strategy = w.watcher.strategy := by
  obtain ⟨s, rfl, -, ms, -, rfl, -⟩ := h.exists_run
  exact (Calls.later_run s ms).strategy

end

/-! ## Shares -/

namespace Share

/-- The state of the work after a turn, if no fault ended it. -/
def stateAfter? : Progress ShareState Float → Option ShareState
  | .blocked state => some state
  | .done value => some (.finished value)
  | .crashed => none

variable [Exchange ε]

/-- The world in which a turn of the work asks for the price, if it does. -/
def look? (w : World ε) (o : ValuationOptions) (s : Share) : Option (World ε) :=
  match s.state with
  | .fresh =>
    if w.watcher.strategy.margin || o.useLocalBalances then some w
    else Progress.doneIn? (LiveRead.begin w ⟨some s.asset.base, o.live⟩)
  | .reading l => Progress.doneIn? (l.resume w)
  | .pricing .. | .finished _ => none

/-- The worlds in which the turns of the work on every asset ask for prices. -/
def looks (o : ValuationOptions) : World ε → List Share → List (World ε)
  | _, [] => []
  | w, s :: rest => (s.look? w o).toList ++ looks o (s.resume w o).1 rest

/-- The contribution is that of the asset in one of some worlds in which the settings are those of
the strategy. -/
def IsWorth (s : Strategy) (o : ValuationOptions) (seen : List (World ε)) (a : Asset)
    (value : Float) : Prop :=
  ∃ w ∈ seen, w.watcher.strategy = s ∧ value = a.worth w o

/-- What the state of the work says about what was seen: the price was asked for in one of the
worlds, once the free balance was there. -/
def Tells (s : Strategy) (o : ValuationOptions) (seen : List (World ε)) (a : Asset) :
    ShareState → Prop
  | .fresh => True
  | .reading l => o.useLocalBalances = false ∧ l.query = ⟨some a.base, o.live⟩
  | .pricing free _ reply => IsWorth s o seen a
      (a.contribution s.margin o.useLocalBalances s.maxFeeRate free reply.outcome.answer?)
  | .finished value => IsWorth s o seen a value

section
variable {s : Strategy} {o : ValuationOptions} {seen seen' : List (World ε)} {a : Asset}

theorem IsWorth.mono {value : Float} (h : IsWorth s o seen a value) (hsub : seen ⊆ seen') :
    IsWorth s o seen' a value := by
  obtain ⟨w, hw, hs⟩ := h
  exact ⟨w, hsub hw, hs⟩

theorem Tells.mono {state : ShareState} (h : Tells s o seen a state) (hsub : seen ⊆ seen') :
    Tells s o seen' a state := by
  cases state with
  | fresh | reading => exact h
  | pricing | finished => exact IsWorth.mono h hsub

variable {w : World ε}

omit [Exchange ε] in
/-- Where the free balance does not count it does not matter. -/
theorem contribution_congr {margin useLocal : Bool} (h : (margin || useLocal) = true)
    (maxFeeRate free free' : Float) (price : Option Float) :
    a.contribution margin useLocal maxFeeRate free price =
      a.contribution margin useLocal maxFeeRate free' price := by
  cases margin <;> cases useLocal <;> first | rfl | cases h

theorem tells_close {free : Float} {reply : Reply Float} (hs : w.watcher.strategy = s)
    (h : IsWorth s o seen a
      (a.contribution s.margin o.useLocalBalances s.maxFeeRate free reply.outcome.answer?)) :
    ∀ state ∈ stateAfter? (close w o a free reply).2, Tells s o seen a state := by
  subst hs
  unfold close
  dsimp only
  intro state hstate
  cases hreply : reply.outcome with
  | answer | failure =>
    rw [hreply] at hstate h
    cases hstate
    exact h
  | crash =>
    rw [hreply] at hstate
    cases hstate

/-- The price is asked for in a world with the free balance at hand. -/
theorem tells_ask {free : Float} (hs : w.watcher.strategy = s)
    (hfree : ∀ price, a.contribution s.margin o.useLocalBalances s.maxFeeRate free price =
      a.contribution s.margin o.useLocalBalances s.maxFeeRate (w.free a.base) price) :
    ∀ state ∈ stateAfter? (ask w o a free).2, Tells s o [w] a state := by
  have hworth : IsWorth s o [w] a (a.contribution s.margin o.useLocalBalances s.maxFeeRate free
      (w.price? a.pair)) := by
    refine ⟨w, .head _, hs, ?_⟩
    rw [hfree, Asset.worth, hs]
  unfold ask
  dsimp only
  split
  · exact tells_close hs hworth
  · rintro state ⟨⟩
    exact hworth

theorem tells_afterRead {r : World ε × Progress LiveRead (Option Reading)}
    (hs : r.1.watcher.strategy = s) (hlocal : o.useLocalBalances = false)
    (h : LiveRead.Serves ⟨some a.base, o.live⟩ r) :
    ∀ state ∈ stateAfter? (afterRead o a r).2,
      Tells s o (Progress.doneIn? r).toList a state := by
  obtain ⟨w, p⟩ := r
  cases p with
  | blocked l =>
    rintro state ⟨⟩
    exact ⟨hlocal, h⟩
  | done served =>
    refine tells_ask hs fun price => ?_
    rw [World.free, ← show served = w.watcher.read (some a.base) from h]
  | crashed => rintro state ⟨⟩

/-- A turn of the work on an asset. -/
theorem tells_resume (share : Share) (hs : w.watcher.strategy = s)
    (h : Tells s o seen share.asset share.state) :
    ∀ state ∈ stateAfter? (share.resume w o).2,
      Tells s o (seen ++ (share.look? w o).toList) share.asset state := by
  obtain ⟨a, state⟩ := share
  intro state' hstate'
  cases state with
  | fresh =>
    simp only [resume, look?] at hstate' ⊢
    split at hstate'
    · next hlocal =>
      refine (tells_ask hs (fun price => ?_) _ hstate').mono ?_
      · exact contribution_congr (hs ▸ hlocal) ..
      · rw [if_pos hlocal]
        exact List.subset_append_right ..
    · next hlocal =>
      rw [if_neg hlocal]
      have hread := LiveRead.leads_begin w ⟨some a.base, o.live⟩
      have hbooks : o.useLocalBalances = false := by
        simp only [Bool.or_eq_true, not_or, Bool.not_eq_true] at hlocal
        exact hlocal.2
      exact (tells_afterRead (hread.strategy.trans hs) hbooks (LiveRead.serves_begin ..) _
        hstate').mono (List.subset_append_right ..)
  | reading l =>
    obtain ⟨hbooks, hquery⟩ := h
    have hserves := LiveRead.serves_resume w l
    rw [hquery] at hserves
    exact (tells_afterRead ((LiveRead.leads_resume w l).strategy.trans hs) hbooks hserves _
      hstate').mono (List.subset_append_right ..)
  | pricing free due reply =>
    simp only [resume] at hstate'
    split at hstate'
    · exact (tells_close hs h _ hstate').mono (List.subset_append_left ..)
    · cases hstate'
      exact IsWorth.mono h (List.subset_append_left ..)
  | finished value =>
    cases hstate'
    exact IsWorth.mono h (List.subset_append_left ..)

/-- The turns of the work on every asset; the induction is on the assets, each going on in the world
that the one before it left. -/
theorem tells_resumeAll {shares : List Share} (hs : w.watcher.strategy = s)
    (h : ∀ share ∈ shares, Tells s o seen share.asset share.state) :
    ∀ shares' ∈ (resumeAll o w shares).2, shares'.map asset = shares.map asset ∧
      ∀ share ∈ shares', Tells s o (seen ++ looks o w shares) share.asset share.state := by
  induction shares generalizing w seen with
  | nil =>
    rintro shares' ⟨⟩
    exact ⟨rfl, fun _ hmem => absurd hmem List.not_mem_nil⟩
  | cons share rest ih =>
    have hturn := tells_resume share hs (h share (.head _))
    have hother : ∀ other ∈ rest,
        Tells s o (seen ++ (share.look? w o).toList) other.asset other.state :=
      fun other hmem => Tells.mono (h other (.tail _ hmem)) (List.subset_append_left ..)
    have hrest := ih ((leads_resume w o share).strategy.trans hs) hother
    rw [List.append_assoc] at hrest
    simp only [resumeAll, looks]
    generalize share.resume w o = r at hturn hrest ⊢
    obtain ⟨w', p⟩ := r
    -- the state of the first one after its turn, beside the others after theirs
    have hcons {state : ShareState} (hstate : state ∈ stateAfter? p) {others : List Share}
        (hothers : others ∈ (resumeAll o w' rest).2) :
        (⟨share.asset, state⟩ :: others).map asset = (share :: rest).map asset ∧
          ∀ other ∈ (⟨share.asset, state⟩ :: others : List Share),
            Tells s o (seen ++ ((share.look? w o).toList ++ looks o w' rest)) other.asset
              other.state := by
      obtain ⟨hassets, htell⟩ := hrest others hothers
      refine ⟨by rw [List.map_cons, List.map_cons, hassets], fun other hother => ?_⟩
      obtain rfl | hother := List.mem_cons.1 hother
      · rw [← List.append_assoc]
        exact Tells.mono (hturn state hstate) (List.subset_append_left ..)
      · exact htell other hother
    cases p with
    | crashed => rintro shares' ⟨⟩
    | blocked state =>
      dsimp only
      generalize hr : resumeAll o w' rest = r at hcons
      obtain ⟨w'', _ | others⟩ := r
      · rintro shares' ⟨⟩
      · rintro shares' ⟨⟩
        exact hcons rfl rfl
    | done value =>
      dsimp only
      generalize hr : resumeAll o w' rest = r at hcons
      obtain ⟨w'', _ | others⟩ := r
      · rintro shares' ⟨⟩
      · rintro shares' ⟨⟩
        exact hcons rfl rfl

omit [Exchange ε] in
/-- The contributions are all worked out if the work on every asset is finished. -/
theorem eq_finished_of_values {shares : List Share} {values : List (Asset × Float)}
    (h : shares.mapM (fun share => share.value?.map (share.asset, ·)) = some values) :
    shares = values.map fun v => ⟨v.1, .finished v.2⟩ := by
  induction shares generalizing values with
  | nil =>
    obtain rfl : [] = values := Option.some_inj.1 h
    rfl
  | cons share rest ih =>
    obtain ⟨a, state⟩ := share
    simp only [List.mapM_cons, Option.bind_eq_bind, Option.bind_eq_some_iff,
      Option.map_eq_some_iff] at h
    obtain ⟨_, ⟨value, hvalue, rfl⟩, others, hothers, heq⟩ := h
    cases heq
    rw [List.map_cons, ← ih hothers]
    cases state with
    | finished => cases hvalue; rfl
    | fresh | reading | pricing => cases hvalue

/-- The contributions that are worked out are those of the assets in worlds that were seen. -/
theorem worlds_of_values {values : List (Asset × Float)}
    (h : ∀ v ∈ values, IsWorth s o seen v.1 v.2) :
    ∃ worlds : List (World ε), worlds.length = values.length ∧
      (∀ w ∈ worlds, w ∈ seen ∧ w.watcher.strategy = s) ∧
      values.map (·.2) = List.zipWith (fun a w => a.worth w o) (values.map (·.1)) worlds := by
  induction values with
  | nil => exact ⟨[], rfl, fun _ hw => absurd hw List.not_mem_nil, rfl⟩
  | cons v rest ih =>
    obtain ⟨worlds, hlength, hworlds, hrest⟩ := ih fun u hu => h u (.tail _ hu)
    obtain ⟨w, hw, hstrategy, hvalue⟩ := h v (.head _)
    refine ⟨w :: worlds, by rw [List.length_cons, hlength, List.length_cons], ?_, ?_⟩
    · exact List.forall_mem_cons.2 ⟨⟨hw, hstrategy⟩, hworlds⟩
    · rw [List.map_cons, hrest, hvalue]
      rfl

end

end Share

/-! ## Valuations -/

namespace Valuation

/-- Cash that is not finite counts as zero. -/
def settled (cash : Float) : Float :=
  if Binary64.isFinite cash then cash else 0.0

variable [Exchange ε]

/-- The worlds at which the contributions look once the cash is there. -/
def looksAfterCash (w : World ε) (o : ValuationOptions) (cash : Float) : List (World ε) :=
  let s := w.watcher.strategy
  Share.looks o (if Binary64.isFinite cash then w else w.log (cashEvent s cash))
    (s.assets.map (⟨·, .fresh⟩))

/-- The worlds at which a valuation looks that waited for its cash. -/
def looksAfterRead (o : ValuationOptions) :
    World ε × Progress LiveRead (Option Reading) → List (World ε)
  | (w, .done served) => w :: looksAfterCash w o (Reading.amount served .free)
  | _ => []

/-- The worlds at which a valuation looks that begins. -/
def looksAtFirst (w : World ε) (o : ValuationOptions) : List (World ε) :=
  let cash := w.watcher.strategy.cash
  if o.useLocalBalances then looksAfterCash w o cash.value
  else looksAfterRead o (LiveRead.begin w ⟨some cash.currency, o.live⟩)

/-- The worlds at which a valuation looks in a turn. -/
def looks (w : World ε) : Valuation → List (World ε)
  | .cashing o l => looksAfterRead o (l.resume w)
  | .summing o _ shares => Share.looks o w shares

/-- A valuation of a strategy: it begins, and at each of its turns it goes on in whatever world the
other tasks have left. The worlds are those at which it has looked. -/
inductive Run (s : Strategy) (o : ValuationOptions) :
    List (World ε) → World ε × Progress Valuation Float → Prop
  | begins {w : World ε} (hs : w.watcher.strategy = s) : Run s o (looksAtFirst w o) (begin w o)
  | resumes {seen : List (World ε)} {w w' : World ε} {v : Valuation}
      (h : Run s o seen (w, .blocked v)) (hs : w'.watcher.strategy = s) :
      Run s o (seen ++ v.looks w') (v.resume w')

omit [Exchange ε] in
/-- The cash is the strategy's own, or its free balance in one of some worlds. -/
def IsCash (s : Strategy) (o : ValuationOptions) (seen : List (World ε)) (cash : Float) : Prop :=
  if o.useLocalBalances then cash = settled s.cash.value
  else ∃ w ∈ seen, w.watcher.strategy = s ∧ cash = settled (w.free s.cash.currency)

/-- The total of the cash and of every asset's contribution, each as one of some worlds shows it. -/
structure Adds (s : Strategy) (o : ValuationOptions) (seen : List (World ε)) (x cash : Float)
    (worlds : List (World ε)) : Prop where
  isCash : IsCash s o seen cash
  length : worlds.length = s.assets.length
  mem : ∀ w ∈ worlds, w ∈ seen ∧ w.watcher.strategy = s
  total : x = total cash (List.zipWith (fun a w => a.worth w o) s.assets worlds)

/-- What a valuation says about what was seen, while it waits and at its end. -/
def Tells (s : Strategy) (o : ValuationOptions) (seen : List (World ε)) :
    Progress Valuation Float → Prop
  | .blocked (.cashing o' l) =>
    o' = o ∧ o.useLocalBalances = false ∧ l.query = ⟨some s.cash.currency, o.live⟩
  | .blocked (.summing o' cash shares) => o' = o ∧ IsCash s o seen cash ∧
    shares.map Share.asset = s.assets ∧
      ∀ share ∈ shares, Share.Tells s o seen share.asset share.state
  | .done x => ∃ cash worlds, Adds s o seen x cash worlds
  | .crashed => True

section
variable {s : Strategy} {o : ValuationOptions} {seen seen' : List (World ε)} {w : World ε}

omit [Exchange ε] in
theorem IsCash.mono {cash : Float} (h : IsCash s o seen cash) (hsub : seen ⊆ seen') :
    IsCash s o seen' cash := by
  unfold IsCash at h ⊢
  split
  · next hlocal => rwa [if_pos hlocal] at h
  · next hlocal =>
    rw [if_neg hlocal] at h
    obtain ⟨w, hw, hcash⟩ := h
    exact ⟨w, hsub hw, hcash⟩

theorem tells_sum {cash : Float} {shares : List Share} (hs : w.watcher.strategy = s)
    (hcash : IsCash s o seen cash) (hassets : shares.map Share.asset = s.assets)
    (h : ∀ share ∈ shares, Share.Tells s o seen share.asset share.state) :
    Tells s o (seen ++ Share.looks o w shares) (sum w o cash shares).2 := by
  have hall := Share.tells_resumeAll hs h
  have hcash' := hcash.mono (List.subset_append_left seen (Share.looks o w shares))
  unfold sum
  generalize Share.resumeAll o w shares = r at hall
  obtain ⟨w', _ | shares'⟩ := r
  · trivial
  · obtain ⟨hsame, htell⟩ := hall shares' rfl
    dsimp only
    split
    · next values hvalues =>
      obtain rfl := Share.eq_finished_of_values hvalues
      obtain ⟨worlds, hlength, hworlds, hsum⟩ := Share.worlds_of_values fun v hv =>
        htell _ (List.mem_map_of_mem hv)
      have hnames : values.map (·.1) = s.assets := by
        rw [← hassets, ← hsame, List.map_map]
        rfl
      refine ⟨cash, worlds, hcash', ?_, hworlds, ?_⟩
      · rw [hlength, ← hnames, List.length_map]
      · rw [close, hsum, hnames]
    · exact ⟨rfl, hcash', hsame.trans hassets, htell⟩

theorem tells_afterCash {cash : Float} (hs : w.watcher.strategy = s)
    (hcash : IsCash s o seen (settled cash)) :
    Tells s o (seen ++ looksAfterCash w o cash) (afterCash w o cash).2 := by
  have hassets : (w.watcher.strategy.assets.map (⟨·, .fresh⟩ : Asset → Share)).map Share.asset =
      s.assets := by rw [List.map_map, hs]; exact List.map_id _
  have hfresh : ∀ share ∈ w.watcher.strategy.assets.map (⟨·, .fresh⟩ : Asset → Share),
      Share.Tells s o seen share.asset share.state := by
    intro share hshare
    obtain ⟨a, -, rfl⟩ := List.mem_map.1 hshare
    trivial
  unfold afterCash looksAfterCash
  unfold settled at hcash
  dsimp only
  split
  · next hfinite =>
    rw [if_pos hfinite] at hcash
    exact tells_sum hs hcash hassets hfresh
  · next hfinite =>
    rw [if_neg hfinite] at hcash
    exact tells_sum hs hcash hassets hfresh

theorem tells_afterRead {r : World ε × Progress LiveRead (Option Reading)}
    (hs : r.1.watcher.strategy = s) (hlocal : o.useLocalBalances = false)
    (h : LiveRead.Serves ⟨some s.cash.currency, o.live⟩ r) :
    Tells s o (seen ++ looksAfterRead o r) (afterRead o r).2 := by
  obtain ⟨w, p⟩ := r
  cases p with
  | blocked l => exact ⟨rfl, hlocal, h⟩
  | done served =>
    have hcash : IsCash s o (seen ++ [w]) (settled (Reading.amount served .free)) := by
      rw [IsCash, hlocal, if_neg Bool.false_ne_true]
      refine ⟨w, List.mem_append_right _ (.head _), hs, ?_⟩
      rw [World.free, ← show served = w.watcher.read (some s.cash.currency) from h]
    have htell := tells_afterCash hs hcash
    rwa [List.append_assoc] at htell
  | crashed => trivial

theorem tells_begin (hs : w.watcher.strategy = s) :
    Tells s o (looksAtFirst w o) (begin w o).2 := by
  unfold begin looksAtFirst
  dsimp only
  split
  · next hlocal =>
    have hcash : IsCash s o ([] : List (World ε)) (settled w.watcher.strategy.cash.value) := by
      rw [IsCash, if_pos hlocal, hs]
    exact tells_afterCash hs hcash
  · next hlocal =>
    have hread := LiveRead.leads_begin w ⟨some w.watcher.strategy.cash.currency, o.live⟩
    have hserves : LiveRead.Serves ⟨some s.cash.currency, o.live⟩
        (LiveRead.begin w ⟨some w.watcher.strategy.cash.currency, o.live⟩) := by
      rw [← hs]
      exact LiveRead.serves_begin ..
    have htell : Tells s o ([] ++ _) _ :=
      tells_afterRead (hread.strategy.trans hs) (by simpa using hlocal) hserves
    exact htell

theorem tells_resume {v : Valuation} (hs : w.watcher.strategy = s)
    (h : Tells s o seen (.blocked v)) : Tells s o (seen ++ v.looks w) (v.resume w).2 := by
  cases v with
  | cashing o' l =>
    obtain ⟨rfl, hlocal, hquery⟩ := h
    have hserves := LiveRead.serves_resume w l
    rw [hquery] at hserves
    exact tells_afterRead ((LiveRead.leads_resume w l).strategy.trans hs) hlocal hserves
  | summing o' cash shares =>
    obtain ⟨rfl, hcash, hassets, htell⟩ := h
    exact tells_sum hs hcash hassets htell

/-- Whatever a valuation looks at, what it returns is the total of what it saw. -/
theorem Run.tells {r : World ε × Progress Valuation Float} (h : Run s o seen r) :
    Tells s o seen r.2 := by
  induction h with
  | begins hs => exact tells_begin hs
  | resumes _ hs ih => exact tells_resume hs ih

theorem Run.adds {x : Float} (h : Run s o seen (w, .done x)) :
    ∃ cash worlds, Adds s o seen x cash worlds :=
  h.tells

end

end Valuation

end Portfolio
