import Portfolio.Proofs.Alone.Delay
import Portfolio.Proofs.Alone.Run
import Portfolio.Proofs.Valuation.Run

/-! # A valuation comes to an end

The only task of a watcher whose lock is free, a valuation comes to an end with a total, whatever
its mode and whatever its reads insist on, unless they wait for longer than the clock can tell
(`Valuation.ends_begin`). Its parts have a number of stages before them together, which no turn
raises. A turn that does not lower it leaves every part where it was (`Stuck`); then one of the
parts waits for a time, for else all of them would wait for a lock that nobody holds. So the number
is lower once the last of these times has come. -/

namespace Portfolio

open Staged

variable {ε : Type}

/-- The stages before all parts of a task. -/
def Delay.total : List Delay → Nat
  | [] => 0
  | d :: ds => d.stages + total ds

theorem Delay.total_cons (d : Delay) (ds : List Delay) :
    total (d :: ds) = d.stages + total ds :=
  rfl

theorem Delay.exists_stages_pos {ds : List Delay} (h : 0 < total ds) : ∃ d ∈ ds, 0 < d.stages := by
  induction ds with
  | nil => cases h
  | cons d ds ih =>
    by_cases hd : 0 < d.stages
    · exact ⟨d, .head _, hd⟩
    · obtain ⟨d', hd', hpos⟩ := ih (by rw [total_cons] at h; omega)
      exact ⟨d', .tail _ hd', hpos⟩

/-- The last of the times that the parts wait for. -/
def Delay.last : List Delay → Int
  | [] => 0
  | d :: ds => max d.due (last ds)

theorem Delay.due_le_last {d : Delay} {ds : List Delay} (h : d ∈ ds) : d.due ≤ last ds := by
  induction h with
  | head => exact Int.le_max_left ..
  | tail _ _ ih => exact Int.le_trans ih (Int.le_max_right ..)

theorem Delay.le_last {d : Delay} {ds : List Delay} (h : d ∈ ds) {t : Int}
    (ht : d.awaited = .time t) : t ≤ last ds := by
  have hdue := due_le_last h
  rwa [due, ht] at hdue

/-- The parts of a task get their turns one after the other, and none gets past a stage. -/
inductive Stuck : World ε → List Delay → World ε → Prop
  | nil (w : World ε) : Stuck w [] w
  /-- A part that is over. -/
  | gone {w w' : World ε} {ds : List Delay} (h : Stuck w ds w') : Stuck w (⟨0, .nothing⟩ :: ds) w'
  | waits {w w₁ w' : World ε} {d : Delay} {ds : List Delay} (hearly : d.awaited.isThere w = false)
      (hsame : ∀ ticket, d.awaited = .turn ticket → w₁ = w) (hnow : w₁.now = w.now)
      (h : Stuck w₁ ds w') : Stuck w (d :: ds) w'

/-- The parts that wait for the lock have the tickets of the calls, but for parts that wait for a
time. -/
structure Delay.Accounts (ds : List Delay) (cs : List Call) : Prop where
  queued : ∀ d ∈ ds, ∀ ticket, d.awaited = .turn ticket → ∃ c ∈ cs, c.ticket? = some ticket
  drawn : ∀ c ∈ cs, ∀ ticket, c.ticket? = some ticket →
    ∃ d ∈ ds, d.awaited = .turn ticket ∨ ∃ t, d.awaited = .time t

namespace Stuck

variable {w w' : World ε} {ds : List Delay} {d : Delay}

theorem early (h : Stuck w ds w') (hd : d ∈ ds) {t : Int} (ht : d.awaited = .time t) :
    w.now < t := by
  induction h with
  | nil => exact absurd hd List.not_mem_nil
  | gone _ ih =>
    obtain rfl | hd := List.mem_cons.1 hd
    · cases ht
    · exact ih hd
  | waits hearly _ hnow _ ih =>
    obtain rfl | hd := List.mem_cons.1 hd
    · rw [ht] at hearly
      simpa [Awaited.isThere] using hearly
    · exact hnow ▸ ih hd

theorem stages_eq_zero (h : Stuck w ds w') (hd : d ∈ ds) (hn : d.awaited = .nothing) :
    d.stages = 0 := by
  induction h with
  | nil => exact absurd hd List.not_mem_nil
  | gone _ ih =>
    obtain rfl | hd := List.mem_cons.1 hd
    · rfl
    · exact ih hd
  | waits hearly _ _ _ ih =>
    obtain rfl | hd := List.mem_cons.1 hd
    · rw [hn] at hearly
      cases hearly
    · exact ih hd

/-- If no part waits for a time the world stays as it is, so it is nobody's turn in it. -/
theorem not_isTurn (h : Stuck w ds w') (hnone : ∀ d ∈ ds, ∀ t, d.awaited ≠ .time t) (hd : d ∈ ds)
    {ticket : Nat} (ht : d.awaited = .turn ticket) : w.watcher.lock.isTurn ticket = false := by
  induction h with
  | nil => exact absurd hd List.not_mem_nil
  | gone _ ih =>
    obtain rfl | hd := List.mem_cons.1 hd
    · cases ht
    · exact ih (fun d hd => hnone d (.tail _ hd)) hd
  | @waits w w₁ w' first rest hearly hsame _ _ ih =>
    have hfirst : ∃ k, first.awaited = .turn k := by
      cases ha : first.awaited with
      | nothing => rw [ha] at hearly; cases hearly
      | time t => exact absurd ha (hnone first (.head _) t)
      | turn k => exact ⟨k, rfl⟩
    obtain ⟨k, hk⟩ := hfirst
    obtain rfl := hsame k hk
    obtain rfl | hd := List.mem_cons.1 hd
    · rw [ht] at hearly
      exact hearly
    · exact ih (fun d hd => hnone d (.tail _ hd)) hd

/-- A lock that nobody holds is somebody's, so not every part that is left waits for it. -/
theorem exists_time (h : Stuck w ds w') {cs : List Call} (hlock : Exclusive w.watcher cs)
    (ha : Delay.Accounts ds cs) (hleft : 0 < Delay.total ds) :
    ∃ d ∈ ds, ∃ t, d.awaited = .time t := by
  by_contra hnot
  have hnone : ∀ d ∈ ds, ∀ t, d.awaited ≠ .time t := fun d hd t ht => hnot ⟨d, hd, t, ht⟩
  -- a part that is left waits for the lock
  obtain ⟨d, hd, hpos⟩ := Delay.exists_stages_pos hleft
  obtain ⟨ticket, hticket⟩ : ∃ ticket, d.awaited = .turn ticket := by
    cases hw : d.awaited with
    | nothing => exact absurd (h.stages_eq_zero hd hw) (Nat.pos_iff_ne_zero.1 hpos)
    | time t => exact absurd hw (hnone d hd t)
    | turn ticket => exact ⟨ticket, rfl⟩
  obtain ⟨c, hc, hct⟩ := ha.queued d hd ticket hticket
  -- so the queue has a first ticket, which is that of a part
  have hmem : ticket ∈ w.watcher.lock.queue :=
    hlock.queue.mem_iff.2 (List.mem_filterMap.2 ⟨c, hc, hct⟩)
  obtain ⟨first, rest, hqueue⟩ := List.exists_cons_of_ne_nil (List.ne_nil_of_mem hmem)
  obtain ⟨c', hc', hfirst⟩ := hlock.exists_of_mem_queue (t := first) (by rw [hqueue]; exact .head _)
  obtain ⟨d', hd', hturn | ⟨t, ht⟩⟩ := ha.drawn c' hc' first hfirst
  · have hfalse := h.not_isTurn hnone hd' hturn
    rw [FetchLock.isTurn, hqueue] at hfalse
    simp at hfalse
  · exact hnone d' hd' t ht

end Stuck

/-! ## The calls of the parts -/

theorem LiveRead.accounts (l : LiveRead) (n : Nat) :
    Delay.Accounts [(delay l).before n] l.calls := by
  have hrefresh (r : Refresh) (m : Nat) :
      Delay.Accounts [((delay r).before m).before n] r.calls := by
    cases r with
    | joining seen deadline fallback =>
      refine ⟨fun d hd ticket ht => ?_, fun c hc ticket ht => ?_⟩
      · obtain rfl := List.mem_singleton.1 hd
        cases ht
      · obtain rfl := List.mem_singleton.1 hc
        cases ht
    | queueing k fallback =>
      refine ⟨fun d hd ticket ht => ?_, fun c hc ticket ht => ?_⟩
      · obtain rfl := List.mem_singleton.1 hd
        cases ht
        exact ⟨_, .head _, rfl⟩
      · obtain rfl := List.mem_singleton.1 hc
        cases ht
        exact ⟨_, .head _, .inl rfl⟩
    | fetching k started due reply =>
      refine ⟨fun d hd ticket ht => ?_, fun c hc ticket ht => ?_⟩
      · obtain rfl := List.mem_singleton.1 hd
        cases ht
      · exact ⟨_, .head _, .inr ⟨due, rfl⟩⟩
  cases l with
  | refreshing q r => exact hrefresh r 4
  | retrying q r => exact hrefresh r 0
  | waiting q f =>
    refine ⟨fun d hd ticket ht => ?_, fun c hc ticket ht => ?_⟩
    · obtain rfl := List.mem_singleton.1 hd
      cases ht
    · exact ⟨_, .head _, .inr ⟨f.goal.deadline, rfl⟩⟩

namespace Share

/-- The delays of the work on some assets. -/
def delays (shares : List Share) : List Delay :=
  shares.map fun share => delay share.state

theorem accounts (shares : List Share) :
    Delay.Accounts (delays shares) (shares.flatMap Share.calls) := by
  have hshare (share : Share) : Delay.Accounts [delay share.state] share.calls := by
    obtain ⟨a, state⟩ := share
    have hidle {d : Delay} (hd : ∀ ticket, d.awaited ≠ .turn ticket) : Delay.Accounts [d] [] :=
      ⟨fun d' hd' ticket ht => absurd ht (List.mem_singleton.1 hd' ▸ hd ticket),
        fun _ hc => absurd hc List.not_mem_nil⟩
    cases state with
    | reading l => exact l.accounts 1
    | fresh | pricing | finished => exact hidle (by rintro _ ⟨⟩)
  refine ⟨fun d hd ticket ht => ?_, fun c hc ticket ht => ?_⟩
  · obtain ⟨share, hmem, rfl⟩ := List.mem_map.1 hd
    obtain ⟨c, hc, hct⟩ := (hshare share).queued _ (.head _) ticket ht
    exact ⟨c, List.mem_flatMap.2 ⟨share, hmem, hc⟩, hct⟩
  · obtain ⟨share, hmem, hc⟩ := List.mem_flatMap.1 hc
    obtain ⟨d, hd, hawaited⟩ := (hshare share).drawn c hc ticket ht
    obtain rfl := List.mem_singleton.1 hd
    exact ⟨_, List.mem_map.2 ⟨share, hmem, rfl⟩, hawaited⟩

theorem delays_cons (share : Share) (shares : List Share) :
    delays (share :: shares) = delay share.state :: delays shares :=
  rfl

theorem stages_pos {state : ShareState} (h : ∀ value, state ≠ .finished value) :
    0 < (delay state).stages := by
  cases state with
  | fresh | reading | pricing => exact Nat.succ_pos _
  | finished value => exact absurd rfl (h value)

theorem exists_values {shares : List Share} (h : ∀ share ∈ shares, share.value? ≠ none) :
    ∃ values, shares.mapM (fun share => share.value?.map (share.asset, ·)) = some values := by
  induction shares with
  | nil => exact ⟨[], rfl⟩
  | cons share rest ih =>
    obtain ⟨hfirst, hrest⟩ := List.forall_mem_cons.1 h
    obtain ⟨values, hvalues⟩ := ih hrest
    obtain ⟨value, hvalue⟩ := Option.ne_none_iff_exists'.1 hfirst
    exact ⟨(share.asset, value) :: values, by rw [List.mapM_cons, hvalues, hvalue]; rfl⟩

/-- Work that has no stage before it is done. -/
theorem value?_ne_none_of_total {shares : List Share} (h : Delay.total (delays shares) = 0) :
    ∀ share ∈ shares, share.value? ≠ none := by
  induction shares with
  | nil => simp
  | cons share rest ih =>
    rw [delays_cons, Delay.total_cons, Nat.add_eq_zero_iff] at h
    refine List.forall_mem_cons.2 ⟨fun hnone => ?_, ih h.2⟩
    have hpos : 0 < (delay share.state).stages := by
      refine stages_pos fun value hvalue => ?_
      rw [value?, hvalue] at hnone
      cases hnone
    omega

/-- What the state of the work says keeps its read to the terms. -/
theorem Tells.keepsTo [Exchange ε] {s : Strategy} {o : ValuationOptions} {seen : List (World ε)}
    {share : Share} (h : Tells s o seen share.asset share.state) : share.KeepsTo o := by
  intro l hl
  rw [hl] at h
  exact ⟨h.1, by rw [h.2]⟩

theorem total_fresh (assets : List Asset) :
    Delay.total (delays (assets.map (⟨·, .fresh⟩))) = 9 * assets.length := by
  induction assets with
  | nil => rfl
  | cons a rest ih =>
    rw [List.map_cons, delays_cons, Delay.total_cons, ih, List.length_cons,
      show (delay ShareState.fresh).stages = 9 from rfl]
    omega

variable [Exchange ε] (hx : Faultless ε) (o : ValuationOptions)
include hx

/-- A turn of the work on some assets; the induction is on the assets. -/
theorem resumeAll_cases (w : World ε) {shares : List Share}
    (h : ∀ share ∈ shares, sound share.state) (hterms : ∀ share ∈ shares, share.KeepsTo o) :
    (∃ w', resumeAll o w shares = (w', none) ∧ w.OverrunsFor o) ∨
      ∃ w' shares', resumeAll o w shares = (w', some shares') ∧
        (∀ share ∈ shares', sound share.state) ∧
        (Delay.total (delays shares') < Delay.total (delays shares) ∨
          delays shares' = delays shares ∧ Stuck w (delays shares) w') := by
  induction shares generalizing w with
  | nil => exact .inr ⟨w, [], rfl, h, .inr ⟨rfl, .nil w⟩⟩
  | cons share rest ih =>
    have hturn := nears_resume w hx o (h share (.head _)) (hterms share (.head _))
    have hnow := Reads.now (leads_resume w o share)
    have hover : ∀ value, share.state = .finished value → (share.resume w o).1 = w := by
      intro value hvalue
      simp only [resume, hvalue]
    simp only [resumeAll]
    generalize share.resume w o = r at hturn hnow hover
    obtain ⟨w₁, p⟩ := r
    obtain ⟨w', hrest, hlate⟩ | ⟨w', shares', hrest, hsound, hcases⟩ :=
      ih w₁ (fun s hs => h s (.tail _ hs)) fun s hs => hterms s (.tail _ hs)
    · -- a fault in the work on one of the others
      have hlate := (World.overrunsFor_congr hnow o).1 hlate
      cases p with
      | crashed => exact .inl ⟨_, rfl, hlate⟩
      | blocked state =>
        exact .inl ⟨drop w' ⟨share.asset, state⟩, by simp only [hrest], hlate⟩
      | done value => exact .inl ⟨w', by simp only [hrest, Option.map_none], hlate⟩
    have hle : Delay.total (delays shares') ≤ Delay.total (delays rest) := by
      obtain hlt | ⟨heq, -⟩ := hcases
      · exact Nat.le_of_lt hlt
      · exact Nat.le_of_eq (congrArg Delay.total heq)
    have hcons {state : ShareState} (hstate : sound state) :
        ∀ s ∈ (⟨share.asset, state⟩ :: shares' : List Share), sound s.state := by
      rintro s hs
      obtain rfl | hs := List.mem_cons.1 hs
      · exact hstate
      · exact hsound s hs
    have hlower {state : ShareState} (hlt : (delay state).stages < (delay share.state).stages) :
        Delay.total (delays (⟨share.asset, state⟩ :: shares')) <
          Delay.total (delays (share :: rest)) := by
      rw [delays_cons, delays_cons, Delay.total_cons, Delay.total_cons]
      exact Nat.add_lt_add_of_lt_of_le hlt hle
    -- the first one stays where it is, and so may the others
    have hstay {state : ShareState} (heq : delay state = delay share.state)
        (hstuck : Stuck w₁ (delays rest) w' → Stuck w (delay share.state :: delays rest) w') :
        Delay.total (delays (⟨share.asset, state⟩ :: shares')) <
            Delay.total (delays (share :: rest)) ∨
          delays (⟨share.asset, state⟩ :: shares') = delays (share :: rest) ∧
            Stuck w (delays (share :: rest)) w' := by
      rw [delays_cons, delays_cons, Delay.total_cons, Delay.total_cons, heq]
      obtain hlt | ⟨hsame, hrest⟩ := hcases
      · exact .inl (Nat.add_lt_add_left hlt _)
      · exact .inr ⟨by rw [hsame], hstuck hrest⟩
    cases p with
    | crashed => exact .inl ⟨_, rfl, hturn.late_of_crashed⟩
    | blocked state =>
      dsimp only
      rw [hrest]
      refine .inr ⟨w', _, rfl, ?_⟩
      obtain ⟨hstate, hlt⟩ | ⟨_, ⟨⟩, hstate, heq, hearly, hsame⟩ := hturn
      · exact ⟨hcons hstate, .inl (hlower hlt)⟩
      · exact ⟨hcons hstate, hstay heq fun hstuck => .waits hearly hsame hnow hstuck⟩
    | done value =>
      dsimp only
      rw [hrest]
      refine .inr ⟨w', _, rfl, hcons trivial, ?_⟩
      by_cases hfinished : ∃ value, share.state = .finished value
      · obtain ⟨v, hv⟩ := hfinished
        have hzero : delay share.state = ⟨0, .nothing⟩ := by rw [hv]; rfl
        refine hstay hzero.symm fun hstuck => ?_
        obtain rfl : w₁ = w := hover v hv
        rw [hzero]
        exact .gone hstuck
      · exact .inl (hlower (stages_pos fun v hv => hfinished ⟨v, hv⟩))

end Share

/-! ## Valuations -/

namespace Valuation

/-- The delays of the parts of a valuation. The work on the assets comes after the cash. -/
def delays (s : Strategy) : Valuation → List Delay
  | .cashing _ l => [(delay l).before (9 * s.assets.length)]
  | .summing _ _ shares => Share.delays shares

/-- No reply that the valuation waits for is a fault. -/
def Sound : Valuation → Prop
  | .cashing _ l => sound l
  | .summing _ _ shares => ∀ share ∈ shares, sound share.state

theorem accounts (s : Strategy) (v : Valuation) : Delay.Accounts (v.delays s) v.calls := by
  cases v with
  | cashing o l => exact l.accounts _
  | summing o cash shares => exact Share.accounts shares

/-- The valuation is done or has fewer than so many stages before it, or it came to a fault as it
was too late. -/
def Within (late : Prop) (s : Strategy) (n : Nat) : Progress Valuation Float → Prop
  | .blocked v => v.Sound ∧ Delay.total (v.delays s) < n
  | .done _ => True
  | .crashed => late

theorem Within.mono {late : Prop} {s : Strategy} {m n : Nat} {p : Progress Valuation Float}
    (h : Within late s m p) (hle : m ≤ n) : Within late s n p := by
  cases p with
  | blocked v => exact ⟨h.1, Nat.lt_of_lt_of_le h.2 hle⟩
  | done x => trivial
  | crashed => exact h

variable [Exchange ε] (hx : Faultless ε) {s : Strategy} {w : World ε}
include hx

/-- A turn of the work on the assets and the sum after it. -/
theorem sum_cases (o : ValuationOptions) (cash : Float) {shares : List Share}
    (h : ∀ share ∈ shares, sound share.state) (hterms : ∀ share ∈ shares, share.KeepsTo o) :
    Within (w.OverrunsFor o) s (Delay.total (Share.delays shares)) (sum w o cash shares).2 ∨
      ∃ shares', (sum w o cash shares).2 = .blocked (.summing o cash shares') ∧
        (∀ share ∈ shares', sound share.state) ∧
          Share.delays shares' = Share.delays shares ∧ 0 < Delay.total (Share.delays shares) ∧
            Stuck w (Share.delays shares) (sum w o cash shares).1 := by
  unfold sum
  obtain ⟨w', hr, hlate⟩ | ⟨w', shares', hr, hsound, hcases⟩ :=
    Share.resumeAll_cases hx o w h hterms
  · rw [hr]
    exact .inl hlate
  rw [hr]
  dsimp only
  split
  · exact .inl trivial
  · next hnone =>
    obtain hlt | ⟨heq, hstuck⟩ := hcases
    · exact .inl ⟨hsound, hlt⟩
    · refine .inr ⟨shares', rfl, hsound, heq, ?_, hstuck⟩
      by_contra hzero
      have hnothing : Delay.total (Share.delays shares') = 0 := by
        rw [heq]
        omega
      obtain ⟨values, hvalues⟩ := Share.exists_values (Share.value?_ne_none_of_total hnothing)
      rw [hvalues] at hnone
      cases hnone

/-- The work on the assets begins. -/
theorem within_afterCash (o : ValuationOptions) (cash : Float) (hs : w.watcher.strategy = s) :
    Within (w.OverrunsFor o) s (9 * s.assets.length + 1) (afterCash w o cash).2 := by
  have hsum (w' : World ε) (cash : Float) :
      Within (w'.OverrunsFor o) s (9 * s.assets.length + 1)
        (sum w' o cash (s.assets.map (⟨·, .fresh⟩))).2 := by
    have hfresh : ∀ share ∈ s.assets.map (⟨·, .fresh⟩ : Asset → Share),
        sound share.state ∧ share.KeepsTo o := by
      intro share hshare
      obtain ⟨a, -, rfl⟩ := List.mem_map.1 hshare
      exact ⟨trivial, by rintro l ⟨⟩⟩
    have hcases := sum_cases (s := s) (w := w') hx o cash (fun share hs => (hfresh share hs).1)
      fun share hs => (hfresh share hs).2
    rw [Share.total_fresh] at hcases
    obtain hwithin | ⟨shares', hblocked, hsound, heq, -⟩ := hcases
    · exact hwithin.mono (Nat.le_succ _)
    · rw [hblocked]
      refine ⟨hsound, ?_⟩
      rw [delays, heq, Share.total_fresh]
      exact Nat.lt_succ_self _
  unfold afterCash
  dsimp only
  rw [hs]
  split
  · exact hsum w cash
  · exact hsum _ 0.0

/-- The work on the assets begins at the time at which the cash was read. -/
theorem within_afterCash_of_now {w' : World ε} (o : ValuationOptions) (cash : Float)
    (hs : w'.watcher.strategy = s) (hnow : w'.now = w.now) :
    Within (w.OverrunsFor o) s (9 * s.assets.length + 1) (afterCash w' o cash).2 := by
  rw [← World.overrunsFor_congr hnow]
  exact within_afterCash hx o cash hs

theorem within_begin (o : ValuationOptions) (hs : w.watcher.strategy = s) :
    Within (w.OverrunsFor o) s (8 + 9 * s.assets.length) (begin w o).2 := by
  unfold begin
  dsimp only
  split
  · exact (within_afterCash hx o _ hs).mono (by omega)
  · next hlocal =>
    have hread := LiveRead.within_begin w hx ⟨some w.watcher.strategy.cash.currency, o.live⟩
    have hlead := LiveRead.leads_begin w ⟨some w.watcher.strategy.cash.currency, o.live⟩
    have hstrategy := hlead.strategy.trans hs
    have hnow := Reads.now hlead
    generalize LiveRead.begin w _ = r at hread hstrategy hnow
    obtain ⟨w', p⟩ := r
    cases p with
    | blocked l => exact ⟨hread.1, Nat.add_lt_add_right hread.2 _⟩
    | done served => exact (within_afterCash_of_now hx o _ hstrategy hnow).mono (by omega)
    | crashed => exact ⟨by simpa using hlocal, hread⟩

/-- A turn of a valuation that is the only task: it gets past a stage, or a part of it waits for a
time. -/
theorem resume_cases {o : ValuationOptions} {seen : List (World ε)} {v : Valuation}
    (hs : w.watcher.strategy = s) (hv : v.Sound) (hlock : Exclusive w.watcher v.calls)
    (htells : Tells s o seen (.blocked v)) :
    Within (w.OverrunsFor o) s (Delay.total (v.delays s)) (v.resume w).2 ∨
      ∃ v', (v.resume w).2 = .blocked v' ∧ v'.Sound ∧ v'.delays s = v.delays s ∧
        ∃ d ∈ v.delays s, ∃ t, d.awaited = .time t ∧ w.now < t := by
  have hstuck {w' : World ε} (hpos : 0 < Delay.total (v.delays s))
      (h : Stuck w (v.delays s) w') : ∃ d ∈ v.delays s, ∃ t, d.awaited = .time t ∧ w.now < t := by
    obtain ⟨d, hd, t, ht⟩ := h.exists_time hlock (v.accounts s) hpos
    exact ⟨d, hd, t, ht, h.early hd ht⟩
  cases v with
  | cashing o' l =>
    obtain ⟨rfl, hlocal, hquery⟩ := htells
    have hpos := l.stages_pos
    have htotal : Delay.total (delays s (.cashing o' l)) =
        (delay l).stages + 9 * s.assets.length := Nat.add_zero _
    have hturn := LiveRead.nears_resume w hx hv
    have hlead := LiveRead.leads_resume w l
    have hstrategy := hlead.strategy.trans hs
    have hnow := Reads.now hlead
    rw [htotal] at hstuck ⊢
    simp only [resume, afterRead]
    generalize l.resume w = r at hturn hstrategy hnow
    obtain ⟨w', p⟩ := r
    cases p with
    | crashed =>
      have hlate := hturn.late_of_crashed
      rw [hquery] at hlate
      exact .inl ⟨hlocal, hlate⟩
    | done served =>
      refine .inl ((within_afterCash_of_now hx o' _ hstrategy hnow).mono ?_)
      omega
    | blocked l' =>
      obtain ⟨hl', hlt⟩ | ⟨_, ⟨⟩, hl', heq, hearly, hsame⟩ := hturn
      · exact .inl ⟨hl', Nat.add_lt_add_right hlt _⟩
      · refine .inr ⟨_, rfl, hl', by simp only [delays, heq], ?_⟩
        exact hstuck (by omega) (.waits (d := (delay l).before _) hearly hsame hnow (.nil w'))
  | summing o' cash shares =>
    obtain ⟨rfl, -, -, htells⟩ := htells
    obtain hwithin | ⟨shares', hblocked, hsound, heq, hpos, hs'⟩ :=
      sum_cases (s := s) (w := w) hx o' cash hv fun share hshare =>
        (htells share hshare).keepsTo
    · exact .inl hwithin
    · exact .inr ⟨_, hblocked, hsound, heq, hstuck hpos hs'⟩

omit hx in
/-- A valuation of a run that waits, and is the only task. -/
structure Alone (s : Strategy) (o : ValuationOptions) (w : World ε) (v : Valuation) : Prop where
  run : ∃ seen, Run s o seen (w, .blocked v)
  strategy : w.watcher.strategy = s
  sound : v.Sound
  lock : Exclusive w.watcher v.calls

variable {o : ValuationOptions} {v : Valuation} {times : Nat → Int}

/-- The next turn of a valuation that is the only task. -/
theorem Alone.turn (h : Alone s o w v) (t : Int) :
    (∃ w' x, v.resume (w.at_ t) = (w', .done x) ∧ ∃ seen, Run s o seen (w', .done x)) ∨
      (∃ w', v.resume (w.at_ t) = (w', .crashed) ∧ w'.OverrunsFor o) ∨
      ∃ w' v', v.resume (w.at_ t) = (w', .blocked v') ∧ Alone s o w' v' ∧ w'.now = t ∧
        (Delay.total (v'.delays s) < Delay.total (v.delays s) ∨
          Delay.total (v'.delays s) = Delay.total (v.delays s) ∧
            Delay.last (v'.delays s) = Delay.last (v.delays s) ∧ t < Delay.last (v.delays s)) := by
  obtain ⟨⟨seen, hrun⟩, hs, hv, hlock⟩ := h
  have hturn := resume_cases hx (w := w.at_ t) hs hv hlock hrun.tells
  have hrun' : Run s o _ (v.resume (w.at_ t)) := hrun.resumes hs
  have hlead := leads_resume (w.at_ t) v
  have hnow : (v.resume (w.at_ t)).1.now = t := Reads.now hlead
  have hstrategy := hlead.strategy.trans hs
  have hlock' := hlead.exclusive hlock
  generalize v.resume (w.at_ t) = r at *
  obtain ⟨w', p⟩ := r
  cases p with
  | crashed =>
    obtain hlate | ⟨_, hstate, -⟩ := hturn
    · exact .inr (.inl ⟨w', rfl, (World.overrunsFor_congr hnow o).2 hlate⟩)
    · cases hstate
  | done x => exact .inl ⟨w', x, rfl, _, hrun'⟩
  | blocked v' =>
    refine .inr (.inr ⟨w', v', rfl, ?_⟩)
    obtain ⟨hsound, hlt⟩ | ⟨_, ⟨⟩, hsound, hsame, d, hd, due, hdue, hearly⟩ := hturn
    · exact ⟨⟨⟨_, hrun'⟩, hstrategy, hsound, hlock'⟩, hnow, .inl hlt⟩
    · refine ⟨⟨⟨_, hrun'⟩, hstrategy, hsound, hlock'⟩, hnow, .inr ⟨?_, ?_, ?_⟩⟩
      · rw [hsame]
      · rw [hsame]
      · exact Int.lt_of_lt_of_le hearly (Delay.le_last hd hdue)

/-- A valuation that is the only task of a watcher whose lock is free comes to an end, unless it
waits for longer than the clock can tell. -/
theorem ends_begin (hlock : Exclusive w.watcher []) (ht : Turns w.now times)
    (o : ValuationOptions) :
    EndsUnless (fun w' => w'.OverrunsFor o) resume times (begin w o) fun w' x =>
      ∃ seen, Run w.watcher.strategy o seen (w', .done x) := by
  have hwithin := within_begin hx o (w := w) rfl
  have hlead := leads_begin w o
  have hrun : Run w.watcher.strategy o (looksAtFirst w o) (begin w o) := .begins rfl
  have hnow := Reads.now hlead
  have hstrategy := hlead.strategy
  have hlock' := hlead.exclusive hlock
  generalize begin w o = r at *
  obtain ⟨w', p⟩ := r
  cases p with
  | crashed => exact .crashed ((World.overrunsFor_congr hnow o).2 hwithin)
  | done x => exact .done ⟨_, hrun⟩
  | blocked v =>
    have h : Alone w.watcher.strategy o w' v := ⟨⟨_, hrun⟩, hstrategy, hwithin.1, hlock'⟩
    -- the stages before its parts, and the time by which all have come that they wait for
    exact EndsUnless.of_rank (fun v => Delay.total (v.delays w.watcher.strategy))
      (fun v => Delay.last (v.delays w.watcher.strategy)) (fun _ _ t h => h.turn hx t) h (hnow ▸ ht)

end Valuation

end Portfolio
