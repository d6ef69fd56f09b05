import Portfolio.Live.Access
import Portfolio.Live.Valuation
import Portfolio.Proofs.Calls.Leads

/-! # Readers are made of calls

The work of a wait, a read, a poll loop or a valuation is a list of moves of calls that read
balances (`Reads`), from the calls that it has at first to those that are left. One lemma each for
its beginning, its turns and its end when it is given up. So what holds of every run of calls holds
whoever makes them. -/

namespace Portfolio

/-! ## The calls of a task -/

/-- The calls of what is left of a task after its turn. -/
def Progress.calls {σ α : Type} (f : σ → List Call) : Progress σ α → List Call
  | .blocked s => f s
  | .done _ | .crashed => []

def Refresh.calls (r : Refresh) : List Call :=
  [.refresh r]

def FreshWait.calls : FreshWait → List Call
  | .forcing _ r => r.calls
  | .pausing .. | .watching .. => []

def CachedRead.calls (c : CachedRead) : List Call :=
  c.refresh.calls

def LiveRead.calls : LiveRead → List Call
  | .refreshing _ r | .retrying _ r => r.calls
  | .waiting _ f => f.calls

def PollState.calls : PollState → List Call
  | .starting | .ticking _ => []
  | .refreshing _ r => r.calls

def Share.calls (s : Share) : List Call :=
  match s.state with
  | .reading l => l.calls
  | .fresh | .pricing .. | .finished _ => []

def Valuation.calls : Valuation → List Call
  | .cashing _ l => l.calls
  | .summing _ _ shares => shares.flatMap Share.calls

section
variable {ε : Type} [Exchange ε] {w : World ε} {cs : List Call}

/-- A part and what comes after it. -/
theorem Leads.andThen {ok : Calls.Move ε → Prop} {σ τ α β : Type} {f : σ → List Call}
    {g : τ → List Call} {r : World ε × Progress σ α} {wrap : σ → τ}
    {next : World ε → α → World ε × Progress τ β} (h : Leads ok w cs r.1 (r.2.calls f))
    (hwrap : ∀ s, g (wrap s) = f s)
    (hnext : ∀ w a, Leads ok w [] (next w a).1 ((next w a).2.calls g)) :
    Leads ok w cs (Progress.andThen r wrap next).1
      ((Progress.andThen r wrap next).2.calls g) := by
  obtain ⟨w', p⟩ := r
  cases p with
  | blocked s =>
    simp only [Progress.andThen, Progress.calls, hwrap]
    exact h
  | done a => exact h.trans (hnext w' a)
  | crashed => exact h

/-! ## Refreshes -/

theorem toList_left (p : Progress Refresh Unit) :
    (p.left.map Call.refresh).toList = p.calls Refresh.calls := by
  cases p <;> rfl

theorem Refresh.leads_begin (w : World ε) (fallback : Params) :
    Reads w [] (Refresh.begin w fallback).1 ((Refresh.begin w fallback).2.calls Refresh.calls) := by
  refine ⟨fun s rest hw hl => ?_⟩
  refine ⟨[.enter fallback], by simp [Calls.Move.isReading], ?_, ?_⟩
  · simp [Calls.step, hw]
  · simp only [Calls.run_cons, Calls.run_nil, Calls.step, hw, Calls.live,
      List.reduceOption_append, List.reduceOption_singleton]
    rw [toList_left]
    exact List.perm_append_comm.trans (hl.append_left _)

theorem Refresh.leads_resume (w : World ε) (r : Refresh) :
    Reads w r.calls (r.resume w).1 ((r.resume w).2.calls Refresh.calls) := by
  rw [← toList_left]
  exact Leads.resume w (.refresh r)

theorem Refresh.leads_drop (w : World ε) (r : Refresh) : Reads w r.calls (r.drop w) [] :=
  Leads.drop w (.refresh r)

/-! ## Waits for a fresh balance -/

omit [Exchange ε] in
theorem FreshWait.calls_settle (w : World ε) (goal : FreshGoal) (known : Option Timestamp) :
    (FreshWait.settle w goal known).1 = w ∧
      (FreshWait.settle w goal known).2.calls FreshWait.calls = [] := by
  unfold FreshWait.settle FreshWait.watch
  dsimp only
  split
  · exact ⟨rfl, rfl⟩
  · split
    · exact ⟨rfl, rfl⟩
    · split <;> exact ⟨rfl, rfl⟩

theorem FreshWait.leads_settle (w : World ε) (goal : FreshGoal) (known : Option Timestamp) :
    Reads w [] (FreshWait.settle w goal known).1
      ((FreshWait.settle w goal known).2.calls FreshWait.calls) := by
  obtain ⟨hw, hc⟩ := FreshWait.calls_settle w goal known
  rw [hw, hc]
  exact .refl w []

theorem FreshWait.leads_afterRefresh {goal : FreshGoal} {r : World ε × Progress Refresh Unit}
    (h : Reads w cs r.1 (r.2.calls Refresh.calls)) :
    Reads w cs (FreshWait.afterRefresh goal r).1
      ((FreshWait.afterRefresh goal r).2.calls FreshWait.calls) := by
  obtain ⟨w', p⟩ := r
  cases p with
  | blocked r =>
    simp only [FreshWait.afterRefresh, FreshWait.unlessLate]
    split
    · exact h.trans (Refresh.leads_drop w' r)
    · exact h
  | crashed => exact h
  | done u =>
    simp only [FreshWait.afterRefresh]
    split
    · exact h.trans (FreshWait.leads_settle ..)
    · unfold FreshWait.unlessLate
      split <;> exact h

theorem FreshWait.leads_start (w : World ε) (goal : FreshGoal) (force : Bool) :
    Reads w [] (FreshWait.start w goal force).1
      ((FreshWait.start w goal force).2.calls FreshWait.calls) := by
  unfold FreshWait.start
  split
  · exact FreshWait.leads_settle ..
  · split
    · exact FreshWait.leads_afterRefresh (Refresh.leads_begin w [])
    · exact FreshWait.leads_settle ..

theorem FreshWait.leads_begin (w : World ε) (currency : Option String) (since : Option Timestamp)
    (waitFor : Duration) (force : Bool) :
    Reads w [] (FreshWait.begin w currency since waitFor force).1
      ((FreshWait.begin w currency since waitFor force).2.calls FreshWait.calls) := by
  unfold FreshWait.begin
  split
  · exact FreshWait.leads_start ..
  · exact .refl w []

theorem FreshWait.leads_resume (w : World ε) (f : FreshWait) :
    Reads w f.calls (f.resume w).1 ((f.resume w).2.calls FreshWait.calls) := by
  cases f with
  | forcing goal r => exact FreshWait.leads_afterRefresh (Refresh.leads_resume w r)
  | pausing goal until_ =>
    simp only [FreshWait.resume]
    split
    · exact FreshWait.leads_afterRefresh (Refresh.leads_begin w [])
    · unfold FreshWait.unlessLate
      split <;> exact .refl w []
  | watching goal prev heard =>
    simp only [FreshWait.resume]
    split
    · unfold FreshWait.watch
      split
      · exact .refl w []
      · split <;> exact .refl w []
    · exact .refl w []

theorem FreshWait.leads_drop (w : World ε) (f : FreshWait) : Reads w f.calls (f.drop w) [] := by
  cases f with
  | forcing goal r => exact Refresh.leads_drop w r
  | pausing | watching => exact .refl w []

/-! ## Reads -/

theorem CachedRead.leads_afterRefresh {currency : String} {r : World ε × Progress Refresh Unit}
    (h : Reads w cs r.1 (r.2.calls Refresh.calls)) :
    Reads w cs (CachedRead.afterRefresh currency r).1
      ((CachedRead.afterRefresh currency r).2.calls CachedRead.calls) :=
  h.andThen (fun _ => rfl) fun w _ => .refl w []

theorem CachedRead.leads_begin (w : World ε) (key : BalanceKey) :
    Reads w [] (CachedRead.begin w key).1 ((CachedRead.begin w key).2.calls CachedRead.calls) := by
  unfold CachedRead.begin
  split
  · exact .refl w []
  · split
    · exact CachedRead.leads_afterRefresh (Refresh.leads_begin w [])
    · exact .refl w []

theorem CachedRead.leads_resume (w : World ε) (c : CachedRead) :
    Reads w c.calls (c.resume w).1 ((c.resume w).2.calls CachedRead.calls) :=
  CachedRead.leads_afterRefresh (Refresh.leads_resume w c.refresh)

theorem CachedRead.leads_drop (w : World ε) (c : CachedRead) : Reads w c.calls (c.drop w) [] :=
  Refresh.leads_drop w c.refresh

theorem LiveRead.leads_serve (w : World ε) (q : LiveQuery) :
    Reads w [] (LiveRead.serve w q).1 ((LiveRead.serve w q).2.calls LiveRead.calls) := by
  unfold LiveRead.serve
  dsimp only
  split
  · exact .log w [] _
  · exact .refl w []

theorem LiveRead.leads_afterRetry {q : LiveQuery} {r : World ε × Progress Refresh Unit}
    (h : Reads w cs r.1 (r.2.calls Refresh.calls)) :
    Reads w cs (LiveRead.afterRetry q r).1
      ((LiveRead.afterRetry q r).2.calls LiveRead.calls) :=
  h.andThen (fun _ => rfl) fun w _ => LiveRead.leads_serve w q

theorem LiveRead.leads_afterWait {q : LiveQuery} {r : World ε × Progress FreshWait Bool}
    (h : Reads w cs r.1 (r.2.calls FreshWait.calls)) :
    Reads w cs (LiveRead.afterWait q r).1 ((LiveRead.afterWait q r).2.calls LiveRead.calls) := by
  refine h.andThen (fun _ => rfl) fun w fresh => ?_
  split
  · exact LiveRead.leads_serve w q
  · exact LiveRead.leads_afterRetry (Refresh.leads_begin w q.options.fallback)

theorem LiveRead.leads_secondStage (w : World ε) (q : LiveQuery) :
    Reads w [] (LiveRead.secondStage w q).1
      ((LiveRead.secondStage w q).2.calls LiveRead.calls) := by
  unfold LiveRead.secondStage
  split
  · exact LiveRead.leads_afterWait (FreshWait.leads_begin ..)
  · exact LiveRead.leads_serve w q

theorem LiveRead.leads_afterRefresh {q : LiveQuery} {r : World ε × Progress Refresh Unit}
    (h : Reads w cs r.1 (r.2.calls Refresh.calls)) :
    Reads w cs (LiveRead.afterRefresh q r).1
      ((LiveRead.afterRefresh q r).2.calls LiveRead.calls) :=
  h.andThen (fun _ => rfl) fun w _ => LiveRead.leads_secondStage w q

theorem LiveRead.leads_begin (w : World ε) (q : LiveQuery) :
    Reads w [] (LiveRead.begin w q).1 ((LiveRead.begin w q).2.calls LiveRead.calls) := by
  unfold LiveRead.begin
  dsimp only
  split
  · exact LiveRead.leads_afterRefresh ((Leads.start w []).trans (Refresh.leads_begin ..))
  · exact (Leads.start w []).trans (LiveRead.leads_secondStage ..)

theorem LiveRead.leads_resume (w : World ε) (l : LiveRead) :
    Reads w l.calls (l.resume w).1 ((l.resume w).2.calls LiveRead.calls) := by
  cases l with
  | refreshing q r => exact LiveRead.leads_afterRefresh (Refresh.leads_resume w r)
  | waiting q f => exact LiveRead.leads_afterWait (FreshWait.leads_resume w f)
  | retrying q r => exact LiveRead.leads_afterRetry (Refresh.leads_resume w r)

theorem LiveRead.leads_drop (w : World ε) (l : LiveRead) : Reads w l.calls (l.drop w) [] := by
  cases l with
  | refreshing q r | retrying q r => exact Refresh.leads_drop w r
  | waiting q f => exact FreshWait.leads_drop w f

/-! ## Poll loops -/

/-- Ticks that are due already follow each other in one turn; the induction is on their number. -/
theorem PollState.leads_tick (fuel : Nat) (w : World ε) (due : Int) :
    Reads w [] (PollState.tick fuel w due).1
      ((PollState.tick fuel w due).2.calls PollState.calls) := by
  induction fuel generalizing w due with
  | zero => exact .refl w []
  | succ fuel ih =>
    simp only [PollState.tick]
    split
    · split
      · exact .refl w []
      · exact (Refresh.leads_begin w []).andThen (fun _ => rfl) fun w _ => ih w _
    · exact .refl w []

theorem PollState.leads_resume (w : World ε) (p : PollState) :
    Reads w p.calls (p.resume w).1 ((p.resume w).2.calls PollState.calls) := by
  cases p with
  | starting => exact PollState.leads_tick ..
  | ticking due => exact PollState.leads_tick ..
  | refreshing next r =>
    exact (Refresh.leads_resume w r).andThen (fun _ => rfl) fun w _ => PollState.leads_tick ..

theorem PollState.leads_drop (w : World ε) (p : PollState) : Reads w p.calls (p.drop w) [] := by
  cases p with
  | starting | ticking => exact .refl w []
  | refreshing next r => exact Refresh.leads_drop w r

/-! ## Valuations -/

/-- The calls of a share in a state, whatever its asset. -/
def ShareState.calls (s : ShareState) : List Call :=
  match s with
  | .reading l => l.calls
  | .fresh | .pricing .. | .finished _ => []

theorem Share.leads_close (w : World ε) (o : ValuationOptions) (a : Asset) (free : Float)
    (reply : Reply Float) :
    Reads w [] (Share.close w o a free reply).1
      ((Share.close w o a free reply).2.calls ShareState.calls) := by
  unfold Share.close
  dsimp only
  split <;> exact .business w [] w.exchange reply.events

theorem Share.leads_ask (w : World ε) (o : ValuationOptions) (a : Asset) (free : Float) :
    Reads w [] (Share.ask w o a free).1 ((Share.ask w o a free).2.calls ShareState.calls) := by
  unfold Share.ask
  dsimp only
  split
  · exact (Leads.business w [] _ []).trans (Share.leads_close ..)
  · exact .business w [] _ []

theorem Share.leads_afterRead {o : ValuationOptions} {a : Asset}
    {r : World ε × Progress LiveRead (Option Reading)}
    (h : Reads w cs r.1 (r.2.calls LiveRead.calls)) :
    Reads w cs (Share.afterRead o a r).1 ((Share.afterRead o a r).2.calls ShareState.calls) :=
  h.andThen (fun _ => rfl) fun w _ => Share.leads_ask w o a _

theorem Share.leads_resume (w : World ε) (o : ValuationOptions) (s : Share) :
    Reads w s.calls (s.resume w o).1 ((s.resume w o).2.calls ShareState.calls) := by
  obtain ⟨asset, state⟩ := s
  cases state with
  | fresh =>
    simp only [Share.resume]
    split
    · exact Share.leads_ask ..
    · exact Share.leads_afterRead (LiveRead.leads_begin ..)
  | reading l => exact Share.leads_afterRead (LiveRead.leads_resume w l)
  | pricing free due reply =>
    simp only [Share.resume]
    split
    · exact Share.leads_close ..
    · exact .refl w []
  | finished value => exact .refl w []

theorem Share.leads_drop (w : World ε) (s : Share) : Reads w s.calls (s.drop w) [] := by
  obtain ⟨asset, state⟩ := s
  cases state with
  | reading l => exact LiveRead.leads_drop w l
  | fresh | pricing | finished => exact .refl w []

theorem Share.leads_dropAll (w : World ε) (shares : List Share) :
    Reads w (shares.flatMap Share.calls) (Share.dropAll w shares) [] := by
  induction shares generalizing w with
  | nil => exact .refl w []
  | cons s rest ih => exact ((Share.leads_drop w s).right _).trans (ih _)

/-- The shares take their turns one after the other, and a fault in one gives the others up. -/
theorem Share.leads_resumeAll (o : ValuationOptions) (w : World ε) (shares : List Share) :
    Reads w (shares.flatMap Share.calls) (Share.resumeAll o w shares).1
      (((Share.resumeAll o w shares).2.getD []).flatMap Share.calls) := by
  induction shares generalizing w with
  | nil => exact .refl w []
  | cons s rest ih =>
    have h := (Share.leads_resume w o s).right (rest.flatMap Share.calls)
    simp only [Share.resumeAll, List.flatMap_cons]
    generalize s.resume w o = r at h
    obtain ⟨w', p⟩ := r
    cases p with
    | crashed => exact h.trans (Share.leads_dropAll w' rest)
    | blocked state =>
      have hrest := h.trans ((ih w').left _)
      dsimp only
      generalize Share.resumeAll o w' rest = r at hrest
      obtain ⟨w'', _ | shares⟩ := r
      · exact hrest.trans ((Share.leads_drop w'' ⟨s.asset, state⟩).right _)
      · exact hrest
    | done value =>
      have hrest := h.trans ((ih w').left _)
      dsimp only
      generalize Share.resumeAll o w' rest = r at hrest
      obtain ⟨w'', _ | shares⟩ := r
      · exact hrest
      · exact hrest

/-- A valuation whose shares are all worked out has no calls left. -/
theorem Share.calls_of_value? {shares : List Share} {values : List (Asset × Float)}
    (h : shares.mapM (fun s => s.value?.map (s.asset, ·)) = some values) :
    shares.flatMap Share.calls = [] := by
  induction shares generalizing values with
  | nil => rfl
  | cons s rest ih =>
    obtain ⟨asset, state⟩ := s
    cases state with
    | finished value =>
      simp only [List.mapM_cons, Share.value?, Option.map_some, Option.bind_eq_bind,
        Option.bind_some, Option.bind_eq_some_iff] at h
      obtain ⟨others, ho, -⟩ := h
      exact ih ho
    | fresh | reading | pricing => simp [List.mapM_cons, Share.value?] at h

theorem Valuation.leads_sum (w : World ε) (o : ValuationOptions) (cash : Float)
    (shares : List Share) :
    Reads w (shares.flatMap Share.calls) (Valuation.sum w o cash shares).1
      ((Valuation.sum w o cash shares).2.calls Valuation.calls) := by
  have h := Share.leads_resumeAll o w shares
  unfold Valuation.sum
  generalize Share.resumeAll o w shares = r at h
  obtain ⟨w', _ | shares⟩ := r
  · exact h
  · dsimp only
    split
    · next values hv =>
      have hn := Share.calls_of_value? hv
      rw [Option.getD_some, hn] at h
      exact h.trans (.business w' [] w'.exchange _)
    · exact h

theorem Valuation.leads_afterCash (w : World ε) (o : ValuationOptions) (cash : Float) :
    Reads w [] (Valuation.afterCash w o cash).1
      ((Valuation.afterCash w o cash).2.calls Valuation.calls) := by
  have hfresh : ((w.watcher.strategy.assets.map (⟨·, .fresh⟩ : Asset → Share)).flatMap
      Share.calls) = [] := by
    simp [List.flatMap_eq_nil_iff, Share.calls]
  unfold Valuation.afterCash
  dsimp only
  split
  · have h := Valuation.leads_sum w o cash (w.watcher.strategy.assets.map (⟨·, .fresh⟩))
    rwa [hfresh] at h
  · refine (Leads.log w [] (Valuation.cashEvent w.watcher.strategy cash)).trans ?_
    have h := Valuation.leads_sum (w.log (Valuation.cashEvent w.watcher.strategy cash)) o 0.0
      (w.watcher.strategy.assets.map (⟨·, .fresh⟩))
    rwa [hfresh] at h

theorem Valuation.leads_afterRead {o : ValuationOptions}
    {r : World ε × Progress LiveRead (Option Reading)}
    (h : Reads w cs r.1 (r.2.calls LiveRead.calls)) :
    Reads w cs (Valuation.afterRead o r).1
      ((Valuation.afterRead o r).2.calls Valuation.calls) :=
  h.andThen (fun _ => rfl) fun w _ => Valuation.leads_afterCash w o _

theorem Valuation.leads_begin (w : World ε) (o : ValuationOptions) :
    Reads w [] (Valuation.begin w o).1 ((Valuation.begin w o).2.calls Valuation.calls) := by
  unfold Valuation.begin
  dsimp only
  split
  · exact Valuation.leads_afterCash ..
  · exact Valuation.leads_afterRead (LiveRead.leads_begin ..)

theorem Valuation.leads_resume (w : World ε) (v : Valuation) :
    Reads w v.calls (v.resume w).1 ((v.resume w).2.calls Valuation.calls) := by
  cases v with
  | cashing o l => exact Valuation.leads_afterRead (LiveRead.leads_resume w l)
  | summing o cash shares => exact Valuation.leads_sum ..

theorem Valuation.leads_drop (w : World ε) (v : Valuation) : Reads w v.calls (v.drop w) [] := by
  cases v with
  | cashing o l => exact LiveRead.leads_drop w l
  | summing o cash shares => exact Share.leads_dropAll w shares

end

end Portfolio
