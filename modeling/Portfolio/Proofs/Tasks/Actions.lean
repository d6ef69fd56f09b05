import Portfolio.Proofs.Calls.Readers
import Portfolio.Simulation.Action

/-! # Actions are made of calls

What a task does with the watcher, from an action's beginning over its turns to its end, is a list
of moves of its calls (`Acts`). A task never moves a poll loop, which has its own turns. -/

namespace Portfolio

open Simulation

/-- A move of anything but a poll loop. -/
def Calls.Move.isActing {ε : Type} : Calls.Move ε → Bool
  | .loops _ => false
  | _ => true

theorem Calls.Move.isActing_of_isReading {ε : Type} {m : Calls.Move ε} (h : m.isReading = true) :
    m.isActing = true := by
  cases m with
  | loops => cases h
  | _ => rfl

/-- Moves of a task lead from one world and its calls to another. -/
abbrev Acts {ε : Type} [Exchange ε] : World ε → List Call → World ε → List Call → Prop :=
  Leads fun m => m.isActing = true

/-- The calls of an action that waits. -/
def Simulation.Doing.calls {ε : Type} : Doing ε → List Call
  | .refreshing r => r.calls
  | .cached _ c => c.calls
  | .live _ l => l.calls
  | .fresh f => f.calls
  | .valuing v => v.calls
  | .locking ticket _ => [.locking ticket]
  | .holding ticket .. => [.holding ticket]
  | .within _ _ _ current _ => current.calls
  | .sleeping _ | .hearing .. | .listening .. => []

/-- The calls that an action has after its turn. -/
abbrev Simulation.Run.calls {ε : Type} (r : Run ε) : List Call :=
  r.2.calls Doing.calls

section
variable {ε : Type} [Exchange ε] {w : World ε} {cs : List Call}

theorem Leads.acts {w' : World ε} {cs' : List Call} (h : Reads w cs w' cs') : Acts w cs w' cs' :=
  h.mono fun _ hm => Calls.Move.isActing_of_isReading hm

/-! ## The lock for its own sake -/

/-- Somebody queues for the lock. -/
theorem Leads.lock (w : World ε) :
    Acts w [] (w.onWatcher ({ · with lock := w.watcher.lock.draw.1 }))
      [.locking w.watcher.lock.draw.2] := by
  refine ⟨fun s rest hw hl => ⟨[.lock], by simp [Calls.Move.isActing], ?_, ?_⟩⟩
  · simp [Calls.step, hw]
  · simp only [Calls.run_cons, Calls.run_nil, Calls.step, hw, Calls.live,
      List.reduceOption_append, List.reduceOption_singleton]
    exact List.perm_append_comm.trans (hl.append_left _)

theorem Simulation.leads_takeLock (w : World ε) (ticket : Nat) (length : Int) :
    Acts w [.locking ticket] (takeLock w ticket length).1 (takeLock w ticket length).calls := by
  have hturn := (Leads.resume w (.locking ticket)).acts
  unfold takeLock
  split
  · next ht =>
    simp only [Call.resume, ht, if_true] at hturn
    dsimp only
    split
    · exact hturn.trans (Leads.drop (w.onWatcher .enter) (.holding ticket)).acts
    · exact hturn
  · exact .refl w _

/-! ## Parts of actions -/

theorem Simulation.leads_lift {σ α : Type} {f : σ → List Call} {r : World ε × Progress σ α}
    {wrap : σ → Doing ε} {result : α → Result ε} (h : Reads w cs r.1 (r.2.calls f))
    (hwrap : ∀ s, (wrap s).calls = f s) :
    Acts w cs (lift r wrap result).1 (lift r wrap result).calls :=
  (h.andThen hwrap fun w _ => .refl w []).acts

theorem Simulation.leads_hearOr {heard : Nat} {until_ : Int} {waiting : Doing ε}
    {result : Bool → Result ε} (h : waiting.calls = []) :
    Acts w [] (hearOr w heard until_ waiting result).1
      (hearOr w heard until_ waiting result).calls := by
  unfold hearOr
  split
  · exact .refl w []
  · split
    · exact .refl w []
    · simp only [Run.calls, Progress.calls, h]
      exact .refl w []

/-! ## Actions -/

mutual

/-- The recursion is that of the actions, which can hold lists of others. -/
theorem Simulation.Action.leads_begin (w : World ε) :
    (a : Action ε) → Acts w [] (a.begin w).1 (a.begin w).calls
  | .sleep length => by
    simp only [Action.begin]
    split <;> exact .refl w []
  | .forceRefresh fallback => leads_lift (Refresh.leads_begin w fallback) fun _ => rfl
  | .balanceOf key | .balanceAmount key _ => leads_lift (CachedRead.leads_begin w key) fun _ => rfl
  | .table => (Leads.start w []).acts
  | .liveBalance .. | .liveTable .. | .liveAmount .. =>
    leads_lift (LiveRead.leads_begin w _) fun _ => rfl
  | .waitForFresh .. => leads_lift (FreshWait.leads_begin w ..) fun _ => rfl
  | .portfolioTotal options => leads_lift (Valuation.leads_begin w options) fun _ => rfl
  | .start => (Leads.start w []).acts
  | .stop => .onWorld .stop World.stop (fun _ => rfl) rfl
  | .renewView => .onWorld .renewView (·.onWatcher .renewView) (fun _ => rfl) rfl
  | .reset => .onWorld .reset (·.onWatcher .reset) (fun _ => rfl) rfl
  | .push payload at_ =>
    .onWorld (.push payload at_) (·.onWatcher (·.push payload at_)) (fun _ => rfl) rfl
  | .lock length => (Leads.lock w).trans (leads_takeLock _ _ length)
  | .hear length => leads_hearOr rfl
  | .signal => .onWorld .signal (·.onWatcher .signal) (fun _ => rfl) rfl
  | .subscribed actions length => Action.leads_beginAll w _ length [] actions
  | .snapshot | .viewGet _ | .inspect => .refl w []
  | .arrange f => (Leads.business w [] (f w.exchange) []).acts

theorem Simulation.Action.leads_beginAll (w : World ε) (heard : Nat) (length : Int)
    (results : List (Result ε)) :
    (as : List (Action ε)) → Acts w [] (Action.beginAll w heard length results as).1
      (Action.beginAll w heard length results as).calls
  | [] => leads_hearOr rfl
  | a :: rest => by
    have h := Action.leads_begin w a
    simp only [Action.beginAll]
    generalize a.begin w = r at h
    obtain ⟨w', p⟩ := r
    cases p with
    | blocked d => exact h
    | crashed => exact h
    | done r => exact h.trans (Action.leads_beginAll w' heard length _ rest)

end

/-- A turn of an action that waits; one of several things is resumed by its own turn. -/
theorem Simulation.Doing.leads_resume (w : World ε) (d : Doing ε) :
    Acts w d.calls (d.resume w).1 (d.resume w).calls := by
  induction d with
  | sleeping until_ =>
    simp only [Doing.resume]
    split <;> exact .refl w []
  | refreshing r => exact leads_lift (Refresh.leads_resume w r) fun _ => rfl
  | cached field c => exact leads_lift (CachedRead.leads_resume w c) fun _ => rfl
  | live wanted l => exact leads_lift (LiveRead.leads_resume w l) fun _ => rfl
  | fresh f => exact leads_lift (FreshWait.leads_resume w f) fun _ => rfl
  | valuing v => exact leads_lift (Valuation.leads_resume w v) fun _ => rfl
  | locking ticket length => exact leads_takeLock w ticket length
  | holding ticket since until_ =>
    simp only [Doing.resume]
    split
    · exact (Leads.drop w (.holding ticket)).acts
    · exact .refl w _
  | hearing heard until_ => exact leads_hearOr rfl
  | within heard length results current rest ih =>
    simp only [Doing.resume]
    simp only [Doing.calls]
    generalize current.resume w = r at ih
    obtain ⟨w', p⟩ := r
    cases p with
    | blocked d => exact ih
    | crashed => exact ih
    | done r => exact ih.trans (Action.leads_beginAll w' heard length _ rest)
  | listening results heard until_ => exact leads_hearOr rfl

theorem Simulation.Doing.leads_drop (w : World ε) (d : Doing ε) :
    Acts w d.calls (d.drop w) [] := by
  induction d with
  | refreshing r => exact (Refresh.leads_drop w r).acts
  | cached field c => exact (CachedRead.leads_drop w c).acts
  | live wanted l => exact (LiveRead.leads_drop w l).acts
  | fresh f => exact (FreshWait.leads_drop w f).acts
  | valuing v => exact (Valuation.leads_drop w v).acts
  | locking ticket length => exact (Leads.drop w (.locking ticket)).acts
  | holding ticket since until_ => exact (Leads.drop w (.holding ticket)).acts
  | within heard length results current rest ih => exact ih
  | sleeping | hearing | listening => exact .refl w []

end

end Portfolio
