import Portfolio.Proofs.Alone.Fetches

/-! # Cached reads

`Beside` is a task beside the calls of everybody else, together with the balance requests that it
has sent itself. A run is a list of moves in any order, and nothing more happens once the task is
over. A task that is made of another does beside the calls what its part does there
(`Beside.run_lifted`), and one whose stages are numbered gets past a stage at each turn that finds
what the task waits for (`Beside.task_run`).

A cached read of a currency that is tracked and not cached is made of one refresh; any other is over
at once (`CachedRead.begin_cases`, `Calls.cached_read_fetches_on_tracked_miss`). -/

namespace Portfolio

variable {ε σ τ α β : Type}

/-! ## A task beside other calls -/

/-- A task beside the calls of everybody else, and the balance requests that it has sent. -/
structure Beside (ε σ α : Type) where
  others : Calls (Metered ε)
  task : Progress σ α
  sent : List Request

namespace Beside

/-- One move of a run. -/
inductive Move (ε : Type) where
  /-- The task gets its turn. -/
  | turn
  /-- One of the others moves. -/
  | other (m : Calls.Move (Metered ε))

def world (x : Beside ε σ α) : World (Metered ε) :=
  x.others.world

/-- After the task ran, which had sent some requests before. -/
def after (s : Calls (Metered ε)) (sent : List Request)
    (r : World (Metered ε) × Progress σ α) : Beside ε σ α :=
  ⟨{ s with world := r.1 }, r.2, sent ++ s.world.requestsTo r.1⟩

/-- The task has begun. -/
def enter (s : Calls (Metered ε)) (r : World (Metered ε) × Progress σ α) : Beside ε σ α :=
  after s [] r

/-- The task as the part of another, its result read by `f`. -/
def lifted (wrap : σ → τ) (f : World (Metered ε) → α → β) (x : Beside ε σ α) : Beside ε τ β :=
  ⟨x.others, (Progress.lift (x.world, x.task) wrap f).2, x.sent⟩

theorem after_lift (s : Calls (Metered ε)) (sent : List Request)
    (r : World (Metered ε) × Progress σ α) (wrap : σ → τ) (f : World (Metered ε) → α → β) :
    after s sent (Progress.lift r wrap f) = (after s sent r).lifted wrap f := by
  obtain ⟨w, p⟩ := r
  cases p <;> rfl

/-- The move is a turn of the task that finds what the task waits for. -/
def isReadyTurn (isReady : World (Metered ε) → σ → Bool) (x : Beside ε σ α) : Move ε → Bool
  | .turn => x.task.left.any (isReady x.world)
  | .other _ => false

section
variable [Exchange ε] (resume : World (Metered ε) → σ → World (Metered ε) × Progress σ α)

/-- One move. -/
def step (x : Beside ε σ α) (m : Move ε) : Beside ε σ α :=
  match x.task, m with
  | .blocked t, .turn => after x.others x.sent (resume x.world t)
  | .blocked _, .other m => { x with others := x.others.step m }
  | .done _, _ | .crashed, _ => x

/-- Moves, one after the other. -/
def run (x : Beside ε σ α) (ms : List (Move ε)) : Beside ε σ α :=
  ms.foldl (step resume) x

/-- How many of the moves are turns of the task that find what it waits for. -/
def readyTurns (isReady : World (Metered ε) → σ → Bool) : Beside ε σ α → List (Move ε) → Nat
  | _, [] => 0
  | x, m :: ms =>
    (x.isReadyTurn isReady m).toNat + readyTurns isReady (x.step resume m) ms

end

section
variable [Exchange ε] {resume : World (Metered ε) → σ → World (Metered ε) × Progress σ α}
  {x : Beside ε σ α} {t : σ}

@[simp] theorem run_nil : x.run resume [] = x := rfl

@[simp] theorem run_cons (m : Move ε) (ms : List (Move ε)) :
    x.run resume (m :: ms) = (x.step resume m).run resume ms := rfl

theorem step_turn (h : x.task = .blocked t) :
    x.step resume .turn = after x.others x.sent (resume x.world t) := by
  unfold step
  rw [h]

theorem step_other (h : x.task = .blocked t) (m : Calls.Move (Metered ε)) :
    x.step resume (.other m) = { x with others := x.others.step m } := by
  unfold step
  rw [h]

/-- A task that is over stays so. -/
theorem step_of_over (h : x.task.left = none) (m : Move ε) : x.step resume m = x := by
  unfold step
  split
  · next hb => rw [hb] at h; cases h
  · next hb => rw [hb] at h; cases h
  · rfl
  · rfl

theorem run_of_over (h : x.task.left = none) (ms : List (Move ε)) : x.run resume ms = x := by
  induction ms with
  | nil => rfl
  | cons m ms ih => rw [run_cons, step_of_over h, ih]

/-- What the turns of the task and the moves of the others keep holds all along. -/
theorem run_induction {P : Beside ε σ α → Prop}
    (hturn : ∀ x t, P x → x.task = .blocked t → P (after x.others x.sent (resume x.world t)))
    (hother : ∀ x t m, P x → x.task = .blocked t → P { x with others := x.others.step m })
    (hx : P x) (ms : List (Move ε)) : P (x.run resume ms) := by
  induction ms generalizing x with
  | nil => exact hx
  | cons m ms ih =>
    cases ht : x.task with
    | blocked t =>
      rw [run_cons]
      cases m with
      | turn =>
        rw [step_turn ht]
        exact ih (hturn x t hx ht)
      | other m =>
        rw [step_other ht]
        exact ih (hother x t m hx ht)
    | done | crashed =>
      rw [run_of_over (by rw [ht]; rfl)]
      exact hx

/-! ### Parts of tasks -/

variable {resume' : World (Metered ε) → τ → World (Metered ε) × Progress τ β} {wrap : σ → τ}
  {f : World (Metered ε) → α → β}
  (hresume : ∀ w t, resume' w (wrap t) = Progress.lift (resume w t) wrap f)
include hresume

theorem step_lifted (x : Beside ε σ α) (m : Move ε) :
    (x.lifted wrap f).step resume' m = (x.step resume m).lifted wrap f := by
  obtain ⟨s, p, sent⟩ := x
  cases p with
  | blocked t =>
    cases m with
    | turn =>
      have hpart : after s sent (resume' s.world (wrap t)) =
          (after s sent (resume s.world t)).lifted wrap f := by
        rw [hresume, after_lift]
      exact hpart
    | other m => rfl
  | done | crashed => rfl

/-- A task made of another does what that does. -/
theorem run_lifted (x : Beside ε σ α) (ms : List (Move ε)) :
    (x.lifted wrap f).run resume' ms = (x.run resume ms).lifted wrap f := by
  induction ms generalizing x with
  | nil => rfl
  | cons m ms ih => rw [run_cons, step_lifted hresume, ih, run_cons]

end

/-! ### Stages of tasks -/

open Staged

section
variable [Exchange ε] [Staged σ]
  {resume : World (Metered ε) → σ → World (Metered ε) × Progress σ α}
  {isReady : World (Metered ε) → σ → Bool} {n : Nat} {x : Beside ε σ α}
  (hready : ∀ w t, sound t → isReady w t = true → Within False (delay t).stages (resume w t).2)
  (hkept : ∀ w t, isReady w t = false → resume w t = (w, .blocked t))
include hready hkept

/-- A turn that finds what the task waits for gets it past a stage, and nothing else moves it. -/
theorem within_step (h : Within False n x.task) (m : Move ε) :
    Within False (n - (x.isReadyTurn isReady m).toNat) (x.step resume m).task := by
  cases ht : x.task with
  | done a =>
    rw [step_of_over (by rw [ht]; rfl), ht]
    trivial
  | crashed =>
    rw [ht] at h
    exact False.elim h
  | blocked t =>
    rw [ht] at h
    cases m with
    | other m =>
      rw [step_other ht]
      show Within False n x.task
      rw [ht]
      exact h
    | turn =>
      have hcount : x.isReadyTurn isReady .turn = isReady x.world t := by
        simp [isReadyTurn, ht, Progress.left]
      rw [step_turn ht, hcount]
      cases hr : isReady x.world t with
      | true =>
        have hbound : (delay t).stages < n := h.2
        refine (hready _ _ h.1 hr).mono ?_
        rw [Bool.toNat_true]
        omega
      | false =>
        rw [hkept _ _ hr]
        exact h

theorem within_run (h : Within False n x.task) (ms : List (Move ε)) :
    Within False (n - x.readyTurns resume isReady ms) (x.run resume ms).task := by
  induction ms generalizing x n with
  | nil => exact h
  | cons m ms ih =>
    have hrest := ih (within_step hready hkept h m)
    rwa [Nat.sub_sub] at hrest

/-- A task is over by the time it had as many turns that found what it waited for as it had stages
before it. -/
theorem task_run (h : Within False n x.task) (ms : List (Move ε)) :
    (∃ a, (x.run resume ms).task = .done a) ∨
      ∃ t, (x.run resume ms).task = .blocked t ∧
        (delay t).stages + x.readyTurns resume isReady ms < n := by
  have hwithin := within_run hready hkept h ms
  cases ht : (x.run resume ms).task with
  | done a => exact .inl ⟨a, rfl⟩
  | crashed =>
    rw [ht] at hwithin
    exact False.elim hwithin
  | blocked t =>
    rw [ht] at hwithin
    have hbound : (delay t).stages < n - x.readyTurns resume isReady ms := hwithin.2
    exact .inr ⟨t, rfl, by omega⟩

end

end Beside

/-! ## A refresh beside other calls -/

namespace Refresh

open Staged

variable [Exchange ε]

/-- What the refresh has done so far is the course of a call. -/
theorem course_beside (s : Calls (Metered ε)) (fallback : Params) (ms : List (Beside.Move ε)) :
    let x := (Beside.enter s (begin s.world fallback)).run resume ms
    ∃ records, Course (some s.world.watcher.seen) True (x.task.left.map Call.refresh) x.sent
      records false := by
  refine Beside.run_induction (P := fun x => ∃ records, Course (some s.world.watcher.seen) True
    (x.task.left.map Call.refresh) x.sent records false) (fun x r hx hr => ?_)
    (fun x r m hx hr => hx) ?_ ms
  · obtain ⟨records, hcourse⟩ := hx
    rw [hr] at hcourse
    obtain ⟨landed, -, hnext⟩ := Course.resume (w := x.world) hcourse fun _ _ _ => trivial
    exact ⟨records ++ landed, hnext⟩
  · obtain ⟨records, -, hcourse⟩ := (Turned.begin s.world fallback).course fun _ _ _ => trivial
    exact ⟨records, hcourse⟩

/-- A refresh sends one request at most, whatever the others do. -/
theorem length_sent_beside (s : Calls (Metered ε)) (fallback : Params)
    (ms : List (Beside.Move ε)) :
    ((Beside.enter s (begin s.world fallback)).run resume ms).sent.length ≤ 1 := by
  obtain ⟨records, hcourse⟩ := course_beside s fallback ms
  exact hcourse.length_requests_le

theorem within_resume_of_isReady (hx : Faultless ε) (w : World ε) {r : Refresh} (h : sound r)
    (hr : r.isReady w = true) : Within False (delay r).stages (r.resume w).2 := by
  obtain hwithin | ⟨r', -, -, -, hearly, -⟩ := nears_resume w hx h
  · exact hwithin
  · cases r with
    | joining seen deadline fallback =>
      simp only [resume, join, if_pos (show joinOver w seen deadline = true from hr)]
      split
      · trivial
      · exact within_queue w hx fallback
    | queueing ticket fallback =>
      rw [show (delay (queueing ticket fallback)).awaited.isThere w = true from hr] at hearly
      cases hearly
    | fetching ticket started due reply =>
      rw [show (delay (fetching ticket started due reply)).awaited.isThere w = true from hr]
        at hearly
      cases hearly

theorem resume_of_not_isReady (w : World ε) {r : Refresh} (hr : r.isReady w = false) :
    r.resume w = (w, .blocked r) := by
  cases r with
  | joining seen deadline fallback =>
    have hover : joinOver w seen deadline = false := hr
    rw [resume, join, hover]
    rfl
  | queueing ticket fallback =>
    have hturn : w.watcher.lock.isTurn ticket = false := hr
    rw [resume, await, hturn]
    rfl
  | fetching ticket started due reply =>
    have hdue : ¬ due ≤ w.now := of_decide_eq_false hr
    rw [resume, if_neg hdue]

end Refresh

/-! ## Cached reads -/

namespace CachedRead

open Staged

/-- What the read waits for is there. -/
def isReady (w : World ε) (c : CachedRead) : Bool :=
  c.refresh.isReady w

instance : Staged CachedRead where
  delay c := delay c.refresh
  sound c := sound c.refresh

theorem stages_pos (c : CachedRead) : 0 < (delay c).stages :=
  c.refresh.stages_pos

variable [Exchange ε]

section
variable {w : World ε} {key : BalanceKey}

theorem begin_of_cached {b : Balance} (hb : w.watcher.cached key.code = some b) :
    begin w key = (w, .done b) := by
  unfold begin
  rw [hb]

variable (hb : w.watcher.cached key.code = none)
include hb

theorem begin_of_untracked (ht : ¬ w.watcher.strategy.tracks key.code = true) :
    begin w key = (w, .done (.zero key.code .epoch)) := by
  unfold begin
  rw [hb]
  exact if_neg ht

theorem begin_of_missed (ht : w.watcher.strategy.tracks key.code = true) :
    begin w key = afterRefresh key.code (Refresh.begin w []) := by
  unfold begin
  rw [hb]
  exact if_pos ht

end

/-- A read serves at once what is there, or is made of a refresh. -/
theorem begin_cases (w : World ε) (key : BalanceKey) :
    begin w key = (w, .done (cachedOrZero w.watcher key.code)) ∨
      begin w key = afterRefresh key.code (Refresh.begin w []) := by
  cases hb : w.watcher.cached key.code with
  | some b => exact .inl (by rw [begin_of_cached hb, cachedOrZero, hb]; rfl)
  | none =>
    by_cases ht : w.watcher.strategy.tracks key.code = true
    · exact .inr (begin_of_missed hb ht)
    · exact .inl (by rw [begin_of_untracked hb ht, cachedOrZero, hb]; rfl)

omit [Exchange ε] in
theorem within_afterRefresh {n : Nat} {currency : String} {r : World ε × Progress Refresh Unit}
    (h : Within False n r.2) : Within False n (afterRefresh currency r).2 :=
  h.andThen (k := 0) (fun _ h => h) (fun _ => rfl) fun _ => trivial

theorem within_begin (hx : Faultless ε) (w : World ε) (key : BalanceKey) :
    Within False 4 (begin w key).2 := by
  obtain h | h := begin_cases w key
  · rw [h]
    trivial
  · rw [h]
    exact within_afterRefresh (Refresh.within_begin w hx [])

theorem within_resume_of_isReady (hx : Faultless ε) (w : World ε) (c : CachedRead) (h : sound c)
    (hr : c.isReady w = true) : Within False (delay c).stages (c.resume w).2 :=
  within_afterRefresh (Refresh.within_resume_of_isReady hx w h hr)

theorem resume_of_not_isReady (w : World ε) (c : CachedRead) (hr : c.isReady w = false) :
    c.resume w = (w, .blocked c) := by
  rw [resume, Refresh.resume_of_not_isReady w hr]
  rfl

/-- A read alone comes to its end. -/
theorem ends_of_idle {w : World ε} (hx : Faultless ε) (hidle : w.watcher.Idle)
    {times : Nat → Int} (ht : Turns w.now times) (key : BalanceKey) :
    Ends resume times (begin w key) fun _ _ => True := by
  obtain h | h := begin_cases w key
  · rw [h]
    exact .done trivial
  · rw [h]
    refine (EndsUnless.of_fetch (fun _ _ => rfl) hidle ht fun t times' => ?_).ends
    have hsound : (Refresh.replyNow (Refresh.drawn w) []).Sound := fun fault =>
      hx.balance _ _ _ fault
    have hwithin : Within False 0 (Refresh.finish ((Refresh.asked (Refresh.drawn w) []).at_ t)
        w.watcher.lock.next w.time (Refresh.replyNow (Refresh.drawn w) [])).2 :=
      Refresh.within_finish _ w.watcher.lock.next w.time hsound 0
    generalize Refresh.finish ((Refresh.asked (Refresh.drawn w) []).at_ t) w.watcher.lock.next
      w.time (Refresh.replyNow (Refresh.drawn w) []) = r at hwithin
    obtain ⟨w', p⟩ := r
    cases p with
    | done a => exact .done trivial
    | crashed => exact hwithin.elim
    | blocked r => exact absurd hwithin.2 (Nat.not_lt_zero _)

/-! ### Beside other calls -/

section
variable {s : Calls (Metered ε)} {key : BalanceKey}

/-- A read made of a refresh is that refresh all along. -/
theorem run_of_missed (h : begin s.world key = afterRefresh key.code (Refresh.begin s.world []))
    (ms : List (Beside.Move ε)) :
    (Beside.enter s (begin s.world key)).run resume ms =
      ((Beside.enter s (Refresh.begin s.world [])).run Refresh.resume ms).lifted (mk key.code)
        fun w _ => cachedOrZero w.watcher key.code := by
  have hstart : Beside.enter s (begin s.world key) =
      (Beside.enter s (Refresh.begin s.world [])).lifted (mk key.code)
        fun w _ => cachedOrZero w.watcher key.code := by
    rw [h]
    exact Beside.after_lift ..
  have hturn (w : World (Metered ε)) (r : Refresh) : resume w (mk key.code r) =
      Progress.lift (r.resume w) (mk key.code) fun w _ => cachedOrZero w.watcher key.code := rfl
  rw [hstart, Beside.run_lifted hturn]

/-- A read returns what is there when it returns. -/
theorem eq_cachedOrZero {ms : List (Beside.Move ε)} {b : Balance}
    (hb : ((Beside.enter s (begin s.world key)).run resume ms).task = .done b) :
    b = cachedOrZero ((Beside.enter s (begin s.world key)).run resume ms).world.watcher
      key.code := by
  obtain h | h := begin_cases s.world key
  · have hover : (Beside.enter s (begin s.world key)).task.left = none := by
      rw [h]
      rfl
    rw [Beside.run_of_over hover, h] at hb ⊢
    exact (Progress.done.inj hb).symm
  · rw [run_of_missed h] at hb ⊢
    generalize (Beside.enter s (Refresh.begin s.world [])).run Refresh.resume ms = x at hb
    obtain ⟨s', p, sent⟩ := x
    cases p with
    | blocked | crashed => cases hb
    | done u => exact (Progress.done.inj hb).symm

end

end CachedRead

/-- What the watcher has of a currency bears its name. -/
theorem CachedRead.currency_cachedOrZero (w : Watcher) (currency : String) :
    (cachedOrZero w currency).currency = currency := by
  unfold cachedOrZero
  cases hb : w.cached currency with
  | some b => exact BalanceTable.currency_of_get? hb
  | none => rfl

theorem Strategy.tracks_iff (s : Strategy) (currency : String) :
    s.tracks currency = true ↔ currency = s.quoteCurrency ∨
      ∃ a ∈ s.assets, currency = a.base ∨ currency = a.quote := by
  simp only [tracks, Bool.or_eq_true, List.any_eq_true, beq_iff_eq, @eq_comm _ currency]

namespace Calls

variable [Exchange ε]

/-- A read of a cached balance, by whatever stands for the currency, on a watcher of any past and
beside any calls of others. What is cached is served at once, and so is zero for what is neither
cached nor a currency of the strategy; nothing is sent then, and the world stays as it is. Any other
read is one refresh that begins at that moment, and sends one request at most. What a read returns
is what the watcher has of the currency then, or zero, and bears the currency's name. It does
return, if no reply stops it: by the third of its turns that find what it waits for, and some time
or other if nobody else calls. -/
theorem cached_read_fetches_on_tracked_miss (now : Int) (exchange : Metered ε)
    (strategy : Strategy) (pollInterval : Duration) (capacity : Nat)
    (before : List (Move (Metered ε))) (key : BalanceKey) (ms : List (Beside.Move ε))
    (times : Nat → Int) :
    let s := (Calls.new now exchange (.new strategy pollInterval capacity)).run before
    let w := s.world
    let tracked := key.code = strategy.quoteCurrency ∨
      ∃ a ∈ strategy.assets, key.code = a.base ∨ key.code = a.quote
    let start := Beside.enter s (CachedRead.begin w key)
    let read := start.run CachedRead.resume ms
    let refresh := (Beside.enter s (Refresh.begin w [])).run Refresh.resume ms
    (∀ b, w.watcher.cached key.code = some b → CachedRead.begin w key = (w, .done b)) ∧
    (w.watcher.cached key.code = none → ¬ tracked →
      CachedRead.begin w key = (w, .done (.zero key.code .epoch))) ∧
    (w.watcher.cached key.code = none → tracked →
      read = refresh.lifted (CachedRead.mk key.code)
          (fun w _ => (w.watcher.cached key.code).getD (.zero key.code .epoch)) ∧
        read.sent.length ≤ 1) ∧
    (∀ b, read.task = .done b →
      b = (read.world.watcher.cached key.code).getD (.zero key.code .epoch) ∧
        b.currency = key.code) ∧
    (Faultless ε →
      (∃ b, read.task = .done b) ∨ ∃ c, read.task = .blocked c ∧
        start.readyTurns CachedRead.resume CachedRead.isReady ms ≤ 2) ∧
    (Faultless ε → s.live = [] → Turns w.now times →
      ∃ n w' b, alone CachedRead.resume times n (CachedRead.begin w key) = (w', .done b)) := by
  intro s w tracked start read refresh
  have hstrategy : w.watcher.strategy = strategy :=
    (Calls.later_run (Calls.new now exchange (.new strategy pollInterval capacity)) before).strategy
  have htracks : w.watcher.strategy.tracks key.code = true ↔ tracked := by
    rw [hstrategy]
    exact strategy.tracks_iff key.code
  refine ⟨fun b hb => ?_, fun hb ht => ?_, fun hb ht => ?_, fun b hdone => ?_, fun hx => ?_,
    fun hx hlive hturns => ?_⟩
  · exact CachedRead.begin_of_cached hb
  · exact CachedRead.begin_of_untracked hb (mt htracks.1 ht)
  · have hmiss : read = refresh.lifted _ _ :=
      CachedRead.run_of_missed (CachedRead.begin_of_missed hb (htracks.2 ht)) ms
    refine ⟨hmiss, ?_⟩
    rw [hmiss]
    exact Refresh.length_sent_beside s [] ms
  · have hserved : b = CachedRead.cachedOrZero read.world.watcher key.code :=
      CachedRead.eq_cachedOrZero hdone
    refine ⟨hserved, ?_⟩
    rw [hserved]
    exact CachedRead.currency_cachedOrZero ..
  · obtain hdone | ⟨c, hc, hlt⟩ := Beside.task_run (x := start)
      (CachedRead.within_resume_of_isReady (Metered.faultless hx)) CachedRead.resume_of_not_isReady
      (CachedRead.within_begin (Metered.faultless hx) w key) ms
    · exact .inl hdone
    · have hpos := c.stages_pos
      exact .inr ⟨c, hc, by omega⟩
  · have he : Exclusive w.watcher s.live :=
      (Exclusive.new now exchange strategy pollInterval capacity).run before
    obtain ⟨hflag, hqueue⟩ := he.idle (by simp [hlive])
    obtain ⟨n, w', b, hn, -⟩ :=
      CachedRead.ends_of_idle (Metered.faultless hx) ⟨hflag, hqueue⟩ hturns key
    exact ⟨n, w', b, hn⟩

/-- What was pushed is cached and read as it is, a currency of nobody reads zero, and a read of the
quote currency sends one request, for whose reply somebody else waits beside it. -/
theorem cached_read_fetches_on_tracked_miss_scripted :
    let exchange : Metered ScriptedExchange :=
      ⟨ScriptedExchange.new "sim" [⟨.ok (.object []), 2⟩] [], []⟩
    let strategy := Strategy.new "spot" "sim" "USDT" ⟨5⟩
    let payload := Json.Value.object [("BTC", .object [("free", .number (.int 1))])]
    let s := (Calls.new 0 exchange (.new strategy .zero 4)).run [.push payload .epoch, .renewView]
    let start := Beside.enter s (CachedRead.begin s.world (.strategy strategy))
    let ms : List (Beside.Move ScriptedExchange) :=
      [.turn, .other (.enter []), .other (.elapse 2), .turn]
    let read := start.run CachedRead.resume ms
    (∃ b, s.world.watcher.cached "BTC" = some b ∧
      CachedRead.begin s.world (.currency "BTC") = (s.world, .done b)) ∧
    CachedRead.begin s.world (.currency "DOGE") = (s.world, .done (.zero "DOGE" .epoch)) ∧
    read.sent.length ≤ 1 ∧ read.sent.length = 1 ∧ read.task = .done (.zero "USDT" .epoch) ∧
    ((∃ b, read.task = .done b) ∨ ∃ c, read.task = .blocked c ∧
      start.readyTurns CachedRead.resume CachedRead.isReady ms ≤ 2) ∧
    ∃ n w' b, alone CachedRead.resume (fun i => (i : Int)) n
      (CachedRead.begin s.world (.strategy strategy)) = (w', .done b) := by
  have hall (key : BalanceKey) := cached_read_fetches_on_tracked_miss 0
    (⟨ScriptedExchange.new "sim" [⟨.ok (.object []), 2⟩] [], []⟩ : Metered ScriptedExchange)
    (Strategy.new "spot" "sim" "USDT" ⟨5⟩) .zero 4
    [.push (.object [("BTC", .object [("free", .number (.int 1))])]) .epoch, .renewView] key
    [.turn, .other (.enter []), .other (.elapse 2), .turn] fun i => (i : Int)
  have hturns : Turns 0 fun i => (i : Int) :=
    ⟨by decide, fun i => by omega, fun t => ⟨t.toNat, by omega⟩⟩
  obtain ⟨hcached, -⟩ := hall (.currency "BTC")
  obtain ⟨-, huntracked, -⟩ := hall (.currency "DOGE")
  obtain ⟨-, -, hmiss, -, hends, halone⟩ := hall (.strategy (.new "spot" "sim" "USDT" ⟨5⟩))
  refine ⟨⟨_, rfl, hcached _ rfl⟩, huntracked rfl ?_, (hmiss rfl (.inl rfl)).2, rfl, rfl,
    hends ScriptedExchange.faultless, halone ScriptedExchange.faultless rfl hturns⟩
  rintro (hquote | ⟨_, ⟨⟩, -⟩)
  exact absurd hquote (by decide)

end Calls

end Portfolio
