import Portfolio.Proofs.Alone.Delay
import Portfolio.Proofs.Calls.Fetched

/-! # A wait beside other calls

`Waiting` is a wait for a fresh balance beside the calls of everybody else. A run is a list of moves
in any order: the wait gets a turn, or one of the others moves. When the wait is over nothing more
happens, so the last state of a run is the moment at which the wait returned. What every act of a
call keeps holds all along (`Waiting.run_invariant`), be it an act of the wait or of the others. -/

namespace Portfolio

variable {ε : Type}

/-! ## Invariants beside other calls -/

section
variable [Exchange ε] {P : World ε → List Call → Prop}

theorem Calls.world_step_congr (s s' : Calls ε) (h : s.world = s'.world) {m : Calls.Move ε}
    (hm : m.isCall = false) : (s.step m).world = (s'.step m).world := by
  cases m with
  | enter | lock | resume | drop => cases hm
  | _ => simp only [Calls.step, Calls.onWorld, h]

theorem TurnInvariant.congr {P Q : World ε → Option Refresh → Prop} (h : TurnInvariant P)
    (hpq : ∀ w r, P w r ↔ Q w r) : TurnInvariant Q :=
  have heq : P = Q := funext fun w => funext fun r => propext (hpq w r)
  heq ▸ h

namespace CallInvariant

variable (h : CallInvariant P)
include h

/-- Some calls stand by. -/
theorem beside (ds : List Call) : CallInvariant fun w cs => P w (ds ++ cs) where
  perm hp hc := h.perm hp (hc.append_left ds)
  turn cs := by
    refine (h.turn (ds ++ cs)).congr fun w r => ?_
    have hperm : ((r.map Call.refresh).toList ++ (ds ++ cs)).Perm
        (ds ++ ((r.map Call.refresh).toList ++ cs)) := List.perm_append_comm_assoc ..
    exact ⟨fun hp => h.perm hp hperm, fun hp => h.perm hp hperm.symm⟩
  lock hp := h.perm (h.lock hp) List.perm_middle.symm
  take hp ht := h.perm (h.take (h.perm hp List.perm_middle) ht) List.perm_middle.symm
  drop hp := h.drop (h.perm hp List.perm_middle)

variable (hother : ∀ s : Calls ε, P s.world s.live → ∀ m, m.isOfFetches = true →
  m.isCall = false → P (s.step m).world s.live)
include hother

/-- Who reads keeps what every act keeps, and what is done beside the calls. -/
theorem reads {w w' : World ε} {cs cs' rest : List Call} (hr : Reads w cs w' cs')
    (hp : P w (cs ++ rest)) : P w' (cs' ++ rest) := by
  obtain ⟨s, rfl, hlive, ms, hms, rfl, hl⟩ := (hr.right rest).exists_run
  refine h.perm (h.run (by rwa [hlive]) fun s hs m hm => ?_) hl
  exact hother s hs m (Calls.Move.isOfFetches_of_isReading (hms m hm))

/-- A move of the others, some calls standing by. -/
theorem step_beside {s : Calls ε} {ds : List Call} (hp : P s.world (ds ++ s.live))
    {m : Calls.Move ε} (hm : m.isOfFetches = true) :
    P (s.step m).world (ds ++ (s.step m).live) := by
  refine (h.beside ds).step hp fun hcall => ?_
  let all := Calls.mk s.world ((ds ++ s.live).map some)
  have hlive : all.live = ds ++ s.live := Calls.live_map_some ..
  have hworld : (all.step m).world = (s.step m).world := Calls.world_step_congr all s rfl hcall
  have hstep := hother all (by rwa [hlive]) m hm hcall
  rwa [hlive, hworld] at hstep

end CallInvariant

end

/-! ## The wait and the others -/

/-- A wait for a fresh balance beside the calls of everybody else. -/
structure Waiting (ε : Type) where
  others : Calls ε
  task : Progress FreshWait Bool

namespace Waiting

/-- One move of a run. -/
inductive Move (ε : Type) where
  /-- The wait gets its turn. -/
  | turn
  /-- One of the others moves. -/
  | other (m : Calls.Move ε)

/-- Nobody resets the table or pushes a record by hand. -/
def Move.isOfFetches : Move ε → Bool
  | .turn => true
  | .other m => m.isOfFetches

def world (x : Waiting ε) : World ε :=
  x.others.world

/-- The calls of the wait and those of the others. -/
def calls (x : Waiting ε) : List Call :=
  x.task.calls FreshWait.calls ++ x.others.live

/-- After the wait ran beside the others. -/
def after (s : Calls ε) (r : World ε × Progress FreshWait Bool) : Waiting ε :=
  ⟨{ s with world := r.1 }, r.2⟩

@[simp] theorem world_after (s : Calls ε) (r : World ε × Progress FreshWait Bool) :
    (after s r).world = r.1 := rfl

@[simp] theorem task_after (s : Calls ε) (r : World ε × Progress FreshWait Bool) :
    (after s r).task = r.2 := rfl

variable [Exchange ε]

/-- A wait of `waitFor` at most begins. -/
def enter (s : Calls ε) (currency : Option String) (since : Option Timestamp) (waitFor : Duration)
    (force : Bool) : Waiting ε :=
  after s (FreshWait.begin s.world currency since waitFor force)

/-- One move. -/
def step (x : Waiting ε) (m : Move ε) : Waiting ε :=
  match x.task, m with
  | .blocked f, .turn => after x.others (f.resume x.world)
  | .blocked _, .other m => { x with others := x.others.step m }
  | .done _, _ | .crashed, _ => x

/-- Moves, one after the other. -/
def run (x : Waiting ε) (ms : List (Move ε)) : Waiting ε :=
  ms.foldl step x

@[simp] theorem run_nil (x : Waiting ε) : x.run [] = x := rfl

@[simp] theorem run_cons (x : Waiting ε) (m : Move ε) (ms : List (Move ε)) :
    x.run (m :: ms) = (x.step m).run ms := rfl

@[simp] theorem run_append (x : Waiting ε) (ms ns : List (Move ε)) :
    x.run (ms ++ ns) = (x.run ms).run ns := List.foldl_append

section
variable {x : Waiting ε} {f : FreshWait}

theorem step_turn (h : x.task = .blocked f) : x.step .turn = after x.others (f.resume x.world) := by
  unfold step
  rw [h]

theorem step_other (h : x.task = .blocked f) (m : Calls.Move ε) :
    x.step (.other m) = { x with others := x.others.step m } := by
  unfold step
  rw [h]

/-- A wait that is over stays so. -/
theorem step_of_over (h : x.task.left = none) (m : Move ε) : x.step m = x := by
  unfold step
  split
  · next hb => rw [hb] at h; cases h
  · next hb => rw [hb] at h; cases h
  · rfl
  · rfl

theorem run_of_over (h : x.task.left = none) (ms : List (Move ε)) : x.run ms = x := by
  induction ms with
  | nil => rfl
  | cons m ms ih => rw [run_cons, step_of_over h, ih]

end

/-! ## What holds all along -/

/-- What the turns of the wait and the moves of the others keep holds all along. -/
theorem run_induction {P : Waiting ε → Prop}
    (hturn : ∀ x f, P x → x.task = .blocked f → P (after x.others (f.resume x.world)))
    (hother : ∀ x f m, P x → x.task = .blocked f → m.isOfFetches = true →
      P { x with others := x.others.step m })
    {x : Waiting ε} (hx : P x) {ms : List (Move ε)} (hms : ∀ m ∈ ms, m.isOfFetches = true) :
    P (x.run ms) := by
  induction ms generalizing x with
  | nil => exact hx
  | cons m ms ih =>
    obtain ⟨hm, hrest⟩ := List.forall_mem_cons.1 hms
    cases hf : x.task with
    | blocked f =>
      rw [run_cons]
      cases m with
      | turn =>
        rw [step_turn hf]
        exact ih (hturn x f hx hf) hrest
      | other m =>
        rw [step_other hf]
        exact ih (hother x f m hx hf hm) hrest
    | done | crashed =>
      rw [run_of_over (by rw [hf]; rfl)]
      exact hx

section
variable {P : World ε → List Call → Prop} (hP : CallInvariant P)
  (hother : ∀ s : Calls ε, P s.world s.live → ∀ m, m.isOfFetches = true → m.isCall = false →
    P (s.step m).world s.live)
include hP hother

theorem enter_invariant {s : Calls ε} (hs : P s.world s.live) (currency : Option String)
    (since : Option Timestamp) (waitFor : Duration) (force : Bool) :
    let x := enter s currency since waitFor force
    P x.world x.calls :=
  hP.reads hother (FreshWait.leads_begin ..) hs

theorem run_invariant {x : Waiting ε} (hx : P x.world x.calls) {ms : List (Move ε)}
    (hms : ∀ m ∈ ms, m.isOfFetches = true) : P (x.run ms).world (x.run ms).calls := by
  have hcalls {x : Waiting ε} {f : FreshWait} (hf : x.task = .blocked f) :
      x.calls = f.calls ++ x.others.live := by
    rw [calls, hf]
    rfl
  refine run_induction (P := fun x => P x.world x.calls) (fun x f hx hf => ?_)
    (fun x f m hx hf hm => ?_) hx hms
  · rw [hcalls hf] at hx
    exact hP.reads hother (FreshWait.leads_resume x.world f) hx
  · rw [hcalls hf] at hx
    have hstep := hP.step_beside hother hx hm
    rwa [calls, hf]

end

section
variable {x : Waiting ε} {ms : List (Move ε)} (hms : ∀ m ∈ ms, m.isOfFetches = true)
include hms

theorem fetched_run (h : Fetched x.world x.calls) : Fetched (x.run ms).world (x.run ms).calls :=
  run_invariant Fetched.callInvariant (fun _ hs _ hof hcall => hs.other hcall hof) h hms

theorem notBefore_run {t : Timestamp} (h : NotBefore t x.world x.calls) :
    NotBefore t (x.run ms).world (x.run ms).calls :=
  run_invariant (NotBefore.callInvariant t)
    (fun _ hs _ hof hcall => hs.other hcall (Calls.Move.keepsStamp_of_isOfFetches hof t)) h hms

end

theorem data_run {P : Watcher → Prop} (h : DataInvariant P) {x : Waiting ε}
    (hx : P x.world.watcher) {ms : List (Move ε)} (hms : ∀ m ∈ ms, m.isOfFetches = true) :
    P (x.run ms).world.watcher :=
  run_induction (P := fun x => P x.world.watcher)
    (fun x f hx _ => h.reads (FreshWait.leads_resume x.world f) hx)
    (fun _ _ _ hx _ hm => h.step hx hm) hx hms

/-- The newest record is never replaced by an older one. -/
theorem hasRecordFrom_run {x : Waiting ε} (hx : Fetched x.world x.calls) {t : Timestamp}
    (h : x.world.watcher.HasRecordFrom t) {ms : List (Move ε)}
    (hms : ∀ m ∈ ms, m.isOfFetches = true) : (x.run ms).world.watcher.HasRecordFrom t := by
  obtain ⟨r, hr, hle⟩ := h
  refine Watcher.hasRecordFrom_of_isSome ?_ (notBefore_run hms (hx.notBefore hr)) hle
  exact data_run Watcher.dataInvariant_latest? (by rw [hr]; rfl) hms

end Waiting

end Portfolio
