import Portfolio.Proofs.Suspended.Basic

/-! # Stages that run through

A refresh whose stages run one after the other, nobody moving in between, is the refresh of
`Portfolio.Live.Refresh` (`Stage.runs_begin`, `Stage.runs_resume`). So a run of calls that switch
only where they wait is one of the runs that may be suspended anywhere (`Suspended.exists_run`). -/

namespace Portfolio

open Refresh

variable {ε : Type} [Exchange ε]

def Stage.ofRefresh : Refresh → Stage
  | .joining seen deadline fallback => .joining seen deadline fallback
  | .queueing ticket fallback => .queueing ticket fallback
  | .fetching ticket started due reply => .fetching ticket started due reply

namespace Stage

/-- The refresh gets from one stage to another, or to its end, while nobody else moves. -/
inductive Runs : World ε → Option Stage → World ε → Option Stage → Prop
  | refl (w : World ε) (c : Option Stage) : Runs w c w c
  | step {w w' w'' : World ε} {c : Stage} {c' c'' : Option Stage} (hc : c.advance w = (w', c'))
      (h : Runs w' c' w'' c'') : Runs w (some c) w'' c''

theorem fst_finish_of_payload {w : World ε} (ticket : Nat) (started : Timestamp)
    {reply : Reply Json.Value} {payload : Json.Value} (h : reply.payload? = some payload) :
    (finish w ticket started reply).1 =
      (w.logAll reply.events).onWatcher (·.land ticket payload started) := by
  unfold Reply.payload? at h
  split at h
  · next v ho =>
    split at h
    · next hv =>
      cases h
      simp only [finish, ho, readReply, hv, if_true]
      rfl
    · cases h
  · cases h
  · cases h

theorem advance_loading {w : World ε} {r : FetchRecord}
    (h : w.watcher.buffer.latest? = some r) :
    Stage.loading.advance w = (w, some (.writing r)) :=
  Prod.ext rfl (congrArg (Option.map Stage.writing) h)

/-- The reply is there: it is stored, its time taken down, the lock freed, and the table made. -/
theorem runs_finish {w : World ε} {ticket : Nat} {started : Timestamp} {due : Int}
    {reply : Reply Json.Value} (hdue : due ≤ w.now) :
    Runs w (some (.fetching ticket started due reply)) (finish w ticket started reply).1 none := by
  refine .step (if_pos hdue) ?_
  cases hp : reply.payload? with
  | none => exact .refl _ _
  | some payload =>
    have hlatest : ((w.logAll reply.events).watcher.push payload started).buffer.latest? =
        some ⟨payload, started⟩ := RecordBuffer.latest?_push ..
    refine .step rfl (.step rfl (.step (advance_loading hlatest) ?_))
    rw [fst_finish_of_payload ticket started hp]
    simp only [World.onWatcher, Watcher.land_eq]
    exact .step rfl (.refl _ none)

theorem runs_fetch (w : World ε) {ticket : Nat} {fallback : Params}
    (ht : w.watcher.lock.isTurn ticket = true) :
    Runs w (some (.queueing ticket fallback)) (fetch w ticket fallback).1
      ((fetch w ticket fallback).2.left.map ofRefresh) := by
  refine .step (if_pos ht) ?_
  rw [fetch_eq]
  split
  · next h0 =>
    rw [left_finish]
    refine runs_finish ?_
    show w.now + ((replyNow w fallback).latency : Int) ≤ w.now
    omega
  · exact .refl _ _

theorem runs_await (w : World ε) (ticket : Nat) (fallback : Params) :
    Runs w (some (.queueing ticket fallback)) (await w ticket fallback).1
      ((await w ticket fallback).2.left.map ofRefresh) := by
  unfold await
  split
  · next ht => exact runs_fetch w ht
  · exact .refl _ _

theorem runs_join (w : World ε) (seen : Seen) (deadline : Int) (fallback : Params) :
    Runs w (some (.joining seen deadline fallback)) (join w seen deadline fallback).1
      ((join w seen deadline fallback).2.left.map ofRefresh) := by
  unfold join
  split
  · next ho =>
    refine .step (if_pos ho) (.step rfl ?_)
    -- the two comparisons so far and the one that follows are `hasNews`
    split
    · next hnews => exact .step (if_pos hnews) (.refl _ _)
    · next hnews => exact .step (if_neg hnews) (runs_await ..)
  · exact .refl _ _

/-- A refresh that begins, up to where it waits. -/
theorem runs_begin (w : World ε) (fallback : Params) :
    Runs w (some (Suspended.entered w fallback)) (begin w fallback).1
      ((begin w fallback).2.left.map ofRefresh) := by
  refine .step rfl ?_
  unfold begin
  split
  · next hf => exact .step (if_pos hf) (runs_join ..)
  · next hf => exact .step (if_neg hf) (runs_await ..)

theorem runs_resume (w : World ε) (r : Refresh) :
    Runs w (some (ofRefresh r)) (r.resume w).1 ((r.resume w).2.left.map ofRefresh) := by
  cases r with
  | joining => exact runs_join ..
  | queueing => exact runs_await ..
  | fetching ticket started due reply =>
    simp only [Refresh.resume]
    split
    · next hdue => rw [left_finish]; exact runs_finish hdue
    · exact .refl _ _

omit [Exchange ε] in
theorem drop_ofRefresh (w : World ε) (r : Refresh) : (ofRefresh r).drop w = r.drop w := by
  cases r <;> rfl

end Stage

/-- The move is one of a refresh, or of the clock. -/
def Calls.Move.isOfRefresh : Calls.Move ε → Bool
  | .enter _ | .resume _ | .drop _ | .elapse _ => true
  | _ => false

namespace Suspended

/-- The same refreshes, each where it waits. -/
def Mirrors (s : Suspended ε) (t : Calls ε) : Prop :=
  s.world = t.world ∧ ∃ slots : List (Option Refresh),
    s.slots = slots.map (·.map .ofRefresh) ∧ t.slots = slots.map (·.map .refresh)

/-- What runs through while nobody else moves is a run of moves. -/
theorem run_of_runs {s : Suspended ε} {place : Nat} {c c' : Option Stage} {w : World ε}
    (h : Stage.Runs s.world c w c') (hc : s.slots[place]? = some c) :
    ∃ ms, s.run ms = ⟨w, s.slots.set place c'⟩ := by
  generalize hw : s.world = w₀ at h
  induction h generalizing s with
  | refl w c =>
    refine ⟨[], ?_⟩
    obtain ⟨hlt, hget⟩ := List.getElem?_eq_some_iff.1 hc
    rw [run_nil, ← hget, List.set_getElem_self, ← hw]
  | @step w w' w'' c c' c'' hcw h ih =>
    have hstep : s.step (.advance place) = ⟨w', s.slots.set place c'⟩ := by
      rw [step_advance (by rw [stage?, hc]; rfl), hw, hcw]
    have hlt := (List.getElem?_eq_some_iff.1 hc).1
    obtain ⟨ms, hms⟩ := @ih (s.step (.advance place))
      (by rw [hstep]; exact List.getElem?_set_self hlt) (by rw [hstep])
    refine ⟨.advance place :: ms, ?_⟩
    rw [run_cons, hms, hstep, List.set_set]

theorem Mirrors.step {s : Suspended ε} {t : Calls ε} (h : Mirrors s t) {m : Calls.Move ε}
    (hm : m.isOfRefresh = true) : ∃ ms, Mirrors (s.run ms) (t.step m) := by
  obtain ⟨hw, slots, hs, ht⟩ := h
  have hplace {place : Nat} {c : Call} (hc : t.call? place = some c) :
      ∃ r, c = .refresh r ∧ slots[place]? = some (some r) := by
    have hget := Calls.getElem?_of_call? hc
    rw [ht, List.getElem?_map, Option.map_eq_some_iff] at hget
    obtain ⟨r?, hr?, hr⟩ := hget
    obtain ⟨r, rfl, rfl⟩ := Option.map_eq_some_iff.1 hr
    exact ⟨r, rfl, hr?⟩
  cases m with
  | enter fallback =>
    have hruns := Stage.runs_begin s.world fallback
    have hget : (s.step (.enter fallback)).slots[s.slots.length]? =
        some (some (entered s.world fallback)) := List.getElem?_concat_length
    obtain ⟨ms, hms⟩ := run_of_runs (s := s.step (.enter fallback)) hruns hget
    refine ⟨.enter fallback :: ms, ?_⟩
    rw [run_cons, hms]
    refine ⟨by rw [hw]; rfl, slots ++ [(begin t.world fallback).2.left], ?_, ?_⟩
    · simp [Suspended.step, hs, hw]
    · simp [Calls.step, ht]
  | resume place =>
    cases hc : t.call? place with
    | none => exact ⟨[], by rw [run_nil, Calls.step, hc]; exact ⟨hw, slots, hs, ht⟩⟩
    | some c =>
      obtain ⟨r, rfl, hr⟩ := hplace hc
      have hget : s.slots[place]? = some (some (.ofRefresh r)) := by
        rw [hs, List.getElem?_map, hr]; rfl
      obtain ⟨ms, hms⟩ := run_of_runs (Stage.runs_resume s.world r) hget
      refine ⟨ms, ?_⟩
      rw [hms, Calls.step_resume hc]
      refine ⟨by rw [hw]; rfl, slots.set place (r.resume t.world).2.left, ?_, ?_⟩
      · rw [hs, hw, List.map_set]
      · rw [ht, List.map_set]; rfl
  | drop place =>
    cases hc : t.call? place with
    | none => exact ⟨[], by rw [run_nil, Calls.step, hc]; exact ⟨hw, slots, hs, ht⟩⟩
    | some c =>
      obtain ⟨r, rfl, hr⟩ := hplace hc
      have hstage : s.stage? place = some (.ofRefresh r) := by
        rw [stage?, hs, List.getElem?_map, hr]; rfl
      refine ⟨[.drop place], ?_⟩
      rw [run_cons, run_nil, step_drop hstage, Calls.step_drop hc, Stage.drop_ofRefresh]
      refine ⟨by rw [hw]; rfl, slots.set place none, ?_, ?_⟩
      · rw [hs, List.map_set]; rfl
      · rw [ht, List.map_set]; rfl
  | elapse length =>
    refine ⟨[.elapse length], ?_, slots, hs, ht⟩
    rw [run_cons, run_nil, Suspended.step, hw]
    rfl
  | _ => cases hm

/-- Every run of refreshes that switch only where they wait is a run of refreshes that may be
suspended at every await. -/
theorem exists_run (now : Int) (exchange : ε) (watcher : Watcher) {ms : List (Calls.Move ε)}
    (hms : ∀ m ∈ ms, m.isOfRefresh = true) :
    ∃ ns, Mirrors ((Suspended.new now exchange watcher).run ns)
      ((Calls.new now exchange watcher).run ms) := by
  have hrun (s : Suspended ε) (t : Calls ε) (h : Mirrors s t) :
      ∃ ns, Mirrors (s.run ns) (t.run ms) := by
    induction ms generalizing s t with
    | nil => exact ⟨[], h⟩
    | cons m ms ih =>
      obtain ⟨first, hfirst⟩ := h.step (hms m (.head _))
      obtain ⟨ns, hns⟩ := ih (fun n hn => hms n (.tail _ hn)) _ _ hfirst
      exact ⟨first ++ ns, by rw [run_append]; exact hns⟩
  exact hrun _ _ ⟨rfl, [], rfl, rfl⟩

end Suspended

end Portfolio
