import Portfolio.Proofs.Calls.Ledger
import Portfolio.Simulation.ScriptedExchange

/-! # All or nothing

Whatever a refresh does to the history, the time of the last fetch, the table and the count of
signals it does in one move, and there it does all of it (`Calls.refresh_all_or_nothing`). It does
so exactly if it gets to the end of its own request and the reply counts. -/

namespace Portfolio

namespace Course

variable {seen? : Option Seen} {news : Prop} {c? : Option Call} {requests : List Request}
  {records : List FetchRecord} {gone : Bool}

theorem length_records_le (h : Course seen? news c? requests records gone) :
    records.length ≤ 1 := by
  cases h with
  | settles request => exact Option.length_toList_le
  | _ => exact Nat.zero_le _

/-- What was landed is what the call's own request brought, and the call has ended by itself. -/
theorem records_eq_singleton (h : Course seen? news c? requests records gone) (r : FetchRecord) :
    records = [r] ↔ c? = none ∧ gone = false ∧
      ∃ request, requests = [request] ∧ request.record? = some r := by
  cases h with
  | settles request => simp [Option.toList_eq_singleton_iff]
  | _ => simp

end Course

namespace Calls

variable {ε : Type} [Exchange ε]

omit [Exchange ε] in
theorem isCall_of_isOf {s : Calls ε} {place : Nat} {m : Move ε} (h : s.isOf place m = true) :
    m.isCall = true := by
  cases m with
  | enter | lock | resume | drop => rfl
  | _ => cases h

/-- A refresh is all or nothing. At each of its moves it leaves history, last fetch, table and
signals as they are, or lands one record in all four. It lands one record at most over its life, and
each one by such a move. It lands one exactly if it ends by itself after a request of its own whose
reply counts, and then the record is that reply with the time of the request. -/
theorem refresh_all_or_nothing (now : Int) (exchange : Metered ε) (strategy : Strategy)
    (pollInterval : Duration) (capacity : Nat) (before : List (Move (Metered ε)))
    (fallback : Params) (ms : List (Move (Metered ε))) :
    let s := (Calls.new now exchange (.new strategy pollInterval capacity)).run before
    let place := s.slots.length
    let moves := .enter fallback :: ms
    let watcherAt earlier := (s.run earlier).world.watcher
    (∀ earlier m, earlier ++ [m] <+: moves → (s.run earlier).isOf place m = true →
      (watcherAt earlier).SameData (watcherAt (earlier ++ [m])) ∨
        ∃ r, (watcherAt earlier).Lands r (watcherAt (earlier ++ [m])) ∧
          s.recordsOf place moves = [r]) ∧
      (s.recordsOf place moves).length ≤ 1 ∧
      (∀ r ∈ s.recordsOf place moves, ∃ earlier m, earlier ++ [m] <+: moves ∧
        (s.run earlier).isOf place m = true ∧
          (watcherAt earlier).Lands r (watcherAt (earlier ++ [m]))) ∧
      ∀ r, s.recordsOf place moves = [r] ↔
        (s.run moves).call? place = none ∧ s.isGivenUp place moves = false ∧
          ∃ request, s.requestsOf place moves = [request] ∧ request.record? = some r := by
  intro s place moves watcherAt
  have hlife : Course (some s.world.watcher.seen) True _ _ _ _ :=
    .life s fallback ms (fun _ => trivial) fun _ _ _ _ => trivial
  have hafter (earlier : List (Move (Metered ε))) (m : Move (Metered ε)) :
      watcherAt (earlier ++ [m]) = ((s.run earlier).step m).world.watcher := by
    simp only [watcherAt, run_append, run_cons, run_nil]
  have hchanges {earlier : List (Move (Metered ε))} {m : Move (Metered ε)}
      (hof : (s.run earlier).isOf place m = true) :=
    (s.run earlier).changes_step (isCall_of_isOf hof)
  have hsingle {r : FetchRecord} (hr : r ∈ s.recordsOf place moves) :
      s.recordsOf place moves = [r] := by
    obtain ⟨r', hr'⟩ := List.length_eq_one_iff.1
      (Nat.le_antisymm hlife.length_records_le (List.length_pos_of_mem hr))
    rw [hr'] at hr ⊢
    rw [List.mem_singleton.1 hr]
  refine ⟨fun earlier m hm hof => ?_, hlife.length_records_le, fun r hr => ?_,
    hlife.records_eq_singleton⟩
  · rw [hafter]
    obtain ⟨_, hsame | hlands⟩ := hchanges hof
    · exact .inl hsame
    · refine .inr ⟨_, hlands, hsingle (mem_recordsOf.2 ⟨earlier, m, hm, hof, ?_⟩)⟩
      rw [hlands.recordsTo]
      exact List.mem_singleton_self _
  · obtain ⟨earlier, m, hm, hof, hr⟩ := mem_recordsOf.1 hr
    refine ⟨earlier, m, hm, hof, ?_⟩
    rw [hafter]
    obtain ⟨_, hsame | hlands⟩ := hchanges hof
    · rw [hsame.recordsTo] at hr
      cases hr
    · rw [hlands.recordsTo] at hr
      rw [List.mem_singleton.1 hr]
      exact hlands

/-- A request that takes two nanoseconds and brings an object, and a second caller that is given up
while it waits for it. -/
theorem refresh_all_or_nothing_scripted :
    let exchange : Metered ScriptedExchange :=
      ⟨.new "sim" [⟨.ok (.object []), 2⟩] [], []⟩
    let s := Calls.new 0 exchange (.new (.new "spot" "sim" "USDT" ⟨5⟩) .zero 1)
    let moves := [.enter [], .enter [], .elapse 1, .drop 1, .elapse 1, .resume 0]
    s.recordsOf 0 moves = [⟨.object [], ⟨0, 0⟩⟩] ∧
      ∀ r, (s.run [.enter []]).recordsOf 1 moves.tail ≠ [r] := by
  intro exchange s moves
  obtain ⟨-, -, -, hfirst⟩ := refresh_all_or_nothing 0 exchange (.new "spot" "sim" "USDT" ⟨5⟩)
    .zero 1 [] [] moves.tail
  obtain ⟨-, -, -, hsecond⟩ := refresh_all_or_nothing 0 exchange (.new "spot" "sim" "USDT" ⟨5⟩)
    .zero 1 [.enter []] [] moves.tail.tail
  refine ⟨(hfirst _).2 ⟨rfl, rfl, ⟨0, _, ⟨.answer (.object []), 2, []⟩⟩, rfl, rfl⟩, fun r hr => ?_⟩
  have hgone : (s.run [.enter []]).isGivenUp 1 moves.tail = true := rfl
  have hkept : (s.run [.enter []]).isGivenUp 1 moves.tail = false := ((hsecond r).1 hr).2.1
  rw [hgone] at hkept
  cases hkept

end Calls

end Portfolio
