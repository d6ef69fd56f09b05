import Portfolio.Proofs.Calls.Basic

/-! # What moves lead to

`Leads ok w cs w' cs'`: beside any other calls, moves of the kind `ok` lead from the world `w`, in
which a task has the calls `cs`, to the world `w'`, in which it has `cs'`. The relation composes
(`Leads.trans`) and lets a task have more than one part (`Leads.right`, `Leads.left`). -/

namespace Portfolio

/-- A move of somebody who reads balances and nothing else. -/
def Calls.Move.isReading {ε : Type} : Calls.Move ε → Bool
  | .enter _ | .resume _ | .drop _ | .start | .business .. => true
  | _ => false

theorem Calls.live_map_some {ε : Type} (w : World ε) (cs : List Call) :
    (Calls.mk w (cs.map some)).live = cs := by
  simp [Calls.live, List.reduceOption, List.filterMap_map]

/-- Some moves of a kind lead from one world and its calls to another (module doc). -/
structure Leads {ε : Type} [Exchange ε] (ok : Calls.Move ε → Prop) (w : World ε) (cs : List Call)
    (w' : World ε) (cs' : List Call) : Prop where
  exists_moves : ∀ (s : Calls ε) (rest : List Call), s.world = w → s.live.Perm (cs ++ rest) →
    ∃ ms : List (Calls.Move ε), (∀ m ∈ ms, ok m) ∧ (s.run ms).world = w' ∧
      (s.run ms).live.Perm (cs' ++ rest)

/-- Moves that only read lead from one world and its calls to another. -/
abbrev Reads {ε : Type} [Exchange ε] : World ε → List Call → World ε → List Call → Prop :=
  Leads fun m => m.isReading = true

/-- Moves of any kind lead from one world and its calls to another. -/
abbrev Moves {ε : Type} [Exchange ε] : World ε → List Call → World ε → List Call → Prop :=
  Leads fun _ => True

namespace Leads

variable {ε : Type} [Exchange ε] {ok ok' : Calls.Move ε → Prop} {w w' w'' : World ε}
  {cs cs' cs'' : List Call}

theorem refl (w : World ε) (cs : List Call) : Leads ok w cs w cs :=
  ⟨fun _ _ hw hl => ⟨[], by simp, hw, hl⟩⟩

/-- A run of the only task there is. -/
theorem exists_run (h : Leads ok w cs w' cs') :
    ∃ s : Calls ε, s.world = w ∧ s.live = cs ∧ ∃ ms : List (Calls.Move ε), (∀ m ∈ ms, ok m) ∧
      (s.run ms).world = w' ∧ (s.run ms).live.Perm cs' := by
  have hlive := Calls.live_map_some w cs
  obtain ⟨ms, hms, hw, hl⟩ := h.exists_moves ⟨w, cs.map some⟩ [] rfl
    (by rw [List.append_nil, hlive])
  exact ⟨_, rfl, hlive, ms, hms, hw, by rwa [List.append_nil] at hl⟩

theorem trans (h : Leads ok w cs w' cs') (h' : Leads ok w' cs' w'' cs'') :
    Leads ok w cs w'' cs'' := by
  refine ⟨fun s rest hw hl => ?_⟩
  obtain ⟨ms, hm, hw, hl⟩ := h.exists_moves s rest hw hl
  obtain ⟨ns, hn, hw, hl⟩ := h'.exists_moves (s.run ms) rest hw hl
  refine ⟨ms ++ ns, fun m hmem => ?_, by rwa [Calls.run_append], by rwa [Calls.run_append]⟩
  exact (List.mem_append.1 hmem).elim (hm m) (hn m)

theorem mono (h : Leads ok w cs w' cs') (hok : ∀ m, ok m → ok' m) : Leads ok' w cs w' cs' := by
  refine ⟨fun s rest hw hl => ?_⟩
  obtain ⟨ms, hm, hw, hl⟩ := h.exists_moves s rest hw hl
  exact ⟨ms, fun m hmem => hok m (hm m hmem), hw, hl⟩

theorem moves (h : Leads ok w cs w' cs') : Moves w cs w' cs' :=
  h.mono fun _ _ => trivial

/-- The work of one part, another part of the same task having its own calls. -/
theorem right (h : Leads ok w cs w' cs') (ds : List Call) :
    Leads ok w (cs ++ ds) w' (cs' ++ ds) := by
  refine ⟨fun s rest hw hl => ?_⟩
  rw [List.append_assoc] at hl ⊢
  exact h.exists_moves s (ds ++ rest) hw hl

theorem perm {ds ds' : List Call} (h : Leads ok w cs w' cs') (hc : cs.Perm ds)
    (hc' : cs'.Perm ds') : Leads ok w ds w' ds' := by
  refine ⟨fun s rest hw hl => ?_⟩
  obtain ⟨ms, hm, hw, hl⟩ := h.exists_moves s rest hw (hl.trans (hc.symm.append_right _))
  exact ⟨ms, hm, hw, hl.trans (hc'.append_right _)⟩

theorem left (h : Leads ok w cs w' cs') (ds : List Call) :
    Leads ok w (ds ++ cs) w' (ds ++ cs') :=
  (h.right ds).perm List.perm_append_comm List.perm_append_comm

/-- One move that leaves the calls alone. -/
theorem onWorld (m : Calls.Move ε) (f : World ε → World ε)
    (hs : ∀ s : Calls ε, s.step m = s.onWorld f) (hm : ok m) : Leads ok w cs (f w) cs := by
  refine ⟨fun s rest hw hl => ?_⟩
  refine ⟨[m], by simpa using hm, ?_, ?_⟩
  · rw [Calls.run_cons, Calls.run_nil, hs, ← hw]; rfl
  · rw [Calls.run_cons, Calls.run_nil, hs]; exact hl

theorem start (w : World ε) (cs : List Call) : Reads w cs w.start cs :=
  onWorld .start World.start (fun _ => rfl) (by rfl)

theorem business (w : World ε) (cs : List Call) (exchange : ε) (events : List Event) :
    Reads w cs ({ w with exchange }.logAll events) cs :=
  onWorld (.business exchange events) (fun w => { w with exchange }.logAll events) (fun _ => rfl)
    (by rfl)

theorem log (w : World ε) (cs : List Call) (e : Event) : Reads w cs (w.log e) cs :=
  business w cs w.exchange [e]

/-- The poll loops are changed, their calls being there already. -/
theorem loops (w : World ε) (cs : List Call) (loops : List PollLoop) :
    Moves w cs { w with loops } cs :=
  onWorld (.loops loops) (fun w => { w with loops }) (fun _ => rfl) trivial

/-- A call gets its turn. -/
theorem resume (w : World ε) (c : Call) :
    Reads w [c] (c.resume w).1 (c.resume w).2.toList := by
  refine ⟨fun s rest hw hl => ?_⟩
  obtain ⟨place, hp⟩ := Calls.exists_call? (hl.mem_iff.2 (.head _))
  obtain ⟨others, hlive, hset⟩ := Calls.live_set hp
  have hrest : others.Perm rest := (hlive.symm.trans hl).cons_inv
  refine ⟨[.resume place], by simp [Calls.Move.isReading], ?_, ?_⟩
  · simp [Calls.step, hp, hw]
  · simp only [Calls.run_cons, Calls.run_nil, Calls.step, hp, hw]
    exact (hset _).trans (hrest.append_left _)

/-- A call is given up. -/
theorem drop (w : World ε) (c : Call) : Reads w [c] (c.drop w) [] := by
  refine ⟨fun s rest hw hl => ?_⟩
  obtain ⟨place, hp⟩ := Calls.exists_call? (hl.mem_iff.2 (.head _))
  obtain ⟨others, hlive, hset⟩ := Calls.live_set hp
  have hrest : others.Perm rest := (hlive.symm.trans hl).cons_inv
  refine ⟨[.drop place], by simp [Calls.Move.isReading], ?_, ?_⟩
  · simp [Calls.step, hp, hw]
  · simp only [Calls.run_cons, Calls.run_nil, Calls.step, hp, hw]
    exact (hset none).trans hrest

end Leads

end Portfolio
