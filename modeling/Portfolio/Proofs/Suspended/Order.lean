import Portfolio.Proofs.Suspended.Basic

/-! # The order of stamps

`InOrder began w cs`: the present, the newest record and the request of the refresh that has the
lock are all at least as new as the table, the newest record and every copy of a record that a
refresh has in hand. Every move keeps it (`Suspended.InOrder.run`), however the refreshes are
suspended: a request is sent by who has the lock, and nobody else stores a record until the lock is
free again. The clock began at `began`. -/

namespace Portfolio

namespace Stage

/-- When the refresh that has the lock sent its request. -/
def started? : Stage → Option Timestamp
  | fetching _ started .. => some started
  | storing _ r | stamping _ r => some r.timestamp
  | _ => none

theorem started?_of_isListening {c : Stage} (h : c.isListening = true) : c.started? = none := by
  cases c <;> first | rfl | cases h

/-- The refresh whose request has a time has the lock. -/
theorem exists_call?_of_started? {c : Stage} {t : Timestamp} (h : c.started? = some t) :
    ∃ ticket, c.call? = some (.holding ticket) := by
  cases c <;> first | exact ⟨_, rfl⟩ | cases h

end Stage

namespace Suspended

variable {ε : Type}

/-- The table, the newest record and every copy of a record are at most as new as `t`. A table that
was never made has the stamp of the epoch, which is not that old if the clock began before it. -/
structure NotAfter (began : Int) (w : World ε) (cs : List Stage) (t : Timestamp) : Prop where
  view : began < 0 ∧ w.watcher.view.asOf = .epoch ∨ w.watcher.view.asOf ≤ t
  record : ∀ r, w.watcher.buffer.latest? = some r → r.timestamp ≤ t
  copy : ∀ r, .writing r ∈ cs → r.timestamp ≤ t

/-- The present, the newest record, and the request of the refresh that has the lock. -/
inductive IsBound (w : World ε) (cs : List Stage) : Timestamp → Prop
  | now : IsBound w cs w.time
  | newest {r : FetchRecord} (h : w.watcher.buffer.latest? = some r) : IsBound w cs r.timestamp
  | started {c : Stage} {t : Timestamp} (hc : c ∈ cs) (ht : c.started? = some t) : IsBound w cs t

theorem IsBound.mono {w : World ε} {cs cs' : List Stage} {t : Timestamp} (h : IsBound w cs t)
    (hcs : cs ⊆ cs') : IsBound w cs' t := by
  cases h with
  | now => exact .now
  | newest hr => exact .newest hr
  | started hc ht => exact .started (hcs hc) ht

/-- The invariant (module doc). -/
structure InOrder (began : Int) (w : World ε) (cs : List Stage) : Prop where
  lock : Exclusive w.watcher (cs.filterMap Stage.call?)
  past : ∀ c ∈ cs, ∀ t, c.started? = some t → t ≤ w.time
  bound : ∀ t, IsBound w cs t → NotAfter began w cs t

namespace InOrder

variable {began : Int} {w w' : World ε} {c : Stage} {c' : Option Stage} {cs cs' : List Stage}

theorem perm (h : InOrder began w cs) (hp : cs.Perm cs') : InOrder began w cs' where
  lock := h.lock.perm (hp.filterMap _)
  past c hc := h.past c (hp.mem_iff.2 hc)
  bound t ht := by
    have hold : NotAfter began w cs t := h.bound t (ht.mono hp.symm.subset)
    exact ⟨hold.view, hold.record, fun r hr => hold.copy r (hp.mem_iff.2 hr)⟩

/-- Table and history stay. A request that is new is sent now, and a copy that is new is one of the
newest record. -/
theorem congr (h : InOrder began w cs) (hlock : Exclusive w'.watcher (cs'.filterMap Stage.call?))
    (hnow : w.time ≤ w'.time) (hview : w'.watcher.view = w.watcher.view)
    (hbuffer : w'.watcher.buffer = w.watcher.buffer)
    (hstarted : ∀ c ∈ cs', ∀ t, c.started? = some t →
      t = w.time ∨ ∃ d ∈ cs, d.started? = some t)
    (hcopy : ∀ r, .writing r ∈ cs' →
      .writing r ∈ cs ∨ w.watcher.buffer.latest? = some r) : InOrder began w' cs' := by
  refine ⟨hlock, fun c hc t ht => ?_, fun t ht => ?_⟩
  · obtain rfl | ⟨d, hd, hdt⟩ := hstarted c hc t ht
    · exact hnow
    · exact Timestamp.le_trans (h.past d hd t hdt) hnow
  · obtain ⟨u, hu, hut⟩ : ∃ u, IsBound w cs u ∧ u ≤ t := by
      cases ht with
      | now => exact ⟨_, .now, hnow⟩
      | newest hr => exact ⟨_, .newest (hbuffer ▸ hr), Timestamp.le_refl _⟩
      | started hc ht =>
        obtain rfl | ⟨d, hd, hdt⟩ := hstarted _ hc t ht
        · exact ⟨_, .now, Timestamp.le_refl _⟩
        · exact ⟨t, .started hd hdt, Timestamp.le_refl _⟩
    have hold := h.bound u hu
    refine ⟨?_, fun r hr => ?_, fun r hr => ?_⟩
    · rw [hview]
      exact hold.view.imp_right (Timestamp.le_trans · hut)
    · exact Timestamp.le_trans (hold.record r (hbuffer ▸ hr)) hut
    · obtain hr | hr := hcopy r hr
      · exact Timestamp.le_trans (hold.copy r hr) hut
      · exact Timestamp.le_trans (hold.record r hr) hut

theorem congr_cons (h : InOrder began w (c :: cs))
    (hlock : Exclusive w'.watcher ((c'.toList ++ cs).filterMap Stage.call?))
    (hnow : w.time ≤ w'.time) (hview : w'.watcher.view = w.watcher.view)
    (hbuffer : w'.watcher.buffer = w.watcher.buffer)
    (hstarted : ∀ d, c' = some d → ∀ t, d.started? = some t → t = w.time ∨ c.started? = some t)
    (hcopy : ∀ r, c' = some (.writing r) → c = .writing r ∨ w.watcher.buffer.latest? = some r) :
    InOrder began w' (c'.toList ++ cs) := by
  refine h.congr hlock hnow hview hbuffer (fun d hd t ht => ?_) fun r hr => ?_
  · obtain hd | hd := List.mem_append.1 hd
    · exact (hstarted d (Option.mem_toList.1 hd) t ht).imp_right fun hc => ⟨c, .head _, hc⟩
    · exact .inr ⟨d, .tail _ hd, ht⟩
  · obtain hr | hr := List.mem_append.1 hr
    · obtain rfl | hlatest := hcopy r (Option.mem_toList.1 hr)
      · exact .inl (.head _)
      · exact .inr hlatest
    · exact .inl (.tail _ hr)

/-- The refresh that has the lock stores its record. Nobody else has a request out, so all bounds
are at least as new as the record. -/
theorem stores {ticket : Nat} {r : FetchRecord} (h : InOrder began w (.storing ticket r :: cs))
    (hlock : Exclusive (w.watcher.store r)
      ((Stage.stamping ticket r :: cs).filterMap Stage.call?)) :
    InOrder began (w.onWatcher (·.store r)) (.stamping ticket r :: cs) := by
  have hlatest : (w.watcher.store r).buffer.latest? = some r := RecordBuffer.latest?_push ..
  have hnow : r.timestamp ≤ w.time := h.past _ (.head _) _ rfl
  have hold : NotAfter began w (.storing ticket r :: cs) r.timestamp :=
    h.bound _ (.started (.head _) rfl)
  have halone {c : Stage} {t : Timestamp} (hc : c ∈ cs) (ht : c.started? = some t) : False := by
    obtain ⟨other, hcall⟩ := Stage.exists_call?_of_started? ht
    obtain ⟨a, ha, hh⟩ := h.lock.turn (.holding ticket) (.head _) rfl
    have hnone := List.any_eq_false.1 (h.lock.no_other_guard ha hh)
    exact hnone (.holding other) (List.mem_filterMap.2 ⟨c, hc, hcall⟩) rfl
  refine ⟨hlock, fun c hc t ht => ?_, fun t ht => ?_⟩
  · obtain rfl | hc := List.mem_cons.1 hc
    · cases ht
      exact hnow
    · exact (halone hc ht).elim
  · have hle : r.timestamp ≤ t := by
      cases ht with
      | now => exact hnow
      | newest hr =>
        cases hlatest.symm.trans hr
        exact Timestamp.le_refl _
      | started hc ht =>
        obtain rfl | hc := List.mem_cons.1 hc
        · cases ht
          exact Timestamp.le_refl _
        · exact (halone hc ht).elim
    refine ⟨hold.view.imp_right (Timestamp.le_trans · hle), fun r' hr => ?_, fun r' hr => ?_⟩
    · cases hlatest.symm.trans hr
      exact hle
    · obtain hr | hr := List.mem_cons.1 hr
      · cases hr
      · exact Timestamp.le_trans (hold.copy r' (.tail _ hr)) hle

/-- A copy is written; it is at most as new as every bound. -/
theorem writes {r : FetchRecord} (h : InOrder began w (.writing r :: cs))
    (hlock : Exclusive (w.watcher.materialise r) (cs.filterMap Stage.call?)) :
    InOrder began (w.onWatcher (·.materialise r)) cs := by
  refine ⟨hlock, fun c hc => h.past c (.tail _ hc), fun t ht => ?_⟩
  have hbound : IsBound w cs t := by
    cases ht with
    | now => exact .now
    | newest hr => exact .newest hr
    | started hc ht => exact .started hc ht
  have hold := h.bound t (hbound.mono (List.subset_cons_self _ _))
  exact ⟨.inr (hold.copy r (.head _)), hold.record, fun r' hr => hold.copy r' (.tail _ hr)⟩

variable [Exchange ε]

theorem act (h : InOrder began w (c :: cs)) (ha : Stage.Act w c w' c') :
    InOrder began w' (c'.toList ++ cs) := by
  have hlock := exclusive_act h.lock ha
  have hnow : w.time ≤ w.time := Timestamp.le_refl _
  cases ha with
  | listens _ hc' =>
    refine h.congr_cons hlock hnow rfl rfl (fun d hd t ht => ?_) fun r hr => ?_
    · rw [Stage.started?_of_isListening (hc' d hd)] at ht
      cases ht
    · cases hc' _ hr
  | waits => exact h
  | draws => exact h.congr_cons hlock hnow rfl rfl (by rintro d ⟨⟩ t ⟨⟩) (by rintro r ⟨⟩)
  | asks =>
    refine h.congr_cons hlock hnow rfl rfl ?_ (by rintro r ⟨⟩)
    rintro d ⟨⟩ t ⟨⟩
    exact .inl rfl
  | hears payload events =>
    refine h.congr_cons hlock ?_ ?_ ?_ ?_ (by rintro r ⟨⟩)
    · rw [World.time, World.time, World.now_logAll]
      exact hnow
    · rw [World.watcher_logAll]
    · rw [World.watcher_logAll]
    · rintro d ⟨⟩ t ⟨⟩
      exact .inr rfl
  | fails hw hn =>
    refine h.congr_cons hlock ?_ (by rw [hw]; rfl) (by rw [hw]; rfl) (by rintro d ⟨⟩)
      (by rintro r ⟨⟩)
    rw [World.time, World.time, hn]
    exact hnow
  | stores => exact h.stores hlock
  | stamps => exact h.congr_cons hlock hnow rfl rfl (by rintro d ⟨⟩ t ⟨⟩) (by rintro r ⟨⟩)
  | finds r? hr =>
    refine h.congr_cons hlock hnow rfl rfl (fun d hd t ht => ?_) fun r hd => ?_
    · obtain ⟨r, -, rfl⟩ := Option.map_eq_some_iff.1 hd
      cases ht
    · obtain ⟨r', rfl, heq⟩ := Option.map_eq_some_iff.1 hd
      cases heq
      exact .inr hr
  | writes => exact h.writes hlock

theorem acts {s : Suspended ε} {m : Move} (h : InOrder began s.world s.live) (ha : Acts s m w cs) :
    InOrder began w cs := by
  have hlock := exclusive_acts h.lock ha
  cases ha with
  | enters fallback =>
    refine h.congr hlock (Timestamp.le_refl _) rfl rfl (fun c hc t ht => ?_) fun r hr => ?_
    · obtain rfl | hc := List.mem_cons.1 hc
      · cases ht
      · exact .inr ⟨c, hc, ht⟩
    · obtain hr | hr := List.mem_cons.1 hr
      · cases hr
      · exact .inl hr
  | advances _ hl ha => exact (h.perm hl).act ha
  | @drops _ c _ _ hl =>
    obtain ⟨lock, inFlight, hw⟩ := c.drop_eq s.world
    refine (h.perm hl).congr hlock ?_ (by rw [hw]) (by rw [hw]) (fun d hd t ht => ?_) fun r hr => ?_
    · rw [hw]
      exact Timestamp.le_refl _
    · exact .inr ⟨d, .tail _ hd, ht⟩
    · exact .inl (.tail _ hr)
  | elapses length =>
    refine h.congr hlock ?_ rfl rfl (fun c hc t ht => .inr ⟨c, hc, ht⟩) fun r hr => .inl hr
    have hle : s.world.now ≤ s.world.now + length := by omega
    exact (Timestamp.ofNanos_le_ofNanos _ _).2 hle
  | idles => exact h

theorem run {s : Suspended ε} (h : InOrder began s.world s.live) (ms : List Move) :
    InOrder began (s.run ms).world (s.run ms).live := by
  induction ms generalizing s with
  | nil => exact h
  | cons m ms ih =>
    obtain ⟨cs, hcs, ha⟩ := s.acts m
    exact ih ((h.acts ha).perm hcs)

omit [Exchange ε] in
theorem new (now : Int) (exchange : ε) (strategy : Strategy) (pollInterval : Duration)
    (capacity : Nat) :
    let s := Suspended.new now exchange (.new strategy pollInterval capacity)
    InOrder now s.world s.live where
  lock := Exclusive.new now exchange strategy pollInterval capacity
  past _ hc := absurd hc List.not_mem_nil
  bound t ht := by
    refine ⟨?_, by rintro r ⟨⟩, fun _ hr => absurd hr List.not_mem_nil⟩
    obtain hearly | hnow := Int.lt_or_le now 0
    · exact .inl ⟨hearly, rfl⟩
    · have hepoch : (.ofNanos 0 : Timestamp) ≤ .ofNanos now :=
        (Timestamp.ofNanos_le_ofNanos _ _).2 hnow
      cases ht with
      | now => exact .inr hepoch
      | newest hr => cases hr
      | started hc => cases hc

end InOrder

end Suspended

end Portfolio
