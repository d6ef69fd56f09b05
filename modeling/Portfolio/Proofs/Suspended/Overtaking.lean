import Portfolio.Proofs.Suspended.Order
import Portfolio.Simulation.ScriptedExchange

/-! # Refreshes that overtake each other

A refresh gives the lock back before it reads the newest record, and it writes the table after that.
In between another refresh may take the lock, store a newer record and write it; the first one then
writes the older record over it (`Suspended.WritesOld`). This is the only way for the table to go
back, and without it the table ends as made from the newest record
(`Suspended.asOf_mono_unless_overtaken`). No record is old when it is written if none is stored
while another refresh has its copy in hand (`Suspended.undisturbed_of_isOrderly`). -/

namespace Portfolio

/-- The table is made from the record. -/
def BalanceTable.MadeFrom (t : BalanceTable) (r : FetchRecord) : Prop :=
  ∃ earlier : BalanceTable, t = earlier.report r.timestamp (Payload.read r.payload)

namespace Stage

def isStoring : Stage → Bool
  | storing .. => true
  | _ => false

/-- The refresh has a copy of a record in hand. -/
def isWriting : Stage → Bool
  | writing _ => true
  | _ => false

/-- The record of the refresh is in the history, and it has not written the table yet. -/
def isLanding : Stage → Bool
  | stamping .. | loading | writing _ => true
  | _ => false

/-- The refresh writes the record, if no newer one comes before it reads. -/
def Brings (r : FetchRecord) : Stage → Prop
  | stamping _ r' | writing r' => r' = r
  | loading => True
  | _ => False

theorem isLanding_of_brings {c : Stage} {r : FetchRecord} (h : c.Brings r) :
    c.isLanding = true := by
  cases c <;> first | rfl | cases h

theorem not_brings_of_isListening {c : Stage} {r : FetchRecord} (h : c.isListening = true) :
    ¬ c.Brings r := by
  cases c <;> first | exact id | cases h

end Stage

namespace Suspended

variable {ε : Type}

/-- The move writes a record that is not the newest any more. -/
def WritesOld (s : Suspended ε) (m : Move) : Prop :=
  ∃ place r, m = .advance place ∧ s.stage? place = some (.writing r) ∧
    s.world.watcher.buffer.latest? ≠ some r

def asOf (s : Suspended ε) : Timestamp :=
  s.world.watcher.view.asOf

/-- The table is made from the newest record, if there is one. -/
def ShowsNewest (s : Suspended ε) : Prop :=
  ∀ r, s.world.watcher.buffer.latest? = some r → s.world.watcher.view.MadeFrom r

/-- The move drops a refresh that has its record in the history and has not written the table. -/
def abandons (s : Suspended ε) : Move → Bool
  | .drop place => (s.stage? place).any Stage.isLanding
  | _ => false

/-- The move stores a record while another refresh has its copy in hand. -/
def overtakes (s : Suspended ε) : Move → Bool
  | .advance place => (s.stage? place).any Stage.isStoring && s.live.any Stage.isWriting
  | _ => false

/-! ## The stamp of the table -/

variable [Exchange ε]

/-- The stamp of the table goes back only where an old record is written, or where the first table
is made and the clock began before the epoch. -/
theorem asOf_acts {began : Int} {s : Suspended ε} {m : Move} {w : World ε} {cs : List Stage}
    (h : InOrder began s.world s.live) (ha : Acts s m w cs) :
    s.world.watcher.view.asOf ≤ w.watcher.view.asOf ∨ s.WritesOld m ∨
      began < 0 ∧ s.world.watcher.view.asOf = .epoch := by
  have hsame {w : World ε} (hw : w.watcher.view = s.world.watcher.view) :
      s.world.watcher.view.asOf ≤ w.watcher.view.asOf := by
    rw [hw]
    exact Timestamp.le_refl _
  cases ha with
  | enters | elapses | idles => exact .inl (hsame rfl)
  | @drops place c =>
    obtain ⟨lock, inFlight, hw⟩ := c.drop_eq s.world
    exact .inl (hsame (by rw [hw]))
  | @advances place c rest w c' hc hl ha =>
    cases ha with
    | writes r =>
      by_cases hr : s.world.watcher.buffer.latest? = some r
      · obtain hearly | hview := (h.bound _ (.newest hr)).view
        · exact .inr (.inr hearly)
        · exact .inl hview
      · exact .inr (.inl ⟨place, r, rfl, hc, hr⟩)
    | listens | waits | draws | asks | stores | stamps | finds => exact .inl (hsame rfl)
    | hears => exact .inl (hsame (by rw [World.watcher_logAll]))
    | fails hw => exact .inl (hsame (by rw [hw]; rfl))

/-! ## The newest record -/

omit [Exchange ε] in
/-- The table is made from the newest record, or some refresh is about to make it so. -/
def Shown (w : World ε) (cs : List Stage) : Prop :=
  ∀ r, w.watcher.buffer.latest? = some r → w.watcher.view.MadeFrom r ∨ ∃ c ∈ cs, c.Brings r

namespace Shown

variable {w w' : World ε} {c : Stage} {c' : Option Stage} {cs cs' : List Stage}

omit [Exchange ε] in
theorem congr (h : Shown w cs) (hview : w'.watcher.view = w.watcher.view)
    (hbuffer : w'.watcher.buffer = w.watcher.buffer)
    (hbrings : ∀ c ∈ cs, ∀ r, w.watcher.buffer.latest? = some r → c.Brings r →
      ∃ d ∈ cs', d.Brings r) : Shown w' cs' := by
  intro r hr
  rw [hbuffer] at hr
  rw [hview]
  refine (h r hr).imp_right ?_
  rintro ⟨c, hc, hcr⟩
  exact hbrings c hc r hr hcr

omit [Exchange ε] in
theorem congr_cons (h : Shown w (c :: cs)) (hview : w'.watcher.view = w.watcher.view)
    (hbuffer : w'.watcher.buffer = w.watcher.buffer)
    (hbrings : ∀ r, w.watcher.buffer.latest? = some r → c.Brings r →
      ∃ d, c' = some d ∧ d.Brings r) : Shown w' (c'.toList ++ cs) := by
  refine h.congr hview hbuffer fun d hd r hr hdr => ?_
  obtain rfl | hd := List.mem_cons.1 hd
  · obtain ⟨e, rfl, her⟩ := hbrings r hr hdr
    exact ⟨e, .head _, her⟩
  · exact ⟨d, List.mem_append_right _ hd, hdr⟩

theorem act (h : Shown w (c :: cs)) (ha : Stage.Act w c w' c')
    (hnew : ∀ r, c = .writing r → w.watcher.buffer.latest? = some r) :
    Shown w' (c'.toList ++ cs) := by
  cases ha with
  | listens hc =>
    exact h.congr_cons rfl rfl fun r _ hcr => (Stage.not_brings_of_isListening hc hcr).elim
  | waits => exact h
  | draws fallback hc =>
    exact h.congr_cons rfl rfl fun r _ hcr => (Stage.not_brings_of_isListening hc hcr).elim
  | asks => exact h.congr_cons rfl rfl (by rintro r - ⟨⟩)
  | hears =>
    refine h.congr_cons ?_ ?_ (by rintro r - ⟨⟩)
    · rw [World.watcher_logAll]
    · rw [World.watcher_logAll]
  | fails hw => exact h.congr_cons (by rw [hw]; rfl) (by rw [hw]; rfl) (by rintro r - ⟨⟩)
  | stores ticket r =>
    intro r' hr'
    cases (RecordBuffer.latest?_push w.watcher.buffer r).symm.trans hr'
    exact .inr ⟨_, .head _, rfl⟩
  | stamps => exact h.congr_cons rfl rfl fun r _ _ => ⟨_, rfl, trivial⟩
  | finds r? hr => exact h.congr_cons rfl rfl fun r hl _ => ⟨.writing r, by rw [← hr, hl]; rfl, rfl⟩
  | writes r =>
    intro r' hr'
    cases (hnew r rfl).symm.trans hr'
    exact .inl ⟨w.watcher.view, rfl⟩

theorem step {s : Suspended ε} (h : Shown s.world s.live) {m : Move} (hold : ¬ s.WritesOld m)
    (hkept : s.abandons m = false) : Shown (s.step m).world (s.step m).live := by
  obtain ⟨cs, hcs, ha⟩ := s.acts m
  have hperm {w : World ε} {cs cs' : List Stage} (hp : cs.Perm cs') (h : Shown w cs) :
      Shown w cs' :=
    h.congr rfl rfl fun c hc _ _ hcr => ⟨c, hp.mem_iff.1 hc, hcr⟩
  refine hperm hcs ?_
  generalize (s.step m).world = w at ha
  cases ha with
  | enters => exact h.congr rfl rfl fun c hc _ _ hcr => ⟨c, .tail _ hc, hcr⟩
  | elapses | idles => exact h
  | @drops place c rest hc hl =>
    obtain ⟨lock, inFlight, hw⟩ := c.drop_eq s.world
    refine (hperm hl h).congr (by rw [hw]) (by rw [hw]) fun d hd r _ hdr => ?_
    obtain rfl | hd := List.mem_cons.1 hd
    · rw [abandons, hc, Option.any_some, Stage.isLanding_of_brings hdr] at hkept
      cases hkept
    · exact ⟨d, hd, hdr⟩
  | @advances place c rest w c' hc hl ha =>
    refine (hperm hl h).act ha fun r hr => ?_
    subst hr
    exact Classical.not_not.1 fun hne => hold ⟨place, r, rfl, hc, hne⟩

end Shown

/-- No move of the run writes an old record or drops one that is not shown yet. -/
def Undisturbed : Suspended ε → List Move → Prop
  | _, [] => True
  | s, m :: ms => ¬ s.WritesOld m ∧ s.abandons m = false ∧ Undisturbed (s.step m) ms

theorem Shown.run {s : Suspended ε} (h : Shown s.world s.live) {ms : List Move}
    (hms : s.Undisturbed ms) : Shown (s.run ms).world (s.run ms).live := by
  induction ms generalizing s with
  | nil => exact h
  | cons m ms ih => exact ih (h.step hms.1 hms.2.1) hms.2.2

/-! ## Overtaking -/

omit [Exchange ε] in
/-- Every copy is one of the newest record. -/
def Current (w : World ε) (cs : List Stage) : Prop :=
  ∀ r, .writing r ∈ cs → w.watcher.buffer.latest? = some r

namespace Current

variable {w w' : World ε} {c : Stage} {c' : Option Stage} {cs cs' : List Stage}

omit [Exchange ε] in
theorem congr (h : Current w cs) (hbuffer : w'.watcher.buffer = w.watcher.buffer)
    (hcopy : ∀ r, .writing r ∈ cs' → .writing r ∈ cs ∨ w.watcher.buffer.latest? = some r) :
    Current w' cs' := by
  intro r hr
  rw [hbuffer]
  exact (hcopy r hr).elim (h r) id

theorem act (h : Current w (c :: cs)) (ha : Stage.Act w c w' c')
    (hcalm : c.isStoring = true → ∀ r, .writing r ∉ cs) : Current w' (c'.toList ++ cs) := by
  have hrest : Current w cs := fun r hr => h r (.tail _ hr)
  -- a copy in front of the others is new, and of the newest record
  have hcons (hcopy : ∀ r, c' = some (.writing r) → w.watcher.buffer.latest? = some r) :
      Current w (c'.toList ++ cs) := by
    intro r hr
    obtain hr | hr := List.mem_append.1 hr
    · exact hcopy r (Option.mem_toList.1 hr)
    · exact hrest r hr
  cases ha with
  | listens _ hc' => exact hcons fun r hr => by cases hc' _ hr
  | waits => exact h
  | draws | asks | stamps => exact (hcons (by rintro r ⟨⟩)).congr rfl fun r hr => .inl hr
  | hears =>
    refine (hcons (by rintro r ⟨⟩)).congr ?_ fun r hr => .inl hr
    rw [World.watcher_logAll]
  | fails hw => exact hrest.congr (by rw [hw]; rfl) fun r hr => .inl hr
  | stores =>
    intro r hr
    obtain hr | hr := List.mem_cons.1 hr
    · cases hr
    · exact (hcalm rfl r hr).elim
  | finds r? hr =>
    refine hcons fun r hr' => ?_
    obtain ⟨r', rfl, heq⟩ := Option.map_eq_some_iff.1 hr'
    cases heq
    exact hr
  | writes => exact hrest.congr rfl fun r hr => .inl hr

theorem step {s : Suspended ε} (h : Current s.world s.live) {m : Move}
    (hm : s.overtakes m = false) : Current (s.step m).world (s.step m).live := by
  obtain ⟨cs, hcs, ha⟩ := s.acts m
  suffices hnext : Current (s.step m).world cs from fun r hr => hnext r (hcs.mem_iff.2 hr)
  generalize (s.step m).world = w at ha
  cases ha with
  | enters =>
    refine h.congr rfl fun r hr => ?_
    obtain hr | hr := List.mem_cons.1 hr
    · cases hr
    · exact .inl hr
  | elapses | idles => exact h
  | @drops place c rest hc hl =>
    obtain ⟨lock, inFlight, hw⟩ := c.drop_eq s.world
    exact h.congr (by rw [hw]) fun r hr => .inl (hl.mem_iff.2 (.tail _ hr))
  | @advances place c rest w c' hc hl ha =>
    refine act (fun r hr => h r (hl.mem_iff.2 hr)) ha fun hstoring r hr => ?_
    have hwriting : s.live.any Stage.isWriting = true :=
      List.any_eq_true.2 ⟨_, hl.mem_iff.2 (.tail _ hr), rfl⟩
    rw [overtakes, hc, Option.any_some, hstoring, hwriting] at hm
    cases hm

omit [Exchange ε] in
theorem not_writesOld {s : Suspended ε} (h : Current s.world s.live) (m : Move) :
    ¬ s.WritesOld m := by
  rintro ⟨place, r, -, hstage, hne⟩
  have hmem : .writing r ∈ s.live :=
    List.reduceOption_mem_iff.2 (List.mem_of_getElem? (Option.join_eq_some_iff.1 hstage))
  exact hne (h r hmem)

end Current

/-- No move of the run overtakes another refresh or drops a record that is not shown yet. -/
def isOrderly : Suspended ε → List Move → Bool
  | _, [] => true
  | s, m :: ms => !s.overtakes m && !s.abandons m && isOrderly (s.step m) ms

/-- Old records are only written after an overtaking. -/
theorem undisturbed_of_isOrderly {s : Suspended ε} (h : Current s.world s.live) {ms : List Move}
    (hms : s.isOrderly ms = true) : s.Undisturbed ms := by
  induction ms generalizing s with
  | nil => trivial
  | cons m ms ih =>
    simp only [isOrderly, Bool.and_eq_true, Bool.not_eq_true'] at hms
    exact ⟨h.not_writesOld m, hms.1.2, ih (h.step hms.1.1) hms.2⟩

/-- Freshness, as far as it goes. After any run of refreshes that may be suspended at every await,
the next move takes the stamp of the table back only if it writes a record that is not the newest
any more, or makes the first table and the clock began before the epoch. And if no move of the run
writes such a record or drops a refresh between storing and writing, then once all refreshes are
over the table is the one made from the newest record. -/
theorem asOf_mono_unless_overtaken (now : Int) (exchange : ε) (strategy : Strategy)
    (pollInterval : Duration) (capacity : Nat) (ms : List Move) :
    let s := Suspended.new now exchange (.new strategy pollInterval capacity)
    let t := s.run ms
    (∀ m, t.asOf ≤ (t.step m).asOf ∨ t.WritesOld m ∨ now < 0 ∧ t.asOf = .epoch) ∧
    (s.Undisturbed ms → t.live = [] → t.ShowsNewest) := by
  intro s t
  have horder : InOrder now s.world s.live := .new now exchange strategy pollInterval capacity
  refine ⟨fun m => ?_, fun hms hover r hr => ?_⟩
  · obtain ⟨cs, -, ha⟩ := t.acts m
    exact asOf_acts (horder.run ms) ha
  have hshown : Shown s.world s.live := by rintro r ⟨⟩
  obtain hmade | ⟨c, hc, -⟩ := hshown.run hms r hr
  · exact hmade
  · rw [hover] at hc
    cases hc

/-- A refresh alone, and two of them, the second a nanosecond later: the first is suspended with its
copy in hand while the second runs from beginning to end. Then the first writes its copy, and the
table is the older one for good. -/
theorem asOf_mono_unless_overtaken_scripted :
    let exchange : ScriptedExchange := .new "sim" [⟨.ok (.object []), 0⟩] []
    let s := Suspended.new 0 exchange (.new (.new "spot" "sim" "USDT" ⟨5⟩) .zero 2)
    let alone := .enter [] :: List.replicate 8 (.advance 0)
    let race := .enter [] :: List.replicate 7 (.advance 0) ++
      .elapse 1 :: .enter [] :: List.replicate 8 (.advance 1)
    let after := (s.run race).step (.advance 0)
    (s.run alone).asOf = ⟨0, 0⟩ ∧ (s.run alone).ShowsNewest ∧ (s.run race).asOf = ⟨0, 1⟩ ∧
      (s.run race).WritesOld (.advance 0) ∧ after.live = [] ∧ ¬ after.ShowsNewest := by
  intro exchange s alone race after
  have hwhole := asOf_mono_unless_overtaken 0 exchange (.new "spot" "sim" "USDT" ⟨5⟩) .zero 2
  have hcurrent : Current s.world s.live := nofun
  have halone : s.Undisturbed alone := undisturbed_of_isOrderly hcurrent (by decide +kernel)
  have hover : (s.run alone).live = [] := List.length_eq_zero_iff.1 (by decide +kernel)
  have hfresh : (s.run race).asOf = ⟨0, 1⟩ := by decide +kernel
  have hback : after.asOf = ⟨0, 0⟩ := by decide +kernel
  have htime : after.world.watcher.buffer.latestTime? = some ⟨0, 1⟩ := by decide +kernel
  have hdone : after.live = [] := List.length_eq_zero_iff.1 (by decide +kernel)
  refine ⟨by decide +kernel, (hwhole alone).2 halone hover, hfresh, ?_, hdone, fun hshows => ?_⟩
  · obtain hle | hold | ⟨hearly, -⟩ := (hwhole race).1 (.advance 0)
    · have hle : (s.run race).asOf ≤ after.asOf := hle
      rw [hfresh, hback] at hle
      exact absurd hle (by decide)
    · exact hold
    · exact absurd hearly (by decide)
  · obtain ⟨r, hr, hstamp⟩ := Option.map_eq_some_iff.1 htime
    obtain ⟨earlier, hmade⟩ := hshows r hr
    have hasOf : after.asOf = (earlier.report _ _).asOf := congrArg BalanceTable.asOf hmade
    rw [hback, hstamp] at hasOf
    cases hasOf

end Suspended

end Portfolio
