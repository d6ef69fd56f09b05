import Portfolio.Proofs.Number.Spelling
import Portfolio.Proofs.Number.Units
import Portfolio.Time.Duration

/-! # Which texts are durations

A number of seconds is a duration if it is not negative and less than `2 ^ 64`, and then it is the
nearest whole number of nanoseconds (`Duration.ofFloat_eq_ok_iff`). A text is taken apart at the
longest unit that it ends with (`Duration.longestUnit_splitUnit`), and there is no other way to take
it apart into a number, blanks and a unit (`Duration.IsSplit.splitUnit_eq`). So the texts that are
read are those of the grammar, and every other one has one error (`Duration.ofChars_grammar`). -/

namespace Portfolio

namespace Duration

open Binary64

/-! ## Numbers of seconds -/

/-- Neither negative nor `2 ^ 64` or more. -/
def InRange (x : Float) : Prop :=
  isFinite x = true ∧ 0 ≤ value x ∧ value x < 2 ^ 64

/-- The error for seconds that are out of range. -/
def rangeError (x : Float) : DurationError :=
  if x < 0.0 then .negative x else .tooBig x

theorem value_zero : value 0.0 = 0 := rfl

theorem value_limit : value 18446744073709551616.0 = 2 ^ 64 := by
  have hunpack : (18446744073709551616.0 : Float).toModel.unpack =
      .finite .positive (2 ^ 52) 12 (by decide) := by rfl
  rw [value, hunpack]
  norm_num [unpackedValue, scaled, Float.Model.UnpackedFloat.Sign.apply]

theorem inRange_iff {x : Float} : InRange x ↔ ¬ x < 0.0 ∧ x < 18446744073709551616.0 := by
  by_cases hx : isFinite x = true
  · rw [lt_iff_value_lt hx (by decide), lt_iff_value_lt hx (by decide), value_zero, value_limit,
      not_lt]
    exact and_iff_right hx
  · have hout : ¬ InRange x := fun h => hx h.1
    refine iff_of_false hout ?_
    rintro ⟨hpos, hlt⟩
    by_cases hnan : x = Float.nan
    · rw [hnan] at hlt
      exact absurd hlt (by decide)
    · have hinfinite : Infinite x := infinite_of_not_isFinite (Bool.not_eq_true _ ▸ hx) hnan
      rcases hinfinite.eq_or_eq with rfl | rfl
      · exact absurd hlt (by decide)
      · exact hpos (by decide)

theorem nanos_ofNanos_units {x : Float} (h : InRange x) :
    (ofNanos (units x 1000000000)).nanos = units x 1000000000 := by
  have hlt : units x 1000000000 < 2 ^ 64 * 1000000000 :=
    units_lt h.1 (by decide) (by decide) (by rw [abs_of_nonneg h.2.1]; exact h.2.2)
  exact nanos_ofNanos (hlt.trans_eq (by decide))

theorem ofFloat_eq_ok_iff {x : Float} {d : Duration} :
    ofFloat x = .ok d ↔ InRange x ∧ NearestNat (value x * 1000000000) d.nanos := by
  have hunits (h : InRange x) :
      NearestNat (value x * 1000000000) (ofNanos (units x 1000000000)).nanos := by
    have hnearest := nearestNat_units h.1 1000000000
    rwa [abs_of_nonneg h.2.1, Nat.cast_ofNat, ← nanos_ofNanos_units h] at hnearest
  rw [inRange_iff] at hunits ⊢
  unfold ofFloat
  split
  · next hneg => simp [hneg]
  split
  · next hpos hlt =>
    constructor
    · intro h
      cases h
      exact ⟨⟨hpos, hlt⟩, hunits ⟨hpos, hlt⟩⟩
    · rintro ⟨-, hnearest⟩
      rw [eq_of_nanos_eq ((hunits ⟨hpos, hlt⟩).eq hnearest)]
  · next hge => simp [hge]

theorem ofFloat_eq_error_iff {x : Float} {e : DurationError} :
    ofFloat x = .error e ↔ ¬ InRange x ∧ e = rangeError x := by
  rw [inRange_iff]
  unfold ofFloat rangeError
  split
  · next hneg => simp [hneg, eq_comm]
  split
  · next hpos hlt => simp [hpos, hlt]
  · next hge => simp [hge, eq_comm]

/-! ## Units -/

/-- A text with the longest unit that it ends with, or with none. -/
structure LongestUnit (text rest unit : List Char) (factor : Float) : Prop where
  eq : text = rest ++ unit
  mem : (unit, factor) ∈ ([], 1.0) :: timeUnits
  longest : ∀ u ∈ timeUnits, u.1 <:+ text → u.1.length ≤ unit.length

theorem withoutUnit?_eq_some_iff {text unit rest : List Char} :
    withoutUnit? text unit = some rest ↔ text = rest ++ unit := by
  unfold withoutUnit?
  rw [Option.ite_none_right_eq_some, List.isSuffixOf_iff_suffix]
  constructor
  · rintro ⟨⟨before, rfl⟩, h⟩
    rw [← Option.some.inj h, List.length_append, Nat.add_sub_cancel, List.take_left]
  · rintro rfl
    refine ⟨List.suffix_append rest unit, ?_⟩
    rw [List.length_append, Nat.add_sub_cancel, List.take_left]

theorem withoutUnit?_eq_none_iff {text unit : List Char} :
    withoutUnit? text unit = none ↔ ¬ unit <:+ text := by
  rw [Option.eq_none_iff_forall_ne_some]
  constructor
  · rintro h ⟨rest, heq⟩
    exact h rest (withoutUnit?_eq_some_iff.2 heq.symm)
  · rintro h rest heq
    exact h ⟨rest, (withoutUnit?_eq_some_iff.1 heq).symm⟩

/-- Of units in descending order of length the first one at the end of a text is the longest. -/
theorem findSome?_withoutUnit {us : List (List Char × Float)} {text rest : List Char}
    {factor : Float} (hus : us.Pairwise fun u v => v.1.length ≤ u.1.length)
    (h : (us.findSome? fun u => (withoutUnit? text u.1).map (·, u.2)) = some (rest, factor)) :
    ∃ unit, text = rest ++ unit ∧ (unit, factor) ∈ us ∧
      ∀ u ∈ us, u.1 <:+ text → u.1.length ≤ unit.length := by
  induction us with
  | nil => cases h
  | cons u us ih =>
    obtain ⟨hfirst, hus⟩ := List.pairwise_cons.1 hus
    rw [List.findSome?_cons] at h
    cases hu : withoutUnit? text u.1 with
    | some cut =>
      rw [hu] at h
      cases h
      refine ⟨u.1, withoutUnit?_eq_some_iff.1 hu, .head _, fun v hv _ => ?_⟩
      rcases List.mem_cons.1 hv with rfl | hv
      · exact Nat.le_refl _
      · exact hfirst v hv
    | none =>
      rw [hu] at h
      obtain ⟨unit, heq, hmem, hlongest⟩ := ih hus h
      refine ⟨unit, heq, .tail _ hmem, fun v hv hend => ?_⟩
      rcases List.mem_cons.1 hv with rfl | hv
      · exact absurd hend (withoutUnit?_eq_none_iff.1 hu)
      · exact hlongest v hv hend

/-- A text is split at the longest unit that it ends with. -/
theorem longestUnit_splitUnit (text : List Char) :
    ∃ unit, LongestUnit text (splitUnit text).1 unit (splitUnit text).2 := by
  unfold splitUnit
  cases hfind : timeUnits.findSome? fun u => (withoutUnit? text u.1).map (·, u.2) with
  | some split =>
    have horder : timeUnits.Pairwise fun u v => v.1.length ≤ u.1.length := by decide
    obtain ⟨unit, heq, hmem, hlongest⟩ := findSome?_withoutUnit horder hfind
    exact ⟨unit, heq, .tail _ hmem, hlongest⟩
  | none =>
    refine ⟨[], (List.append_nil text).symm, .head _, fun u hu hend => ?_⟩
    have hnone := List.findSome?_eq_none_iff.1 hfind u hu
    rw [Option.map_eq_none_iff, withoutUnit?_eq_none_iff] at hnone
    exact absurd hend hnone

theorem LongestUnit.length_le {text rest unit unit' : List Char} {factor factor' : Float}
    (h : LongestUnit text rest unit factor) (hmem : (unit', factor') ∈ ([], 1.0) :: timeUnits)
    (hend : unit' <:+ text) : unit'.length ≤ unit.length := by
  rcases List.mem_cons.1 hmem with heq | hmem
  · cases heq
    exact Nat.zero_le _
  · exact h.longest (unit', factor') hmem hend

/-- There is one longest unit at the end of a text. -/
theorem LongestUnit.unique {text rest rest' unit unit' : List Char} {factor factor' : Float}
    (h : LongestUnit text rest unit factor) (h' : LongestUnit text rest' unit' factor') :
    rest = rest' ∧ unit = unit' ∧ factor = factor' := by
  have hlength : unit.length = unit'.length :=
    Nat.le_antisymm (h'.length_le h.mem ⟨rest, h.eq.symm⟩) (h.length_le h'.mem ⟨rest', h'.eq.symm⟩)
  obtain ⟨hrest, hunit⟩ := List.append_inj' (h.eq.symm.trans h'.eq) hlength
  have hnodup : ((([], 1.0) :: timeUnits).map Prod.fst).Nodup := by decide
  have hpair := List.inj_on_of_nodup_map hnodup h.mem h'.mem hunit
  exact ⟨hrest, hunit, congrArg Prod.snd hpair⟩

/-! ## A number, blanks and a unit -/

/-- A text taken apart into a number, blanks, and a unit or none. -/
structure IsSplit (text number gap unit : List Char) (factor : Float) : Prop where
  eq : text = number ++ gap ++ unit
  blanks : Text.Blanks gap
  mem : (unit, factor) ∈ ([], 1.0) :: timeUnits

variable {text number gap unit : List Char} {factor : Float}

theorem isAlpha_of_mem_unit {c : Char} (h : (unit, factor) ∈ timeUnits) (hc : c ∈ unit) :
    c.isAlpha = true := by
  have hall : ∀ u ∈ timeUnits, u.1.all Char.isAlpha = true := by decide
  exact List.all_eq_true.1 (hall _ h) c hc

/-- A number that ends in no letter is followed by the longest unit: one more character of a longer
one would be a letter at the end of the number, or among the blanks. -/
theorem IsSplit.longestUnit (h : IsSplit text number gap unit factor)
    (hletter : ¬ Text.EndsInLetter number) : LongestUnit text (number ++ gap) unit factor := by
  refine ⟨h.eq, h.mem, fun u hu hend => ?_⟩
  by_contra hlonger
  obtain ⟨more, hmore⟩ : unit <:+ u.1 :=
    List.suffix_of_suffix_length_le ⟨_, h.eq.symm⟩ hend (by omega)
  obtain ⟨before, hbefore⟩ := hend
  have hne : more ≠ [] := by
    rintro rfl
    rw [← hmore] at hlonger
    exact hlonger (Nat.le_refl _)
  -- the last character before the unit
  have hsame : number ++ gap = before ++ more := by
    rw [← hmore, ← List.append_assoc, h.eq] at hbefore
    exact (List.append_cancel_right hbefore).symm
  obtain ⟨c, hc⟩ := Option.ne_none_iff_exists'.1 (mt List.getLast?_eq_none_iff.1 hne)
  have hlast : (number ++ gap).getLast? = some c := by
    rw [hsame, List.getLast?_append, hc]
    rfl
  have halpha : c.isAlpha = true :=
    isAlpha_of_mem_unit hu (hmore ▸ List.mem_append_left unit (List.mem_of_getLast? hc))
  rw [List.getLast?_append] at hlast
  rcases Option.or_eq_some_iff.1 hlast with hgap | ⟨-, hnumber⟩
  · have hblank := h.blanks c (List.mem_of_getLast? hgap)
    rw [Text.isBlank_of_isAlpha halpha] at hblank
    cases hblank
  · exact hletter ⟨c, hnumber, Text.isAlphabetic_of_isAlpha halpha⟩

/-- The number and the unit of a text without blanks at its ends can be told from the text. -/
theorem IsSplit.splitUnit_eq (h : IsSplit text number gap unit factor) (htext : Text.IsTrimmed text)
    (hletter : ¬ Text.EndsInLetter number)
    (hlast : ∀ c ∈ number.getLast?, Text.isBlank c = false) :
    Text.trim (splitUnit text).1 = number ∧ (splitUnit text).2 = factor := by
  obtain ⟨unit', hunit'⟩ := longestUnit_splitUnit text
  obtain ⟨hrest, -, hfactor⟩ := hunit'.unique (h.longestUnit hletter)
  have hhead : ∀ c ∈ number.head?, Text.isBlank c = false := by
    intro c hc
    refine htext.head c ?_
    rw [h.eq, List.head?_append, List.head?_append, Option.mem_def.1 hc]
    rfl
  have htrim : Text.trim ([] ++ number ++ gap) = number :=
    Text.trim_eq nofun h.blanks ⟨hhead, hlast⟩
  rw [hrest]
  exact ⟨htrim, hfactor⟩

/-- The number that is read, and the longest unit after it. -/
theorem exists_isSplit (htext : Text.IsTrimmed text) :
    ∃ gap unit, IsSplit text (Text.trim (splitUnit text).1) gap unit (splitUnit text).2 ∧
      ∀ u ∈ timeUnits, u.1 <:+ text → u.1.length ≤ unit.length := by
  obtain ⟨unit, hunit⟩ := longestUnit_splitUnit text
  have hleft : Text.trimLeft (splitUnit text).1 = (splitUnit text).1 := by
    refine Text.trimLeft_eq_self fun c hc => htext.head c ?_
    rw [hunit.eq, List.head?_append, Option.mem_def.1 hc]
    rfl
  obtain ⟨gap, hgap, hrest⟩ := Text.exists_eq_trimRight_append (splitUnit text).1
  refine ⟨gap, unit, ⟨?_, hgap, hunit.mem⟩, hunit.longest⟩
  rw [Text.trim, hleft, ← hrest]
  exact hunit.eq

/-! ## Reading -/

/-- Reads the number of a text with the seconds of its unit. -/
def ofNumber (text number : List Char) (factor : Float) : Except DurationError Duration :=
  match number.getLast? with
  | none => .error (.unknownUnit (String.ofList text))
  | some last =>
    if Text.isAlphabetic last then .error (.unknownUnit (String.ofList text))
    else
      match FloatText.read? number with
      | none => .error (.invalidNumber (String.ofList number))
      | some x => ofFloat (x * factor)

theorem ofChars_eq (cs : List Char) :
    ofChars cs = if Text.trim cs = [] then .ok zero
      else ofNumber (Text.trim cs) (Text.trim (splitUnit (Text.trim cs)).1)
        (splitUnit (Text.trim cs)).2 :=
  rfl

theorem read?_nil : FloatText.read? [] = none := by
  decide

/-- What stands before the unit is a number, blanks aside, or there is no telling the unit. -/
theorem ofNumber_of_endsInLetter (h : number = [] ∨ Text.EndsInLetter number) :
    ofNumber text number factor = .error (.unknownUnit (String.ofList text)) := by
  unfold ofNumber
  rcases h with rfl | ⟨c, hc, hletter⟩
  · rfl
  · rw [Option.mem_def.1 hc]
    exact if_pos hletter

theorem ofNumber_of_not_endsInLetter (hne : number ≠ []) (hletter : ¬ Text.EndsInLetter number) :
    ofNumber text number factor =
      match FloatText.read? number with
      | none => .error (.invalidNumber (String.ofList number))
      | some x => ofFloat (x * factor) := by
  obtain ⟨c, hc⟩ := Option.ne_none_iff_exists'.1 (mt List.getLast?_eq_none_iff.1 hne)
  unfold ofNumber
  rw [hc]
  exact if_neg fun h => hletter ⟨c, hc, h⟩

theorem ofNumber_eq_ok_iff {d : Duration} :
    ofNumber text number factor = .ok d ↔
      ¬ Text.EndsInLetter number ∧ ∃ x, FloatText.read? number = some x ∧
        InRange (x * factor) ∧ NearestNat (value (x * factor) * 1000000000) d.nanos := by
  by_cases hunit : number = [] ∨ Text.EndsInLetter number
  · rw [ofNumber_of_endsInLetter hunit]
    refine iff_of_false nofun ?_
    rintro ⟨hletter, x, hx, -⟩
    obtain rfl := hunit.resolve_right hletter
    rw [read?_nil] at hx
    cases hx
  · obtain ⟨hne, hletter⟩ := not_or.1 hunit
    rw [ofNumber_of_not_endsInLetter hne hletter, and_iff_right hletter]
    cases FloatText.read? number with
    | none => simp
    | some x => simpa using ofFloat_eq_ok_iff

theorem ofNumber_eq_error_iff {e : DurationError} :
    ofNumber text number factor = .error e ↔
      (number = [] ∨ Text.EndsInLetter number) ∧ e = .unknownUnit (String.ofList text) ∨
      ¬ (number = [] ∨ Text.EndsInLetter number) ∧ FloatText.read? number = none ∧
        e = .invalidNumber (String.ofList number) ∨
      ¬ (number = [] ∨ Text.EndsInLetter number) ∧ ∃ x, FloatText.read? number = some x ∧
        ¬ InRange (x * factor) ∧ e = rangeError (x * factor) := by
  by_cases hunit : number = [] ∨ Text.EndsInLetter number
  · rw [ofNumber_of_endsInLetter hunit]
    simp [hunit, eq_comm]
  · obtain ⟨hne, hletter⟩ := not_or.1 hunit
    rw [ofNumber_of_not_endsInLetter hne hletter]
    cases FloatText.read? number with
    | none => simp [hunit, eq_comm]
    | some x => simpa [hunit] using ofFloat_eq_error_iff

/-- Blanks around a text are not part of it. -/
theorem ofChars_append {before after : List Char} (hbefore : Text.Blanks before)
    (hafter : Text.Blanks after) (cs : List Char) :
    ofChars (before ++ cs ++ after) = ofChars cs := by
  rw [ofChars_eq, ofChars_eq, Text.trim_append hbefore hafter]

theorem ofChars_eq_ok_iff {cs : List Char} {d : Duration} :
    ofChars cs = .ok d ↔
      Text.trim cs = [] ∧ d = zero ∨
      ∃ number gap unit factor x, IsSplit (Text.trim cs) number gap unit factor ∧
        ¬ Text.EndsInLetter number ∧ FloatText.read? number = some x ∧
        InRange (x * factor) ∧ NearestNat (value (x * factor) * 1000000000) d.nanos := by
  have htrim := Text.isTrimmed_trim cs
  rw [ofChars_eq]
  by_cases hempty : Text.trim cs = []
  · rw [if_pos hempty]
    constructor
    · intro h
      cases h
      exact .inl ⟨hempty, rfl⟩
    · rintro (⟨-, rfl⟩ | ⟨number, gap, unit, factor, x, hsplit, -, hx, -⟩)
      · rfl
      · -- nothing is left for a number
        have hnone := hsplit.eq
        rw [hempty, eq_comm, List.append_eq_nil_iff, List.append_eq_nil_iff] at hnone
        rw [hnone.1.1, read?_nil] at hx
        cases hx
  · rw [if_neg hempty, ofNumber_eq_ok_iff]
    constructor
    · rintro ⟨hletter, x, hx, hrange, hnearest⟩
      obtain ⟨gap, unit, hsplit, -⟩ := exists_isSplit htrim
      exact .inr ⟨_, gap, unit, _, x, hsplit, hletter, hx, hrange, hnearest⟩
    · rintro (⟨h, -⟩ | ⟨number, gap, unit, factor, x, hsplit, hletter, hx, hrange, hnearest⟩)
      · exact absurd h hempty
      · obtain ⟨hnumber, hfactor⟩ :=
          hsplit.splitUnit_eq htrim hletter fun c hc => FloatText.isBlank_of_read? hx hc
        rw [hnumber, hfactor]
        exact ⟨hletter, x, hx, hrange, hnearest⟩

/-- A text is a duration if it is empty, or a number with a unit or none and blanks between them:
the number ends in no letter, as the words for infinity and NaN do, and the product is in range. The
unit is always the longest that the text ends with, blanks around the text make no difference, and
every other text has the one error that tells what is wrong with its number. -/
theorem ofChars_grammar (cs : List Char) :
    (∀ d, ofChars cs = .ok d ↔
      Text.trim cs = [] ∧ d = zero ∨
      ∃ number gap unit factor x, IsSplit (Text.trim cs) number gap unit factor ∧
        ¬ Text.EndsInLetter number ∧ FloatText.read? number = some x ∧
        InRange (x * factor) ∧ NearestNat (value (x * factor) * 1000000000) d.nanos) ∧
    (∀ number x, FloatText.word? number = some x → Text.EndsInLetter number) ∧
    (∀ number gap unit factor, IsSplit (Text.trim cs) number gap unit factor →
      ¬ Text.EndsInLetter number →
      ∀ u ∈ timeUnits, u.1 <:+ Text.trim cs → u.1.length ≤ unit.length) ∧
    (∀ before after, Text.Blanks before → Text.Blanks after →
      ofChars (before ++ cs ++ after) = ofChars cs) ∧
    (Text.trim cs ≠ [] → ∃ number gap unit factor,
      IsSplit (Text.trim cs) number gap unit factor ∧
      (∀ c ∈ number.getLast?, Text.isBlank c = false) ∧
      (∀ u ∈ timeUnits, u.1 <:+ Text.trim cs → u.1.length ≤ unit.length) ∧
      ∀ e, ofChars cs = .error e ↔
        (number = [] ∨ Text.EndsInLetter number) ∧
          e = .unknownUnit (String.ofList (Text.trim cs)) ∨
        ¬ (number = [] ∨ Text.EndsInLetter number) ∧ FloatText.read? number = none ∧
          e = .invalidNumber (String.ofList number) ∨
        ¬ (number = [] ∨ Text.EndsInLetter number) ∧ ∃ x, FloatText.read? number = some x ∧
          ¬ InRange (x * factor) ∧ e = rangeError (x * factor)) := by
  refine ⟨fun d => ofChars_eq_ok_iff, fun number x h => FloatText.endsInLetter_of_word? h,
    fun number gap unit factor h hletter => (h.longestUnit hletter).longest,
    fun before after hbefore hafter => ofChars_append hbefore hafter cs, fun hne => ?_⟩
  obtain ⟨gap, unit, hsplit, hlongest⟩ := exists_isSplit (Text.isTrimmed_trim cs)
  refine ⟨_, gap, unit, _, hsplit, (Text.isTrimmed_trim _).last, hlongest, fun e => ?_⟩
  rw [ofChars_eq, if_neg hne]
  exact ofNumber_eq_error_iff

end Duration

end Portfolio
