import Mathlib.Algebra.Ring.Nat
import Portfolio.Number.DecimalReader
import Portfolio.Proofs.Number.Spelling

/-! # Decimals that were written

A decimal is written with all its places, so reading the text gives the mantissa and the scale back
whatever they are: the digits never outgrow the mantissa that they came from, and the reader has to
round nothing. Only the sign of a zero is lost (`Decimal.ofChars?_render`). No blank stands in the
text, so one can be read without its ends (`Decimal.trim_render`). -/

namespace Portfolio

namespace Decimal

/-- The decimal that the text of `d` says: a zero has no sign. -/
def written (d : Decimal) : Decimal :=
  { d with negative := d.negative && d.mantissa != 0 }

/-- The text, blanks around it aside, is one of the decimal. -/
def IsTextOf (d : Decimal) (text : String) : Prop :=
  ofChars? (Text.trim text.toList) = some d

/-! ## Digits -/

theorem isDigit_of_mem_places {width n : Nat} {c : Char} (h : c ∈ places width n) :
    c.isDigit = true := by
  induction width generalizing n with
  | zero => cases h
  | succ width ih =>
    obtain h | h := List.mem_append.1 h
    · exact ih h
    · obtain rfl := List.mem_singleton.1 h
      rw [Nat.isDigit_digitChar, decide_eq_true_eq]
      exact Nat.mod_lt _ (by decide)

theorem length_places (width n : Nat) : (places width n).length = width := by
  induction width generalizing n with
  | zero => rfl
  | succ width ih => rw [places, List.length_append, ih, List.length_singleton]

/-- Digits written after a number make it longer by their places. -/
theorem ofDigitChars_places (width n init : Nat) :
    Nat.ofDigitChars 10 (places width n) init = init * 10 ^ width + n % 10 ^ width := by
  induction width generalizing n with
  | zero => simp [places, Nat.mod_one]
  | succ width ih =>
    have hlast : n % 10 < 10 := Nat.mod_lt _ (by decide)
    rw [places, Nat.ofDigitChars_append, ih, Nat.ofDigitChars_cons_digitChar_of_lt_ten hlast,
      Nat.ofDigitChars_nil, Nat.pow_succ', Nat.mod_mul, Nat.mul_add, Nat.mul_left_comm]
    omega

theorem le_ofDigitChars (ds : List Char) (init : Nat) : init ≤ Nat.ofDigitChars 10 ds init := by
  induction ds generalizing init with
  | nil => exact Nat.le_refl _
  | cons c ds ih =>
    rw [Nat.ofDigitChars_cons]
    exact Nat.le_trans (by omega) (ih _)

/-- Digits for which there is room are taken one after the other. -/
theorem Partial.take?_digits (negative : Bool) {p : Partial} {ds : List Char} (rest : List Char)
    (hds : ∀ c ∈ ds, c.isDigit = true)
    (hfits : Nat.ofDigitChars 10 ds p.mantissa < Word.count 96)
    (hplaces : p.point = true → p.scale + ds.length ≤ 28) :
    ∃ wide, p.take? negative (ds ++ rest) =
      take? negative
        { mantissa := Nat.ofDigitChars 10 ds p.mantissa
          scale := if p.point then p.scale + ds.length else p.scale
          point := p.point, any := p.any || !ds.isEmpty, wide } rest := by
  induction ds generalizing p with
  | nil => exact ⟨p.wide, by simp⟩
  | cons c ds ih =>
    have hc : c.isDigit = true := hds c (.head _)
    have hroom : (p.point && p.scale == 28) = false := by
      cases hp : p.point with
      | false => rfl
      | true =>
        have := hplaces hp
        simp only [List.length_cons] at this
        simp only [Bool.true_and, beq_eq_false_iff_ne]
        omega
    rw [Nat.ofDigitChars_cons, Nat.mul_comm] at hfits
    have hdigit : p.mantissa * 10 + digitOf c < Word.count 96 :=
      Nat.lt_of_le_of_lt (le_ofDigitChars ds _) hfits
    have hpush : p.take? negative (c :: ds ++ rest) =
        (p.push (digitOf c)).take? negative (ds ++ rest) := by
      rw [List.cons_append, take?, if_pos hc, hroom, if_neg Bool.false_ne_true, if_pos hdigit]
    have hscale : (p.push (digitOf c)).point = true →
        (p.push (digitOf c)).scale + ds.length ≤ 28 := by
      intro hp
      have hle := hplaces hp
      have hp : p.point = true := hp
      simp only [push, hp, if_true, List.length_cons] at hle ⊢
      omega
    obtain ⟨wide, h⟩ := ih (p := p.push (digitOf c)) (fun d hd => hds d (.tail _ hd)) hfits hscale
    refine ⟨wide, hpush.trans (h.trans ?_)⟩
    rw [Nat.ofDigitChars_cons, Nat.mul_comm 10]
    cases hp : p.point with
    | false => simp [push, hp, digitOf]
    | true =>
      have hlength : p.scale + 1 + ds.length = p.scale + (ds.length + 1) := by omega
      simp [push, hp, digitOf, hlength]

/-! ## The text -/

/-- The text without a sign. -/
def unsigned (d : Decimal) : List Char :=
  Nat.toDigits 10 (d.mantissa / 10 ^ d.scale) ++
    if d.scale = 0 then [] else '.' :: places d.scale (d.mantissa % 10 ^ d.scale)

theorem render_eq (d : Decimal) :
    d.render = (if d.written.negative then ['-'] else []) ++ d.unsigned :=
  List.append_assoc ..

/-- What is left once all digits are taken. -/
theorem Partial.finish?_digits (d : Decimal) (negative point wide : Bool) :
    Partial.finish? ⟨d.mantissa, d.scale, point, true, wide⟩ negative =
      some { d with negative := negative && d.mantissa != 0 } := by
  rw [Partial.finish?, if_pos rfl, ofParts?, dif_pos ⟨d.mantissa_lt, d.scale_le⟩]

theorem take?_unsigned (d : Decimal) (negative : Bool) :
    Partial.start.take? negative d.unsigned =
      some { d with negative := negative && d.mantissa != 0 } := by
  have hmantissa := d.mantissa_lt
  have hwhole : Nat.ofDigitChars 10 (Nat.toDigits 10 (d.mantissa / 10 ^ d.scale)) 0 =
      d.mantissa / 10 ^ d.scale := Nat.ofDigitChars_ten_toDigits
  have hdigits : ∀ c ∈ Nat.toDigits 10 (d.mantissa / 10 ^ d.scale), c.isDigit = true :=
    fun c hc => Nat.isDigit_of_mem_toDigits (by decide) (by decide) hc
  have hany : (!(Nat.toDigits 10 (d.mantissa / 10 ^ d.scale)).isEmpty) = true := by
    simp [Nat.toDigits_ne_nil]
  have hfits : Nat.ofDigitChars 10 (Nat.toDigits 10 (d.mantissa / 10 ^ d.scale))
      Partial.start.mantissa < Word.count 96 := by
    rw [Partial.start, hwhole]
    exact Nat.lt_of_le_of_lt (Nat.div_le_self _ _) hmantissa
  obtain ⟨wide, hread⟩ := Partial.take?_digits negative
    (if d.scale = 0 then [] else '.' :: places d.scale (d.mantissa % 10 ^ d.scale)) hdigits
    hfits (by rintro ⟨⟩)
  rw [unsigned, hread]
  simp only [Partial.start, hany, Bool.or_true, hwhole, Bool.false_eq_true, if_false]
  split
  · next h0 =>
    have hm : d.mantissa / 10 ^ d.scale = d.mantissa := by rw [h0, Nat.pow_zero, Nat.div_one]
    rw [Partial.take?, hm]
    exact (congrArg (fun s => Partial.finish? ⟨d.mantissa, s, false, true, wide⟩ negative)
      h0.symm).trans (Partial.finish?_digits d negative false wide)
  · have hvalue : Nat.ofDigitChars 10 (places d.scale (d.mantissa % 10 ^ d.scale))
        (d.mantissa / 10 ^ d.scale) = d.mantissa := by
      rw [ofDigitChars_places, Nat.mod_mod, Nat.div_add_mod']
    obtain ⟨wide', hfraction⟩ := Partial.take?_digits negative
      (p := ⟨d.mantissa / 10 ^ d.scale, 0, true, true, wide⟩) []
      (fun c hc => isDigit_of_mem_places hc) (by rw [hvalue]; exact hmantissa)
      (fun _ => by rw [length_places, Nat.zero_add]; exact d.scale_le)
    rw [List.append_nil] at hfraction
    simp only [if_true, hvalue, length_places, Nat.zero_add, Bool.true_or] at hfraction
    rw [Partial.take?, if_neg (by decide), if_pos (show ('.' == '.' && !false) = true from rfl),
      hfraction, Partial.take?]
    exact Partial.finish?_digits d negative true wide'

/-- What stands in the text of a decimal. -/
theorem mem_render {d : Decimal} {c : Char} (h : c ∈ d.render) :
    c.isDigit = true ∨ c = '.' ∨ c = '-' := by
  rw [render_eq, unsigned] at h
  obtain h | h := List.mem_append.1 h
  · split at h
    · exact .inr (.inr (List.mem_singleton.1 h))
    · cases h
  obtain h | h := List.mem_append.1 h
  · exact .inl (Nat.isDigit_of_mem_toDigits (by decide) (by decide) h)
  split at h
  · cases h
  obtain rfl | h := List.mem_cons.1 h
  · exact .inr (.inl rfl)
  · exact .inl (isDigit_of_mem_places h)

theorem sign_unsigned (d : Decimal) : Numeral.sign d.unsigned = (false, d.unsigned) := by
  unfold unsigned
  cases hw : Nat.toDigits 10 (d.mantissa / 10 ^ d.scale) with
  | nil => exact absurd hw Nat.toDigits_ne_nil
  | cons c cs =>
    have hc : c.isDigit = true :=
      Nat.isDigit_of_mem_toDigits (by decide) (by decide) (hw ▸ List.mem_cons_self)
    rw [List.cons_append]
    unfold Numeral.sign
    split
    · next heq =>
      cases heq
      exact absurd hc (by decide)
    · next heq =>
      cases heq
      exact absurd hc (by decide)
    · rfl

/-- A decimal is read as it was written. -/
theorem ofChars?_render (d : Decimal) : ofChars? d.render = some d.written := by
  have hsign : Numeral.sign d.render = (d.written.negative, d.unsigned) := by
    rw [render_eq]
    cases d.written.negative with
    | false => exact sign_unsigned d
    | true => rfl
  have hplain : plain? d.render = some d.written := by
    rw [plain?, hsign]
    refine (take?_unsigned d d.written.negative).trans ?_
    simp only [written, Bool.and_assoc, Bool.and_self]
  rw [ofChars?, hplain, Option.some_or]

/-- No blank stands in the text. -/
theorem isBlank_of_mem_render {d : Decimal} {c : Char} (h : c ∈ d.render) :
    Text.isBlank c = false := by
  have hmark : Numeral.IsMark c := by
    obtain hc | rfl | rfl := mem_render h
    · exact .inl hc
    · exact .inr (by decide)
    · exact .inr (by decide)
  exact hmark.isBlank

theorem trim_render (d : Decimal) : Text.trim d.render = d.render :=
  Text.trim_eq_self ⟨fun _ hc => isBlank_of_mem_render (List.mem_of_head? hc),
    fun _ hc => isBlank_of_mem_render (List.mem_of_getLast? hc)⟩

/-! ## The number -/

/-- The binary64 number that the text of a decimal is read as: a zero has lost its sign. -/
def readBack (d : Decimal) : Float :=
  if d.negative ∧ d.mantissa = 0 then 0.0 else d.toFloat

theorem toFloat_written (d : Decimal) : d.written.toFloat = d.readBack := by
  unfold readBack
  split
  · next h =>
    have hnone : Float.ofNat 0 = 0.0 := by decide
    have hfraction : ∀ s < 29, (0.0 / Float.ofNat (10 ^ s) == 0.0) = true := by decide +kernel
    simp [toFloat, written, h.1, h.2, hnone, hfraction d.scale (Nat.lt_succ_of_le d.scale_le)]
  · next h =>
    have hsign : (d.negative && d.mantissa != 0) = d.negative := by
      cases hn : d.negative with
      | false => rfl
      | true => simpa [hn] using h
    rw [written]
    simp only [hsign]

end Decimal

end Portfolio
