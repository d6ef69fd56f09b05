import Portfolio.Number.FloatText
import Portfolio.Proofs.Text.Trim
import Portfolio.Text.Alphabetic

/-! # What numbers are spelled with

A numeral has digits, signs, a point and a mark for its exponent in it, and nothing else
(`Numeral.isMark_of_ofChars?`). The words for infinity and NaN end in a letter
(`FloatText.endsInLetter_of_word?`). No number that is read has a blank at its end
(`FloatText.isBlank_of_read?`). -/

namespace Portfolio

namespace Text

/-- The last character is a letter. -/
def EndsInLetter (cs : List Char) : Prop :=
  ∃ c ∈ cs.getLast?, isAlphabetic c = true

/-- Where the letters of ASCII are. -/
theorem range_of_isAlpha {c : Char} (h : c.isAlpha = true) :
    0x41 ≤ c.toNat ∧ c.toNat ≤ 0x5a ∨ 0x61 ≤ c.toNat ∧ c.toNat ≤ 0x7a := by
  have hcase : (c.isUpper || c.isLower) = true := h
  rcases Bool.or_eq_true_iff.1 hcase with hc | hc
  · obtain ⟨hle, hge⟩ : c.val ≥ 'A'.val ∧ c.val ≤ 'Z'.val := of_decide_eq_true hc
    exact .inl ⟨UInt32.le_iff_toNat_le.1 hle, UInt32.le_iff_toNat_le.1 hge⟩
  · obtain ⟨hle, hge⟩ : c.val ≥ 'a'.val ∧ c.val ≤ 'z'.val := by
      rcases Bool.and_eq_true_iff.1 hc with ⟨hle, hge⟩
      exact ⟨of_decide_eq_true hle, of_decide_eq_true hge⟩
    exact .inr ⟨UInt32.le_iff_toNat_le.1 hle, UInt32.le_iff_toNat_le.1 hge⟩

theorem isAlphabetic_of_isAlpha {c : Char} (h : c.isAlpha = true) : isAlphabetic c = true := by
  rw [isAlphabetic, inRanges, List.any_eq_true]
  rcases range_of_isAlpha h with ⟨hle, hge⟩ | ⟨hle, hge⟩
  · exact ⟨(0x41, 0x5a), .head _, by simp [hle, hge]⟩
  · exact ⟨(0x61, 0x7a), .tail _ (.head _), by simp [hle, hge]⟩

theorem isBlank_of_isAlpha {c : Char} (h : c.isAlpha = true) : isBlank c = false := by
  have hrange := range_of_isAlpha h
  exact isBlank_eq_false (by omega) (by omega)

end Text

namespace Numeral

/-- A character of a numeral. -/
def IsMark (c : Char) : Prop :=
  c.isDigit = true ∨ c ∈ ['+', '-', '.', 'e', 'E']

variable {c : Char} {cs : List Char}

theorem mem_sign (h : c ∈ cs) : IsMark c ∨ c ∈ (sign cs).2 := by
  unfold sign
  split
  · rcases List.mem_cons.1 h with rfl | h
    · exact .inl (.inr (by decide))
    · exact .inr h
  · rcases List.mem_cons.1 h with rfl | h
    · exact .inl (.inr (by decide))
    · exact .inr h
  · exact .inr h

theorem mem_run (h : c ∈ cs) : IsMark c ∨ c ∈ (run cs).2 := by
  rw [← List.takeWhile_append_dropWhile (p := Char.isDigit) (l := cs), List.mem_append] at h
  rcases h with h | h
  · exact .inl (.inl (List.mem_takeWhile_imp h))
  · exact .inr h

theorem mem_mantissa (h : c ∈ cs) : IsMark c ∨ c ∈ (mantissa cs).2.2 := by
  rcases mem_run h with h | h
  · exact .inl h
  · unfold mantissa
    generalize run cs = whole at h ⊢
    obtain ⟨whole, rest⟩ := whole
    dsimp only at h ⊢
    split
    · rcases List.mem_cons.1 h with rfl | h
      · exact .inl (.inr (by decide))
      · exact mem_run h
    · exact .inr h

theorem isMark_of_integer? {n : Int} (h : integer? cs = some n) (hc : c ∈ cs) : IsMark c := by
  rcases mem_sign hc with hc | hc
  · exact hc
  rcases mem_run hc with hc | hc
  · exact hc
  · unfold integer? at h
    dsimp only at h
    split at h
    · cases h
    · cases h
    · next hrun =>
      rw [hrun] at hc
      cases hc

theorem isMark_of_exponent? {n : Int} (h : exponent? cs = some n) (hc : c ∈ cs) : IsMark c := by
  unfold exponent? at h
  split at h
  · cases hc
  · rcases List.mem_cons.1 hc with rfl | hc
    · exact .inr (by decide)
    · exact isMark_of_integer? h hc
  · rcases List.mem_cons.1 hc with rfl | hc
    · exact .inr (by decide)
    · exact isMark_of_integer? h hc
  · cases h

/-- A numeral is spelled with marks only. -/
theorem isMark_of_ofChars? {n : Numeral} (h : ofChars? cs = some n) (hc : c ∈ cs) : IsMark c := by
  rcases mem_sign hc with hc | hc
  · exact hc
  rcases mem_mantissa hc with hc | hc
  · exact hc
  · unfold ofChars? at h
    dsimp only at h
    split at h
    · cases h
    · obtain ⟨e, he, -⟩ := Option.map_eq_some_iff.1 h
      exact isMark_of_exponent? he hc

theorem IsMark.isBlank (h : IsMark c) : Text.isBlank c = false := by
  rcases h with h | h
  · have hrange : 48 ≤ c.toNat ∧ c.toNat ≤ 57 := by
      simpa [Char.isDigit, UInt32.le_iff_toNat_le] using h
    exact Text.isBlank_eq_false (by omega) (by omega)
  · simp only [List.mem_cons, List.not_mem_nil, or_false] at h
    rcases h with rfl | rfl | rfl | rfl | rfl <;> decide

end Numeral

namespace FloatText

variable {c d : Char} {cs : List Char} {x : Float}

/-- A letter is in lower case, or thirty-two before what it is there. -/
theorem eq_or_eq_of_toLower (h : c.toLower = d) : c = d ∨ c = Char.ofNat (d.toNat - 32) := by
  subst h
  unfold Char.toLower
  split
  · next hupper =>
    have hle : c.val.toNat ≤ 90 := UInt32.le_iff_toNat_le.1 hupper.2
    have hsum : (c.val + 32).toNat = c.val.toNat + 32 := by
      rw [UInt32.toNat_add]
      exact Nat.mod_eq_of_lt (by show c.val.toNat + 32 < 2 ^ 32; omega)
    refine .inr ?_
    show c = Char.ofNat ((c.val + 32).toNat - 32)
    rw [hsum, Nat.add_sub_cancel]
    exact (Char.ofNat_toNat c).symm
  · exact .inl rfl

theorem mem_getLast?_of_sign (h : c ∈ (Numeral.sign cs).2.getLast?) : c ∈ cs.getLast? := by
  unfold Numeral.sign at h
  split at h
  · rw [List.getLast?_cons, Option.mem_def.1 h]
    rfl
  · rw [List.getLast?_cons, Option.mem_def.1 h]
    rfl
  · exact h

/-- A word ends in a letter of ASCII, in either case. -/
theorem last_of_word? (h : word? cs = some x) : ∃ c ∈ cs.getLast?, c.isAlpha = true := by
  have hlow : ∃ d ∈ ['f', 'y', 'n'], d ∈ ((Numeral.sign cs).2.map Char.toLower).getLast? := by
    unfold word? at h
    generalize Numeral.sign cs = signed at h ⊢
    obtain ⟨negative, rest⟩ := signed
    obtain ⟨v, hv, -⟩ := Option.map_eq_some_iff.1 h
    split at hv
    · next hword =>
      rcases hword with hword | hword
      · exact ⟨'f', by decide, by rw [hword]; rfl⟩
      · exact ⟨'y', by decide, by rw [hword]; rfl⟩
    split at hv
    · next hword => exact ⟨'n', by decide, by rw [hword]; rfl⟩
    · cases hv
  obtain ⟨d, hd, hlast⟩ := hlow
  rw [List.getLast?_map] at hlast
  obtain ⟨c, hc, hlower⟩ := Option.map_eq_some_iff.1 hlast
  refine ⟨c, mem_getLast?_of_sign hc, ?_⟩
  have hcase := eq_or_eq_of_toLower hlower
  simp only [List.mem_cons, List.not_mem_nil, or_false] at hd
  rcases hd with rfl | rfl | rfl <;> rcases hcase with rfl | rfl <;> decide

theorem endsInLetter_of_word? (h : word? cs = some x) : Text.EndsInLetter cs := by
  obtain ⟨c, hc, hletter⟩ := last_of_word? h
  exact ⟨c, hc, Text.isAlphabetic_of_isAlpha hletter⟩

/-- A number that is read ends in no blank. -/
theorem isBlank_of_read? (h : read? cs = some x) (hc : c ∈ cs.getLast?) :
    Text.isBlank c = false := by
  rcases Option.or_eq_some_iff.1 h with h | ⟨-, h⟩
  · obtain ⟨n, hn, -⟩ := Option.map_eq_some_iff.1 h
    exact (Numeral.isMark_of_ofChars? hn (List.mem_of_getLast? hc)).isBlank
  · obtain ⟨d, hd, hletter⟩ := last_of_word? h
    obtain rfl := Option.mem_unique hd hc
    exact Text.isBlank_of_isAlpha hletter

end FloatText

end Portfolio
