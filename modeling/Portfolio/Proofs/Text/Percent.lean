import Portfolio.Text.Percent

/-! # Percent-encoded octets

Encoded octets are written in letters and digits of ASCII, `-_.~` and percent signs
(`Percent.isWritten_of_mem_encode`), and are read back (`Percent.decode?_encode`). -/

namespace Portfolio.Percent

/-- A character of encoded octets. -/
def IsWritten (c : Char) : Prop :=
  c = '%' ∨ c.isAlphanum ∨ c ∈ ['-', '_', '.', '~']

instance : DecidablePred IsWritten := fun c =>
  inferInstanceAs (Decidable (c = '%' ∨ c.isAlphanum ∨ c ∈ ['-', '_', '.', '~']))

variable {b : UInt8} {c high low : Char} {m n : Nat} {cs : List Char}

theorem digit?_upper : n < 16 → Hex.digit? (Hex.upper n) = some n := by
  revert n
  decide

theorem isWritten_upper : n < 16 → IsWritten (Hex.upper n) := by
  revert n
  decide

/-- An octet that stands for itself is a character of ASCII other than the percent sign. -/
theorem isPlain_elim (h : isPlain b) :
    (Char.ofNat b.toNat).toNat = b.toNat ∧ b.toNat < 128 ∧ Char.ofNat b.toNat ≠ '%' ∧
      IsWritten (Char.ofNat b.toNat) := by
  have hall : ∀ n < 256, isPlain (UInt8.ofNat n) →
      (Char.ofNat n).toNat = n ∧ n < 128 ∧ Char.ofNat n ≠ '%' ∧ IsWritten (Char.ofNat n) := by
    decide +kernel
  exact hall b.toNat b.toNat_lt (by rwa [UInt8.ofNat_toNat])

/-! ## What is written -/

theorem isWritten_of_mem_encodeOctet (h : c ∈ encodeOctet b) : IsWritten c := by
  have hb : b.toNat < 256 := b.toNat_lt
  unfold encodeOctet at h
  split at h
  · next hplain =>
    rw [List.mem_singleton] at h
    rw [h]
    exact (isPlain_elim hplain).2.2.2
  · simp only [List.mem_cons, List.not_mem_nil, or_false] at h
    rcases h with rfl | rfl | rfl
    · exact .inl rfl
    · exact isWritten_upper (by omega)
    · exact isWritten_upper (by omega)

theorem isWritten_of_mem_encode {bs : List UInt8} (h : c ∈ encode bs) : IsWritten c := by
  obtain ⟨b, -, hc⟩ := List.mem_flatMap.1 h
  exact isWritten_of_mem_encodeOctet hc

/-! ## What is read back -/

theorem decode?_cons_plain (hc : c ≠ '%') (hlt : c.toNat < 128) :
    decode? (c :: cs) = (decode? cs).map (UInt8.ofNat c.toNat :: ·) := by
  rw [decode?.eq_3 c cs fun _ _ _ h _ => hc h, if_pos]
  simpa using ⟨hc, hlt⟩

theorem decode?_cons_escape (hm : Hex.digit? high = some m) (hn : Hex.digit? low = some n) :
    decode? ('%' :: high :: low :: cs) = (decode? cs).map (UInt8.ofNat (m * 16 + n) :: ·) := by
  rw [decode?, hm, hn]
  cases decode? cs <;> rfl

theorem decode?_encodeOctet (b : UInt8) (cs : List Char) :
    decode? (encodeOctet b ++ cs) = (decode? cs).map (b :: ·) := by
  have hb : b.toNat < 256 := b.toNat_lt
  unfold encodeOctet
  split
  · next hplain =>
    obtain ⟨hnat, hlt, hne, -⟩ := isPlain_elim hplain
    rw [List.singleton_append, decode?_cons_plain hne (by omega), hnat, UInt8.ofNat_toNat]
  · rw [List.cons_append, List.cons_append, List.singleton_append,
      decode?_cons_escape (digit?_upper (by omega)) (digit?_upper (by omega)),
      Nat.div_add_mod' b.toNat 16, UInt8.ofNat_toNat]

theorem decode?_encode (bs : List UInt8) : decode? (encode bs) = some bs := by
  induction bs with
  | nil => rfl
  | cons b bs ih =>
    rw [encode, List.flatMap_cons, decode?_encodeOctet]
    exact congrArg (Option.map (b :: ·)) ih

end Portfolio.Percent
