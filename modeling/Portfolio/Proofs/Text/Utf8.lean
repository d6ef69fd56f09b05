import Mathlib.Algebra.Ring.Nat
import Mathlib.Data.List.Lex
import Portfolio.Text.Utf8

/-! # Texts as octets

Every text is read back from its octets (`Utf8.decode?_encode`), and a text before another one in
the order of code points is before it in the order of octets too (`Utf8.encode_lt_encode`): a
character with a longer form has a greater first octet. -/

namespace Portfolio.Utf8

/-! ## The octets of a text -/

theorem toList_loop (bs : ByteArray) (i : Nat) (acc : List UInt8) :
    ByteArray.toList.loop bs i acc = acc.reverse ++ bs.data.toList.drop i := by
  fun_induction ByteArray.toList.loop bs i acc with
  | case1 i acc hi ih =>
    have hget : bs.get! i = bs.data.toList[i] := getElem!_pos bs.data i hi
    rw [ih, List.drop_eq_getElem_cons (i := i) hi, hget, List.reverse_cons, List.append_assoc]
    rfl
  | case2 i acc hi =>
    rw [List.drop_eq_nil_of_le (Nat.not_lt.1 hi), List.append_nil]

/-- A text is encoded character by character. -/
theorem encode_eq (s : String) : encode s = s.toList.flatMap String.utf8EncodeChar := by
  have hdata : s.toUTF8.data.toList = s.toList.flatMap String.utf8EncodeChar := by
    rw [String.toUTF8_eq_toByteArray, ← String.utf8Encode_toList, List.utf8Encode,
      List.toList_data_toByteArray]
  rw [encode, ByteArray.toList, toList_loop, hdata]
  rfl

/-! ## Reading a character -/

theorem lead_one {b : Nat} (h : b < 0x80) : lead b = .char (Char.ofNat b) :=
  if_pos h

theorem lead_two {b : Nat} (h : 0xC2 ≤ b) (h' : b ≤ 0xDF) :
    lead b = .pending ⟨1, 0x80, 0xBF, b - 0xC0⟩ := by
  unfold lead
  rw [if_neg (by omega), if_pos ⟨h, h'⟩]

theorem lead_three {b : Nat} (h : 0xE0 ≤ b) (h' : b ≤ 0xEF) :
    lead b = .pending ⟨2, if b = 0xE0 then 0xA0 else 0x80, if b = 0xED then 0x9F else 0xBF,
      b - 0xE0⟩ := by
  unfold lead
  rw [if_neg (by omega), if_neg (by omega)]
  by_cases hleast : b = 0xE0
  · subst hleast
    rfl
  by_cases hsurrogate : b = 0xED
  · subst hsurrogate
    rfl
  rw [if_neg hleast, if_neg hsurrogate, if_pos (by omega), if_neg hleast, if_neg hsurrogate]

theorem lead_four {b : Nat} (h : 0xF0 ≤ b) (h' : b ≤ 0xF4) :
    lead b = .pending ⟨3, if b = 0xF0 then 0x90 else 0x80, if b = 0xF4 then 0x8F else 0xBF,
      b - 0xF0⟩ := by
  unfold lead
  rw [if_neg (by omega), if_neg (by omega), if_neg (by omega), if_neg (by omega),
    if_neg (by omega)]
  by_cases hleast : b = 0xF0
  · subst hleast
    rfl
  by_cases hgreatest : b = 0xF4
  · subst hgreatest
    rfl
  rw [if_neg hleast, if_pos (by omega), if_neg hleast, if_neg hgreatest]

theorem toNat_ofNat {n : Nat} (h : n < 256) : (UInt8.ofNat n).toNat = n :=
  Nat.mod_eq_of_lt h

/-- An octet for the last six bits of a number. -/
def trail (n : Nat) : UInt8 :=
  UInt8.ofNat (n % 64 + 0x80)

theorem toNat_trail (n : Nat) : (trail n).toNat = n % 64 + 0x80 :=
  toNat_ofNat (by omega)

section
variable {n least greatest bits : Nat} {bs : List UInt8}

theorem chunksFrom_pending {p : Pending} (hn : n < 256) (h : lead n = .pending p) :
    chunksFrom none (UInt8.ofNat n :: bs) = chunksFrom (some p) bs := by
  rw [chunksFrom, toNat_ofNat hn, h]

/-- One of the octets that a character still owes adds six bits. -/
theorem chunksFrom_trail (owed : Nat) (h : least ≤ n % 64 + 0x80) (h' : n % 64 + 0x80 ≤ greatest) :
    chunksFrom (some ⟨owed + 2, least, greatest, bits⟩) (trail n :: bs) =
      chunksFrom (some ⟨owed + 1, 0x80, 0xBF, bits * 64 + n % 64⟩) bs := by
  rw [chunksFrom, toNat_trail, if_pos ⟨h, h'⟩, Nat.add_sub_cancel]
  exact if_neg (Nat.not_le.2 (Nat.le_add_left 2 owed))

/-- The last octet that a character owes ends it. -/
theorem chunksFrom_last (h : least ≤ n % 64 + 0x80) (h' : n % 64 + 0x80 ≤ greatest) :
    chunksFrom (some ⟨1, least, greatest, bits⟩) (trail n :: bs) =
      some (Char.ofNat (bits * 64 + n % 64)) :: chunksFrom none bs := by
  rw [chunksFrom, toNat_trail, if_pos ⟨h, h'⟩, Nat.add_sub_cancel]
  exact if_pos (Nat.le_refl 1)

end

/-! ## A character and its octets -/

/-- So many octets of six bits each, after a first one with a mark and the bits that remain. -/
def octets (mark : Nat) : Nat → Nat → List UInt8
  | 0, n => [UInt8.ofNat (n + mark)]
  | k + 1, n => octets mark k (n / 64) ++ [trail n]

/-- A character has one octet to four, the more the later it comes; no surrogate is one. -/
theorem utf8EncodeChar_cases (c : Char) :
    (c.toNat < 0x80 ∧ String.utf8EncodeChar c = octets 0 0 c.toNat) ∨
    (0x80 ≤ c.toNat ∧ c.toNat < 0x800 ∧ String.utf8EncodeChar c = octets 0xC0 1 c.toNat) ∨
    (0x800 ≤ c.toNat ∧ c.toNat < 0x10000 ∧ (c.toNat < 0xD800 ∨ 0xDFFF < c.toNat) ∧
      String.utf8EncodeChar c = octets 0xE0 2 c.toNat) ∨
    (0x10000 ≤ c.toNat ∧ c.toNat < 0x110000 ∧
      String.utf8EncodeChar c = octets 0xF0 3 c.toNat) := by
  have hrange : c.toNat < 0xD800 ∨ 0xDFFF < c.toNat ∧ c.toNat < 0x110000 := c.valid
  unfold String.utf8EncodeChar
  dsimp only
  rw [Char.toNat_val]
  simp only [octets, trail, List.cons_append, List.nil_append, Nat.div_div_eq_div_mul,
    Nat.reduceMul, Nat.add_zero]
  split
  · exact .inl ⟨by omega, rfl⟩
  split
  · refine .inr (.inl ⟨by omega, by omega, ?_⟩)
    rw [Nat.mod_eq_of_lt (by omega : c.toNat / 64 < 32)]
  split
  · refine .inr (.inr (.inl ⟨by omega, by omega, by omega, ?_⟩))
    rw [Nat.mod_eq_of_lt (by omega : c.toNat / 4096 < 16)]
  · refine .inr (.inr (.inr ⟨by omega, by omega, ?_⟩))
    rw [Nat.mod_eq_of_lt (by omega : c.toNat / 262144 < 8)]

/-- The octets of a character are read as that character. -/
theorem chunksFrom_utf8EncodeChar (c : Char) (bs : List UInt8) :
    chunksFrom none (String.utf8EncodeChar c ++ bs) = some c :: chunksFrom none bs := by
  -- the bits that are put together again are those of the character
  have hchar {n : Nat} (h : n = c.toNat) : Char.ofNat n = c := by
    rw [h, Char.ofNat_toNat]
  rcases utf8EncodeChar_cases c with ⟨hlt, h⟩ | ⟨hle, hlt, h⟩ | ⟨hle, hlt, hsurrogate, h⟩ |
    ⟨hle, hlt, h⟩ <;>
    simp only [h, octets, List.cons_append, List.nil_append, Nat.add_zero]
  · rw [chunksFrom, toNat_ofNat (by omega), lead_one hlt, hchar rfl]
  · rw [chunksFrom_pending (by omega) (lead_two (by omega) (by omega)),
      chunksFrom_last (by omega) (by omega), hchar (by omega)]
  · rw [chunksFrom_pending (by omega) (lead_three (by omega) (by omega)),
      chunksFrom_trail 0 (by split <;> omega) (by split <;> omega),
      chunksFrom_last (by omega) (by omega), hchar (by omega)]
  · rw [chunksFrom_pending (by omega) (lead_four (by omega) (by omega)),
      chunksFrom_trail 1 (by split <;> omega) (by split <;> omega),
      chunksFrom_trail 0 (by omega) (by omega),
      chunksFrom_last (by omega) (by omega), hchar (by omega)]

theorem chunks_encode (s : String) : chunks (encode s) = s.toList.map some := by
  rw [encode_eq, chunks]
  induction s.toList with
  | nil => rfl
  | cons c cs ih => rw [List.flatMap_cons, chunksFrom_utf8EncodeChar, ih, List.map_cons]

theorem decode?_encode (s : String) : decode? (encode s) = some s.toList := by
  rw [decode?, chunks_encode]
  induction s.toList with
  | nil => rfl
  | cons c cs ih => simp [ih]

/-! ## The order of texts -/

theorem exists_octets (mark k n : Nat) :
    ∃ rest, octets mark k n = UInt8.ofNat (n / 64 ^ k + mark) :: rest := by
  induction k generalizing n with
  | zero => exact ⟨[], by rw [octets, pow_zero, Nat.div_one]⟩
  | succ k ih =>
    obtain ⟨rest, h⟩ := ih (n / 64)
    exact ⟨rest ++ [trail n], by rw [octets, h, Nat.div_div_eq_div_mul, ← pow_succ']; rfl⟩

theorem ofNat_lt_ofNat {m n : Nat} (h : m < n) (hn : n < 256) :
    UInt8.ofNat m < UInt8.ofNat n := by
  rwa [UInt8.lt_iff_toNat_lt, toNat_ofNat hn, toNat_ofNat (by omega)]

/-- As many octets for a smaller number are before those for a larger one. -/
theorem octets_lt {mark k m n : Nat} (h : m < n) (hn : n / 64 ^ k + mark < 256)
    (xs ys : List UInt8) : octets mark k m ++ xs < octets mark k n ++ ys := by
  induction k generalizing m n xs ys with
  | zero =>
    rw [pow_zero, Nat.div_one] at hn
    exact List.cons_lt_cons_iff.2 (.inl (ofNat_lt_ofNat (by omega) hn))
  | succ k ih =>
    simp only [octets, List.append_assoc, List.singleton_append]
    by_cases hhead : m / 64 < n / 64
    · refine ih hhead ?_ _ _
      rwa [Nat.div_div_eq_div_mul, ← pow_succ']
    · have hsame : m / 64 = n / 64 := by omega
      rw [hsame]
      refine List.append_left_lt (List.cons_lt_cons_iff.2 (.inl ?_))
      exact ofNat_lt_ofNat (by omega) (by omega)

/-- A first octet that is less decides. -/
theorem octets_lt_of_first {mark mark' k k' m n : Nat}
    (h : m / 64 ^ k + mark < n / 64 ^ k' + mark') (hn : n / 64 ^ k' + mark' < 256)
    (xs ys : List UInt8) : octets mark k m ++ xs < octets mark' k' n ++ ys := by
  obtain ⟨rest, hm⟩ := exists_octets mark k m
  obtain ⟨rest', hn'⟩ := exists_octets mark' k' n
  rw [hm, hn']
  exact List.cons_lt_cons_iff.2 (.inl (ofNat_lt_ofNat h hn))

/-- The octets of a character are before those of a later one, whatever comes after them. -/
theorem utf8EncodeChar_lt {c d : Char} (h : c < d) (xs ys : List UInt8) :
    String.utf8EncodeChar c ++ xs < String.utf8EncodeChar d ++ ys := by
  have hlt : c.toNat < d.toNat := h
  rcases utf8EncodeChar_cases d with ⟨hd, e⟩ | ⟨hd, hd', e⟩ | ⟨hd, hd', -, e⟩ | ⟨hd, hd', e⟩ <;>
    rcases utf8EncodeChar_cases c with ⟨hc, e'⟩ | ⟨hc, hc', e'⟩ | ⟨hc, hc', -, e'⟩ |
      ⟨hc, hc', e'⟩ <;>
    rw [e, e'] <;>
    first
    | exact octets_lt hlt (by omega) xs ys
    | exact octets_lt_of_first (by omega) (by omega) xs ys

theorem flatMap_utf8EncodeChar_lt {cs ds : List Char} (h : cs < ds) :
    cs.flatMap String.utf8EncodeChar < ds.flatMap String.utf8EncodeChar := by
  induction cs generalizing ds with
  | nil =>
    cases ds with
    | nil => exact absurd h (List.lt_irrefl _)
    | cons d ds =>
      have hne : String.utf8EncodeChar d ≠ [] := by
        rw [← List.length_pos_iff, String.length_utf8EncodeChar]
        exact d.utf8Size_pos
      obtain ⟨b, bs, hb⟩ := List.exists_cons_of_ne_nil hne
      rw [List.flatMap_nil, List.flatMap_cons, hb]
      exact List.nil_lt_cons ..
  | cons c cs ih =>
    cases ds with
    | nil => exact absurd h (List.not_lt_nil _)
    | cons d ds =>
      rw [List.flatMap_cons, List.flatMap_cons]
      rcases List.cons_lt_cons_iff.1 h with hlt | ⟨rfl, hlt⟩
      · exact utf8EncodeChar_lt hlt _ _
      · exact List.append_left_lt (ih hlt)

/-- A text that is before another one has octets that are before those of the other. -/
theorem encode_lt_encode {s t : String} (h : s < t) : encode s < encode t := by
  rw [encode_eq, encode_eq]
  exact flatMap_utf8EncodeChar_lt (String.lt_iff.1 h)

end Portfolio.Utf8
