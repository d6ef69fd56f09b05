import Mathlib.Data.List.TakeWhile
import Portfolio.Text.Blank

/-! # Texts without the blanks at their ends

A text is its trimmed form with blanks around it (`Text.exists_eq_append_trim`), and that form is
the only one that no blank stands at an end of (`Text.trim_eq`). So blanks put around a text are not
in its trimmed form (`Text.trim_append`). -/

namespace Portfolio.Text

/-- Nothing but blanks. -/
def Blanks (cs : List Char) : Prop :=
  ∀ c ∈ cs, isBlank c = true

/-- No blank stands at either end. -/
structure IsTrimmed (cs : List Char) : Prop where
  head : ∀ c ∈ cs.head?, isBlank c = false
  last : ∀ c ∈ cs.getLast?, isBlank c = false

variable {c : Char} {cs text before after : List Char}

/-- The blanks of ASCII, but for the controls, are the space and those before it. -/
theorem isBlank_eq_false (h : 0x20 < c.toNat) (h' : c.toNat < 0x85) : isBlank c = false := by
  have hapart : ∀ r ∈ blankRanges, r.2 ≤ 0x20 ∨ 0x85 ≤ r.1 := by decide
  rw [isBlank, inRanges, List.any_eq_false]
  intro r hr
  have := hapart r hr
  simp only [Bool.and_eq_true, decide_eq_true_eq]
  omega

theorem Blanks.append (h : Blanks before) (h' : Blanks after) : Blanks (before ++ after) :=
  fun c hc => (List.mem_append.1 hc).elim (h c) (h' c)

theorem Blanks.reverse (h : Blanks cs) : Blanks cs.reverse :=
  fun c hc => h c (List.mem_reverse.1 hc)

/-! ## Without the blanks at the start -/

theorem trimLeft_append (h : Blanks before) (cs : List Char) :
    trimLeft (before ++ cs) = trimLeft cs :=
  List.dropWhile_append_of_pos h

theorem trimLeft_eq_self (h : ∀ c ∈ cs.head?, isBlank c = false) : trimLeft cs = cs := by
  cases cs with
  | nil => rfl
  | cons c cs => exact List.dropWhile_cons_of_neg (by simp [h c rfl])

theorem head_trimLeft (h : c ∈ (trimLeft cs).head?) : isBlank c = false := by
  have hfirst := List.head?_dropWhile_not isBlank cs
  rw [trimLeft, Option.mem_def] at h
  rwa [h] at hfirst

theorem exists_eq_append_trimLeft (cs : List Char) :
    ∃ before, Blanks before ∧ cs = before ++ trimLeft cs :=
  ⟨cs.takeWhile isBlank, fun _ hc => List.mem_takeWhile_imp hc,
    (List.takeWhile_append_dropWhile ..).symm⟩

/-! ## Without the blanks at both ends -/

theorem exists_eq_trimRight_append (cs : List Char) :
    ∃ after, Blanks after ∧ cs = trimRight cs ++ after := by
  obtain ⟨before, hbefore, h⟩ := exists_eq_append_trimLeft cs.reverse
  refine ⟨before.reverse, hbefore.reverse, ?_⟩
  rw [trimRight, ← List.reverse_append, ← h, List.reverse_reverse]

theorem exists_eq_append_trim (cs : List Char) :
    ∃ before after, Blanks before ∧ Blanks after ∧ cs = before ++ trim cs ++ after := by
  obtain ⟨before, hbefore, h⟩ := exists_eq_append_trimLeft cs
  obtain ⟨after, hafter, h'⟩ := exists_eq_trimRight_append (trimLeft cs)
  refine ⟨before, after, hbefore, hafter, ?_⟩
  rw [trim, List.append_assoc, ← h', ← h]

theorem isTrimmed_trim (cs : List Char) : IsTrimmed (trim cs) := by
  constructor
  · intro c hc
    obtain ⟨after, -, h⟩ := exists_eq_trimRight_append (trimLeft cs)
    have hfirst : c ∈ (trimLeft cs).head? := by
      rw [h, List.head?_append]
      exact Option.or_eq_some_iff.2 (.inl hc)
    exact head_trimLeft hfirst
  · intro c hc
    rw [trim, trimRight, List.getLast?_reverse] at hc
    exact head_trimLeft hc

/-- What is left between blanks, if no blank stands at its ends, is the trimmed form. -/
theorem trim_eq (hbefore : Blanks before) (hafter : Blanks after) (h : IsTrimmed text) :
    trim (before ++ text ++ after) = text := by
  cases text with
  | nil =>
    have hnone : trimLeft (before ++ after) = [] :=
      List.dropWhile_eq_nil_iff.2 (hbefore.append hafter)
    rw [List.append_nil, trim, hnone]
    rfl
  | cons c cs =>
    have hfirst : ∀ d ∈ (c :: cs ++ after).head?, isBlank d = false := h.head
    have hlast : ∀ d ∈ (c :: cs).reverse.head?, isBlank d = false := by
      rw [List.head?_reverse]
      exact h.last
    rw [trim, List.append_assoc, trimLeft_append hbefore, trimLeft_eq_self hfirst, trimRight,
      List.reverse_append, trimLeft_append hafter.reverse, trimLeft_eq_self hlast,
      List.reverse_reverse]

theorem trim_eq_self (h : IsTrimmed text) : trim text = text := by
  have hnone : trim ([] ++ text ++ []) = text := trim_eq nofun nofun h
  rwa [List.nil_append, List.append_nil] at hnone

/-- Blanks around a text are not in its trimmed form. -/
theorem trim_append (hbefore : Blanks before) (hafter : Blanks after) (cs : List Char) :
    trim (before ++ cs ++ after) = trim cs := by
  obtain ⟨before', after', hbefore', hafter', h⟩ := exists_eq_append_trim cs
  have heq : before ++ cs ++ after = before ++ before' ++ trim cs ++ (after' ++ after) := by
    calc before ++ cs ++ after = before ++ (before' ++ trim cs ++ after') ++ after := by rw [← h]
      _ = before ++ before' ++ trim cs ++ (after' ++ after) := by simp only [List.append_assoc]
  rw [heq]
  exact trim_eq (hbefore.append hbefore') (hafter'.append hafter) (isTrimmed_trim cs)

end Portfolio.Text
