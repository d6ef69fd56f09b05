/-! # The range of a word

What a word of so many bits can hold, with a sign and without. -/

namespace Portfolio.Word

/-- How many words of so many bits there are: one more than the greatest without a sign. -/
def count (bits : Nat) : Nat :=
  Nat.pow 2 bits

/-- The least number of a word with a sign. -/
def least (bits : Nat) : Int :=
  -(count (bits - 1) : Nat)

/-- The greatest number of a word with a sign. -/
def greatest (bits : Nat) : Int :=
  (count (bits - 1) : Nat) - 1

/-- The number fits, taken with a sign or without. -/
def Holds (bits : Nat) (n : Int) : Prop :=
  least bits ≤ n ∧ n < (count bits : Nat)

instance (bits : Nat) (n : Int) : Decidable (Holds bits n) :=
  inferInstanceAs (Decidable (_ ∧ _))

example : Holds 8 (-128) ∧ Holds 8 255 ∧ ¬ Holds 8 256 ∧ greatest 8 = 127 := by decide

end Portfolio.Word
