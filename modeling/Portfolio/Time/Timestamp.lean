/-! # Points in time

A timestamp is a count of seconds since the Unix epoch and of nanoseconds within the second. A leap
second is the second before it with a thousand million nanoseconds or more, so the order is the
lexicographic one. -/

namespace Portfolio

/-- Seconds since the epoch, and nanoseconds into the second. -/
structure Timestamp where
  second : Int
  nano : Nat
  deriving DecidableEq, Repr

namespace Timestamp

/-- The stamp of what was never observed. -/
def epoch : Timestamp := ⟨0, 0⟩

instance : Inhabited Timestamp := ⟨epoch⟩

/-- The point in time `n` nanoseconds after the epoch. -/
def ofNanos (n : Int) : Timestamp :=
  ⟨n / 1000000000, (n % 1000000000).toNat⟩

/-- The point in time `n` milliseconds after the epoch. -/
def ofMillis (n : Int) : Timestamp :=
  ofNanos (n * 1000000)

/-- Nanoseconds after the epoch, a leap second counted on. -/
def toNanos (t : Timestamp) : Int :=
  t.second * 1000000000 + t.nano

/-- Whole milliseconds after the epoch, rounded down. -/
def toMillis (t : Timestamp) : Int :=
  t.toNanos / 1000000

instance : LT Timestamp :=
  ⟨fun a b => a.second < b.second ∨ a.second = b.second ∧ a.nano < b.nano⟩

instance : LE Timestamp :=
  ⟨fun a b => a.second < b.second ∨ a.second = b.second ∧ a.nano ≤ b.nano⟩

instance (a b : Timestamp) : Decidable (a < b) :=
  inferInstanceAs (Decidable (a.second < b.second ∨ a.second = b.second ∧ a.nano < b.nano))

instance (a b : Timestamp) : Decidable (a ≤ b) :=
  inferInstanceAs (Decidable (a.second < b.second ∨ a.second = b.second ∧ a.nano ≤ b.nano))

theorem lt_def (a b : Timestamp) :
    a < b ↔ a.second < b.second ∨ a.second = b.second ∧ a.nano < b.nano := Iff.rfl

theorem le_def (a b : Timestamp) :
    a ≤ b ↔ a.second < b.second ∨ a.second = b.second ∧ a.nano ≤ b.nano := Iff.rfl

theorem not_lt (a b : Timestamp) : ¬ a < b ↔ b ≤ a := by
  rw [lt_def, le_def]; omega

theorem le_refl (a : Timestamp) : a ≤ a := by
  rw [le_def]; omega

theorem le_trans {a b c : Timestamp} (h : a ≤ b) (h' : b ≤ c) : a ≤ c := by
  rw [le_def] at *; omega

theorem le_of_lt {a b : Timestamp} (h : a < b) : a ≤ b := by
  rw [lt_def] at h; rw [le_def]; omega

/-- The order of the clock is the order of the stamps. -/
theorem ofNanos_le_ofNanos (a b : Int) : ofNanos a ≤ ofNanos b ↔ a ≤ b := by
  rw [le_def]; simp only [ofNanos]; omega

example : ofMillis (-1) = ⟨-1, 999000000⟩ := by decide

end Timestamp

end Portfolio
