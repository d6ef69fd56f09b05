import Portfolio.Json.Value
import Portfolio.Time.Timestamp

/-! # Record buffers

The newest raw fetch results, oldest first, at most as many as the capacity, which is at least
one. A buffer takes its memory for all of them when it is made, so a capacity can be too large for
the machine. -/

namespace Portfolio

/-- A raw fetch result with the time at which the fetch began. -/
structure FetchRecord where
  payload : Json.Value
  timestamp : Timestamp
  deriving Inhabited

/-- Why there is no memory for a buffer. -/
inductive MemoryFault where
  | capacityOverflow
  | exhausted (octets : Nat)
  deriving DecidableEq, Repr

def MemoryFault.message : MemoryFault → String
  | .capacityOverflow => "capacity overflow"
  | .exhausted octets => "memory allocation of " ++ toString octets ++ " bytes failed"

/-- A bounded history of records. -/
structure RecordBuffer where
  records : List FetchRecord
  capacity : Nat
  capacity_pos : 0 < capacity := by decide
  length_le : records.length ≤ capacity := by decide

namespace RecordBuffer

/-- An empty buffer for `capacity` records, or for one, given the memory. -/
def new (capacity : Nat) : RecordBuffer :=
  { records := [], capacity := max capacity 1, capacity_pos := by omega, length_le := by simp }

/-! ## Memory -/

/-- The memory of a buffer, 48 octets a record. -/
def octets (capacity : Nat) : Nat :=
  max capacity 1 * 48

/-- More octets than a buffer can ask for. -/
def addressable : Nat := Word.count 63

/-- A machine with so many octets to give has the memory of a buffer. -/
def Fits (memory capacity : Nat) : Prop :=
  octets capacity < addressable ∧ octets capacity ≤ memory

instance (memory capacity : Nat) : Decidable (Fits memory capacity) :=
  inferInstanceAs (Decidable (_ ∧ _))

def allocate (memory capacity : Nat) : Except MemoryFault RecordBuffer :=
  if addressable ≤ octets capacity then .error .capacityOverflow
  else if memory < octets capacity then .error (.exhausted (octets capacity))
  else .ok (new capacity)

theorem allocate_of_fits {memory capacity : Nat} (h : Fits memory capacity) :
    allocate memory capacity = .ok (new capacity) := by
  rw [allocate, if_neg (Nat.not_le.2 h.1), if_neg (Nat.not_lt.2 h.2)]

theorem allocate_of_overflow {capacity : Nat} (h : addressable ≤ octets capacity) (memory : Nat) :
    allocate memory capacity = .error .capacityOverflow := by
  rw [allocate, if_pos h]

theorem allocate_of_not_fits {memory capacity : Nat} (h : ¬ Fits memory capacity) :
    ∃ fault, allocate memory capacity = .error fault := by
  unfold allocate
  split
  · exact ⟨_, rfl⟩
  · next haddress =>
    have hshort : memory < octets capacity :=
      Nat.not_le.1 fun hle => h ⟨Nat.not_le.1 haddress, hle⟩
    rw [if_pos hshort]
    exact ⟨_, rfl⟩

/-! ## Records -/

/-- The records after one more: the oldest goes if there is no room. -/
def pushed (b : RecordBuffer) (r : FetchRecord) : List FetchRecord :=
  (if b.records.length = b.capacity then b.records.tail else b.records) ++ [r]

theorem length_pushed_le (b : RecordBuffer) (r : FetchRecord) :
    (b.pushed r).length ≤ b.capacity := by
  have hp := b.capacity_pos
  have hl := b.length_le
  unfold pushed
  split
  · simp; omega
  · simp; omega

def push (b : RecordBuffer) (r : FetchRecord) : RecordBuffer :=
  { b with records := b.pushed r, length_le := b.length_pushed_le r }

def latest? (b : RecordBuffer) : Option FetchRecord :=
  b.records.getLast?

def latestTime? (b : RecordBuffer) : Option Timestamp :=
  b.latest?.map (·.timestamp)

/-- The newest record is the last one that was pushed, whatever the capacity. -/
@[simp] theorem latest?_push (b : RecordBuffer) (r : FetchRecord) :
    (b.push r).latest? = some r := by
  simp [latest?, push, pushed]

def size (b : RecordBuffer) : Nat :=
  b.records.length

def isEmpty (b : RecordBuffer) : Bool :=
  b.records.isEmpty

instance : Inhabited RecordBuffer := ⟨new 1⟩

end RecordBuffer

end Portfolio
