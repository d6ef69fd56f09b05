import Mathlib.Data.List.DropRight
import Portfolio.Watcher.Buffer

/-! # What a record buffer keeps

A push lets a record go only if there is no room, and then the oldest one. So what a buffer holds
after some pushes is an end of all that it was given (`foldl_push_suffix`), and how long an end is
told by their number and the room (`size_foldl_push`). Together: a new buffer holds the newest of
the records pushed, as many as there is room for (`RecordBuffer.holds_newest`). -/

namespace Portfolio

namespace RecordBuffer

section
variable (b : RecordBuffer) (r : FetchRecord) (rs : List FetchRecord)

/-! ## One push -/

/-- The records after one more are the newest ones of all. -/
theorem pushed_suffix : b.pushed r <:+ b.records ++ [r] := by
  unfold pushed
  split
  · obtain ⟨gone, hgone⟩ := List.tail_suffix b.records
    exact ⟨gone, by rw [← List.append_assoc, hgone]⟩
  · exact List.suffix_refl _

/-- A push lets one record go if the buffer is full, and none otherwise. There is one to go, for a
full buffer is not empty. -/
theorem size_push : (b.push r).size = min (b.size + 1) b.capacity := by
  have hroom : b.records.length ≤ b.capacity := b.length_le
  have hpos : 0 < b.capacity := b.capacity_pos
  change (b.pushed r).length = min (b.records.length + 1) b.capacity
  unfold pushed
  split
  · next hfull =>
    rw [List.length_append, List.length_tail, List.length_singleton]
    omega
  · next hfree =>
    rw [List.length_append, List.length_singleton]
    omega

/-! ## Many pushes -/

theorem foldl_push_suffix : (rs.foldl push b).records <:+ b.records ++ rs := by
  induction rs generalizing b with
  | nil => rw [List.append_nil]; exact List.suffix_refl _
  | cons r rs ih =>
    refine (ih (b.push r)).trans ?_
    obtain ⟨gone, hgone⟩ := b.pushed_suffix r
    refine ⟨gone, ?_⟩
    rw [← List.append_assoc, push, hgone, List.append_assoc, List.singleton_append]

theorem capacity_foldl_push : (rs.foldl push b).capacity = b.capacity := by
  induction rs generalizing b with
  | nil => rfl
  | cons r rs ih => exact ih (b.push r)

theorem size_foldl_push : (rs.foldl push b).size = min (b.size + rs.length) b.capacity := by
  induction rs generalizing b with
  | nil => exact (Nat.min_eq_left b.length_le).symm
  | cons r rs ih =>
    have hcapacity : (b.push r).capacity = b.capacity := rfl
    rw [List.foldl_cons, ih, size_push, hcapacity, List.length_cons]
    omega

theorem latest?_foldl_push : (rs.foldl push b).latest? = rs.getLast?.or b.latest? := by
  induction rs generalizing b with
  | nil => rfl
  | cons r rs ih =>
    rw [List.foldl_cons, ih, latest?_push, List.getLast?_cons]
    cases rs.getLast? <;> rfl

end

/-! ## A new buffer -/

/-- A buffer keeps the newest records. After any pushes to a new one it holds the last of the
records pushed, in the order of the pushes: all of them, or as many as there is room for. The newest
is the one pushed last, and there is none only if none was pushed. There is room for as many as was
asked for, or for one, and never more than that are held. -/
theorem holds_newest (capacity : Nat) (rs : List FetchRecord) :
    let b := rs.foldl push (new capacity)
    b.records = rs.rtake (min rs.length (max capacity 1)) ∧
    b.size = min rs.length (max capacity 1) ∧
    b.latest? = rs.getLast? ∧
    (b.latest? = none ↔ rs = []) ∧
    b.capacity = max capacity 1 ∧
    b.size ≤ b.capacity := by
  intro b
  have hcapacity : b.capacity = max capacity 1 := capacity_foldl_push (new capacity) rs
  have hsize : b.size = min rs.length (max capacity 1) := by
    have hpushes : b.size = min (0 + rs.length) (max capacity 1) :=
      size_foldl_push (new capacity) rs
    rw [hpushes, Nat.zero_add]
  have hlatest : b.latest? = rs.getLast? :=
    (latest?_foldl_push (new capacity) rs).trans (Option.or_none ..)
  have hsuffix : b.records <:+ rs := foldl_push_suffix (new capacity) rs
  refine ⟨?_, hsize, hlatest, ?_, hcapacity, ?_⟩
  · rw [← hsize]
    exact List.suffix_iff_eq_drop.1 hsuffix
  · rw [hlatest, List.getLast?_eq_none_iff]
  · rw [hsize, hcapacity]
    exact Nat.min_le_right ..

/-- Room for none is room for one: the newest takes the place of the one before. -/
example (r₁ r₂ : FetchRecord) : ([r₁, r₂].foldl push (new 0)).records = [r₂] := rfl

end RecordBuffer

end Portfolio
