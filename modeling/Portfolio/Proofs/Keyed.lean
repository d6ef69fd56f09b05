import Mathlib.Data.List.Nodup
import Mathlib.Data.String.Basic
import Portfolio.Keyed

/-! # Looking names up

In a map that has every name once a name has the value that it is listed with
(`Keyed.lookup_eq_some_iff_mem`), in whichever order the map is kept (`Keyed.lookup_perm`). Setting
a value leaves the other names as they are (`Keyed.lookup_set`). Sorting keeps the pairs and puts
the names in ascending order (`Keyed.perm_sorted`, `Keyed.pairwise_sorted`). -/

namespace Portfolio.Keyed

variable {α : Type} {p : String × α} {ps qs : List (String × α)} {k c : String} {v : α}

theorem lookup_cons_ite (p : String × α) (ps : List (String × α)) :
    (p :: ps).lookup c = if c = p.1 then some p.2 else ps.lookup c := by
  rw [List.lookup_cons]
  by_cases hc : c = p.1
  · rw [if_pos hc, beq_iff_eq.2 hc]
  · rw [if_neg hc, beq_eq_false_iff_ne.2 hc]

theorem lookup_eq_none : ps.lookup c = none ↔ c ∉ ps.map Prod.fst := by
  rw [List.lookup_eq_none_iff, List.mem_map]
  constructor
  · rintro h ⟨p, hp, rfl⟩
    simpa using h p hp
  · intro h p hp
    simpa using fun heq : c = p.1 => h ⟨p, hp, heq.symm⟩

theorem isSome_lookup : (ps.lookup c).isSome ↔ c ∈ ps.map Prod.fst := by
  rw [← Option.ne_none_iff_isSome, ne_eq, lookup_eq_none, Classical.not_not]

theorem mem_of_lookup (h : ps.lookup c = some v) : (c, v) ∈ ps := by
  obtain ⟨before, after, rfl, -⟩ := List.lookup_eq_some_iff.1 h
  simp

theorem lookup_eq_some_iff_mem (hps : (ps.map Prod.fst).Nodup) :
    ps.lookup c = some v ↔ (c, v) ∈ ps := by
  refine ⟨mem_of_lookup, fun h => ?_⟩
  obtain ⟨before, after, rfl⟩ := List.append_of_mem h
  refine List.lookup_eq_some_iff.2 ⟨before, after, rfl, fun p hp => ?_⟩
  rw [List.map_append, List.map_cons, List.nodup_append] at hps
  simpa using (hps.2.2 p.1 (List.mem_map_of_mem hp) c (.head _)).symm

/-- A map that has every name once may be kept in any order. -/
theorem lookup_perm (hps : (ps.map Prod.fst).Nodup) (h : ps.Perm qs) :
    ps.lookup c = qs.lookup c := by
  have hqs : (qs.map Prod.fst).Nodup := (h.map Prod.fst).nodup_iff.1 hps
  refine Option.ext fun v => ?_
  rw [lookup_eq_some_iff_mem hps, lookup_eq_some_iff_mem hqs, h.mem_iff]

/-! ## Setting a value -/

theorem lookup_set : (set ps k v).lookup c = if c = k then some v else ps.lookup c := by
  induction ps with
  | nil => exact lookup_cons_ite (k, v) []
  | cons p ps ih =>
    rw [set, lookup_cons_ite p]
    split
    · next hp =>
      rw [lookup_cons_ite, hp]
      split <;> rfl
    · next hp =>
      rw [lookup_cons_ite, ih]
      by_cases hc : c = p.1
      · rw [if_pos hc, if_pos hc, if_neg (hc ▸ hp)]
      · rw [if_neg hc, if_neg hc]

theorem map_fst_set :
    (set ps k v).map Prod.fst = if k ∈ ps.map Prod.fst then ps.map Prod.fst
      else ps.map Prod.fst ++ [k] := by
  induction ps with
  | nil => rfl
  | cons p ps ih =>
    rw [set]
    split
    · next hp => simp [hp]
    · next hp =>
      rw [List.map_cons, ih, List.map_cons]
      have hne : k ≠ p.1 := fun h => hp h.symm
      simp only [List.mem_cons, hne, false_or]
      split <;> rfl

/-- A map has every name once. -/
theorem nodup_set (h : (ps.map Prod.fst).Nodup) : ((set ps k v).map Prod.fst).Nodup := by
  rw [map_fst_set]
  split
  · exact h
  · next hk => exact List.nodup_append.2 ⟨h, List.nodup_singleton k, by
      rintro a ha b hb rfl
      exact hk (List.mem_singleton.1 hb ▸ ha)⟩

/-! ## Sorted maps -/

theorem perm_insertSorted (p : String × α) (ps : List (String × α)) :
    (insertSorted p ps).Perm (p :: ps) := by
  induction ps with
  | nil => exact .refl _
  | cons q ps ih =>
    rw [insertSorted]
    split
    · exact .refl _
    · exact (ih.cons q).trans (.swap p q ps)

theorem perm_sorted (ps : List (String × α)) : (sorted ps).Perm ps := by
  induction ps with
  | nil => exact .refl _
  | cons p ps ih => exact (perm_insertSorted p (sorted ps)).trans (ih.cons p)

theorem pairwise_insertSorted (hp : p.1 ∉ ps.map Prod.fst)
    (h : ps.Pairwise fun a b => a.1 < b.1) :
    (insertSorted p ps).Pairwise fun a b => a.1 < b.1 := by
  induction ps with
  | nil => exact List.pairwise_singleton ..
  | cons q ps ih =>
    rw [List.map_cons, List.mem_cons, not_or] at hp
    obtain ⟨hq, hps⟩ := List.pairwise_cons.1 h
    rw [insertSorted]
    split
    · next hlt =>
      refine List.pairwise_cons.2 ⟨fun a ha => ?_, h⟩
      rcases List.mem_cons.1 ha with rfl | ha
      · exact hlt
      · exact lt_trans hlt (hq a ha)
    · next hge =>
      refine List.pairwise_cons.2 ⟨fun a ha => ?_, ih hp.2 hps⟩
      rcases List.mem_cons.1 ((perm_insertSorted p ps).mem_iff.1 ha) with rfl | ha
      · exact lt_of_le_of_ne (not_lt.1 hge) (Ne.symm hp.1)
      · exact hq a ha

/-- A map that has every name once is sorted into ascending order. -/
theorem pairwise_sorted (h : (ps.map Prod.fst).Nodup) :
    (sorted ps).Pairwise fun a b => a.1 < b.1 := by
  induction ps with
  | nil => exact .nil
  | cons p ps ih =>
    rw [List.map_cons, List.nodup_cons] at h
    have hp : p.1 ∉ (sorted ps).map Prod.fst := fun hp =>
      h.1 (((perm_sorted ps).map Prod.fst).mem_iff.1 hp)
    exact pairwise_insertSorted hp (ih h.2)

end Portfolio.Keyed
