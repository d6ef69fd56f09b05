/-! # Lists with one value a name

A map as a list of pairs in the order of insertion. -/

namespace Portfolio.Keyed

/-- Sets the value of a name in its place; a new name goes to the end. -/
def set {α : Type} : List (String × α) → String → α → List (String × α)
  | [], k, v => [(k, v)]
  | p :: ps, k, v => if p.1 = k then (k, v) :: ps else p :: set ps k v

/-- Sets every pair of the second map, so that its values win. -/
def override {α : Type} (ps qs : List (String × α)) : List (String × α) :=
  qs.foldl (fun acc p => set acc p.1 p.2) ps

/-- Inserts a pair into a map in ascending order of names. -/
def insertSorted {α : Type} (p : String × α) : List (String × α) → List (String × α)
  | [] => [p]
  | q :: ps => if p.1 < q.1 then p :: q :: ps else q :: insertSorted p ps

/-- The pairs in ascending order of their names. -/
def sorted {α : Type} (ps : List (String × α)) : List (String × α) :=
  ps.foldr insertSorted []

end Portfolio.Keyed
