import Portfolio.Keyed

/-! # Parameters

The parameters of a request: texts under names. -/

namespace Portfolio

/-- Names with a text each. -/
abbrev Params := List (String × String)

/-- Sets the value of a name that has none. -/
def Params.orElse (ps : Params) (k v : String) : Params :=
  if (ps.lookup k).isSome then ps else Keyed.set ps k v

end Portfolio
