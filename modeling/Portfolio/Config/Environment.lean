/-! # Environment variables -/

namespace Portfolio

abbrev Environment := List (String × String)

namespace Environment

/-- The value of a variable; nothing if it is not set. -/
def value (env : Environment) (name : String) : String :=
  (env.lookup name).getD ""

/-- Sets a variable that is not set yet. -/
def define (env : Environment) (name value : String) : Environment :=
  if (env.lookup name).isSome then env else env ++ [(name, value)]

end Environment

end Portfolio
