import Portfolio.Config.Environment
import Portfolio.Config.Settings
import Portfolio.Journal

/-! # Which events are shown

The environment can name a level, and else the configuration does. -/

namespace Portfolio

/-- The least level that is shown, if any is. -/
structure LogFilter where
  least : Option Level
  deriving DecidableEq, Repr

namespace LogFilter

/-- The level that the configuration names; anything but the words for levels is `info`. -/
def configured : Option String → Level
  | some "debug" => .debug
  | some "warn" | some "warning" => .warn
  | some "error" => .error
  | some "trace" => .trace
  | _ => .info

def variableName : String := "RUST_LOG"

/-- The filter that a text names; what is no level shows nothing, and no text shows errors. -/
def named (text : String) : LogFilter :=
  match text.toLower with
  | "" | "error" => ⟨some .error⟩
  | "warn" => ⟨some .warn⟩
  | "info" => ⟨some .info⟩
  | "debug" => ⟨some .debug⟩
  | "trace" => ⟨some .trace⟩
  | _ => ⟨none⟩

def choose (env : Environment) (a : AppSettings) : LogFilter :=
  match env.lookup variableName with
  | some text => named text
  | none => ⟨some (configured a.logLevel)⟩

def shows (f : LogFilter) (e : Event) : Bool :=
  f.least.any fun l => l.rank ≤ e.level.rank

end LogFilter

end Portfolio
