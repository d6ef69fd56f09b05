/-! # Arguments of the command line -/

namespace Portfolio.Program

/-- The configuration that is loaded unless another one is named. -/
def defaultConfigPath : String := "configs/config.yaml"

/-- The path after `--config=`. -/
def configPath? (arg : String) : Option String :=
  let mark := "--config=".toList
  if mark.isPrefixOf arg.toList then some (String.ofList (arg.toList.drop mark.length)) else none

/-- The path of the configuration: the first that an argument names. -/
def configPath (args : List String) : String :=
  (args.findSome? configPath?).getD defaultConfigPath

def once (args : List String) : Bool :=
  args.contains "--once"

end Portfolio.Program
