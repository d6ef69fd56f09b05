import Portfolio.Config.Definitions
import Portfolio.Program.Arguments
import Portfolio.Program.Run
import Std.Time.DateTime.Timestamp

/-! # The command line

Loads a configuration, watches its strategies and reports their worth every minute, or once. -/

namespace Portfolio.Program

def readFile (path : String) : IO (Except FileError (List UInt8)) := do
  try
    return .ok (← IO.FS.readBinFile path).toList
  catch
    | .noFileOrDirectory .. => return .error .missing
    | .permissionDenied .. => return .error .denied
    | .inappropriateType _ code _ => return .error (if code = 20 then .notDirectory else .directory)
    | _ => return .error .directory

/-- The text of a file, if it has one. -/
def readText (path : String) : IO (Option String) := do
  return (Config.textOf (← readFile path)).toOption

/-- A variable as it is listed: its name, an equals sign and its value. -/
def binding? (entry : String) : Option (String × String) :=
  match entry.toList.dropWhile (· != '=') with
  | _ :: value => some (String.ofList (entry.toList.takeWhile (· != '=')), String.ofList value)
  | [] => none

/-- The variables of the process and those of the file of definitions. -/
def environment : IO Environment := do
  let listed := (← readText "/proc/self/environ").getD ""
  let env : Environment := (listed.splitOn "\x00").filterMap binding?
  match ← readText ".env" with
  | some text => return Definitions.apply env text
  | none => return env

/-- The time in nanoseconds since the epoch. -/
def now : IO Int := do
  return (← Std.Time.Timestamp.now).toNanosecondsSinceUnixEpoch.val

/-- Writes the events that are shown, with the time. -/
def write (f : LogFilter) (events : List Event) : IO Unit := do
  let time := String.ofList (Calendar.render (.ofNanos (← now)))
  for e in events.filter f.shows do
    IO.println (time ++ " " ++ e.render)

/-- Reports every minute. -/
partial def watch (f : LogFilter) (s : Session Poloniex.Unreachable) : IO Unit := do
  IO.sleep 60000
  let (s, events) := s.report (← now)
  write f events
  watch f s

/-- The exit code of a run that ends by a fault. -/
def exitCode : MemoryFault → UInt32
  | .capacityOverflow => 101
  | .exhausted _ => 134

/-- Runs a configuration, with an exit code. -/
def run (f : LogFilter) (c : Config) (path : String) (args : List String) : IO UInt32 := do
  let (session, events) := begin c path (← now) RecordBuffer.addressable
    (Poloniex.Unreachable.mk "no route to the server")
  write f events
  match session with
  | .error (.refused _) => return 0
  | .error (.crashed fault) =>
    IO.eprintln fault.message
    return exitCode fault
  | .ok s =>
    if once args then write f (finish s false) else watch f s
    return 0

end Portfolio.Program

open Portfolio Portfolio.Program in
def main (args : List String) : IO UInt32 := do
  let env ← environment
  let path := configPath args
  match Config.load env (← readFile path) with
  | .error e =>
    IO.eprint (loadFailure e)
    return 0
  | .ok c => run (LogFilter.choose env c.app) c path args
