/-
The command line of the controller: checks the settings it would run with and shows them.
-/
import NodeFencing.Settings.CommandLine

open NodeFencing

/-- The variables of the environment that stand in for flags. -/
def readEnvironment : IO CommandLine.Environment := do
  let pairs ← CommandLine.Flag.all.filterMapM fun f => do
    return (← IO.getEnv f.environmentName).map fun value => (f.environmentName, value)
  return Ordered.ofList pairs

/-- Shows the settings of a command line, or says what is wrong with it. -/
def main (arguments : List String) : IO UInt32 := do
  match CommandLine.parse arguments (← readEnvironment) with
  | .ok s =>
    s.lines.forM IO.println
    return 0
  | .error (.usage u) =>
    if u.isQuestion then
      IO.println u.message
      return 0
    else
      IO.eprintln u.message
      return 2
  | .error (.error e) =>
    IO.eprintln e.message
    return 1
