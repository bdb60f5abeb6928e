import ShellTemplate.CommandLine.Basic
import ShellTemplate.Config.Runnable

/-!
# The program

Reads the arguments and the configuration files that they call for, and prints what the command
line makes of them.
-/

open ShellTemplate CommandLine

/-- The entry that a path denotes. -/
def entryAt (p : Path) : IO (Option Entry) := do
  let place := (← IO.currentDir) / p.text
  if ← place.isDir then return some (.directory [])
  else if ← place.pathExists then return some (.file (← IO.FS.readBinFile place).toList)
  else return none

/-- The entries at some paths, seen from the current directory. -/
def filesAt (current : Path) (paths : List Path) : IO Files := do
  let found ← paths.mapM fun p => return (p, ← entryAt p)
  return ⟨current, fun p => (found.lookup p).join⟩

def main (args : List String) : IO UInt32 := do
  let streams : Terminal.Streams :=
    ⟨← (← IO.getStdout).isTty, ← (← IO.getStderr).isTty⟩
  let current := Path.ofString (← IO.currentDir).toString
  let paths := ((Command.ofArguments? args).map (Command.configPaths current)).getD []
  let result := outcome .runnable streams (← filesAt current paths) args
  IO.print result.output
  IO.eprint result.errors
  return result.status
