import Discourse.CommandLine.Run
/-!
# The program

The commands on the real disk.  Errors go to the error output, and the outcome is the exit code.
-/

namespace Discourse.CommandLine

/-- Whether an action on the file system goes through. -/
def goesThrough (action : IO Unit) : IO Bool :=
  try
    action
    return true
  catch _ => return false

/-- The files and the environment of the machine. -/
def machineDisk : Disk IO where
  read? path := do
    try
      return some (← IO.FS.readFile path)
    catch _ => return none
  isFile path := do
    let full := (← IO.currentDir) / path
    return (← full.pathExists) && !(← full.isDir)
  makeDirectory path := goesThrough (IO.FS.createDirAll path)
  write path text := goesThrough (IO.FS.writeFile path text)
  setting? name := IO.getEnv name
  say line := IO.println line

/-- Tells on the error output why a run failed. -/
def complain : Outcome → IO Unit
  | .success => return
  | .failure e => IO.eprintln s!"Error: {e.message}"
  | .usage => usageLines.forM fun line => IO.eprintln line
  | .broken => IO.eprintln "Error: a document names a token that it does not have"

end Discourse.CommandLine

open Discourse.CommandLine in
/-- The program. -/
def main (arguments : List String) : IO UInt32 := do
  let outcome ← run machineDisk arguments
  complain outcome
  return outcome.code.toUInt32
