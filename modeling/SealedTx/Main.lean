import SealedTx.CommandLine

/-!
# The program

Reads the arguments and the file, runs the command and prints what it gives. A command that fails
prints why to the standard error and ends with the code 1. No command draws anything, so any
draws will do.
-/

namespace SealedTx

/-- Where a configuration stands unless a place is given. -/
def defaultPath : String := "/etc/sealedtx/enclave.toml"

/-- How the program is called. -/
def usage : String := "usage: sealedtx (validate | keys | status) [--config PATH]"

/-- The command and the path that arguments give. -/
def arguments? : List String → Option (Command × String)
  | [c] => do return (← Command.ofName? c, defaultPath)
  | [c, "--config", path] | [c, "-c", path] => do return (← Command.ofName? c, path)
  | _ => none

/-- The contents of a file, or why they cannot be read. -/
def contentsOf (path : String) : IO (Except String String) := do
  try
    return .ok (← IO.FS.readFile path)
  catch
    | .noFileOrDirectory _ _ _ => return .error Command.missingFile
    | e => return .error e.toString

end SealedTx

open SealedTx in
/-- Runs the command that the arguments give. -/
def main (args : List String) : IO UInt32 := do
  match arguments? args with
  | none =>
    IO.eprintln usage
    return 2
  | some (command, path) =>
    match command.run path (← contentsOf path) (.counting 0) with
    | .ok report =>
      IO.print report
      return 0
    | .error reason =>
      IO.eprintln reason
      return 1
