import SellRules.CommandLine.Run

/-!
# The program

Looks up the file that the arguments name, runs the command and prints what comes of it.
-/

set_option autoImplicit false

namespace SellRules

/-- Whether a directory stands at a path. -/
def isDirectory (path : String) : IO Bool := do
  try (← IO.FS.realPath path).isDir catch _ => return false

/-- What stands at a path of the file system. -/
def lookUp (path : String) : IO FileState := do
  if path.contains '\x00' then return .missing
  if ← isDirectory path then return .directory
  try return .bytes (← IO.FS.readBinFile path)
  catch
    | .invalidArgument .. => return .nameTooLong
    | _ => return .missing

/-- The file that the arguments name, if they name one. -/
def fileOf (arguments : List String) : IO FileState :=
  match CommandLine.Request.ofArguments arguments with
  | .ok (.run _ task) =>
    match task.path? with
    | some path => lookUp path
    | none => return .missing
  | _ => return .missing

end SellRules

open SellRules

def main (arguments : List String) : IO UInt32 := do
  let file ← fileOf arguments
  match CommandLine.run (fun _ => file) arguments with
  | .ok outcome =>
    for line in outcome.log do
      IO.eprintln line.text
    IO.print outcome.output
    IO.eprint outcome.errors
    return outcome.status.toUInt32
  | .error failure =>
    IO.eprintln failure.message
    return 1
