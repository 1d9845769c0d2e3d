/-
**The program.**

Reads the file that the command line names, does what it says, and writes the result.
-/

import ContractSyntax.Command

namespace ContractSyntax

/-- The number by which the system says that a directory was read as a file. -/
def directoryCode : UInt32 := 21

/-- The text of a file. -/
def readFile (path : String) : IO (Except FileError String) := do
  try
    return decodeText (← IO.FS.readBinFile path)
  catch error =>
    return .error <| match error with
      | .noFileOrDirectory .. => .missing
      | .inappropriateType _ code _ => if code = directoryCode then .directory else .notDirectory
      | error => .other (toString error)

/-- Reads the file that a command line names, if it names one. -/
def readNamed (arguments : List String) : IO (Except FileError String) :=
  match Invocation.ofArguments arguments with
  | some (.act _ file _) => readFile file
  | _ => return .error .missing

/-- Whether a command line asks for a log. -/
def wantsLog (arguments : List String) : Bool :=
  match Invocation.ofArguments arguments with
  | some (.act _ _ verbose) => verbose
  | _ => false

end ContractSyntax

open ContractSyntax

/-- Runs the program. -/
def main (arguments : List String) : IO UInt32 := do
  let content ← readNamed arguments
  let result := runCommand (fun _ => content) arguments
  if wantsLog arguments then
    for line in result.log do IO.eprintln line
  for line in result.errors do IO.eprintln line
  IO.print result.output
  return result.status.toUInt32
