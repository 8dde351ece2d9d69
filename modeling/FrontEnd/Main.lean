import FrontEnd.CommandLine

/-!
# The program

Reads the file that the arguments name, and prints the answer.
-/

namespace FrontEnd

/-- What came of reading a file. -/
def readFile (path : String) : IO (Except ReadFault String) := do
  try
    let bytes ← IO.FS.readBinFile path
    match String.fromUTF8? bytes with
    | some text => return .ok text
    | none => return .error .notText
  catch fault =>
    match fault with
    | .noFileOrDirectory .. => return .error .missing
    | .inappropriateType _ _ "not a directory" => return .error .notDirectory
    | .inappropriateType .. => return .error .directory
    | .permissionDenied .. => return .error .denied
    | other => return .error (.other (toString other))

end FrontEnd

open FrontEnd in
def main (args : List String) : IO UInt32 := do
  let response ← match Command.ofArgs args with
    | .error message => pure (Command.refuse message)
    | .ok command => match command with
      | .version => pure (command.respond fun _ => .error .missing)
      | .check path .. => do
        let contents ← readFile path
        pure (command.respond fun _ => contents)
  (← IO.getStdout).putStr response.stdout
  (← IO.getStderr).putStr response.stderr
  return UInt32.ofNat response.exitCode
