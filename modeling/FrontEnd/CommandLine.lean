import FrontEnd.Analysis
import FrontEnd.Fault.Message
import FrontEnd.Syntax.Outline

/-!
# The command line

A command names one source file and asks, by options, for a listing of its tokens or an outline of
its tree before it is checked. `Command.ofArgs` reads the arguments and `Command.respond` answers
what to print and the exit code, given what came of reading the file: code 0 for a program without
faults, 1 for a fault, and 2 for a file or arguments that cannot be read.
-/

namespace FrontEnd

/-- Why a file gives no source text. -/
inductive ReadFault where
  | missing
  | directory
  | notDirectory
  | denied
  | notText
  | other (message : String)
deriving DecidableEq, Repr

namespace ReadFault

/-- What is wrong with the file. -/
def message : ReadFault → String
  | missing => "No such file or directory (os error 2)"
  | directory => "Is a directory (os error 21)"
  | notDirectory => "Not a directory (os error 20)"
  | denied => "Permission denied (os error 13)"
  | notText => "stream did not contain valid UTF-8"
  | other message => message

end ReadFault

/-- What to print on each stream, and the exit code. -/
structure Response where
  exitCode : Nat
  stdout : String
  stderr : String
deriving DecidableEq, Repr

/-- What the arguments ask for. -/
inductive Command where
  /-- Show the version. -/
  | version
  /-- Check the file at a path, after a listing of its tokens and an outline of its tree if these
  are asked for. -/
  | check (path : String) (tokens outline : Bool)
deriving DecidableEq, Repr

namespace Command

/-- The options met so far, and the path if there was one. -/
structure Seen where
  path? : Option String
  tokens : Bool
  outline : Bool

/-- Takes an argument as the path. -/
def Seen.withPath (seen : Seen) (arg : String) : Except String Seen :=
  match seen.path? with
  | none => if arg = "" then .error "a value is required for '<FILE>' but none was supplied"
    else .ok { seen with path? := some arg }
  | some _ => .error s!"unexpected argument '{arg}' found"

/-- Reads arguments after the mark that ends the options: all of them are paths. -/
def readPaths (seen : Seen) (args : List String) : Except String Seen :=
  args.foldlM Seen.withPath seen

/-- The command of the options and the path. -/
def ofSeen (seen : Seen) : Except String Command :=
  match seen.path? with
  | some path => .ok (.check path seen.tokens seen.outline)
  | none => .error "the following required arguments were not provided:\n  <FILE>"

/-- Reads arguments in turn. Each option may be given once, and a request for the version cuts the
reading short. -/
def read (seen : Seen) : List String → Except String Command
  | [] => ofSeen seen
  | "--" :: args => readPaths seen args >>= ofSeen
  | "--version" :: _ => .ok .version
  | "-V" :: _ => .ok .version
  | "--tokens" :: args =>
    if seen.tokens then .error "the argument '--tokens' cannot be used multiple times"
    else read { seen with tokens := true } args
  | "--ast" :: args =>
    if seen.outline then .error "the argument '--ast' cannot be used multiple times"
    else read { seen with outline := true } args
  | arg :: args =>
    if arg.startsWith "-" && arg != "-" then .error s!"unexpected argument '{arg}' found"
    else match seen.withPath arg with
      | .ok seen => read seen args
      | .error message => .error message

/-- The command that the arguments form. -/
def ofArgs (args : List String) : Except String Command := read ⟨none, false, false⟩ args

/-- The name of a file without the directories before it. -/
def fileName (path : String) : String :=
  let named := (path.splitOn "/").filter fun part => part != "" && part != "."
  match named.getLast? with
  | some name => if name = ".." then path else name
  | none => path

/-- The answer to a source text: what is listed on the way, and the report of its fault. -/
def checkText (source file : String) (tokens outline : Bool) : Response :=
  let found := tokenize source file
  let listing := if tokens then String.join (found.map fun t => t.display ++ "\n") else ""
  match parseProgram found file with
  | .error d => ⟨1, listing, d.report source⟩
  | .ok program =>
    let shown := if outline then program.outline.text ++ "\n" else ""
    match program.check with
    | .error fault => ⟨1, listing ++ shown, (Diagnostic.semantic fault).report source⟩
    | .ok _ => ⟨0, listing ++ shown, ""⟩

/-- The answer to a command, given what came of reading the file it names. -/
def respond (contents : String → Except ReadFault String) : Command → Response
  | version => ⟨0, "semanalyzer 0.1.0\n", ""⟩
  | check path tokens outline =>
    match contents path with
    | .error fault => ⟨2, "", s!"Error: failed to read `{path}`: {fault.message}\n"⟩
    | .ok source => checkText source (fileName path) tokens outline

/-- The answer to arguments that form no command. -/
def refuse (message : String) : Response := ⟨2, "", s!"error: {message}\n"⟩

end Command

end FrontEnd
