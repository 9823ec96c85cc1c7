import RouteDocs.Command

namespace RouteDocs
namespace Program

/-!
# The program

Reads the arguments and files of one call and shows what the command answers.
-/

/-- The value that follows a flag among the arguments. -/
def flagValue? (flag : String) (arguments : List String) : Option String :=
  match arguments with
  | name :: value :: rest => if name == flag then some value else flagValue? flag (value :: rest)
  | _ => none

/-- The version that is asked for; the latest line unless said. -/
def askedVersion (arguments : List String) : String :=
  (flagValue? "--openapi" arguments).getD "3.1.0"

/-- Show how the program is called. -/
def showUsage : IO UInt32 := do
  IO.eprintln "usage: convert --rule RULE [--openapi VERSION]"
  IO.eprintln "       generate --input FILE [--openapi VERSION] [--output FILE]"
  return 2

def showFault (message : String) : IO UInt32 := do
  IO.eprintln message
  return 1

def runConvert (arguments : List String) : IO UInt32 := do
  match flagValue? "--rule" arguments with
  | none => showUsage
  | some rule =>
    match Command.convert rule (askedVersion arguments) with
    | .error fault => showFault fault.message
    | .ok schema =>
      IO.println schema
      return 0

def runGenerate (arguments : List String) : IO UInt32 := do
  match flagValue? "--input" arguments with
  | none => showUsage
  | some path =>
    match Command.generate (← IO.FS.readFile path) (askedVersion arguments) with
    | .error fault => showFault fault.message
    | .ok document =>
      match flagValue? "--output" arguments with
      | none => IO.println document
      | some target => IO.FS.writeFile target document
      return 0

def run (arguments : List String) : IO UInt32 :=
  match arguments with
  | "convert" :: rest => runConvert rest
  | "generate" :: rest => runGenerate rest
  | _ => showUsage

end Program
end RouteDocs

/-- The program: a command and its flags. -/
def main (arguments : List String) : IO UInt32 :=
  RouteDocs.Program.run arguments
