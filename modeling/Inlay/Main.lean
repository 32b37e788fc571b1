import Inlay.Program

/-! The command. It reads the environment, the files and standard input, and writes what the program
answers. -/

namespace Inlay

def variableNames : List String :=
  let upper := ["BEQUIET", "MAX_TAG_LENGTH", "MAX_DEPTH", "JSON_INDENT"].map ("AUTOPARSE_" ++ ·)
  upper ++ upper.map (·.map Char.toLower)

def environment : IO (List (String × String)) := do
  let found ← variableNames.mapM fun name => return (← IO.getEnv name).map (name, ·)
  return found.filterMap id

def fileFault (name : String) : IO.Error → FileFault
  | .inappropriateType _ code _ => if code = 21 then .isDirectory name else .notDirectory name
  | .invalidArgument .. => .nameTooLong name
  | _ => .notFound name

def fileOctets (name : String) : IO (Except FileFault Octets) := do
  try
    return .ok (← IO.FS.readBinFile name).toList
  catch e => return .error (fileFault name e)

def sourcesOf : Request → IO Program.Sources
  | .render input context => do
    let names := [Program.given input, Program.given context].filterMap id
    let files ← names.mapM fun name => do
      let name := FileName.normal name
      return (name, ← fileOctets name)
    let stdin ←
      if (Program.given input).isSome then pure .empty else (← IO.getStdin).readBinToEnd
    return ⟨fun name => (Table.get? files name).getD (.error (.notFound name)), stdin.toList⟩
  | _ => return ⟨fun name => .error (.notFound name), []⟩

end Inlay

open Inlay in
def main (arguments : List String) : IO UInt32 := do
  match Settings.ofEnvironment (← environment) with
  | .error problems =>
    IO.eprintln (validationSummary problems.length "App")
    return 1
  | .ok settings =>
    let sources ← sourcesOf (CommandLine.request arguments)
    let (result, journal) := Program.run settings sources arguments
    for message in journal.messages do
      IO.eprintln message
    if let some complaint := result.complaint then
      IO.eprintln (if result.exit = 2 then Program.usage ++ complaint else complaint)
    let stdout ← IO.getStdout
    stdout.putStr result.output
    stdout.flush
    return result.exit.toUInt32
