import Asl.Run

/-!
# The command line

The outer layer: it looks up the files a run asks for, hands them over, and
carries out what the run shows.
-/

namespace Asl

/-- The number of a system error, which some calls report negated. -/
def errorNumber (code : UInt32) : UInt32 := if code < 4096 then code else 0 - code

/-- The failure behind a system error. -/
def FileError.ofSystem : IO.Error → FileError
  | .inappropriateType _ code _ =>
    if errorNumber code = 20 then .notDirectory else .isDirectory
  | .invalidArgument _ code _ => if errorNumber code = 36 then .nameTooLong else .notFound
  | _ => .notFound

/-- What the file system holds at a path. -/
def lookUp (p : Path) : IO (Except FileError Entry) := do
  if p.holdsNul then return .error .embeddedNul
  try
    let contents ← IO.FS.readBinFile (String.ofList p.toText)
    return .ok (.file contents.toList)
  catch e =>
    match FileError.ofSystem e with
    | .isDirectory => return .ok .directory
    | e => return .error e

/-- The files a command line reads: the configuration and the input. -/
def Arguments.reads (argv : List Text) : List Path :=
  match Arguments.parse argv with
  | .ok a => [Settings.configPath a, Path.ofText a.input]
  | .error _ => []

/-- The files found at some paths; whether a file can be written shows only
when it is. -/
def Files.ofEntries (found : List (Path × Except FileError Entry)) : Files where
  look p := (found.lookup p).getD (.error .notFound)
  writable p := if p.holdsNul then .error .embeddedNul else .ok ()

/-- What a run shows, shown. -/
def Outcome.perform (o : Outcome) : IO UInt32 := do
  (← IO.getStdout).putStr (String.ofList o.stdout)
  (← IO.getStderr).putStr (String.ofList o.stderr)
  match o.ending with
  | .exit code => return code.toUInt32
  | .stopped code => return code.toUInt32
  | .abort a =>
    (← IO.getStderr).putStrLn (String.ofList a.message)
    return 1

end Asl

/-- A run in the working directory of the process. -/
def main (argv : List String) : IO UInt32 := do
  let words := argv.map String.toList
  let found ← (Asl.Arguments.reads words).mapM fun p => do return (p, ← Asl.lookUp p)
  let outcome := Asl.run (Asl.Files.ofEntries found) words
  match outcome.written with
  | none => outcome.perform
  | some (path, listing) =>
    try
      IO.FS.writeFile (String.ofList path.toText) (String.ofList listing)
      outcome.perform
    catch e =>
      let reason := (Asl.FileError.ofSystem e).message path
      (Asl.Outcome.cannot "write" path reason outcome.stderr).perform
