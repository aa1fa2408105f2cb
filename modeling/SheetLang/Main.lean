import SheetLang.CommandLine.Run

/-!
# The program

Reads the file that the command line names, asks for a run, and writes what the
run leaves behind.  There is no drawing tool here, so pictures are never made.
-/

namespace SheetLang

namespace CommandLine

/-- The reason given for a file that is not there. -/
def noSuchFile : String := "No such file or directory (os error 2)"

/-- Why the directory of a path is not there, if so. -/
def directoryFault (path : String) : IO (Option String) := do
  let directory :=
    match (path.splitOn "/").dropLast with
    | [] => "."
    | parts => "/".intercalate parts ++ "/."
  try
    let _ ← IO.FS.realPath directory
    return none
  catch _ => return some noSuchFile

/-- The answers of the file system to a request. -/
def surroundingsOf (request : Request) (elapsed : String) : IO Surroundings := do
  let content ←
    try
      pure (Except.ok (← IO.FS.readBinFile request.file))
    catch _ => pure (Except.error noSuchFile)
  let fault ← directoryFault (request.visualize.getD "")
  return ⟨fun _ => content, fun _ => fault, .absent noSuchFile, elapsed⟩

/-- Answers for command lines that ask for no file. -/
def Surroundings.nothing : Surroundings :=
  ⟨fun _ => .error noSuchFile, fun _ => some noSuchFile, .absent noSuchFile, ""⟩

/-- A number of nanoseconds as milliseconds with two places. -/
def milliseconds (nanoseconds : Nat) : String :=
  let hundredths := nanoseconds / 10000
  let places := hundredths % 100
  toString (hundredths / 100) ++ "." ++ (if places < 10 then "0" else "") ++
    toString places ++ "ms"

/-- The run of a command line, timed where it has a file to read. -/
def timedRun (words : List String) : IO Outcome := do
  match Request.ofWords words with
  | .error _ => return run .nothing words
  | .ok request =>
    let started ← IO.monoNanosNow
    let surroundings ← surroundingsOf request ""
    let trial := run surroundings words
    if trial.code = 2 then return trial
    let finished ← IO.monoNanosNow
    return run { surroundings with elapsed := milliseconds (finished - started) } words

end CommandLine

end SheetLang

def main (words : List String) : IO UInt32 := do
  let outcome ← SheetLang.CommandLine.timedRun words
  IO.print outcome.stdout
  IO.eprint outcome.stderr
  for (name, text) in outcome.files do
    IO.FS.writeFile name text
  return outcome.code.toUInt32
