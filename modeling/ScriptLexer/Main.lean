import ScriptLexer.File.Snapshot
import ScriptLexer.Needs

set_option autoImplicit false

/-! # The command line

Fetches what the run needs, runs it, and writes what it has to say. -/

namespace ScriptLexer

/-- The failure that the system reported. The code of a name that is too long may come negated. -/
def fileErrorOf (error : IO.Error) : FileError :=
  match error with
  | .noFileOrDirectory .. => .missing
  | .alreadyExists .. => .alreadyExists
  | .inappropriateType _ code _ => if code = 21 then .isDirectory else .notDirectory
  | .invalidArgument _ code _ =>
    if code = 36 ∨ 0 - code = 36 then .nameTooLong else .other (toString error).toList
  | _ => .other (toString error).toList

/-- Reads a file of the system. -/
def fetchBytes (path : Text) : IO (Text × Except FileError ByteArray) := do
  match checkPath path with
  | .error error => return (path, .error error)
  | .ok () =>
    try
      return (path, .ok (← IO.FS.readBinFile (String.ofList path)))
    catch error =>
      return (path, .error (fileErrorOf error))

/-- Makes a directory of the system, unless it is there. -/
def ensureDirectory (path : Text) : IO (Option FileError) := do
  try
    IO.FS.createDir (String.ofList path)
    return none
  catch error =>
    match fileErrorOf error with
    | .alreadyExists =>
      try
        IO.FS.createDirAll (String.ofList path)
        return none
      catch _ => return some .alreadyExists
    | error => return some error

/-- Makes a directory of the system and those above it. -/
def makeDirectories (path : Text) : IO (Text × Option FileError) := do
  match checkPath path with
  | .error error => return (path, some error)
  | .ok () => return (path, ← makeEach ensureDirectory (pathsTo path))

/-- Reads a stream to its end. -/
partial def readAll (stream : IO.FS.Stream) (bytes : ByteArray) : IO ByteArray := do
  let more ← stream.read 65536
  if more.isEmpty then return bytes else readAll stream (bytes ++ more)

/-- The environment of this run, with an empty input. -/
def currentEnvironment (arguments : List String) : IO Program.Environment := do
  return {
    arguments := arguments.map String.toList
    filter := (← IO.getEnv "RUST_LOG").map String.toList
    terminal := ((← IO.getEnv "TERM").getD "").toList
    home := ((← IO.getEnv "HOME").getD ".").toList
    input := [] }

/-- Reads standard input if the run needs it. -/
def withInput (environment : Program.Environment) : IO Program.Environment := do
  if (Program.needs environment).input then
    return { environment with input := inputOfBytes (← readAll (← IO.getStdin) ByteArray.empty) }
  else return environment

end ScriptLexer

open ScriptLexer in
/-- Runs the program with the arguments of the command line. -/
def main (arguments : List String) : IO UInt32 := do
  let environment ← withInput (← currentEnvironment arguments)
  let needs := Program.needs environment
  let directories ← needs.directories.mapM makeDirectories
  let contents ← needs.files.mapM fetchBytes
  let outcome := Program.run (Snapshot.mk contents directories) environment
  IO.print (String.ofList outcome.output)
  IO.eprint (String.ofList outcome.errors)
  return outcome.status.code.toUInt32
