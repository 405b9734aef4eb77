import ScriptLexer.Prompt.Entry
import ScriptLexer.Prompt.Reader

set_option autoImplicit false

/-! # History

At the start of a session the entries of earlier sessions are read from a file, for which a directory
is made. They show only while a line is edited, so what is left to notice are the log records: that
the directory cannot be made, that the file cannot be read, and that a line of it is badly escaped. -/

namespace ScriptLexer

/-- The part of the program that talks to the user. -/
def sessionTarget : Text := "bugsy::repl".toList

namespace History

variable {σ : Type} [Storage σ]

/-! ## Places -/

/-- The directory of the history. -/
def directory (home : Text) : Text :=
  joinPath home ".local/share/bugsy".toList

/-- The file of the history. -/
def file (home : Text) : Text :=
  joinPath (directory home) ".bugsy_history".toList

/-! ## Log records -/

/-- The directory of the history cannot be made. -/
def noDirectoryRecord (home : Text) (error : FileError) : LogRecord :=
  { level := .warn
    target := sessionTarget
    message := "cannot create history directory".toList
    values := [("path".toList, directory home), ("error".toList, error.message)] }

/-- The history cannot be read. -/
def notLoadedRecord (error : FileError) : LogRecord :=
  { level := .debug
    target := sessionTarget
    message := "no history loaded".toList
    values := [("error".toList, error.message)] }

/-- A line of the history cannot be understood; it is kept as it is. -/
def badLineRecord (line : Text) : LogRecord :=
  Reader.record .warn ("bad escaped line: ".toList ++ line)

/-! ## Lines of the file -/

/-- The first line of a file in which line feeds and backslashes are escaped. -/
def escapedMark : Text := "#V2".toList

/-- Whether a backslash in a line is not part of an escape: only a line feed, written as the letter
    n, and a backslash are escaped. -/
def isBadlyEscaped : Text → Bool
  | [] => false
  | '\\' :: 'n' :: rest | '\\' :: '\\' :: rest => isBadlyEscaped rest
  | '\\' :: _ => true
  | _ :: rest => isBadlyEscaped rest

/-- Reads lines up to the first that is not UTF-8. -/
def readLines (escaped : Bool) : List InputLine → List Event
  | [] => []
  | .unreadable :: _ => [.log (notLoadedRecord .notText)]
  | .text line _ :: rest =>
    (if escaped && isBadlyEscaped line then [.log (badLineRecord line)] else []) ++
      readLines escaped rest

/-- Reads a file, of which the first line may be the mark. -/
def readFile : List InputLine → List Event
  | .text first _ :: rest => readLines (first == escapedMark) rest
  | lines => readLines false lines

/-! ## The start of a session -/

/-- Makes the directory of the history where it is missing. -/
def makeDirectory (storage : σ) (home : Text) : σ × List Event :=
  match Storage.makeDirectories storage (directory home) with
  | (storage, none) => (storage, [])
  | (storage, some error) => (storage, [.log (noDirectoryRecord home error)])

/-- Reads the history. -/
def read (storage : σ) (home : Text) : List Event :=
  match Storage.readBytes storage (file home) with
  | .ok bytes => readFile (inputOfBytes bytes)
  | .error error => [.log (notLoadedRecord error)]

end History

end ScriptLexer
