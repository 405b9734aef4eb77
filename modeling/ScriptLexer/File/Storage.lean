import ScriptLexer.Text.Bytes

set_option autoImplicit false

/-! # Storage

What the program asks of a file system: to read a file as text, and to make a directory with those
above it. Both can fail, and the failures have the wording of the system. -/

namespace ScriptLexer

/-- Why a file cannot be read or a directory cannot be made. -/
inductive FileError where
  | missing
  | alreadyExists
  | notDirectory
  | isDirectory
  | nameTooLong
  /-- A path cannot hold the character with the number zero. -/
  | nulInPath
  /-- The bytes of the file are not UTF-8. -/
  | notText
  /-- What else the system may answer. -/
  | other (message : Text)
deriving DecidableEq

/-- The wording of the system. -/
def FileError.message : FileError → Text
  | missing => "No such file or directory (os error 2)".toList
  | alreadyExists => "File exists (os error 17)".toList
  | notDirectory => "Not a directory (os error 20)".toList
  | isDirectory => "Is a directory (os error 21)".toList
  | nameTooLong => "File name too long (os error 36)".toList
  | nulInPath => "file name contained an unexpected NUL byte".toList
  | notText => "stream did not contain valid UTF-8".toList
  | other message => message

/-- The text that bytes are the UTF-8 form of. -/
def textOfBytes (bytes : ByteArray) : Except FileError Text :=
  match String.fromUTF8? bytes with
  | some text => .ok text.toList
  | none => .error .notText

/-! ## Paths -/

/-- A path below another. -/
def joinPath (directory name : Text) : Text :=
  if directory.getLast? = some '/' then directory ++ name else directory ++ '/' :: name

/-- The greatest number of bytes in a path. -/
def greatestPath : Nat := 4095

/-- Refuses what cannot be a path. -/
def checkPath (path : Text) : Except FileError Unit :=
  if path.contains '\x00' then .error .nulInPath
  else if greatestPath < byteLength path then .error .nameTooLong
  else if path.isEmpty then .error .missing
  else .ok ()

/-- Whether a path starts at the root. -/
def isAbsolute (path : Text) : Bool :=
  path.head? = some '/'

/-- The path of a directory and those of the directories above it, the root apart. The names that lead
    there start with the last. -/
def pathsFrom (root : Text) : List Text → List Text
  | [] => []
  | name :: above => (root ++ ['/'].intercalate (name :: above).reverse) :: pathsFrom root above

/-- A path and the paths above it, the longest first. Names that stay where they are do not count. -/
def pathsTo (path : Text) : List Text :=
  pathsFrom (if isAbsolute path then ['/'] else [])
    ((path.splitOn '/').filter fun name => name ≠ [] ∧ name ≠ ['.']).reverse

/-! ## Making directories -/

/-- Makes directories one inside the other, the outermost last in the list: each is tried first, and
    only if what it should be made in is missing the directories above it are made. What was made
    stays, also if a directory inside it then cannot be made. -/
def makeEach {m : Type → Type} [Monad m] (make : Text → m (Option FileError)) :
    List Text → m (Option FileError)
  | [] => return none
  | path :: above => do
    match ← make path with
    | some .missing =>
      match ← makeEach make above with
      | none => make path
      | failure => return failure
    | done => return done

/-! ## Storages -/

/-- Something that files can be read from. -/
class Storage (σ : Type) where
  /-- The bytes of the file with the given path. -/
  readBytes : σ → Text → Except FileError ByteArray
  /-- Makes the directory with the given path and those above it, where they do not exist. Even if
      that fails some of them may have been made. -/
  makeDirectories : σ → Text → σ × Option FileError

/-- The text of the file with the given path. -/
def Storage.readText {σ : Type} [Storage σ] (storage : σ) (path : Text) : Except FileError Text :=
  Storage.readBytes storage path >>= textOfBytes

end ScriptLexer
