import ScriptLexer.File.Storage

set_option autoImplicit false

/-! # A tree of files

A storage that is a value: files and directories below a root, and the directory from which relative
paths start. A path is followed name by name. Every name but the last must lead to a directory, and a
path that ends in a slash must lead to one altogether; so a missing directory, a file in the place of
a directory and a name that is too long are found in the order in which the path meets them. -/

namespace ScriptLexer

/-- What is at a place. -/
inductive FileNode where
  | file (content : ByteArray)
  | directory

/-- The names that lead from the root to a place, the last one first. -/
abbrev Place := List Text

/-- The places in use, the root apart, which is always a directory. -/
structure FileTree where
  nodes : List (Place × FileNode)
  workDirectory : Place

namespace FileTree

/-- The greatest number of bytes in a name. -/
def greatestName : Nat := 255

/-! ## Following paths -/

/-- What is at a place. -/
def find? (tree : FileTree) (place : Place) : Option FileNode :=
  if place.isEmpty then some .directory
  else (tree.nodes.find? (·.1 = place)).map (·.2)

/-- The place that a name leads to from another place, which must be a directory. -/
def follow (tree : FileTree) (place : Place) (name : Text) : Except FileError Place :=
  match tree.find? place with
  | none => .error .missing
  | some (.file _) => .error .notDirectory
  | some .directory =>
    if name = [] ∨ name = ['.'] then .ok place
    else if name = ['.', '.'] then .ok place.tail
    else if greatestName < byteLength name then .error .nameTooLong
    else .ok (name :: place)

/-- The place from which a path is followed. -/
def start (tree : FileTree) (path : Text) : Place :=
  if isAbsolute path then [] else tree.workDirectory

/-- The names in a path. An empty name stays where it is. -/
def names (path : Text) : List Text :=
  path.splitOn '/'

/-- The place that a path leads to, whatever is there. -/
def locate (tree : FileTree) (path : Text) : Except FileError Place := do
  checkPath path
  (names path).foldlM tree.follow (tree.start path)

/-- The bytes of the file with the given path. -/
def readBytes (tree : FileTree) (path : Text) : Except FileError ByteArray := do
  match tree.find? (← tree.locate path) with
  | none => .error .missing
  | some .directory => .error .isDirectory
  | some (.file content) => .ok content

/-- Whether a path leads to a directory. -/
def isDirectory (tree : FileTree) (path : Text) : Bool :=
  match tree.find? <$> tree.locate path with
  | .ok (some .directory) => true
  | _ => false

/-! ## Growing -/

/-- The tree with something else at a place. -/
def insert (tree : FileTree) (place : Place) (node : FileNode) : FileTree :=
  { tree with nodes := (place, node) :: tree.nodes.filter (·.1 ≠ place) }

/-- Follows a name, and makes a directory where nothing is. -/
def followOrMake (reached : FileTree × Place) (name : Text) : Except FileError (FileTree × Place) := do
  let (tree, place) := reached
  let next ← tree.follow place name
  match tree.find? next with
  | none => .ok (tree.insert next .directory, next)
  | some _ => .ok (tree, next)

/-- Makes a directory where nothing is. -/
def makeDirectory (tree : FileTree) (path : Text) : Except FileError FileTree := do
  let place ← tree.locate path
  match tree.find? place with
  | none => .ok (tree.insert place .directory)
  | some _ => .error .alreadyExists

/-- Makes a directory, unless it is there. -/
def ensureDirectory (path : Text) : StateM FileTree (Option FileError) := do
  match (← get).makeDirectory path with
  | .ok tree => do
    set tree
    return none
  | .error .alreadyExists => return if (← get).isDirectory path then none else some .alreadyExists
  | .error error => return some error

/-- Makes a directory and those above it. -/
def makeDirectories (tree : FileTree) (path : Text) : FileTree × Option FileError :=
  match checkPath path with
  | .ok () =>
    let (failure, tree) := (makeEach ensureDirectory (pathsTo path)).run tree
    (tree, failure)
  | .error error => (tree, some error)

/-- Puts a file at a path, and makes the directories above it. -/
def addFile (tree : FileTree) (path : Text) (content : ByteArray) : Except FileError FileTree := do
  checkPath path
  let (tree, place) ← (names path).dropLast.foldlM followOrMake (tree, tree.start path)
  let place ← tree.follow place ((names path).getLastD [])
  return tree.insert place (.file content)

/-- A tree in which the directory that relative paths start from and one other are empty. -/
def empty (workDirectory other : Text) : FileTree :=
  ⟨[([workDirectory], .directory), ([other], .directory)], [workDirectory]⟩

end FileTree

instance : Storage FileTree where
  readBytes := FileTree.readBytes
  makeDirectories := FileTree.makeDirectories

end ScriptLexer
