import ScriptLexer.File.Storage

set_option autoImplicit false

/-! # Snapshots

A storage of which the answers were fetched beforehand, for the paths that a run is going to ask
for. -/

namespace ScriptLexer

/-- Answers by path. -/
structure Snapshot where
  contents : List (Text × Except FileError ByteArray)
  directories : List (Text × Option FileError)

namespace Snapshot

/-- The answer for a path, if it was asked for beforehand. -/
def answer? {α : Type} (answers : List (Text × α)) (path : Text) : Option α :=
  (answers.find? (·.1 = path)).map (·.2)

end Snapshot

/-- A path that was not asked for is taken to be missing. -/
instance : Storage Snapshot where
  readBytes snapshot path := (Snapshot.answer? snapshot.contents path).getD (.error .missing)
  makeDirectories snapshot path :=
    (snapshot, (Snapshot.answer? snapshot.directories path).getD (some .missing))

end ScriptLexer
