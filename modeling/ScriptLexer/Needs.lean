import ScriptLexer.Program

set_option autoImplicit false

/-! # What a run needs

Which paths a run asks the storage for depends on its environment alone, not on what is stored. So all
of them can be fetched before the run. -/

namespace ScriptLexer

/-- The paths a run asks for. -/
structure Needs where
  /-- Files that are read. -/
  files : List Text
  /-- Directories that are made. -/
  directories : List Text
  /-- Whether standard input is read. -/
  input : Bool

namespace Session

/-- The file that an entry loads. -/
def loadedPath? (entry : Entry) : Option Text :=
  match Invocation.parse? entry.text with
  | some ⟨.load, path⟩ => path
  | _ => none

/-- The files that a session reads. -/
def files (home : Text) (input : List InputLine) : List Text :=
  let entries := (entriesOf input).entries.takeWhile fun entry => !asksToLeave entry.text
  History.file home :: entries.filterMap loadedPath?

end Session

/-- What a run asks for. The arguments alone tell whether standard input is read; which files a
    session loads is known once it has been. -/
def Program.needs (environment : Program.Environment) : Needs :=
  match Arguments.parse environment.arguments with
  | .ok (.run ⟨none, [], _, _⟩) =>
    { files := Session.files environment.home environment.input
      directories := [History.directory environment.home]
      input := true }
  | .ok (.run ⟨none, files, _, _⟩) => ⟨files, [], false⟩
  | _ => ⟨[], [], false⟩

end ScriptLexer
