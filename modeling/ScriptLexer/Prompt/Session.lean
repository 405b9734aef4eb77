import ScriptLexer.Prompt.History
import ScriptLexer.Prompt.Screen
import ScriptLexer.Recorded

set_option autoImplicit false

/-! # Sessions

A session reads entries, runs the commands among them and shows the tokens of all others. It ends with
the exit command or with the input. Nothing that happens in it changes the storage, apart from the
directory for the history, which is made at the start. -/

namespace ScriptLexer

namespace Session

variable {σ : Type} [Storage σ]

/-- Lines on standard output. -/
def outLines (lines : List (List Segment)) : List Event :=
  lines.map .outLine

/-! ## Single entries -/

/-- Scans a source, reporting as it goes, and shows its tokens. -/
def showSource (source : Text) (origin : Option Text) : List Event :=
  let noticed := scanLive source origin
  noticed.events ++ [.out (rowsText noticed.tokens)]

/-- The load command without a file name. -/
def pathRequired : List Segment :=
  [errorWord, .plain ": ".toList, .coloured .cyan ".load".toList, .plain [' '],
    .dimmed "requires a file path".toList]

/-- The load command with a file that cannot be read. -/
def cannotRead (path : Text) (error : FileError) : List Segment :=
  [errorWord, .plain ": cannot read '".toList, .coloured .cyan path,
    .plain ("': ".toList ++ error.message)]

/-- Scans a file. -/
def load (storage : σ) (path : Text) : List Event :=
  match Storage.readText storage path with
  | .ok source => showSource source (some path)
  | .error error => [.errLine (cannotRead path error)]

/-- What an entry does. -/
inductive Reaction where
  | leave
  | stay (events : List Event)

/-- Runs a command. -/
def runCommand (storage : σ) (invocation : Invocation) : Reaction :=
  match invocation.command, invocation.argument with
  | .exit, _ => .leave
  | .help, _ => .stay (outLines Screen.help)
  | .clear, _ => .stay [.out Screen.clear]
  | .version, _ => .stay (outLines Screen.versions)
  | .load, some path => .stay (load storage path)
  | .load, none => .stay [.errLine pathRequired]

/-- Does what an entry asks for. A blank entry does nothing, and a source is scanned as it is. -/
def react (storage : σ) (entry : Text) : Reaction :=
  if (trim entry).isEmpty then .stay []
  else match Invocation.parse? entry with
    | some invocation => runCommand storage invocation
    | none => .stay (showSource entry none)

/-! ## The loop -/

/-- The records of the scans that tell whether an entry is complete. A command is not scanned. -/
def checkEvents (tried : List Text) : List Event :=
  (tried.filter (!startsWithDot ·)).flatMap silentEvents

/-- The input holds bytes that are not UTF-8. -/
def unreadableInput : List Segment :=
  [errorWord,
    .plain (": Io(Error \x7b kind: InvalidData, message: \"".toList ++ FileError.notText.message ++
      "\" \x7d)".toList)]

/-- What is shown when the input ends. -/
def endEvents : Ending → List Event
  | .endOfInput => [.outLine Screen.endOfInput]
  | .unreadable => [.errLine unreadableInput]

/-- Deals with the entries one after another; `reading` happens before each is read. -/
def loop (storage : σ) (reading : List Event) (tried : List Text) (ending : Ending) :
    List Entry → List Event
  | [] => reading ++ checkEvents tried ++ endEvents ending
  | entry :: rest =>
    reading ++ checkEvents (entry.tried ++ [entry.text]) ++
      match react storage entry.text with
      | .leave => []
      | .stay events => events ++ loop storage reading tried ending rest

/-- A whole session. -/
def run (storage : σ) (home terminal : Text) (input : List InputLine) : List Event :=
  let (storage, warnings) := History.makeDirectory storage home
  let entries := entriesOf input
  warnings ++ History.read storage home ++ outLines Screen.banner ++
    loop storage (Reader.readingEvents terminal) entries.tried entries.ending entries.entries ++
    outLines Screen.goodbye

end Session

end ScriptLexer
