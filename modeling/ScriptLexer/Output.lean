import ScriptLexer.Log.Filter

set_option autoImplicit false

/-! # Output

What a run does is a list of events in the order in which they happen: text on standard output, text
on standard error, and log records. Records go to standard error as well, those that the filter
shows; so each stream is a view of the events. -/

namespace ScriptLexer

/-- Something that can be noticed from outside. -/
inductive Event where
  | out (text : Text)
  | err (text : Text)
  | log (record : LogRecord)

/-- The text on standard output. -/
def standardOutput (events : List Event) : Text :=
  events.flatMap fun
    | .out text => text
    | _ => []

/-- The text on standard error. -/
def standardError (filter : LogFilter) (events : List Event) : Text :=
  events.flatMap fun
    | .out _ => []
    | .err text => text
    | .log record => if filter.shows record then record.text else []

@[simp]
theorem standardOutput_append (a b : List Event) :
    standardOutput (a ++ b) = standardOutput a ++ standardOutput b := by
  simp [standardOutput]

@[simp]
theorem standardError_append (filter : LogFilter) (a b : List Event) :
    standardError filter (a ++ b) = standardError filter a ++ standardError filter b := by
  simp [standardError]

/-- A line of styled text on standard output. -/
def Event.outLine (segments : List Segment) : Event :=
  .out (renderLine segments)

/-- A line of styled text on standard error. -/
def Event.errLine (segments : List Segment) : Event :=
  .err (renderLine segments)

/-- How a run ends. -/
inductive ExitStatus where
  | success
  /-- The arguments cannot be understood. -/
  | usage
  /-- Something is wrong with a source. -/
  | dataError
  /-- A file cannot be read. -/
  | noInput
deriving DecidableEq

/-- The number that the caller is given. -/
def ExitStatus.code : ExitStatus → Nat
  | success => 0
  | usage => 2
  | dataError => 65
  | noInput => 66

end ScriptLexer
