import ScriptLexer.Output
import ScriptLexer.Prompt.Screen

set_option autoImplicit false

/-! # The line reader

The part of the program that reads lines tells in log records of its own how it goes about it. Since
lines do not come from a terminal, nothing is edited; on a few terminals that nothing could be edited
on anyway the prompt is shown all the same. -/

namespace ScriptLexer

namespace Reader

/-- The part of the program that reads lines. -/
def target : Text := "rustyline".toList

/-- A record of the line reader. It is passed on with a note of the place it comes from. -/
def record (level : Level) (message : Text) : LogRecord :=
  { level := level
    target := target
    message := message
    values := []
    unwritten := ["log.target".toList, "log.module_path".toList, "log.file".toList,
      "log.line".toList] }

/-- The terminals on which no line can be edited, in lower case. -/
def plainTerminals : List Text :=
  ["dumb".toList, "cons25".toList, "emacs".toList]

/-- What happens before an entry is read. -/
def readingEvents (terminal : Text) : List Event :=
  if plainTerminals.contains (terminal.map Char.toLower) then
    [.log (record .debug "unsupported terminal".toList), .out (render Screen.prompt)]
  else [.log (record .debug "stdin is not a tty".toList)]

end Reader

end ScriptLexer
