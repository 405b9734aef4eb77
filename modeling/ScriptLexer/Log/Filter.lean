import ScriptLexer.Log.Directive

set_option autoImplicit false

/-! # Log filters

A filter decides which records are shown. It is written as directives with commas between them; of
those that speak of a record the most specific one counts. -/

namespace ScriptLexer

/-- A filter is a list of directives; of two that are equally specific the later counts. -/
abbrev LogFilter := List Directive

namespace LogFilter

/-! ## What a filter shows -/

/-- The directive that counts for a record. -/
def directiveFor? (filter : LogFilter) (record : LogRecord) : Option Directive :=
  match filter.filter (·.concerns record) with
  | [] => none
  | first :: others => some (others.foldl Directive.moreSpecific first)

/-- Whether a filter shows a record. -/
def shows (filter : LogFilter) (record : LogRecord) : Bool :=
  (filter.directiveFor? record).any (·.allows record.level)

/-! ## Reading a filter -/

/-- Reads a filter; one without directives shows errors only. -/
def parse? (text : Text) : Option LogFilter :=
  match ((text.splitOn ',').filter (!·.isEmpty)).mapM Directive.parse? with
  | some [] => some [{ least := some .error }]
  | directives => directives

/-- Shows warnings and errors of every part of the program. -/
def quiet : LogFilter := [{ least := some .warn }]

end LogFilter

end ScriptLexer
