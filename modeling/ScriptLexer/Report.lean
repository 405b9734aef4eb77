import ScriptLexer.Scan
import ScriptLexer.Style

set_option autoImplicit false

/-! # Reports

A diagnostic is reported in three lines: what is wrong, the line of the source where the fault
starts, and a mark below the place. A string that is never closed is found wrong where the source
ends and shown where it starts; then the mark says so.

A reporter belongs to one source and counts what it has reported. -/

namespace ScriptLexer

/-! ## Snippets -/

/-- A line of a source with its number, and the bytes on it before a place. -/
structure Snippet where
  number : Nat
  text : Text
  column : Nat
deriving DecidableEq

/-- The characters after the last line feed. -/
def lastLine (text : Text) : Text :=
  (text.reverse.takeWhile (· ≠ '\n')).reverse

/-- The line around a byte offset; there is none if the offset is past the end or inside a character. -/
def snippet? (source : Text) (offset : Nat) : Option Snippet :=
  (splitAtByte? source offset).map fun (before, after) =>
    { number := newlines before + 1
      text := lastLine before ++ after.takeWhile (· ≠ '\n')
      column := byteLength (lastLine before) }

/-- What the mark below a snippet says. -/
def caretLabel (diagnostic : Diagnostic) (snippetLine : Nat) : Text :=
  if snippetLine = diagnostic.line then "^--- Here.".toList else "^--- String starts here.".toList

/-- A word in the way every error message starts. -/
def errorWord : Segment :=
  .bold .red "Error".toList

/-! ## Reporters -/

/-- The source that diagnostics are about, the name of its file if it has one, and the number of
    diagnostics reported so far. -/
structure Reporter where
  source : Text
  origin : Option Text
  errors : Nat

namespace Reporter

/-- A reporter that has reported nothing. -/
def new (source : Text) (origin : Option Text) : Reporter :=
  ⟨source, origin, 0⟩

/-- Whether anything was reported. -/
def hadError (reporter : Reporter) : Bool :=
  0 < reporter.errors

/-- The file name and a colon. -/
def originText (reporter : Reporter) : Text :=
  match reporter.origin with
  | some origin => origin ++ [':']
  | none => []

/-- The first line of a report, without effects. -/
def header (reporter : Reporter) (diagnostic : Diagnostic) : Text :=
  reporter.originText ++ diagnostic.description

/-- The first line of a report. -/
def headerLine (reporter : Reporter) (diagnostic : Diagnostic) : List Segment :=
  [.dimmed reporter.originText, .dimmed diagnostic.lineMark, .plain [' '], errorWord,
    .plain (": ".toList ++ diagnostic.fault.message)]

/-- The line number before a snippet. -/
def gutter (snippet : Snippet) : Text :=
  padStart 5 (natText snippet.number) ++ " | ".toList

/-- The line of the source. -/
def sourceLine (snippet : Snippet) : List Segment :=
  [.dimmed (gutter snippet), .plain snippet.text]

/-- The mark, as many blanks from the left as there are bytes before the place. -/
def caretLine (diagnostic : Diagnostic) (snippet : Snippet) : List Segment :=
  [.plain (List.replicate (byteLength (gutter snippet) + snippet.column) ' '),
    .coloured .red (caretLabel diagnostic snippet.number)]

/-- The lines of a report. -/
def lines (reporter : Reporter) (diagnostic : Diagnostic) : List (List Segment) :=
  reporter.headerLine diagnostic ::
    match snippet? reporter.source diagnostic.span.start with
    | some snippet => [sourceLine snippet, caretLine diagnostic snippet]
    | none => []

/-- The characters of a report. -/
def text (reporter : Reporter) (diagnostic : Diagnostic) : Text :=
  (reporter.lines diagnostic).flatMap renderLine

/-- The reporter after one more report. -/
def count (reporter : Reporter) : Reporter :=
  { reporter with errors := reporter.errors + 1 }

end Reporter

end ScriptLexer
