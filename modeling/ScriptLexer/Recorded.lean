import ScriptLexer.Output
import ScriptLexer.Report
import ScriptLexer.Row

set_option autoImplicit false

/-! # Scans that leave events

A scan is noticed from outside through its log records, and through what is reported while it goes on.
A live scan reports a diagnostic as soon as it is found. A silent scan only collects diagnostics;
they can be reported later, or not at all. -/

namespace ScriptLexer

/-! ## Log records of a scan -/

/-- The part of the program that scans. -/
def scanTarget : Text := "bugsy_lexer::lexer::scanner".toList

/-- The part of the program that reports. -/
def reportTarget : Text := "bugsy::report".toList

/-- A diagnostic was found. -/
def foundRecord (diagnostic : Diagnostic) : LogRecord :=
  { level := .trace
    target := scanTarget
    message := "lexical error".toList
    values := [("line".toList, natText diagnostic.line),
      ("start".toList, natText diagnostic.span.start),
      ("error".toList, diagnostic.fault.message)] }

/-- A scan has reached the end of the source. -/
def completeRecord (tokens diagnostics lines : Nat) : LogRecord :=
  { level := .debug
    target := scanTarget
    message := "scan complete".toList
    values := [("tokens".toList, natText tokens), ("diagnostics".toList, natText diagnostics),
      ("lines".toList, natText lines)] }

/-- A diagnostic is about to be reported. -/
def reportRecord (diagnostic : Diagnostic) : LogRecord :=
  { level := .debug
    target := reportTarget
    message := "diagnostic".toList
    values := [("line".toList, natText diagnostic.line),
      ("error".toList, diagnostic.fault.message)] }

/-- The record at the end of a scan. -/
def Finished.completeRecord {σ : Type} (finished : Finished σ) : LogRecord :=
  ScriptLexer.completeRecord finished.tokens.length finished.reported finished.lines

/-! ## Reporting -/

/-- A reporter with the events of its reports. -/
structure Recorded where
  reporter : Reporter
  events : List Event

namespace Recorded

/-- A reporter without events. -/
def start (reporter : Reporter) : Recorded := ⟨reporter, []⟩

/-- Reports a diagnostic. -/
def report (recorded : Recorded) (diagnostic : Diagnostic) : Recorded :=
  ⟨recorded.reporter.count, recorded.events ++
    [.log (reportRecord diagnostic), .err (recorded.reporter.text diagnostic)]⟩

/-- Reports a diagnostic that was found this moment. -/
def reportFound (recorded : Recorded) (diagnostic : Diagnostic) : Recorded :=
  report { recorded with events := recorded.events ++ [.log (foundRecord diagnostic)] } diagnostic

end Recorded

/-! ## Scans -/

/-- The tokens of a scan, its events, and whether anything was reported. -/
structure Noticed where
  tokens : List Token
  events : List Event
  hadError : Bool

/-- Scans a source and reports diagnostics while the scan goes on. -/
def scanLive (source : Text) (origin : Option Text) : Noticed :=
  let finished := scanInto Recorded.reportFound (.start (.new source origin)) source
  { tokens := finished.tokens
    events := finished.receiver.events ++ [.log finished.completeRecord]
    hadError := finished.receiver.reporter.hadError }

/-- The log records of a scan that only collects diagnostics. -/
def silentEvents (source : Text) : List Event :=
  let finished := scanInto (fun found diagnostic => found ++ [diagnostic]) [] source
  finished.receiver.map (fun diagnostic => .log (foundRecord diagnostic)) ++
    [.log finished.completeRecord]

/-- Reports collected diagnostics. -/
def reportAll (source : Text) (origin : Option Text) (diagnostics : List Diagnostic) : Recorded :=
  diagnostics.foldl Recorded.report (.start (.new source origin))

end ScriptLexer
