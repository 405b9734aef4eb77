import ScriptLexer.Prompt.Session
import ScriptLexer.Proofs.Receivers

set_option autoImplicit false

/-! # What is seen of a scan

Text on the two streams is all that is seen of events. Most log records are hidden, since the quiet
filter shows warnings and errors only (`Event.IsHidden`). Whether a diagnostic is reported as soon as
it is found or later, its report is written once and nothing else is seen (`Writes`), and what the
report says depends on the source and the name before it alone (`Reporter.text_eq`).
Main statement: `shows_showSource`. -/

namespace ScriptLexer

/-! ## Streams -/

@[simp]
theorem standardOutput_nil : standardOutput [] = [] := rfl

@[simp]
theorem standardOutput_out (text : Text) (later : List Event) :
    standardOutput (.out text :: later) = text ++ standardOutput later := rfl

@[simp]
theorem standardOutput_err (text : Text) (later : List Event) :
    standardOutput (.err text :: later) = standardOutput later := rfl

@[simp]
theorem standardOutput_log (record : LogRecord) (later : List Event) :
    standardOutput (.log record :: later) = standardOutput later := rfl

@[simp]
theorem standardError_nil (filter : LogFilter) : standardError filter [] = [] := rfl

@[simp]
theorem standardError_out (filter : LogFilter) (text : Text) (later : List Event) :
    standardError filter (.out text :: later) = standardError filter later := rfl

@[simp]
theorem standardError_err (filter : LogFilter) (text : Text) (later : List Event) :
    standardError filter (.err text :: later) = text ++ standardError filter later := rfl

theorem standardOutput_flatMap {α : Type} (f : α → List Event) (xs : List α) :
    standardOutput (xs.flatMap f) = xs.flatMap fun x => standardOutput (f x) := by
  induction xs with
  | nil => rfl
  | cons x xs ih => rw [List.flatMap_cons, standardOutput_append, ih, List.flatMap_cons]

theorem standardError_flatMap {α : Type} (filter : LogFilter) (f : α → List Event) (xs : List α) :
    standardError filter (xs.flatMap f) = xs.flatMap fun x => standardError filter (f x) := by
  induction xs with
  | nil => rfl
  | cons x xs ih => rw [List.flatMap_cons, standardError_append, ih, List.flatMap_cons]

/-! ## Hidden records -/

theorem shows_quiet (record : LogRecord) :
    LogFilter.quiet.shows record = decide (record.level.number ≤ 2) := by
  have hdirective : LogFilter.quiet.directiveFor? record = some { least := some .warn } := rfl
  rw [LogFilter.shows, hdirective]
  rfl

/-- An event of which nothing is seen unless more than warnings is asked for. -/
def Event.IsHidden : Event → Prop
  | .log record => 2 < record.level.number
  | _ => False

theorem debug_hidden : 2 < Level.debug.number := by decide

theorem trace_hidden : 2 < Level.trace.number := by decide

section Hidden

variable {events : List Event}

theorem shows_hidden {record : LogRecord} (h : 2 < record.level.number) :
    LogFilter.quiet.shows record = false := by
  rw [shows_quiet]
  exact decide_eq_false (by omega)

theorem standardError_log {record : LogRecord} (h : 2 < record.level.number) (later : List Event) :
    standardError .quiet (.log record :: later) = standardError .quiet later := by
  simp [standardError, shows_hidden h]

theorem standardOutput_hidden (h : ∀ event ∈ events, event.IsHidden) :
    standardOutput events = [] := by
  apply List.flatMap_eq_nil_iff.2
  intro event hevent
  cases event with
  | log record => rfl
  | out text => exact (h _ hevent).elim
  | err text => exact (h _ hevent).elim

theorem standardError_hidden (h : ∀ event ∈ events, event.IsHidden) :
    standardError .quiet events = [] := by
  apply List.flatMap_eq_nil_iff.2
  intro event hevent
  cases event with
  | log record => exact if_neg (by simp [shows_hidden (h _ hevent)])
  | out text => exact (h _ hevent).elim
  | err text => exact (h _ hevent).elim

theorem silentEvents_hidden (source : Text) : ∀ event ∈ silentEvents source, event.IsHidden := by
  intro event hevent
  rw [silentEvents, List.mem_append, List.mem_map, List.mem_singleton] at hevent
  obtain ⟨diagnostic, -, rfl⟩ | rfl := hevent
  · exact trace_hidden
  · exact debug_hidden

theorem checkEvents_hidden (tried : List Text) :
    ∀ event ∈ Session.checkEvents tried, event.IsHidden := by
  intro event hevent
  obtain ⟨source, -, hsource⟩ := List.mem_flatMap.1 hevent
  exact silentEvents_hidden source event hsource

end Hidden

/-! ## Reports -/

/-- The lines of a report without the name at the start of the first. -/
def reportBody (source : Text) (diagnostic : Diagnostic) : Text :=
  renderLine ((Reporter.new source none).headerLine diagnostic).tail ++
    ((Reporter.new source none).lines diagnostic).tail.flatMap renderLine

/-- A report with a name before it. The name is dimmed, which leaves a trace also of an empty one. -/
def namedReport (name source : Text) (diagnostic : Diagnostic) : Text :=
  (Segment.dimmed name).render ++ reportBody source diagnostic

/-- A report depends on the source and the name of its file, and not on earlier reports. -/
theorem Reporter.text_eq (reporter : Reporter) (diagnostic : Diagnostic) :
    reporter.text diagnostic = namedReport reporter.originText reporter.source diagnostic := by
  simp only [Reporter.text, Reporter.lines, namedReport, reportBody, List.flatMap_cons,
    List.tail_cons, Reporter.headerLine, renderLine, render, List.append_assoc]
  rfl

/-- A way of reporting by which each report is written once and nothing else is seen. -/
structure Writes (report : Recorded → Diagnostic → Recorded) : Prop where
  counts : Counts report
  output : ∀ recorded diagnostic,
    standardOutput (report recorded diagnostic).events = standardOutput recorded.events
  errors : ∀ recorded diagnostic,
    standardError .quiet (report recorded diagnostic).events =
      standardError .quiet recorded.events ++ recorded.reporter.text diagnostic

theorem writes_report : Writes Recorded.report where
  counts := counts_report
  output recorded diagnostic := by simp [Recorded.report]
  errors recorded diagnostic := by
    have hlevel : 2 < (reportRecord diagnostic).level.number := debug_hidden
    simp [Recorded.report, standardError_log hlevel]

theorem writes_reportFound : Writes Recorded.reportFound where
  counts := counts_reportFound
  output recorded diagnostic := by simp [Recorded.reportFound, writes_report.output]
  errors recorded diagnostic := by
    have hlevel : 2 < (foundRecord diagnostic).level.number := trace_hidden
    simp [Recorded.reportFound, writes_report.errors, standardError_log hlevel]

namespace Writes

variable {report : Recorded → Diagnostic → Recorded}

theorem output_foldl (h : Writes report) (diagnostics : List Diagnostic) (recorded : Recorded) :
    standardOutput (diagnostics.foldl report recorded).events =
      standardOutput recorded.events := by
  induction diagnostics generalizing recorded with
  | nil => rfl
  | cons diagnostic later ih => rw [List.foldl_cons, ih, h.output]

theorem errors_foldl (h : Writes report) (diagnostics : List Diagnostic) (recorded : Recorded) :
    standardError .quiet (diagnostics.foldl report recorded).events =
      standardError .quiet recorded.events ++ diagnostics.flatMap recorded.reporter.text := by
  induction diagnostics generalizing recorded with
  | nil => rw [List.flatMap_nil, List.append_nil, List.foldl_nil]
  | cons diagnostic later ih =>
    -- the reporter has counted one more, and writes the same
    have hreporter : (report recorded diagnostic).reporter.text = recorded.reporter.text := by
      rw [h.counts]
      rfl
    rw [List.foldl_cons, ih, h.errors, hreporter, List.flatMap_cons, List.append_assoc]

end Writes

/-! ## What is seen of a scan -/

/-- All that is seen of events are the rows of the tokens of a source and the reports of its
    diagnostics, in order and with the same name before each. -/
structure Shows (source name : Text) (filter : LogFilter) (events : List Event) : Prop where
  rows : standardOutput events = rowsText (tokenize source).tokens
  reports : standardError filter events =
    (tokenize source).diagnostics.flatMap (namedReport name source)

/-- Hidden events may come first. -/
theorem Shows.append {source name : Text} {hidden events : List Event}
    (hhidden : ∀ event ∈ hidden, event.IsHidden) (h : Shows source name .quiet events) :
    Shows source name .quiet (hidden ++ events) where
  rows := by rw [standardOutput_append, standardOutput_hidden hhidden, List.nil_append, h.rows]
  reports := by
    rw [standardError_append, standardError_hidden hhidden, List.nil_append, h.reports]

section Scans

variable (source : Text) (origin : Option Text)

theorem standardError_reports {report : Recorded → Diagnostic → Recorded} (h : Writes report) :
    standardError .quiet
        ((tokenize source).diagnostics.foldl report (.start (.new source origin))).events =
      (tokenize source).diagnostics.flatMap
        (namedReport (Reporter.new source origin).originText source) := by
  have htext : (Reporter.new source origin).text =
      namedReport (Reporter.new source origin).originText source :=
    funext (Reporter.text_eq (.new source origin))
  rw [h.errors_foldl, ← htext]
  rfl

/-- A scan that reports as it goes. -/
theorem shows_showSource :
    Shows source (Reporter.new source origin).originText .quiet
      (Session.showSource source origin) where
  rows := by
    rw [Session.showSource, scanLive, standardOutput_append, standardOutput_append,
      scanInto_receiver_eq, writes_reportFound.output_foldl, scanInto_tokens_eq]
    simp [Recorded.start]
  reports := by
    have hcomplete : 2 < (scanInto Recorded.reportFound (.start (.new source origin))
        source).completeRecord.level.number := debug_hidden
    rw [Session.showSource, scanLive, standardError_append, standardError_append,
      standardError_log hcomplete, scanInto_receiver_eq,
      standardError_reports source origin writes_reportFound]
    simp

theorem hadError_scanLive :
    (scanLive source origin).hadError = !(tokenize source).diagnostics.isEmpty := by
  rw [scanLive, scanInto_receiver_eq, counts_reportFound.hadError_foldl]

end Scans

end ScriptLexer
