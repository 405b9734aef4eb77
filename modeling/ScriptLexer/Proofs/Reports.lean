import ScriptLexer.Proofs.ControlSequences
import ScriptLexer.Proofs.LineNumbers
import ScriptLexer.Proofs.Lookahead
import ScriptLexer.Proofs.Snippets
import ScriptLexer.Proofs.TokenRows
import ScriptLexer.Proofs.Visible

set_option autoImplicit false

/-! # What a report shows

The line of a diagnostic is counted by the scan, up to the end of the fault; the line of a snippet is
counted by the reporter, up to its start. The two are the same unless the fault is a string that goes
on over the end of its line (`exists_snippet`), and that is what the label under the snippet tells.
The colours of a report add no line feed and no text, so every report of a scan is three lines, of
which the first says what the diagnostic says of itself.
Main statement: `report_reads`. -/

namespace ScriptLexer

/-! ## What the statement speaks of -/

/-- The character at which a fault is shown: the one that was not expected, or the quote that opens a
    string. -/
inductive Fault.ShownAt : Fault → Char → Prop where
  | character (c : Char) : ShownAt (.unexpectedCharacter c) c
  | quote : ShownAt .unterminatedString '"'

/-- Whether a string is not closed and goes on over the end of the line on which it starts. -/
def Diagnostic.OpensOverLines (source : Text) (diagnostic : Diagnostic) : Prop :=
  diagnostic.fault = .unterminatedString ∧
    ∃ text, diagnostic.span.cut? source = some text ∧ '\n' ∈ text

/-- What is printed for a diagnostic: a header, a line of the source, and a label under it. -/
structure Reporter.Prints (reporter : Reporter) (diagnostic : Diagnostic) (snippet : Snippet)
    (header indent label printed : Text) : Prop where
  found : snippet? reporter.source diagnostic.span.start = some snippet
  /-- There are three lines, each with a line feed at its end. -/
  lines : printed.splitOn '\n' =
    [header, (Segment.dimmed (padStart 5 (natText snippet.number) ++ " | ".toList)).render ++
        snippet.text,
      indent ++ (Segment.coloured .red label).render, []]
  header : withoutSequences header = reporter.header diagnostic
  /-- The number is that of the line on which the fault starts. -/
  number : lineAt? reporter.source diagnostic.span.start = some snippet.number
  line : (reporter.source.splitOn '\n')[snippet.number - 1]? = some snippet.text
  mark : ∃ left opener right, splitAtByte? snippet.text snippet.column = some (left, opener :: right) ∧
    diagnostic.fault.ShownAt opener
  indent : ∀ c ∈ indent, c = ' '
  startsHere : diagnostic.OpensOverLines reporter.source →
    label = "^--- String starts here.".toList
  here : ¬ diagnostic.OpensOverLines reporter.source → label = "^--- Here.".toList

/-! ## The line of a diagnostic and of its snippet -/

theorem Piece.WellFormed.exists_opener {fault : Fault} {text : Text}
    (h : (Piece.fault fault text).WellFormed) :
    ∃ opener rest, text = opener :: rest ∧ fault.ShownAt opener ∧ opener ≠ '\n' ∧
      ('\n' ∈ text → fault = .unterminatedString) := by
  cases h with
  | lexical h => cases h
  | @unexpected c h =>
    have hne : c ≠ '\n' := by
      rintro rfl
      exact h.not_space (by decide)
    exact ⟨c, [], rfl, .character c, hne, fun hmem => absurd (List.mem_singleton.1 hmem).symm hne⟩
  | @openString text h => exact ⟨'"', text, rfl, .quote, by decide, fun _ => rfl⟩

/-- A piece starts where the text before it ends. -/
theorem start_span_advance (before text : Text) :
    ((Position.start.advance before).span text).start = byteLength before := by
  simp [Position.span, Position.advance, Position.start]

/-- The line of a diagnostic counts the line feeds before it and those inside it. -/
theorem line_of_mem_diagnostics {source before text after : Text} {diagnostic : Diagnostic}
    (h : diagnostic ∈ (tokenize source).diagnostics) (hsource : source = before ++ (text ++ after))
    (hspan : diagnostic.span = (Position.start.advance before).span text) :
    diagnostic.line = 1 + newlines before + newlines text := by
  obtain ⟨cut, hcut, hline⟩ := (endsOnLine_diagnostic source h).inside
  have hstart : diagnostic.span.start = byteLength before := by rw [hspan, start_span_advance]
  rw [hstart, hsource, lineAt?_append, Option.map_some] at hline
  rw [hspan, hsource, cut?_span] at hcut
  obtain rfl := Option.some.inj hcut
  exact (Option.some.inj hline).symm

/-- A diagnostic has a snippet, on which the character meant stands behind the column. The number of
    the snippet is that of the diagnostic unless a string goes on over the end of its line. -/
theorem exists_snippet {source : Text} {diagnostic : Diagnostic}
    (h : diagnostic ∈ (tokenize source).diagnostics) :
    ∃ number left opener right,
      snippet? source diagnostic.span.start =
        some ⟨number, left ++ opener :: right, byteLength left⟩ ∧
      '\n' ∉ left ++ opener :: right ∧ diagnostic.fault.ShownAt opener ∧
      (number = diagnostic.line ↔ ¬ diagnostic.OpensOverLines source) := by
  obtain ⟨before, text, after, hsource, hspan, hwell⟩ := exists_of_mem_diagnostics h
  have hline := line_of_mem_diagnostics h hsource hspan
  obtain ⟨opener, rest, rfl, hshown, hne, hopen⟩ := hwell.exists_opener
  have hstart : diagnostic.span.start = byteLength before := by rw [hspan, start_span_advance]
  have hover : diagnostic.OpensOverLines source ↔ '\n' ∈ opener :: rest := by
    rw [Diagnostic.OpensOverLines, hspan, hsource, cut?_span]
    constructor
    · rintro ⟨-, text, htext, hmem⟩
      rwa [← Option.some.inj htext] at hmem
    · intro hmem
      exact ⟨hopen hmem, _, rfl, hmem⟩
  obtain ⟨earlier, left, right, later, rfl, hafter, hisLine⟩ :=
    exists_isLine before (opener :: rest ++ after)
  -- the character meant is no line feed, so it is on the line
  obtain ⟨more, rfl⟩ : ∃ more, right = opener :: more := by
    cases right with
    | nil =>
      rw [List.nil_append] at hafter
      exact absurd (hisLine.stop opener (by rw [← hafter]; rfl)) hne
    | cons c more => exact ⟨more, by rw [(List.cons.inj hafter).1]⟩
  refine ⟨newlines earlier + 1, left, opener, more, ?_, hisLine.inside, hshown, ?_⟩
  · rw [hstart, hsource, hafter]
    exact hisLine.snippet?_eq
  · rw [hover, hline, hisLine.newlines_eq, ← List.count_eq_zero, ← newlines]
    omega

/-! ## The lines of a report -/

theorem lineAt?_of_snippet? {source : Text} {offset : Nat} {snippet : Snippet}
    (h : snippet? source offset = some snippet) : lineAt? source offset = some snippet.number := by
  obtain ⟨parts, hsplit, rfl⟩ := Option.map_eq_some_iff.1 h
  rw [lineAt?, hsplit, Option.map_some, Nat.add_comm]

namespace Reporter

variable (reporter : Reporter) (diagnostic : Diagnostic) (snippet : Snippet)

theorem lines_eq {snippet : Snippet}
    (h : snippet? reporter.source diagnostic.span.start = some snippet) :
    reporter.lines diagnostic =
      [reporter.headerLine diagnostic, sourceLine snippet, caretLine diagnostic snippet] := by
  rw [lines, h]

theorem plainText_headerLine :
    plainText (reporter.headerLine diagnostic) = reporter.header diagnostic := by
  simp [plainText, headerLine, header, Diagnostic.description, Segment.dimmed, Segment.plain,
    errorWord, Segment.bold]

theorem plainText_sourceLine : plainText (sourceLine snippet) = gutter snippet ++ snippet.text := by
  simp [plainText, sourceLine, Segment.dimmed, Segment.plain]

theorem plainText_caretLine :
    plainText (caretLine diagnostic snippet) =
      List.replicate (byteLength (gutter snippet) + snippet.column) ' ' ++
        caretLabel diagnostic snippet.number := by
  simp [plainText, caretLine, Segment.coloured, Segment.plain]

variable {diagnostic snippet}

/-! ### Characters that the reporter adds -/

theorem mem_gutter {c : Char} (h : c ∈ gutter snippet) : c = ' ' ∨ c = '|' ∨ IsDigit c := by
  have hbar : " | ".toList = [' ', '|', ' '] := rfl
  rw [gutter, padStart, hbar, List.mem_append, List.mem_append] at h
  rcases h with (hblank | hdigit) | hbar
  · exact .inl (List.eq_of_mem_replicate hblank)
  · exact .inr (.inr (isDigit_of_mem_natText hdigit))
  · simp only [List.mem_cons, List.not_mem_nil, or_false] at hbar
    rcases hbar with rfl | rfl | rfl
    · exact .inl rfl
    · exact .inr (.inl rfl)
    · exact .inl rfl

theorem not_mem_gutter {c : Char} (h : c ≠ ' ' ∧ c ≠ '|' ∧ ¬ IsDigit c) : c ∉ gutter snippet := by
  intro hmem
  rcases mem_gutter hmem with rfl | rfl | hdigit
  · exact h.1 rfl
  · exact h.2.1 rfl
  · exact h.2.2 hdigit

theorem not_mem_lineMark {c : Char} (h : c ∉ "[line ".toList ∧ c ∉ "]".toList ∧ ¬ IsDigit c) :
    c ∉ diagnostic.lineMark := by
  intro hmem
  change c ∈ "[line ".toList ++ natText diagnostic.line ++ "]".toList at hmem
  rw [List.mem_append, List.mem_append] at hmem
  rcases hmem with (hmem | hmem) | hmem
  · exact h.1 hmem
  · exact h.2.2 (isDigit_of_mem_natText hmem)
  · exact h.2.1 hmem

/-- The origin is all that the header adds to what is always there. -/
theorem not_mem_originText {c : Char} (h : ∀ name ∈ reporter.origin, c ∉ name) (hcolon : c ≠ ':') :
    c ∉ reporter.originText := by
  rw [originText]
  split
  · next name hname =>
    rw [List.mem_append, List.mem_singleton, not_or]
    exact ⟨h name hname, hcolon⟩
  · exact List.not_mem_nil

theorem newline_not_mem_message {fault : Fault} {opener : Char} (h : fault.ShownAt opener)
    (hne : opener ≠ '\n') : '\n' ∉ fault.message := by
  cases h with
  | quote => decide
  | character =>
    show '\n' ∉ "Unexpected character '".toList ++ opener :: "'.".toList
    rw [List.mem_append, List.mem_cons, not_or, not_or]
    exact ⟨by decide, hne.symm, by decide⟩

/-- An escape character in a message is followed by a quote, so it starts no sequence. -/
theorem withoutSequences_message {fault : Fault} {opener : Char} (h : fault.ShownAt opener)
    {before : Text} (hbefore : '\x1b' ∉ before) :
    withoutSequences (before ++ fault.message) = before ++ fault.message := by
  rw [withoutSequences_append hbefore]
  cases h with
  | quote => exact congrArg _ (by simpa using withoutSequences_append (by decide) [])
  | character =>
    have hquote : "'.".toList.head? ≠ some '[' := by decide
    have hplain : '\x1b' ∉ "'.".toList := by decide
    have hend : withoutSequences "'.".toList = "'.".toList := by
      simpa using withoutSequences_append hplain []
    show _ ++ withoutSequences ("Unexpected character '".toList ++ opener :: "'.".toList) = _
    rw [withoutSequences_append (by decide), withoutSequences_cons fun _ => hquote, hend]
    rfl

/-! ### The header -/

variable (diagnostic) in
/-- The header before the message. -/
def headerFront : List Segment :=
  [.dimmed reporter.originText, .dimmed diagnostic.lineMark, .plain [' '], errorWord]

theorem headerLine_eq :
    reporter.headerLine diagnostic =
      reporter.headerFront diagnostic ++ [.plain (": ".toList ++ diagnostic.fault.message)] := rfl

theorem not_mem_headerFront {c : Char} (horigin : ∀ name ∈ reporter.origin, c ∉ name)
    (hcolon : c ≠ ':') (hmark : c ∉ "[line ".toList ∧ c ∉ "]".toList ∧ ¬ IsDigit c)
    (herror : c ∉ ' ' :: "Error".toList) : c ∉ plainText (reporter.headerFront diagnostic) := by
  have hplain : plainText (reporter.headerFront diagnostic) =
      reporter.originText ++ (diagnostic.lineMark ++ ' ' :: "Error".toList) := rfl
  rw [hplain, List.mem_append, List.mem_append, not_or, not_or]
  exact ⟨reporter.not_mem_originText horigin hcolon, not_mem_lineMark hmark, herror⟩

/-- Without its colours the first line says what the diagnostic says of itself. -/
theorem withoutSequences_headerLine {opener : Char} (h : diagnostic.fault.ShownAt opener)
    (horigin : ∀ name ∈ reporter.origin, '\x1b' ∉ name) :
    withoutSequences (render (reporter.headerLine diagnostic)) = reporter.header diagnostic := by
  have hfront : '\x1b' ∉ plainText (reporter.headerFront diagnostic) :=
    reporter.not_mem_headerFront horigin (by decide) (by decide) (by decide)
  have hlast : render [.plain (": ".toList ++ diagnostic.fault.message)] =
      ": ".toList ++ diagnostic.fault.message := List.append_nil _
  rw [← plainText_headerLine, headerLine_eq, render_append, plainText_append,
    withoutSequences_render_append hfront, hlast, withoutSequences_message h (by decide)]
  exact congrArg _ (List.append_nil _).symm

theorem newline_not_mem_headerLine {opener : Char} (h : diagnostic.fault.ShownAt opener)
    (hne : opener ≠ '\n') (horigin : ∀ name ∈ reporter.origin, '\n' ∉ name) :
    '\n' ∉ plainText (reporter.headerLine diagnostic) := by
  have hfront : '\n' ∉ plainText (reporter.headerFront diagnostic) :=
    reporter.not_mem_headerFront horigin (by decide) (by decide) (by decide)
  have hlast : plainText [.plain (": ".toList ++ diagnostic.fault.message)] =
      ": ".toList ++ diagnostic.fault.message := List.append_nil _
  rw [headerLine_eq, plainText_append, hlast, List.mem_append, List.mem_append, not_or, not_or]
  exact ⟨hfront, by decide, newline_not_mem_message h hne⟩

/-! ### The lines under the header -/

theorem newline_not_mem_sourceLine (h : '\n' ∉ snippet.text) :
    '\n' ∉ plainText (sourceLine snippet) := by
  rw [plainText_sourceLine, List.mem_append, not_or]
  exact ⟨not_mem_gutter (by decide), h⟩

theorem newline_not_mem_caretLine : '\n' ∉ plainText (caretLine diagnostic snippet) := by
  rw [plainText_caretLine, List.mem_append, not_or]
  constructor
  · intro hmem
    exact absurd (List.eq_of_mem_replicate hmem) (by decide)
  · rw [caretLabel]
    split <;> decide

theorem render_sourceLine :
    render (sourceLine snippet) = (Segment.dimmed (gutter snippet)).render ++ snippet.text :=
  congrArg ((Segment.dimmed (gutter snippet)).render ++ ·) (List.append_nil snippet.text)

theorem render_caretLine :
    render (caretLine diagnostic snippet) =
      List.replicate (byteLength (gutter snippet) + snippet.column) ' ' ++
        (Segment.coloured .red (caretLabel diagnostic snippet.number)).render :=
  congrArg (List.replicate (byteLength (gutter snippet) + snippet.column) ' ' ++ ·)
    (List.append_nil _)

theorem splitOn_text {opener : Char}
    (hfound : snippet? reporter.source diagnostic.span.start = some snippet)
    (hshown : diagnostic.fault.ShownAt opener) (hne : opener ≠ '\n')
    (horigin : ∀ name ∈ reporter.origin, '\n' ∉ name) (hline : '\n' ∉ snippet.text) :
    (reporter.text diagnostic).splitOn '\n' =
      [render (reporter.headerLine diagnostic), render (sourceLine snippet),
        render (caretLine diagnostic snippet), []] := by
  rw [text, reporter.lines_eq diagnostic hfound]
  apply splitOn_renderLine
  rw [List.forall_mem_cons, List.forall_mem_cons, List.forall_mem_singleton]
  exact ⟨reporter.newline_not_mem_headerLine hshown hne horigin, newline_not_mem_sourceLine hline,
    newline_not_mem_caretLine⟩

end Reporter

/-- **Reports are three lines that say where and what.** Whenever a scan hands a diagnostic to its
    reporter, and the name of the file, if there is one, has no line feed or escape character, three
    lines are printed. Without colours the first is what the diagnostic says of itself. The second has
    the line of the source on which the fault starts, with its number, and behind the column there
    stands the character that is meant. The label on the third tells strings that go on over the
    end of their line from all other faults. -/
theorem report_reads (recorded : Recorded) (diagnostic : Diagnostic)
    (hfound : diagnostic ∈ (tokenize recorded.reporter.source).diagnostics)
    (horigin : ∀ name ∈ recorded.reporter.origin, '\n' ∉ name ∧ '\x1b' ∉ name) :
    ∃ snippet header indent label printed,
      standardError .quiet (recorded.report diagnostic).events =
        standardError .quiet recorded.events ++ printed ∧
      recorded.reporter.Prints diagnostic snippet header indent label printed := by
  obtain ⟨number, left, opener, right, hsnippet, hline, hshown, hnumber⟩ := exists_snippet hfound
  have hne : opener ≠ '\n' := by
    rintro rfl
    exact hline (List.mem_append_right _ List.mem_cons_self)
  refine ⟨_, _, _, _, _, writes_report.errors recorded diagnostic, {
    found := hsnippet
    lines := by
      rw [recorded.reporter.splitOn_text hsnippet hshown hne (fun name hname => (horigin name hname).1)
        hline, Reporter.render_sourceLine, Reporter.render_caretLine]
      rfl
    header := recorded.reporter.withoutSequences_headerLine hshown
      (fun name hname => (horigin name hname).2)
    number := lineAt?_of_snippet? hsnippet
    line := (isAt_of_snippet? hsnippet).line
    mark := ⟨left, opener, right, splitAtByte?_append _ _, hshown⟩
    indent := fun c hc => List.eq_of_mem_replicate hc
    startsHere := fun hopen => if_neg fun heq => hnumber.1 heq hopen
    here := fun hclosed => if_pos (hnumber.2 hclosed) }⟩

theorem diagnostics_accent_quote :
    (tokenize ['é', '"', '\n']).diagnostics =
      [⟨1, ⟨0, 2⟩, .unexpectedCharacter 'é'⟩, ⟨2, ⟨2, 4⟩, .unterminatedString⟩] := by
  have hpieces : pieces ['é', '"', '\n'] =
      [.fault (.unexpectedCharacter 'é') ['é'], .fault .unterminatedString ['"', '\n']] := by
    rw [pieces_cons, show Piece.next 'é' ['"', '\n'] =
        (.fault (.unexpectedCharacter 'é') ['é'], ['"', '\n']) from rfl, pieces_cons,
      show Piece.next '"' ['\n'] = (.fault .unterminatedString ['"', '\n'], []) from rfl, pieces_nil]
  rw [tokenize_diagnostics, diagnosticsFrom, hpieces]
  rfl

/-- A string that goes on over the end of its line, in a file and after another report. -/
theorem report_reads_open_string :
    ⟨2, ⟨2, 4⟩, .unterminatedString⟩ ∈ (tokenize ['é', '"', '\n']).diagnostics ∧
      (∀ name ∈ some ['f'], '\n' ∉ name ∧ '\x1b' ∉ name) ∧
      Diagnostic.OpensOverLines ['é', '"', '\n'] ⟨2, ⟨2, 4⟩, .unterminatedString⟩ ∧
      ∃ snippet header indent label printed,
        standardError .quiet
            (Recorded.report ⟨⟨['é', '"', '\n'], some ['f'], 1⟩, []⟩
              ⟨2, ⟨2, 4⟩, .unterminatedString⟩).events = printed ∧
        Reporter.Prints ⟨['é', '"', '\n'], some ['f'], 1⟩ ⟨2, ⟨2, 4⟩, .unterminatedString⟩ snippet
          header indent label printed ∧
        label = "^--- String starts here.".toList := by
  have hfound : ⟨2, ⟨2, 4⟩, .unterminatedString⟩ ∈ (tokenize ['é', '"', '\n']).diagnostics := by
    rw [diagnostics_accent_quote]
    exact List.mem_cons_of_mem _ (List.mem_singleton_self _)
  have horigin : ∀ name ∈ some ['f'], '\n' ∉ name ∧ '\x1b' ∉ name := by
    intro name hname
    obtain rfl := Option.some.inj hname
    decide
  have hopen : Diagnostic.OpensOverLines ['é', '"', '\n'] ⟨2, ⟨2, 4⟩, .unterminatedString⟩ :=
    ⟨rfl, ['"', '\n'], rfl, by decide⟩
  obtain ⟨snippet, header, indent, label, printed, hprinted, hprints⟩ :=
    report_reads ⟨⟨['é', '"', '\n'], some ['f'], 1⟩, []⟩ ⟨2, ⟨2, 4⟩, .unterminatedString⟩ hfound
      horigin
  exact ⟨hfound, horigin, hopen, snippet, header, indent, label, printed, hprinted, hprints,
    hprints.startsHere hopen⟩

end ScriptLexer
