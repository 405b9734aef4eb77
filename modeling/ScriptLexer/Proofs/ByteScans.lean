import ScriptLexer.Proofs.ByteSteps
import ScriptLexer.Proofs.LineNumbers

set_option autoImplicit false

/-! # What a scan of bytes comes to

A scan of the bytes of a source comes by scanners that stand at the ends of pieces
(`Scanner.Reached.eq_ofProgress`). Main statements: it never breaks off, each step goes on to a later
boundary of the source, and every byte is accounted for (`tokenize_lossless`); its line counter is
always at the line of the cursor, so that tokens and diagnostics are on the lines on which they end
(`line_tokenize`). -/

namespace ScriptLexer

/-! ## Where the cursor comes by -/

namespace Scanner

section Reached

variable {σ : Type} {report : σ → Diagnostic → σ} {receiver : σ} {source before rest : Text}
  {progress : Progress σ} {scanner : Scanner σ}

theorem current_of_position (hposition : progress.position = Position.start.advance before)
    (start : Nat) : (ofProgress start progress).current = byteLength before := by
  rw [ofProgress, hposition]
  exact Nat.zero_add _

/-- As long as a scan is not at its end, something is left. -/
theorem exists_rest (hsource : source = before ++ rest)
    (hposition : progress.position = Position.start.advance before) {start : Nat}
    (more : (ofProgress start progress).isAtEnd source = false) : ∃ c later, rest = c :: later := by
  have hfaces : progress.Faces source [] rest :=
    ⟨before, hsource, current_of_position hposition start⟩
  rw [← Bool.not_eq_true, isAtEnd_ofProgress hfaces] at more
  exact List.exists_cons_of_ne_nil more

/-- A step from the end of a text goes on to the end of a longer one. -/
theorem exists_step {c : Char} (hsource : source = before ++ c :: rest)
    (hposition : progress.position = Position.start.advance before) (start : Nat) :
    ∃ text later next, source = before ++ text ++ later ∧ text ≠ [] ∧
      next.position = Position.start.advance (before ++ text) ∧
      (ofProgress start progress).step report source =
        .ok (ofProgress progress.position.offset next) := by
  have hfaces : progress.Faces source [] (c :: rest) :=
    ⟨before, hsource, current_of_position hposition start⟩
  have hpiece := Piece.text_append_next c rest
  refine ⟨(Piece.next c rest).1.text, (Piece.next c rest).2,
    progress.step report (Piece.next c rest).1, ?_, Piece.text_next_ne_nil c rest, ?_,
    step_ofProgress report hfaces start⟩
  · rw [hsource, List.append_assoc, hpiece]
  · rw [step_eq, hposition, Position.advance_append]

/-- Between its steps a scan of bytes stands at the end of a text, with the line of that place. -/
theorem Reached.eq_ofProgress (h : scanner.Reached report source receiver) :
    ∃ before rest start progress, source = before ++ rest ∧
      progress.position = Position.start.advance before ∧
      scanner = ofProgress start progress := by
  induction h with
  | initial => exact ⟨[], source, 0, ⟨.start, [], 0, receiver⟩, rfl, rfl, rfl⟩
  | step earlier more taken ih =>
    obtain ⟨before, rest, start, progress, hsource, hposition, rfl⟩ := ih
    obtain ⟨c, rest, rfl⟩ := exists_rest hsource hposition more
    obtain ⟨text, later, next, hlater, -, hnext, hstep⟩ := exists_step hsource hposition start
    rw [hstep] at taken
    exact ⟨before ++ text, later, _, next, hlater, hnext, (Except.ok.inj taken).symm⟩

/-- A scan that is not at its end takes a step, which ends at a later boundary. -/
theorem Reached.exists_boundary (h : scanner.Reached report source receiver)
    (more : scanner.isAtEnd source = false) :
    ∃ next, scanner.step report source = .ok next ∧ scanner.current < next.current ∧
      next.current ≤ byteLength source ∧ IsBoundary source next.current := by
  obtain ⟨before, rest, start, progress, hsource, hposition, rfl⟩ := h.eq_ofProgress
  obtain ⟨c, rest, rfl⟩ := exists_rest hsource hposition more
  obtain ⟨text, later, next, hlater, hne, hnext, hstep⟩ := exists_step hsource hposition start
  refine ⟨_, hstep, ?_, ?_, before ++ text, later, hlater, ?_⟩
  · rw [current_of_position hposition, current_of_position hnext, byteLength_append]
    exact Nat.lt_add_of_pos_right (byteLength_pos hne)
  · rw [current_of_position hnext, hlater, byteLength_append (before ++ text)]
    exact Nat.le_add_right _ _
  · rw [current_of_position hnext]

/-- The counter is at the line of the cursor. -/
theorem Reached.lineAt?_current (h : scanner.Reached report source receiver) :
    lineAt? source scanner.current = some scanner.line := by
  obtain ⟨before, rest, start, progress, rfl, hposition, rfl⟩ := h.eq_ofProgress
  have hline := lineAt?_append before rest
  simpa [ofProgress, hposition, Position.advance, Position.start] using hline

end Reached

end Scanner

/-! ## Main statements -/

section Source

variable (source : Text)

/-- **Nothing is lost.** Whoever receives the diagnostics, a scan of the bytes of a source never breaks
    off: where it is not at its end, the next step succeeds and goes on to a later boundary of the
    source. In the end every byte of the source is accounted for. -/
theorem tokenize_lossless :
    (∀ {σ : Type} (report : σ → Diagnostic → σ) (receiver : σ) (scanner : Scanner σ),
      scanner.Reached report source receiver → scanner.isAtEnd source = false →
        ∃ next, scanner.step report source = .ok next ∧ scanner.current < next.current ∧
          next.current ≤ byteLength source ∧ IsBoundary source next.current) ∧
      (∀ {σ : Type} (report : σ → Diagnostic → σ) (receiver : σ),
        scanBytes report receiver source = .ok (scanInto report receiver source)) ∧
      tokenizeBytes source = .ok (tokenize source) ∧ Lossless source (tokenize source) := by
  refine ⟨?_, ?_, tokenizeBytes_eq source, lossless_tokenize source⟩
  · intro σ report receiver scanner hreached more
    exact hreached.exists_boundary more
  · intro σ report receiver
    exact scanBytes_eq report receiver source

/-- **Lines are counted by their ends.** The counter of a scan of bytes, which is raised at two places
    only, is always at the line of the cursor. So the number of a token or of a diagnostic is one more
    than the line feeds before its end, those inside it included; the token at the end counts all of
    them, and numbers never decrease. -/
theorem line_tokenize :
    (∀ {σ : Type} (report : σ → Diagnostic → σ) (receiver : σ) (scanner : Scanner σ),
      scanner.Reached report source receiver →
        lineAt? source scanner.current = some scanner.line) ∧
      tokenizeBytes source = .ok (tokenize source) ∧
      (∀ token ∈ (tokenize source).tokens, token.span.EndsOnLine source token.line) ∧
      (∀ diagnostic ∈ (tokenize source).diagnostics,
        diagnostic.span.EndsOnLine source diagnostic.line) ∧
      (∃ last, (tokenize source).tokens.getLast? = some last ∧ last.kind = .endOfInput ∧
        last.line = 1 + newlines source) ∧
      ((tokenize source).tokens.Pairwise fun a b => a.line ≤ b.line) ∧
      (tokenize source).diagnostics.Pairwise fun a b => a.line ≤ b.line := by
  refine ⟨?_, tokenizeBytes_eq source, ?_, ?_, ?_, pairwise_line_tokens source,
    pairwise_line_diagnostics source⟩
  · intro σ report receiver scanner hreached
    exact hreached.lineAt?_current
  · intro token htoken
    exact endsOnLine_token source htoken
  · intro diagnostic hdiagnostic
    exact endsOnLine_diagnostic source hdiagnostic
  · refine ⟨endToken source, getLast?_tokenize source, rfl, ?_⟩
    rw [endToken_eq]

end Source

end ScriptLexer
