import ScriptLexer.Proofs.Placement
import ScriptLexer.Recorded

set_option autoImplicit false

/-! # Who receives the diagnostics

A scan hands each diagnostic over at the moment it is found. The receiver may be a list that grows, a
reporter that prints, or nobody at all, and the scan never looks at it: one step of it reads and
writes the rest of its progress in the same way for every receiver (`step_eq`). So the tokens, the
counts and the log record of a scan are those of `tokenize`, and the receiver ends up as if it had
been given the diagnostics of `tokenize` afterwards, one by one.
Main statement: `scanInto_any_receiver`. -/

namespace ScriptLexer

/-! ## Any receiver -/

section AnyReceiver

variable {σ : Type} (report : σ → Diagnostic → σ) (receiver : σ) (source : Text)

theorem scanInto_tokens_eq :
    (scanInto report receiver source).tokens = (tokenize source).tokens := by
  rw [scanInto_tokens, tokenize, scanInto_tokens]

theorem scanInto_receiver_eq :
    (scanInto report receiver source).receiver =
      (tokenize source).diagnostics.foldl report receiver := by
  rw [scanInto_receiver, tokenize_diagnostics]
  rfl

theorem scanInto_reported_eq :
    (scanInto report receiver source).reported = (tokenize source).diagnostics.length := by
  rw [scanInto_reported, tokenize_diagnostics]
  rfl

theorem completeRecord_scanInto :
    (scanInto report receiver source).completeRecord =
      completeRecord (tokenize source).tokens.length (tokenize source).diagnostics.length
        (endToken source).line := by
  rw [Finished.completeRecord, scanInto_tokens_eq, scanInto_reported_eq, scanInto_lines]

end AnyReceiver

/-! ## Reporters -/

/-- A way of reporting that counts every diagnostic once, whatever else happens. -/
def Counts (report : Recorded → Diagnostic → Recorded) : Prop :=
  ∀ recorded diagnostic, (report recorded diagnostic).reporter = recorded.reporter.count

theorem counts_report : Counts Recorded.report := fun _ _ => rfl

theorem counts_reportFound : Counts Recorded.reportFound := fun _ _ => rfl

namespace Counts

variable {report : Recorded → Diagnostic → Recorded}

/-- Reporting changes nothing about a reporter but its count. -/
theorem reporter_foldl (h : Counts report) (diagnostics : List Diagnostic) (recorded : Recorded) :
    (diagnostics.foldl report recorded).reporter =
      { recorded.reporter with errors := recorded.reporter.errors + diagnostics.length } := by
  induction diagnostics generalizing recorded with
  | nil => rfl
  | cons diagnostic later ih =>
    rw [List.foldl_cons, ih, h, Reporter.count, List.length_cons, Nat.add_assoc, Nat.add_comm 1]

theorem hadError_foldl (h : Counts report) (diagnostics : List Diagnostic) (source : Text)
    (origin : Option Text) :
    (diagnostics.foldl report (.start (.new source origin))).reporter.hadError =
      !diagnostics.isEmpty := by
  rw [h.reporter_foldl]
  cases diagnostics with
  | nil => rfl
  | cons diagnostic later =>
    exact decide_eq_true (Nat.lt_add_left _ (Nat.succ_pos later.length))

end Counts

/-- **Receivers make no difference.** Whoever receives the diagnostics of a scan, its tokens are the
    same, each diagnostic is handed over once and in order, and the record at the end gives their
    number and the line of the end. So a list collects them, a scan without a receiver finds the same
    tokens, and a reporter counts as many errors as there are diagnostics. -/
theorem scanInto_any_receiver (source : Text) :
    ∃ last, (tokenize source).tokens.getLast? = some last ∧ last.kind = .endOfInput ∧
      (∀ {σ : Type} (report : σ → Diagnostic → σ) (receiver : σ),
        let finished := scanInto report receiver source
        finished.tokens = (tokenize source).tokens ∧
          finished.receiver = (tokenize source).diagnostics.foldl report receiver ∧
          finished.reported = (tokenize source).diagnostics.length ∧
          finished.lines = last.line ∧
          finished.completeRecord = completeRecord (tokenize source).tokens.length
            (tokenize source).diagnostics.length last.line) ∧
      (∀ found : List Diagnostic,
        (scanInto (fun found diagnostic => found ++ [diagnostic]) found source).receiver =
          found ++ (tokenize source).diagnostics) ∧
      tokensOf source = (tokenize source).tokens ∧
      ∀ recorded : Recorded,
        let finished := scanInto Recorded.reportFound recorded source
        finished.tokens = (tokenize source).tokens ∧
          finished.receiver.reporter.errors =
            recorded.reporter.errors + (tokenize source).diagnostics.length := by
  refine ⟨endToken source, getLast?_tokenize source, rfl, ?_, ?_, ?_, ?_⟩
  · intro σ report receiver
    exact ⟨scanInto_tokens_eq report receiver source, scanInto_receiver_eq report receiver source,
      scanInto_reported_eq report receiver source, scanInto_lines report receiver source,
      completeRecord_scanInto report receiver source⟩
  · intro found
    rw [scanInto_receiver_eq, foldl_collect]
  · exact scanInto_tokens_eq _ () source
  · intro recorded
    refine ⟨scanInto_tokens_eq _ recorded source, ?_⟩
    rw [scanInto_receiver_eq, counts_reportFound.reporter_foldl]

end ScriptLexer
