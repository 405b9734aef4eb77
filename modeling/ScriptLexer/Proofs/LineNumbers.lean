import ScriptLexer.Proofs.Tiling

set_option autoImplicit false

/-! # Line numbers

A scan counts lines as it goes on, and a token or a diagnostic keeps the number that is reached at its
end. So its number says how many line feeds stand before its end, wherever they stand: between
tokens, after comments, or inside strings, be they closed or not. A later item never has a smaller
number. What a scan gives without its bytes is read off the pieces and their lines alone
(`tokens_onLine`, `diagnostics_onLine`). Main statements: `endsOnLine_token`, `endsOnLine_diagnostic`. -/

namespace ScriptLexer

/-! ## The line of an offset -/

/-- The number of the line on which a byte offset lies, one more than the line feeds before it. There
    is none past the end of the text or inside a character. -/
def lineAt? (source : Text) (offset : Nat) : Option Nat :=
  (splitAtByte? source offset).map fun parts => 1 + newlines parts.1

theorem lineAt?_append (before after : Text) :
    lineAt? (before ++ after) (byteLength before) = some (1 + newlines before) := by
  rw [lineAt?, splitAtByte?_append, Option.map_some]

/-- Whether a line number is that of the end of a span. Then it counts the line feeds before the
    span, and each one inside it. -/
structure Span.EndsOnLine (source : Text) (span : Span) (line : Nat) : Prop where
  stop : lineAt? source span.stop = some line
  inside : ∃ text, span.cut? source = some text ∧
    (lineAt? source span.start).map (· + newlines text) = some line

/-! ## The lines of pieces -/

/-- The place after a piece. -/
def Placed.after (item : Placed) : Position :=
  item.position.advance item.piece.text

theorem endsOnLine_span (before text after : Text) :
    ((Position.start.advance before).span text).EndsOnLine (before ++ (text ++ after))
      ((Position.start.advance before).advance text).line where
  stop := by
    have hstop := lineAt?_append (before ++ text) after
    rw [List.append_assoc] at hstop
    simpa [Position.span, Position.advance, Position.start, Nat.add_assoc] using hstop
  inside := by
    refine ⟨text, cut?_span before text after, ?_⟩
    have hstart := lineAt?_append before (text ++ after)
    simp [Position.span, Position.advance, Position.start, hstart]

theorem Placed.endsOnLine {source : Text} {item : Placed} (h : item ∈ placed source) :
    (item.position.span item.piece.text).EndsOnLine source item.after.line := by
  obtain ⟨before, after, rfl, hposition, -⟩ := exists_of_mem_placed h
  rw [Placed.after, hposition]
  exact endsOnLine_span before item.piece.text after

theorem line_le_advance (position : Position) (text : Text) :
    position.line ≤ (position.advance text).line :=
  Nat.le_add_right _ _

/-- Lines never decrease along pieces. -/
theorem line_le_of_mem_placedFrom {position : Position} {ps : List Piece} {item : Placed}
    (h : item ∈ placedFrom position ps) : position.line ≤ item.after.line := by
  obtain ⟨done, later, -, hposition⟩ := mem_placedFrom h
  rw [Placed.after, hposition, ← Position.advance_append]
  exact line_le_advance _ _

theorem pairwise_line_placedFrom (position : Position) (ps : List Piece) :
    (placedFrom position ps).Pairwise fun a b => a.after.line ≤ b.after.line := by
  induction ps generalizing position with
  | nil => exact .nil
  | cons piece later ih =>
    rw [placedFrom_cons, List.pairwise_cons]
    exact ⟨fun item hitem => line_le_of_mem_placedFrom hitem, ih _⟩

/-! ## The lines of tokens and diagnostics -/

theorem Placed.of_token? {item : Placed} {token : Token} (h : item.token? = some token) :
    token.span = item.position.span item.piece.text ∧ token.line = item.after.line := by
  obtain ⟨position, piece⟩ := item
  cases piece with
  | token kind lexeme =>
    cases h
    exact ⟨rfl, rfl⟩
  | _ => cases h

theorem Placed.of_diagnostic? {item : Placed} {diagnostic : Diagnostic}
    (h : item.diagnostic? = some diagnostic) :
    diagnostic.span = item.position.span item.piece.text ∧
      diagnostic.line = item.after.line := by
  obtain ⟨position, piece⟩ := item
  cases piece with
  | fault fault text =>
    cases h
    exact ⟨rfl, rfl⟩
  | _ => cases h

section Source

variable (source : Text)

theorem endsOnLine_endToken : (endToken source).span.EndsOnLine source (endToken source).line := by
  have h := endsOnLine_span source [] []
  rw [List.append_nil, List.append_nil] at h
  exact h

theorem endsOnLine_token {token : Token} (h : token ∈ (tokenize source).tokens) :
    token.span.EndsOnLine source token.line := by
  rw [tokenize_tokens_eq_proper, proper_tokenize] at h
  rcases List.mem_append.1 h with h | h
  · obtain ⟨item, hitem, htoken⟩ := List.mem_filterMap.1 h
    obtain ⟨hspan, hline⟩ := Placed.of_token? htoken
    rw [hspan, hline]
    exact Placed.endsOnLine hitem
  · rw [List.mem_singleton.1 h]
    exact endsOnLine_endToken source

theorem endsOnLine_diagnostic {diagnostic : Diagnostic}
    (h : diagnostic ∈ (tokenize source).diagnostics) :
    diagnostic.span.EndsOnLine source diagnostic.line := by
  rw [tokenize_diagnostics] at h
  obtain ⟨item, hitem, hdiagnostic⟩ := List.mem_filterMap.1 h
  obtain ⟨hspan, hline⟩ := Placed.of_diagnostic? hdiagnostic
  rw [hspan, hline]
  exact Placed.endsOnLine hitem

/-- No line of a source is after its last. -/
theorem lineAt?_le {offset line : Nat} (h : lineAt? source offset = some line) :
    line ≤ 1 + newlines source := by
  obtain ⟨⟨before, after⟩, hsplit, rfl⟩ := Option.map_eq_some_iff.1 h
  obtain ⟨rfl, -⟩ := splitAtByte?_eq_some hsplit
  rw [newlines_append]
  exact Nat.add_le_add_left (Nat.le_add_right _ _) 1

theorem pairwise_line_tokens :
    (tokenize source).tokens.Pairwise fun a b => a.line ≤ b.line := by
  rw [tokenize_tokens_eq_proper, List.pairwise_append]
  refine ⟨?_, List.pairwise_singleton _ _, ?_⟩
  · rw [proper_tokenize]
    refine (pairwise_line_placedFrom .start (pieces source)).filterMap _ ?_
    intro a b hab token htoken token' htoken'
    rw [(Placed.of_token? htoken).2, (Placed.of_token? htoken').2]
    exact hab
  · intro token htoken last hlast
    have hmem : token ∈ (tokenize source).tokens := (List.mem_filter.1 htoken).1
    have hline := lineAt?_le source (endsOnLine_token source hmem).stop
    rw [List.mem_singleton.1 hlast, endToken_eq]
    exact hline

theorem pairwise_line_diagnostics :
    (tokenize source).diagnostics.Pairwise fun a b => a.line ≤ b.line := by
  rw [tokenize_diagnostics]
  refine (pairwise_line_placedFrom .start (pieces source)).filterMap _ ?_
  intro a b hab diagnostic hdiagnostic diagnostic' hdiagnostic'
  rw [(Placed.of_diagnostic? hdiagnostic).2, (Placed.of_diagnostic? hdiagnostic').2]
  exact hab

end Source

/-! ## Lines without offsets -/

/-- A token without the bytes that it covers: its kind, its lexeme and its line. -/
def Token.onLine (token : Token) : (Kind × Text) × Nat :=
  (token.word, token.line)

/-- A diagnostic without the bytes that it covers: what is wrong, and the line. -/
def Diagnostic.onLine (diagnostic : Diagnostic) : Fault × Nat :=
  (diagnostic.fault, diagnostic.line)

/-- What a view shows of pieces, each time with the line on which the piece ends. The first piece
    starts on the given line. -/
def onLines {α : Type} (view : Piece → Option α) : Nat → List Piece → List (α × Nat)
  | _, [] => []
  | line, piece :: later =>
    let last := line + newlines piece.text
    ((view piece).map (·, last)).toList ++ onLines view last later

section OnLines

variable {α β : Type} {view : Piece → Option α} {line : Nat} {piece : Piece} {later : List Piece}

@[simp]
theorem onLines_nil (view : Piece → Option α) (line : Nat) : onLines view line [] = [] := rfl

theorem onLines_cons (view : Piece → Option α) (line : Nat) (piece : Piece) (later : List Piece) :
    onLines view line (piece :: later) =
      ((view piece).map (·, line + newlines piece.text)).toList ++
        onLines view (line + newlines piece.text) later := rfl

/-- A piece on one line of which nothing is shown makes no difference. -/
theorem onLines_cons_of_none (hview : view piece = none) (hline : newlines piece.text = 0) :
    onLines view line (piece :: later) = onLines view line later := by
  simp [onLines_cons, hview, hline]

theorem map_fst_onLines (view : Piece → Option α) (line : Nat) (ps : List Piece) :
    (onLines view line ps).map Prod.fst = ps.filterMap view := by
  induction ps generalizing line with
  | nil => rfl
  | cons piece later ih =>
    rw [onLines_cons, List.map_append, ih, List.filterMap_cons]
    cases view piece <;> rfl

/-- What is made of placed pieces depends on their lines only, if that is so for each of them. -/
theorem map_filterMap_placedFrom {item : Placed → Option β} {shown : β → α × Nat}
    (h : ∀ placed : Placed,
      (item placed).map shown = (view placed.piece).map (·, placed.after.line))
    (position : Position) (ps : List Piece) :
    ((placedFrom position ps).filterMap item).map shown = onLines view position.line ps := by
  induction ps generalizing position with
  | nil => rfl
  | cons piece later ih =>
    have hpiece := h ⟨position, piece⟩
    rw [onLines_cons, placedFrom_cons, List.filterMap_cons]
    cases hitem : item ⟨position, piece⟩ with
    | none =>
      rw [hitem, Option.map_none] at hpiece
      rw [Option.map_eq_none_iff.1 hpiece.symm]
      exact ih _
    | some made =>
      rw [hitem, Option.map_some] at hpiece
      obtain ⟨a, ha, hshown⟩ := Option.map_eq_some_iff.1 hpiece.symm
      simp only [List.map_cons, ih, ha, ← hshown]
      rfl

variable (source : Text)

theorem tokens_onLine :
    (tokenize source).tokens.map Token.onLine =
      onLines Piece.word? 1 (pieces source) ++ [((.endOfInput, []), 1 + newlines source)] := by
  have hview : ∀ placed : Placed, placed.token?.map Token.onLine =
      placed.piece.word?.map (·, placed.after.line) := by
    rintro ⟨position, piece⟩
    cases piece <;> rfl
  rw [tokenize_tokens_eq_proper, List.map_append, proper_tokenize, placed,
    map_filterMap_placedFrom hview, endToken_eq]
  rfl

theorem diagnostics_onLine :
    (tokenize source).diagnostics.map Diagnostic.onLine =
      onLines Piece.fault? 1 (pieces source) := by
  have hview : ∀ placed : Placed, placed.diagnostic?.map Diagnostic.onLine =
      placed.piece.fault?.map (·, placed.after.line) := by
    rintro ⟨position, piece⟩
    cases piece <;> rfl
  rw [tokenize_diagnostics, diagnosticsFrom, map_filterMap_placedFrom hview]
  rfl

end OnLines

end ScriptLexer
