import ScriptLexer.Proofs.Dimming
import ScriptLexer.Proofs.LineNumbers

set_option autoImplicit false

/-! # Sources without comments

A comment is followed by a line feed or by nothing, and neither can be part of the piece before it.
So when comments are taken out, every other piece still ends where it did
(`Piece.EndsBefore.dropComments`), and the pieces of what is left are those that are no comments, in
other places but on the same lines (`pieces_withoutComments`, `onLines_dropComments`).
Main statement: `tokenize_withoutComments`. -/

namespace ScriptLexer

/-! ## What the statement speaks of -/

/-- The pieces that are no comments. -/
def dropComments : List Piece → List Piece
  | [] => []
  | .comment _ :: later => dropComments later
  | piece :: later => piece :: dropComments later

/-- A source without its comments. The line feed behind a comment stays. -/
def withoutComments (source : Text) : Text :=
  textOf (dropComments (pieces source))

/-- Two slashes and what follows them up to before a line feed or the end. -/
def IsLineComment (body after : Text) : Prop :=
  ∃ inside, body = '/' :: '/' :: inside ∧ '\n' ∉ inside ∧ ∀ c ∈ after.head?, c = '\n'

/-! ## What is left ends where it did -/

section Pieces

variable {ps later : List Piece} {piece : Piece} {body : Text}

theorem Piece.WellFormed.newlines_comment (h : (Piece.comment body).WellFormed) :
    newlines body = 0 := by
  obtain ⟨inside, rfl, hinside⟩ := h.exists_comment
  apply newlines_of_not_mem
  simp [hinside]

theorem isComment_of_mem_dropComments (h : piece ∈ dropComments ps) : piece.isComment = false := by
  fun_induction dropComments ps with
  | case1 => cases h
  | case2 body later ih => exact ih h
  | case3 kept later hkept ih =>
    rcases List.mem_cons.1 h with rfl | h
    · cases piece with
      | comment body => exact absurd rfl (hkept body)
      | _ => rfl
    · exact ih h

/-- A text without its comments goes on as it did, up to the first of them. -/
theorem WellPlaced.sameUpToLineEnd (h : WellPlaced ps) :
    SameUpToLineEnd (textOf ps) (textOf (dropComments ps)) := by
  fun_induction dropComments ps with
  | case1 => exact .ends []
  | case2 body later ih =>
    cases later with
    | nil => exact .ends _
    | cons next later =>
      -- behind a comment a line feed comes first
      obtain rfl := h.newline_of_comment
      exact .newline _ (textOf (dropComments later))
  | case3 piece later hpiece ih => exact (ih h.2.2).append piece.text

/-- A piece ends before what follows it without comments, as it ended before all that followed. -/
theorem Piece.EndsBefore.dropComments (h : piece.EndsBefore (textOf later))
    (hlater : WellPlaced later) : piece.EndsBefore (textOf (dropComments later)) := by
  refine h.of_sameUpToLineEnd ?_ hlater.sameUpToLineEnd
  rintro ⟨body, rfl⟩
  obtain rfl : later = [] := hlater.eq_nil h
  rfl

theorem wellPlaced_dropComments (h : WellPlaced ps) : WellPlaced (dropComments ps) := by
  fun_induction dropComments ps with
  | case1 => trivial
  | case2 body later ih => exact ih h.2.2
  | case3 piece later hpiece ih =>
    obtain ⟨hwell, hend, hlater⟩ := h
    exact ⟨hwell, hend.dropComments hlater, ih hlater⟩

/-! ## Lines -/

/-- Comments are on one line, so what is left stays on its lines. -/
theorem onLines_dropComments {α : Type} {view : Piece → Option α}
    (hview : ∀ body, view (.comment body) = none) (h : WellPlaced ps) (line : Nat) :
    onLines view line (dropComments ps) = onLines view line ps := by
  fun_induction dropComments ps generalizing line with
  | case1 => rfl
  | case2 body later ih =>
    have hline : newlines (Piece.comment body).text = 0 := h.1.newlines_comment
    rw [ih h.2.2, onLines_cons_of_none (hview body) hline]
  | case3 piece later hpiece ih => rw [onLines_cons, onLines_cons, ih h.2.2]

theorem newlines_dropComments (h : WellPlaced ps) :
    newlines (textOf (dropComments ps)) = newlines (textOf ps) := by
  fun_induction dropComments ps with
  | case1 => rfl
  | case2 body later ih =>
    have hline : newlines (Piece.comment body).text = 0 := h.1.newlines_comment
    rw [textOf_cons, newlines_append, hline, Nat.zero_add, ih h.2.2]
  | case3 piece later hpiece ih =>
    rw [textOf_cons, textOf_cons, newlines_append, newlines_append, ih h.2.2]

end Pieces

/-! ## Sources -/

section Source

variable (source : Text)

/-- The pieces of a source without comments are its pieces without comments. -/
theorem pieces_withoutComments :
    pieces (withoutComments source) = dropComments (pieces source) :=
  pieces_flatMap_text (wellPlaced_dropComments (wellPlaced_pieces source))

theorem isLineComment_of_pieces {done later : List Piece} {body : Text}
    (h : pieces source = done ++ .comment body :: later) : IsLineComment body (textOf later) := by
  have hplaced : WellPlaced (done ++ .comment body :: later) := h ▸ wellPlaced_pieces source
  obtain ⟨hwell, hend, -⟩ := hplaced.of_append
  obtain ⟨inside, hbody, hinside⟩ := hwell.exists_comment
  exact ⟨inside, hbody, hinside, hend⟩

theorem newlines_withoutComments : newlines (withoutComments source) = newlines source := by
  rw [withoutComments, newlines_dropComments (wellPlaced_pieces source), textOf,
    flatMap_text_pieces]

/-- **Comments carry no meaning.** A comment takes two slashes and the rest of its line. With all of
    them taken out, a source has the same tokens and the same diagnostics on the same lines, and there
    is no comment in it. -/
theorem tokenize_withoutComments :
    (∀ done body later, pieces source = done ++ .comment body :: later →
      IsLineComment body (textOf later)) ∧
    (tokenize (withoutComments source)).tokens.map Token.onLine =
      (tokenize source).tokens.map Token.onLine ∧
    (tokenize (withoutComments source)).diagnostics.map Diagnostic.onLine =
      (tokenize source).diagnostics.map Diagnostic.onLine ∧
    ∀ piece ∈ pieces (withoutComments source), piece.isComment = false := by
  have hplaced := wellPlaced_pieces source
  refine ⟨fun done body later => isLineComment_of_pieces source, ?_, ?_, ?_⟩
  · rw [tokens_onLine, tokens_onLine, pieces_withoutComments, newlines_withoutComments,
      onLines_dropComments (fun _ => rfl) hplaced]
  · rw [diagnostics_onLine, diagnostics_onLine, pieces_withoutComments,
      onLines_dropComments (fun _ => rfl) hplaced]
  · intro piece hpiece
    rw [pieces_withoutComments] at hpiece
    exact isComment_of_mem_dropComments hpiece

end Source

/-- A quote in a comment goes with it, and two slashes in a string stay. -/
theorem tokenize_withoutComments_quotes :
    pieces ['a', '/', '/', '"', '\n', '"', '/', '/', '"'] =
        [.token .identifier ['a']] ++ .comment ['/', '/', '"'] ::
          [.separator '\n', .token (.string ['/', '/']) ['"', '/', '/', '"']] ∧
      IsLineComment ['/', '/', '"'] ['\n', '"', '/', '/', '"'] ∧
      withoutComments ['a', '/', '/', '"', '\n', '"', '/', '/', '"'] =
        ['a', '\n', '"', '/', '/', '"'] ∧
      (tokenize ['a', '\n', '"', '/', '/', '"']).tokens.map Token.onLine =
        [((.identifier, ['a']), 1), ((.string ['/', '/'], ['"', '/', '/', '"']), 2),
          ((.endOfInput, []), 2)] ∧
      (tokenize ['a', '\n', '"', '/', '/', '"']).diagnostics.map Diagnostic.onLine = [] := by
  have hpieces : pieces ['a', '/', '/', '"', '\n', '"', '/', '/', '"'] =
      [.token .identifier ['a']] ++ .comment ['/', '/', '"'] ::
        [.separator '\n', .token (.string ['/', '/']) ['"', '/', '/', '"']] := by
    rw [pieces_cons, show Piece.next 'a' ['/', '/', '"', '\n', '"', '/', '/', '"'] =
        (.token .identifier ['a'], ['/', '/', '"', '\n', '"', '/', '/', '"']) from rfl,
      pieces_cons, show Piece.next '/' ['/', '"', '\n', '"', '/', '/', '"'] =
        (.comment ['/', '/', '"'], ['\n', '"', '/', '/', '"']) from rfl,
      pieces_newline, pieces_cons, show Piece.next '"' ['/', '/', '"'] =
        (.token (.string ['/', '/']) ['"', '/', '/', '"'], []) from rfl, pieces_nil]
    rfl
  have hwithout : withoutComments ['a', '/', '/', '"', '\n', '"', '/', '/', '"'] =
      ['a', '\n', '"', '/', '/', '"'] := by
    rw [withoutComments, hpieces]
    rfl
  obtain ⟨hcomments, htokens, hdiagnostics, -⟩ :=
    tokenize_withoutComments ['a', '/', '/', '"', '\n', '"', '/', '/', '"']
  rw [hwithout] at htokens hdiagnostics
  refine ⟨hpieces, hcomments _ _ _ hpieces, hwithout, ?_, ?_⟩
  · rw [htokens, tokens_onLine, hpieces]
    rfl
  · rw [hdiagnostics, diagnostics_onLine, hpieces]
    rfl

end ScriptLexer
