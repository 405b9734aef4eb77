import ScriptLexer.Proofs.Placement

set_option autoImplicit false

/-! # Scanning tokens again

The lexemes of a source, written one after another with a blank between them, are scanned as the same
tokens: a blank ends every token, whatever came after it in the source (`endsBefore_space`), so tokens
and blanks in turn are laid out in the one way in which they are found again (`wellPlaced_spaced`).
Comments, line ends and what was at fault are gone, and writing the tokens once more changes nothing.
Main statement: `tokenize_canonical`. -/

namespace ScriptLexer

/-! ## Tokens and blanks in turn -/

/-- The piece of a token. -/
def Piece.ofWord (word : Kind × Text) : Piece :=
  .token word.1 word.2

/-- The pieces of tokens with a blank between neighbours. -/
def spaced (words : List (Kind × Text)) : List Piece :=
  (words.map Piece.ofWord).intersperse (.separator ' ')

/-- The texts of tokens with a blank between neighbours. -/
def spacedText (words : List (Kind × Text)) : Text :=
  [' '].intercalate (words.map Prod.snd)

/-- The lexemes of a source with a blank between neighbours. -/
def canonical (source : Text) : Text :=
  [' '].intercalate ((tokenize source).proper.map Token.lexeme)

/-- A token ends before a blank. -/
theorem endsBefore_space {c : Char} (h : IsSpace c) (kind : Kind) (lexeme rest : Text) :
    (Piece.token kind lexeme).EndsBefore (c :: rest) := by
  have hother : c ≠ '/' ∧ c ≠ '=' ∧ c ≠ '.' := by
    rcases h with rfl | rfl | rfl | rfl <;> decide
  have hname : ∀ d ∈ (c :: rest).head?, ¬ (IsLetter d ∨ IsDigit d) := by
    rintro d ⟨⟩ hd
    exact (Piece.unnamed_of_wordChar hd).1 h
  cases kind with
  | symbol s => exact ⟨fun _ => by simp [hother.1], fun _ => by simp [hother.2.1]⟩
  | number value =>
    refine ⟨fun d hd hdigit => hname d hd (.inr hdigit), ?_⟩
    intro _ d more hrest
    exact absurd (List.cons.inj hrest).1 hother.2.2
  | identifier => exact hname
  | keyword k => exact hname
  | string value => trivial
  | endOfInput => trivial

variable {words : List (Kind × Text)}

theorem flatMap_text_spaced (words : List (Kind × Text)) :
    (spaced words).flatMap Piece.text = spacedText words := by
  induction words with
  | nil => rfl
  | cons word later ih =>
    cases later with
    | nil => rfl
    | cons second later =>
      have hlater : (spaced (second :: later)).flatMap Piece.text =
          [' '].intercalate (second.2 :: later.map Prod.snd) := ih
      simp only [spaced, spacedText, List.map_cons, List.intersperse_cons_cons, List.flatMap_cons,
        List.intercalate_cons_cons, ← hlater, List.append_assoc]
      rfl

/-- Tokens with blanks between them end where they should. -/
theorem wellPlaced_spaced (h : ∀ word ∈ words, (Piece.ofWord word).WellFormed) :
    WellPlaced (spaced words) := by
  induction words with
  | nil => trivial
  | cons word later ih =>
    obtain ⟨hword, hlater⟩ := List.forall_mem_cons.1 h
    cases later with
    | nil => exact ⟨hword, hword.endsBefore_nil, trivial⟩
    | cons second later =>
      have hblank : (Piece.separator ' ').WellFormed := .lexical (.separator (by decide))
      exact ⟨hword, endsBefore_space (by decide) _ _ _, hblank, trivial, ih hlater⟩

/-- A separator that a view does not show can be left out. -/
theorem filterMap_intersperse {α β : Type} {view : α → Option β} {separator : α}
    (h : view separator = none) (xs : List α) :
    (xs.intersperse separator).filterMap view = xs.filterMap view := by
  induction xs with
  | nil => rfl
  | cons x later ih =>
    cases later with
    | nil => rfl
    | cons y later =>
      rw [List.intersperse_cons_cons, List.filterMap_cons, List.filterMap_cons_none h, ih,
        ← List.filterMap_cons]

theorem words_spaced (words : List (Kind × Text)) :
    (spaced words).filterMap Piece.word? = words := by
  rw [spaced, filterMap_intersperse rfl, List.filterMap_map]
  exact List.filterMap_some

theorem faults_spaced (words : List (Kind × Text)) :
    (spaced words).filterMap Piece.fault? = [] := by
  rw [spaced, filterMap_intersperse rfl, List.filterMap_map]
  exact List.filterMap_eq_nil_iff.2 fun _ _ => rfl

/-! ## The tokens of a source -/

theorem pieces_spacedText (h : ∀ word ∈ words, (Piece.ofWord word).WellFormed) :
    pieces (spacedText words) = spaced words := by
  rw [← flatMap_text_spaced, pieces_flatMap_text (wellPlaced_spaced h)]

theorem wellFormed_ofWord {source : Text} :
    ∀ word ∈ (tokenize source).proper.map Token.word, (Piece.ofWord word).WellFormed := by
  intro word hword
  rw [words_tokenize] at hword
  obtain ⟨piece, hpiece, hpieceWord⟩ := List.mem_filterMap.1 hword
  have hwell := (wellPlaced_pieces source).wellFormed piece hpiece
  cases piece with
  | token kind lexeme =>
    cases hpieceWord
    exact hwell
  | _ => cases hpieceWord

theorem canonical_eq (source : Text) :
    canonical source = spacedText ((tokenize source).proper.map Token.word) := by
  rw [canonical, spacedText, List.map_map]
  rfl

theorem pieces_canonical (source : Text) :
    pieces (canonical source) = spaced ((tokenize source).proper.map Token.word) := by
  rw [canonical_eq, pieces_spacedText wellFormed_ofWord]

theorem words_canonical (source : Text) :
    (tokenize (canonical source)).proper.map Token.word =
      (tokenize source).proper.map Token.word := by
  rw [words_tokenize (canonical source), pieces_canonical, words_spaced]

theorem diagnostics_canonical (source : Text) : (tokenize (canonical source)).diagnostics = [] := by
  have hfaults : (tokenize (canonical source)).diagnostics.map Diagnostic.fault = [] := by
    rw [faults_tokenize, pieces_canonical, faults_spaced]
  exact List.map_eq_nil_iff.1 hfaults

/-- A well-formed token by itself is scanned as that token. -/
theorem tokenize_ofWord {kind : Kind} {lexeme : Text} (h : (Piece.token kind lexeme).WellFormed) :
    tokenize lexeme =
      { tokens := [⟨kind, lexeme, 1 + newlines lexeme, ⟨0, byteLength lexeme⟩⟩, endToken lexeme]
        diagnostics := [] } := by
  have hpieces : pieces lexeme = [.token kind lexeme] := by
    have happend := pieces_append h h.endsBefore_nil
    rwa [Piece.text, List.append_nil, pieces_nil] at happend
  have htokens : (tokenize lexeme).tokens =
      [⟨kind, lexeme, 1 + newlines lexeme, ⟨0, byteLength lexeme⟩⟩, endToken lexeme] := by
    rw [tokenize_tokens_eq_proper, proper_tokenize, placed, hpieces]
    simp [Placed.token?, Position.token, Position.span, Position.advance, Position.start]
  have hdiagnostics : (tokenize lexeme).diagnostics = [] := by
    rw [tokenize_diagnostics, diagnosticsFrom, hpieces]
    rfl
  rw [← htokens, ← hdiagnostics]

/-- **Tokens are found again.** Written with a blank between neighbours, the tokens of a source are
    scanned without a fault and as what they were, however much of the source was at fault, and to
    write them once more changes nothing. A lexeme by itself is scanned as its token. -/
theorem tokenize_canonical (source : Text) :
    (tokenize (canonical source)).diagnostics = [] ∧
      (tokenize (canonical source)).proper.map Token.word =
        (tokenize source).proper.map Token.word ∧
      canonical (canonical source) = canonical source ∧
      ∀ token ∈ (tokenize source).proper,
        tokenize token.lexeme =
          { tokens := [⟨token.kind, token.lexeme, 1 + newlines token.lexeme,
              ⟨0, byteLength token.lexeme⟩⟩, endToken token.lexeme]
            diagnostics := [] } := by
  refine ⟨diagnostics_canonical source, words_canonical source, ?_, ?_⟩
  · rw [canonical_eq (canonical source), words_canonical, ← canonical_eq]
  · intro token htoken
    have hwell := wellFormed_ofWord token.word (List.mem_map_of_mem htoken)
    exact tokenize_ofWord hwell

theorem proper_word_at_quote :
    (tokenize ['x', '=', '=', '@', '"']).proper =
      [⟨.identifier, ['x'], 1, ⟨0, 1⟩⟩, ⟨.symbol .equalEqual, ['=', '='], 1, ⟨1, 3⟩⟩] := by
  have hpieces : pieces ['x', '=', '=', '@', '"'] = [.token .identifier ['x'],
      .token (.symbol .equalEqual) ['=', '='], .fault (.unexpectedCharacter '@') ['@'],
      .fault .unterminatedString ['"']] := by
    rw [pieces_cons, show Piece.next 'x' ['=', '=', '@', '"'] =
        (.token .identifier ['x'], ['=', '=', '@', '"']) from rfl,
      pieces_cons, show Piece.next '=' ['=', '@', '"'] =
        (.token (.symbol .equalEqual) ['=', '='], ['@', '"']) from rfl,
      pieces_cons, show Piece.next '@' ['"'] =
        (.fault (.unexpectedCharacter '@') ['@'], ['"']) from rfl,
      pieces_cons, show Piece.next '"' [] = (.fault .unterminatedString ['"'], []) from rfl,
      pieces_nil]
  rw [proper_tokenize, placed, hpieces]
  rfl

/-- Of a source that ends in faults a word and an operator are left. -/
theorem tokenize_canonical_faulty :
    canonical ['x', '=', '=', '@', '"'] = ['x', ' ', '=', '='] ∧
      (tokenize ['x', ' ', '=', '=']).diagnostics = [] ∧
      (tokenize ['x', ' ', '=', '=']).proper.map Token.word =
        [(.identifier, ['x']), (.symbol .equalEqual, ['=', '='])] ∧
      canonical ['x', ' ', '=', '='] = ['x', ' ', '=', '='] ∧
      tokenize ['=', '='] =
        ⟨[⟨.symbol .equalEqual, ['=', '='], 1, ⟨0, 2⟩⟩, endToken ['=', '=']], []⟩ := by
  have hcanonical : canonical ['x', '=', '=', '@', '"'] = ['x', ' ', '=', '='] := by
    rw [canonical, proper_word_at_quote]
    rfl
  obtain ⟨hdiagnostics, hwords, hagain, hsingle⟩ := tokenize_canonical ['x', '=', '=', '@', '"']
  rw [hcanonical] at hdiagnostics hwords hagain
  rw [proper_word_at_quote] at hwords hsingle
  have hequal := hsingle _ (List.mem_cons_of_mem _ List.mem_cons_self)
  exact ⟨hcanonical, hdiagnostics, hwords, hagain, hequal⟩

end ScriptLexer
