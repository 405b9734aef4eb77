import ScriptLexer.Proofs.Placement

set_option autoImplicit false

/-! # A line feed parts a source

What comes before a line feed and what comes after it can be scanned apart: nothing but a string
goes on over the end of a line, so where a line feed or the end comes instead of what followed,
every other piece still ends as it did (`Piece.EndsBefore.of_sameUpToLineEnd`). The pieces after it
are those of a source of their own in other places, which only moves their tokens and diagnostics
(`tokensFrom_shift`, `diagnosticsFrom_shift`).
Main statement: `tokenize_newline`. -/

namespace ScriptLexer

/-! ## Moving to another place -/

def Position.shift (bytes lines : Nat) (position : Position) : Position :=
  ⟨position.offset + bytes, position.line + lines⟩

def Span.shift (bytes : Nat) (span : Span) : Span :=
  ⟨span.start + bytes, span.stop + bytes⟩

/-- A token so many bytes and lines further on. -/
def Token.shift (bytes lines : Nat) (token : Token) : Token :=
  { token with line := token.line + lines, span := token.span.shift bytes }

/-- A diagnostic so many bytes and lines further on. -/
def Diagnostic.shift (bytes lines : Nat) (diagnostic : Diagnostic) : Diagnostic :=
  { diagnostic with line := diagnostic.line + lines, span := diagnostic.span.shift bytes }

def Placed.shift (bytes lines : Nat) (placed : Placed) : Placed :=
  { placed with position := placed.position.shift bytes lines }

section Shift

variable (bytes lines : Nat) (position : Position)

theorem shift_advance (text : Text) :
    (position.shift bytes lines).advance text = (position.advance text).shift bytes lines := by
  rw [Position.shift, Position.advance, Position.advance, Position.shift, Position.mk.injEq]
  exact ⟨Nat.add_right_comm _ _ _, Nat.add_right_comm _ _ _⟩

theorem shift_token (kind : Kind) (lexeme : Text) :
    (position.shift bytes lines).token kind lexeme =
      (position.token kind lexeme).shift bytes lines := by
  rw [Position.token, Position.span, shift_advance]
  rfl

theorem shift_diagnostic (fault : Fault) (text : Text) :
    (position.shift bytes lines).diagnostic fault text =
      (position.diagnostic fault text).shift bytes lines := by
  rw [Position.diagnostic, Position.span, shift_advance]
  rfl

theorem token?_shift (placed : Placed) :
    (placed.shift bytes lines).token? = placed.token?.map (Token.shift bytes lines) := by
  obtain ⟨place, piece⟩ := placed
  cases piece with
  | token kind lexeme => exact congrArg some (shift_token bytes lines place kind lexeme)
  | _ => rfl

theorem diagnostic?_shift (placed : Placed) :
    (placed.shift bytes lines).diagnostic? =
      placed.diagnostic?.map (Diagnostic.shift bytes lines) := by
  obtain ⟨place, piece⟩ := placed
  cases piece with
  | fault fault text => exact congrArg some (shift_diagnostic bytes lines place fault text)
  | _ => rfl

theorem placedFrom_shift (ps : List Piece) :
    placedFrom (position.shift bytes lines) ps =
      (placedFrom position ps).map (Placed.shift bytes lines) := by
  induction ps generalizing position with
  | nil => rfl
  | cons piece later ih =>
    rw [placedFrom_cons, placedFrom_cons, List.map_cons, shift_advance, ih]
    rfl

/-- What moves with each placed piece moves with all of them. -/
theorem filterMap_placedFrom_shift {β : Type} {view : Placed → Option β} {move : β → β}
    (h : ∀ placed : Placed, view (placed.shift bytes lines) = (view placed).map move)
    (ps : List Piece) :
    (placedFrom (position.shift bytes lines) ps).filterMap view =
      ((placedFrom position ps).filterMap view).map move := by
  rw [placedFrom_shift, List.filterMap_map, List.map_filterMap]
  congr 1
  funext placed
  exact h placed

/-- The tokens of a source further on are its tokens, moved. -/
theorem tokensFrom_shift (source : Text) :
    tokensFrom (position.shift bytes lines) source =
      (tokensFrom position source).map (Token.shift bytes lines) := by
  rw [tokensFrom, tokensFrom, List.map_append, List.map_singleton, shift_advance, shift_token,
    filterMap_placedFrom_shift bytes lines position (token?_shift bytes lines)]

theorem diagnosticsFrom_shift (source : Text) :
    diagnosticsFrom (position.shift bytes lines) source =
      (diagnosticsFrom position source).map (Diagnostic.shift bytes lines) :=
  filterMap_placedFrom_shift bytes lines position (diagnostic?_shift bytes lines) (pieces source)

end Shift

/-! ## Pieces before a line feed -/

/-- The pieces that run on over a line feed: strings without a closing quote. -/
def Piece.IsOpen (piece : Piece) : Prop :=
  ∃ text, piece = fault .unterminatedString text

/-- Whether the second text goes on as the first does, up to a place where it ends or has a line
    feed. -/
inductive SameUpToLineEnd : Text → Text → Prop where
  | ends (text : Text) : SameUpToLineEnd text []
  | newline (text more : Text) : SameUpToLineEnd text ('\n' :: more)
  | cons {text other : Text} (c : Char) (h : SameUpToLineEnd text other) :
    SameUpToLineEnd (c :: text) (c :: other)

theorem SameUpToLineEnd.append {text other : Text} (h : SameUpToLineEnd text other)
    (front : Text) : SameUpToLineEnd (front ++ text) (front ++ other) := by
  induction front with
  | nil => exact h
  | cons c front ih => exact .cons c ih

/-- A piece ends before a text that goes on as the one before which it ends, up to a line feed. -/
theorem Piece.EndsBefore.of_sameUpToLineEnd {piece : Piece} {rest other : Text}
    (h : piece.EndsBefore rest) (hopen : piece.IsOpen → other = [])
    (hsame : SameUpToLineEnd rest other) : piece.EndsBefore other := by
  have hhead : ∀ p : Char → Prop, p '\n' → (∀ c ∈ rest.head?, p c) → ∀ c ∈ other.head?, p c := by
    intro p hp hrest
    cases hsame with
    | ends => simp
    | newline => simpa using hp
    | cons c => simpa using hrest
  have hne : ∀ c ≠ '\n', rest.head? ≠ some c → other.head? ≠ some c := by
    intro c hc hrest hother
    exact hhead (· ≠ c) hc.symm (fun d hd he => hrest (he ▸ hd)) c hother rfl
  cases piece with
  | separator c => trivial
  | comment text => exact hhead (· = '\n') rfl h
  | token kind lexeme =>
    cases kind with
    | symbol s =>
      exact ⟨fun hs => hne '/' (by decide) (h.1 hs), fun hs => hne '=' (by decide) (h.2 hs)⟩
    | number value =>
      refine ⟨hhead (¬ IsDigit ·) (by decide) h.1, ?_⟩
      rintro hpoint c more rfl
      -- behind the point the two texts still go on alike, or there is a line feed
      cases hsame with
      | cons _ hafter =>
        cases hafter with
        | newline => decide
        | cons _ _ => exact h.2 hpoint c _ rfl
    | identifier => exact hhead (fun c => ¬ (IsLetter c ∨ IsDigit c)) (by decide) h
    | keyword k => exact hhead (fun c => ¬ (IsLetter c ∨ IsDigit c)) (by decide) h
    | string value => trivial
    | endOfInput => trivial
  | fault fault text =>
    cases fault with
    | unterminatedString => exact hopen ⟨text, rfl⟩
    | unexpectedCharacter c => trivial
    | invalidNumber number => trivial

/-- At a line feed a piece ends as it does at the end of a source. -/
theorem Piece.EndsBefore.newline {piece : Piece} {rest : Text} (h : piece.EndsBefore rest)
    (hclosed : ¬ piece.IsOpen) (later : Text) : piece.EndsBefore (rest ++ '\n' :: later) := by
  have hsame : SameUpToLineEnd (rest ++ []) (rest ++ '\n' :: later) :=
    .append (.newline [] later) rest
  rw [List.append_nil] at hsame
  exact h.of_sameUpToLineEnd (fun hopen => absurd hopen hclosed) hsame

/-- Pieces that a line feed ends stay the first ones, whatever comes after it. -/
theorem WellPlaced.pieces_newline {ps qs : List Piece} (h : WellPlaced (ps ++ qs))
    (hclosed : ∀ piece ∈ ps, ¬ piece.IsOpen) (later : Text) :
    pieces ((ps ++ qs).flatMap Piece.text ++ '\n' :: later) =
      ps ++ pieces (qs.flatMap Piece.text ++ '\n' :: later) := by
  -- each piece in turn still ends where it did, so it is found again
  induction ps with
  | nil => rfl
  | cons piece ps ih =>
    obtain ⟨hwell, hend, hlater⟩ := h
    have hend' : piece.EndsBefore ((ps ++ qs).flatMap Piece.text ++ '\n' :: later) :=
      hend.newline (hclosed piece List.mem_cons_self) later
    have ih' := ih hlater fun q hq => hclosed q (List.mem_cons_of_mem _ hq)
    rw [List.cons_append, List.flatMap_cons, List.append_assoc, pieces_append hwell hend', ih']
    rfl

theorem pieces_newline (rest : Text) : pieces ('\n' :: rest) = .separator '\n' :: pieces rest := by
  rw [pieces_cons, Piece.next_separator (by decide)]

/-- Pieces are not empty, so no text has no pieces. -/
theorem WellPlaced.eq_nil {ps : List Piece} (h : WellPlaced ps)
    (htext : ps.flatMap Piece.text = []) : ps = [] := by
  cases ps with
  | nil => rfl
  | cons piece ps => exact absurd (List.append_eq_nil_iff.1 htext).1 h.1.text_ne_nil

/-- An open string is the last piece, and the only one. -/
theorem WellPlaced.exists_open {ps : List Piece} (h : WellPlaced ps)
    (hopen : ∃ piece ∈ ps, piece.IsOpen) :
    ∃ done text, ps = done ++ [.fault .unterminatedString text] ∧
      ∀ piece ∈ done, ¬ piece.IsOpen := by
  induction ps with
  | nil => simp at hopen
  | cons piece ps ih =>
    obtain ⟨hwell, hend, hlater⟩ := h
    by_cases hpiece : piece.IsOpen
    · obtain ⟨text, rfl⟩ := hpiece
      -- nothing is left after an open string
      obtain rfl : ps = [] := hlater.eq_nil hend
      exact ⟨[], text, rfl, by simp⟩
    · obtain ⟨done, text, rfl, hdone⟩ := ih hlater <| by
        obtain ⟨q, hq, hqopen⟩ := hopen
        rcases List.mem_cons.1 hq with rfl | hq
        · exact absurd hqopen hpiece
        · exact ⟨q, hq, hqopen⟩
      exact ⟨piece :: done, text, rfl, List.forall_mem_cons.2 ⟨hpiece, hdone⟩⟩

/-- Where no string is open, a line feed ends the last piece. -/
theorem pieces_append_newline {a : Text} (h : ∀ piece ∈ pieces a, ¬ piece.IsOpen) (b : Text) :
    pieces (a ++ '\n' :: b) = pieces a ++ pieces ('\n' :: b) := by
  have hwell : WellPlaced (pieces a ++ []) := by
    rw [List.append_nil]
    exact wellPlaced_pieces a
  have hsplit := hwell.pieces_newline h b
  rwa [List.append_nil, flatMap_text_pieces] at hsplit

/-- An open string goes on over the line feed. -/
theorem pieces_append_newline_open {a text : Text} {done : List Piece}
    (h : pieces a = done ++ [.fault .unterminatedString text])
    (hclosed : ∀ piece ∈ done, ¬ piece.IsOpen) (b : Text) :
    pieces (a ++ '\n' :: b) = done ++ pieces (text ++ '\n' :: b) := by
  have hwell : WellPlaced (done ++ [.fault .unterminatedString text]) := h ▸ wellPlaced_pieces a
  have hsplit := hwell.pieces_newline hclosed b
  rwa [← h, flatMap_text_pieces, List.flatMap_singleton, Piece.text] at hsplit

/-! ## Scans on both sides of a line feed -/

/-- Whether a source ends inside a string. -/
def Scan.EndsOpen (scan : Scan) : Prop :=
  ∃ diagnostic ∈ scan.diagnostics, diagnostic.fault = .unterminatedString

theorem map_piece_placedFrom (position : Position) (ps : List Piece) :
    (placedFrom position ps).map Placed.piece = ps := by
  induction ps generalizing position with
  | nil => rfl
  | cons piece later ih => rw [placedFrom_cons, List.map_cons, ih]

theorem endsOpen_tokenize (source : Text) :
    (tokenize source).EndsOpen ↔ ∃ piece ∈ pieces source, piece.IsOpen := by
  rw [Scan.EndsOpen, tokenize_diagnostics, diagnosticsFrom]
  constructor
  · rintro ⟨diagnostic, hmem, hfault⟩
    obtain ⟨⟨place, piece⟩, hplaced, hdiagnostic⟩ := List.mem_filterMap.1 hmem
    refine ⟨piece, ?_, ?_⟩
    · rw [← map_piece_placedFrom .start (pieces source)]
      exact List.mem_map_of_mem hplaced
    · cases piece with
      | fault fault text =>
        obtain rfl := Option.some.inj hdiagnostic
        obtain rfl : fault = .unterminatedString := hfault
        exact ⟨text, rfl⟩
      | _ => cases hdiagnostic
  · rintro ⟨piece, hpiece, hopen⟩
    rw [← map_piece_placedFrom .start (pieces source)] at hpiece
    obtain ⟨⟨place, piece⟩, hplaced, rfl⟩ := List.mem_map.1 hpiece
    obtain ⟨text, rfl⟩ := hopen
    exact ⟨place.diagnostic .unterminatedString text, List.mem_filterMap.2 ⟨_, hplaced, rfl⟩, rfl⟩

theorem tokensFrom_newline (position : Position) (rest : Text) :
    tokensFrom position ('\n' :: rest) = tokensFrom (position.advance ['\n']) rest := by
  have hpieces : pieces ('\n' :: rest) = [.separator '\n'] ++ pieces rest := pieces_newline rest
  rw [tokensFrom_append hpieces]
  rfl

theorem diagnosticsFrom_newline (position : Position) (rest : Text) :
    diagnosticsFrom position ('\n' :: rest) = diagnosticsFrom (position.advance ['\n']) rest := by
  have hpieces : pieces ('\n' :: rest) = [.separator '\n'] ++ pieces rest := pieces_newline rest
  rw [diagnosticsFrom_append hpieces]
  rfl

theorem advance_newline (a : Text) :
    (Position.start.advance a).advance ['\n'] =
      Position.start.shift (byteLength a + 1) (1 + newlines a) := by
  have hbytes : byteLength ['\n'] = 1 := rfl
  have hlines : newlines ['\n'] = 1 := rfl
  simp only [Position.advance, Position.shift, Position.start, Position.mk.injEq, hbytes, hlines]
  omega

variable {a : Text}

/-- What follows a line feed is scanned as a source of its own. -/
theorem tokenize_newline_closed (h : ¬ (tokenize a).EndsOpen) (b : Text) :
    tokenize (a ++ '\n' :: b) =
      { tokens := (tokenize a).proper ++
          (tokenize b).tokens.map (Token.shift (byteLength a + 1) (1 + newlines a))
        diagnostics := (tokenize a).diagnostics ++
          (tokenize b).diagnostics.map (Diagnostic.shift (byteLength a + 1) (1 + newlines a)) } := by
  rw [endsOpen_tokenize] at h
  have hpieces : pieces (a ++ '\n' :: b) = pieces a ++ pieces ('\n' :: b) :=
    pieces_append_newline (fun piece hmem hopen => h ⟨piece, hmem, hopen⟩) b
  have htokens : (tokenize (a ++ '\n' :: b)).tokens = (tokenize a).proper ++
      (tokenize b).tokens.map (Token.shift (byteLength a + 1) (1 + newlines a)) := by
    rw [tokenize_tokens, tokensFrom_append hpieces, flatMap_text_pieces, tokensFrom_newline,
      advance_newline, tokensFrom_shift, ← tokenize_tokens, proper_tokenize]
    rfl
  have hdiagnostics : (tokenize (a ++ '\n' :: b)).diagnostics = (tokenize a).diagnostics ++
      (tokenize b).diagnostics.map (Diagnostic.shift (byteLength a + 1) (1 + newlines a)) := by
    rw [tokenize_diagnostics, diagnosticsFrom_append hpieces, flatMap_text_pieces,
      diagnosticsFrom_newline, advance_newline, diagnosticsFrom_shift, ← tokenize_diagnostics,
      tokenize_diagnostics a]
    rfl
  rw [← htokens, ← hdiagnostics]

theorem tokenize_newline_open (h : (tokenize a).EndsOpen) (b : Text) :
    (tokenize a).proper <+: (tokenize (a ++ '\n' :: b)).tokens ∧
      ∃ earlier last, (tokenize a).diagnostics = earlier ++ [last] ∧
        last.fault = .unterminatedString ∧
        earlier <+: (tokenize (a ++ '\n' :: b)).diagnostics := by
  obtain ⟨done, text, hdone, hclosed⟩ :=
    (wellPlaced_pieces a).exists_open ((endsOpen_tokenize a).1 h)
  have hsplit := pieces_append_newline_open hdone hclosed b
  refine ⟨?_, (placedFrom .start done).filterMap Placed.diagnostic?,
    (Position.start.advance (done.flatMap Piece.text)).diagnostic .unterminatedString text,
    ?_, rfl, ?_⟩
  · rw [proper_tokenize, placed, hdone, placedFrom_append, List.filterMap_append, tokenize_tokens,
      tokensFrom_append hsplit]
    exact (List.prefix_append_right_inj _).2 List.nil_prefix
  · rw [tokenize_diagnostics, diagnosticsFrom, hdone, placedFrom_append, List.filterMap_append]
    rfl
  · rw [tokenize_diagnostics, diagnosticsFrom_append hsplit]
    exact List.prefix_append _ _

/-- **A line feed parts a scan.** Unless the first line ends inside a string, what follows the line
    feed is scanned as a source of its own; and what comes before such a string stays as it is. -/
theorem tokenize_newline (a b : Text) :
    (¬ (tokenize a).EndsOpen →
      tokenize (a ++ '\n' :: b) =
        { tokens := (tokenize a).proper ++
            (tokenize b).tokens.map (Token.shift (byteLength a + 1) (1 + newlines a))
          diagnostics := (tokenize a).diagnostics ++
            (tokenize b).diagnostics.map (Diagnostic.shift (byteLength a + 1) (1 + newlines a)) }) ∧
    ((tokenize a).EndsOpen →
      (tokenize a).proper <+: (tokenize (a ++ '\n' :: b)).tokens ∧
        ∃ earlier last, (tokenize a).diagnostics = earlier ++ [last] ∧
          last.fault = .unterminatedString ∧
          earlier <+: (tokenize (a ++ '\n' :: b)).diagnostics) :=
  ⟨fun h => tokenize_newline_closed h b, fun h => tokenize_newline_open h b⟩

theorem tokenize_equal_sign :
    tokenize ['='] = ⟨[⟨.symbol .equal, ['='], 1, ⟨0, 1⟩⟩, ⟨.endOfInput, [], 1, ⟨1, 1⟩⟩], []⟩ := by
  have hpieces : pieces ['='] = [.token (.symbol .equal) ['=']] := by
    rw [pieces_cons, show Piece.next '=' [] = (.token (.symbol .equal) ['='], []) from rfl,
      pieces_nil]
  rw [tokenize, scanInto, hpieces]
  rfl

theorem tokenize_quote :
    tokenize ['"'] = ⟨[⟨.endOfInput, [], 1, ⟨1, 1⟩⟩], [⟨1, ⟨0, 1⟩, .unterminatedString⟩]⟩ := by
  have hpieces : pieces ['"'] = [.fault .unterminatedString ['"']] := by
    rw [pieces_cons, show Piece.next '"' [] = (.fault .unterminatedString ['"'], []) from rfl,
      pieces_nil]
  rw [tokenize, scanInto, hpieces]
  rfl

/-- Two equal signs on two lines do not join, and a quote takes both lines. -/
theorem tokenize_newline_equal :
    tokenize ['=', '\n', '='] =
        ⟨[⟨.symbol .equal, ['='], 1, ⟨0, 1⟩⟩, ⟨.symbol .equal, ['='], 2, ⟨2, 3⟩⟩,
          ⟨.endOfInput, [], 2, ⟨3, 3⟩⟩], []⟩ ∧
      (tokenize ['"']).EndsOpen ∧
      (tokenize ['"']).proper <+: (tokenize ['"', '\n', '=']).tokens := by
  have hclosed : ¬ (tokenize ['=']).EndsOpen := by
    rw [tokenize_equal_sign, Scan.EndsOpen]
    simp
  have hopen : (tokenize ['"']).EndsOpen := by
    rw [tokenize_quote]
    exact ⟨_, List.mem_singleton_self _, rfl⟩
  refine ⟨?_, hopen, ((tokenize_newline ['"'] ['=']).2 hopen).1⟩
  have h := (tokenize_newline ['='] ['=']).1 hclosed
  rw [tokenize_equal_sign] at h
  exact h

end ScriptLexer
