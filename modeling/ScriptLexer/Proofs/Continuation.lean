import ScriptLexer.Proofs.Brackets
import ScriptLexer.Proofs.Rescan
import ScriptLexer.Proofs.Trimming

set_option autoImplicit false

/-! # Entries that go on

An entry goes on because of an open string, of brackets that are still to be closed, or of its last
token, unless it starts with a dot (`isIncomplete_iff`). What a further line does to it is seen from
the pieces: a line of blanks changes none of the three, and a line that first closes the string, then
the brackets, and then ends with a semicolon leaves none of them (`closingLine`).
Main statements: `isIncomplete_newline`, `isIncomplete_of_unfinished`. -/

namespace ScriptLexer

/-! ## Why an entry goes on -/

section Entry

variable (input : Text)

theorem any_lastToken? :
    (lastToken? (tokenize input).tokens).any (·.kind.asksForMore) =
      ((tokenize input).proper.map Token.word).getLast?.any (·.1.asksForMore) := by
  have hlast : lastToken? (tokenize input).tokens = (tokenize input).proper.getLast? := by
    rw [lastToken?, Scan.proper, ← List.head?_filter, List.filter_reverse, List.head?_reverse]
  rw [hlast, List.getLast?_map, Option.any_map]
  rfl

/-- The three reasons for another line. A dot at the start rules out all of them. -/
theorem isIncomplete_iff :
    isIncomplete input = true ↔ startsWithDot input = false ∧
      ((tokenize input).EndsOpen ∨ isSettled [] (bracketWord input) = false ∨
        ∃ word ∈ ((tokenize input).proper.map Token.word).getLast?,
          word.1.asksForMore = true) := by
  have hopen : ((tokenize input).diagnostics.any (·.fault == .unterminatedString)) = true ↔
      (tokenize input).EndsOpen := by
    simp [Scan.EndsOpen]
  simp only [isIncomplete, isBalanced_eq, any_lastToken?]
  cases startsWithDot input with
  | true => simp
  | false => simp only [Bool.false_eq_true, if_false, Bool.or_eq_true, hopen, Bool.not_eq_true',
      Option.any_eq_true, true_and, or_assoc, Option.mem_def]

/-- Only the start of an entry, an open string and the tokens matter. -/
theorem isIncomplete_congr {a b : Text} (hdot : startsWithDot a = startsWithDot b)
    (hopen : (tokenize a).EndsOpen ↔ (tokenize b).EndsOpen)
    (hwords : (tokenize a).proper.map Token.word = (tokenize b).proper.map Token.word) :
    isIncomplete a = isIncomplete b := by
  rw [Bool.eq_iff_iff, isIncomplete_iff, isIncomplete_iff, bracketWord_eq_words,
    bracketWord_eq_words, hdot, hopen, hwords]

end Entry

/-! ## Lines of blanks -/

section Blank

variable {blank : Text}

theorem pieces_spaces (h : ∀ c ∈ blank, IsSpace c) : pieces blank = blank.map .separator := by
  induction blank with
  | nil => exact pieces_nil
  | cons c blank ih =>
    obtain ⟨hc, hlater⟩ := List.forall_mem_cons.1 h
    rw [pieces_cons, Piece.next_separator hc, ih hlater, List.map_cons]

/-- A line of blanks is no part of a token, and it does not close a string. -/
theorem tokenize_newline_blank (source : Text) (h : ∀ c ∈ blank, IsSpace c) :
    ((tokenize (source ++ '\n' :: blank)).EndsOpen ↔ (tokenize source).EndsOpen) ∧
      (tokenize (source ++ '\n' :: blank)).proper.map Token.word =
        (tokenize source).proper.map Token.word := by
  have hspaces : ∀ c ∈ '\n' :: blank, IsSpace c := List.forall_mem_cons.2 ⟨by decide, h⟩
  rw [endsOpen_tokenize, endsOpen_tokenize, words_tokenize, words_tokenize]
  by_cases hopen : ∃ piece ∈ pieces source, piece.IsOpen
  · obtain ⟨done, inside, hpieces, hinside, hdone⟩ := exists_openString hopen
    have hquote : '"' ∉ inside ++ '\n' :: blank := by
      rw [List.mem_append, not_or]
      exact ⟨hinside, fun hmem => absurd (hspaces _ hmem) (by decide)⟩
    have hrest := pieces_append (.openString hquote) rfl
    rw [Piece.text, List.append_nil, pieces_nil] at hrest
    rw [pieces_append_newline_open hpieces hdone, List.cons_append, hrest, hpieces]
    have hlast : ∀ body, ∃ piece ∈ done ++ [Piece.fault .unterminatedString body], piece.IsOpen :=
      fun body => ⟨_, List.mem_append_right _ (List.mem_singleton_self _), body, rfl⟩
    refine ⟨iff_of_true (hlast _) (hlast _), ?_⟩
    rw [List.filterMap_append, List.filterMap_append]
    rfl
  · simp only [not_exists, not_and] at hopen
    have hlater : pieces ('\n' :: blank) = ('\n' :: blank).map .separator := pieces_spaces hspaces
    rw [pieces_append_newline hopen, hlater]
    constructor
    · refine iff_of_false ?_ (by simpa using hopen)
      rintro ⟨piece, hpiece, hpieceOpen⟩
      rcases List.mem_append.1 hpiece with hsource | hblank
      · exact hopen piece hsource hpieceOpen
      · obtain ⟨c, -, rfl⟩ := List.mem_map.1 hblank
        simp [Piece.IsOpen] at hpieceOpen
    · have hnone : (('\n' :: blank).map Piece.separator).filterMap Piece.word? = [] := by
        rw [List.filterMap_map]
        exact List.filterMap_eq_nil_iff.2 fun _ _ => rfl
      rw [List.filterMap_append, hnone, List.append_nil]

end Blank

/-! ## A line that closes everything -/

/-- The character that closes a bracket. -/
def Bracket.closingChar : Bracket → Char
  | paren => ')'
  | brace => '}'

/-- The symbol that closes a bracket. -/
def Bracket.closingSymbol : Bracket → Symbol
  | paren => .rightParen
  | brace => .rightBrace

/-- Closes what is open in a source: its string, and then its brackets. The semicolon asks for
    nothing more. -/
def closingLine (source : Text) : Text :=
  (if modeAtEnd source = .string then ['"'] else []) ++
    (((pendingAfter [] (bracketWord source)).getD []).map Bracket.closingChar ++ [';'])

section Closing

variable (source : Text)

theorem newline_not_mem_closingLine : '\n' ∉ closingLine source := by
  have hbrackets : ∀ pending : List Bracket, '\n' ∉ pending.map Bracket.closingChar := by
    intro pending hmem
    obtain ⟨bracket, -, hchar⟩ := List.mem_map.1 hmem
    cases bracket <;> cases hchar
  rw [closingLine, List.mem_append, List.mem_append]
  rintro (hquote | hbracket | hsemicolon)
  · split at hquote <;> simp at hquote
  · exact hbrackets _ hbracket
  · simp at hsemicolon

theorem pieces_closers (pending : List Bracket) :
    pieces (pending.map Bracket.closingChar ++ [';']) =
      pending.map (fun bracket => .token (.symbol bracket.closingSymbol) [bracket.closingChar]) ++
        [.token (.symbol .semicolon) [';']] := by
  induction pending with
  | nil =>
    have hend : (Piece.token (.symbol .semicolon) [';']).EndsBefore [] := by
      simp [Piece.EndsBefore]
    have hsemicolon := pieces_append (.lexical (.symbol .semicolon)) hend
    rwa [Piece.text, List.append_nil, pieces_nil] at hsemicolon
  | cons bracket pending ih =>
    have hwell : (Piece.token (.symbol bracket.closingSymbol) [bracket.closingChar]).WellFormed := by
      cases bracket <;> exact .lexical (.symbol _)
    have hend : ∀ rest, (Piece.token (.symbol bracket.closingSymbol)
        [bracket.closingChar]).EndsBefore rest := by
      intro rest
      cases bracket <;> simp [Piece.EndsBefore, Bracket.closingSymbol, Symbol.withEqual?]
    rw [List.map_cons, List.map_cons, List.cons_append, List.cons_append, ← ih]
    exact pieces_append hwell (hend _)

/-- A further line is scanned as a source of its own if it first closes an open string. -/
theorem exists_pieces_newline (line : Text) :
    ∃ ps, pieces (source ++ '\n' :: ((if modeAtEnd source = .string then ['"'] else []) ++ line)) =
        ps ++ pieces line ∧
      (∀ piece ∈ ps, ¬ piece.IsOpen) ∧ ps.filterMap Piece.bracketMark? = bracketWord source := by
  rw [bracketWord_eq]
  by_cases hstring : modeAtEnd source = .string
  · obtain ⟨done, inside, hpieces, hinside, hdone⟩ :=
      exists_openString (modeAtEnd_eq_string_iff.1 hstring)
    have hquote : '"' ∉ inside ++ ['\n'] := by
      simp [hinside]
    have hclosed : pieces ('"' :: inside ++ '\n' :: '"' :: line) =
        .token (.string (inside ++ ['\n'])) ('"' :: (inside ++ ['\n']) ++ ['"']) ::
          pieces line := by
      rw [← pieces_append (.lexical (.string hquote)) trivial]
      simp [Piece.text]
    refine ⟨done ++ [.token (.string (inside ++ ['\n'])) ('"' :: (inside ++ ['\n']) ++ ['"'])],
      ?_, ?_, ?_⟩
    · rw [if_pos hstring, List.singleton_append, pieces_append_newline_open hpieces hdone, hclosed,
        List.append_assoc, List.singleton_append]
    · rw [List.forall_mem_append]
      exact ⟨hdone, by simp [Piece.IsOpen]⟩
    · rw [hpieces, List.filterMap_append, List.filterMap_append]
      rfl
  · have hopen := modeAtEnd_ne_string_iff.1 hstring
    refine ⟨pieces source ++ [.separator '\n'], ?_, ?_, ?_⟩
    · rw [if_neg hstring, List.nil_append, pieces_append_newline hopen, pieces_newline,
        List.append_assoc, List.singleton_append]
    · rw [List.forall_mem_append]
      exact ⟨hopen, by simp [Piece.IsOpen]⟩
    · rw [List.filterMap_append]
      exact List.append_nil _

theorem bracketMarks_closers (pending : List Bracket) :
    (pieces (pending.map Bracket.closingChar ++ [';'])).filterMap Piece.bracketMark? =
      closers pending := by
  rw [pieces_closers]
  induction pending with
  | nil => rfl
  | cons bracket pending ih =>
    have hcons : closers (bracket :: pending) = .closing bracket :: closers pending := rfl
    rw [hcons, ← ih]
    cases bracket <;> rfl

theorem isSettled_closers :
    isSettled [] (bracketWord source ++
      closers ((pendingAfter [] (bracketWord source)).getD [])) = true := by
  rw [isSettled_eq, pendingAfter_append]
  cases pendingAfter [] (bracketWord source) with
  | none => rfl
  | some pending =>
    rw [Option.bind_some, Option.getD_some, pendingAfter_closers]
    rfl

/-- After that line nothing is open, and nothing more is asked for. -/
theorem isIncomplete_closingLine :
    isIncomplete (source ++ '\n' :: closingLine source) = false := by
  have hsettled := isSettled_closers source
  rw [← Bool.not_eq_true, isIncomplete_iff, endsOpen_tokenize, bracketWord_eq, words_tokenize,
    closingLine]
  generalize (pendingAfter [] (bracketWord source)).getD [] = pending at hsettled ⊢
  obtain ⟨ps, hpieces, hclosed, hmarks⟩ :=
    exists_pieces_newline source (pending.map Bracket.closingChar ++ [';'])
  rw [hpieces, List.filterMap_append, hmarks, bracketMarks_closers, hsettled, pieces_closers,
    ← List.append_assoc, List.filterMap_append]
  rintro ⟨-, hopen | hbrackets | hlast⟩
  · obtain ⟨piece, hpiece, text, rfl⟩ := hopen
    have hps : Piece.fault .unterminatedString text ∈ ps := by simpa using hpiece
    exact hclosed _ hps ⟨text, rfl⟩
  · cases hbrackets
  · simp [Piece.word?, Kind.asksForMore, Symbol.asksForMore] at hlast

end Closing

/-! ## What further lines do -/

theorem isBlank_of_isSpace {c : Char} (h : IsSpace c) : isBlank c = true := by
  rcases h with rfl | rfl | rfl | rfl <;> decide

/-- **No entry is a trap.** Whatever has been entered, there is one more line after which the entry
    is complete; and a line of blanks neither completes an entry nor makes a complete one go on. -/
theorem isIncomplete_newline (input : Text) :
    (∃ line, '\n' ∉ line ∧ isIncomplete (input ++ '\n' :: line) = false) ∧
      ∀ blank : Text, (∀ c ∈ blank, c = ' ' ∨ c = '\t' ∨ c = '\r') →
        isIncomplete (input ++ '\n' :: blank) = isIncomplete input := by
  constructor
  · exact ⟨closingLine input, newline_not_mem_closingLine input, isIncomplete_closingLine input⟩
  · intro blank hblank
    have hspaces : ∀ c ∈ blank, IsSpace c := by
      intro c hc
      rcases hblank c hc with rfl | rfl | rfl <;> decide
    have hdot : startsWithDot (input ++ '\n' :: blank) = startsWithDot input := by
      apply startsWithDot_append_blank
      rw [List.forall_mem_cons]
      exact ⟨by decide, fun c hc => isBlank_of_isSpace (hspaces c hc)⟩
    obtain ⟨hopen, hwords⟩ := tokenize_newline_blank input hspaces
    exact isIncomplete_congr hdot hopen hwords

/-- An open string in a brace goes on over a blank line. -/
theorem isIncomplete_newline_quote :
    isIncomplete ['{', '"'] = true ∧
      (∃ line, '\n' ∉ line ∧ isIncomplete (['{', '"'] ++ '\n' :: line) = false) ∧
      (∀ c ∈ [' ', '\t', '\r'], c = ' ' ∨ c = '\t' ∨ c = '\r') ∧
      isIncomplete (['{', '"'] ++ '\n' :: [' ', '\t', '\r']) = true := by
  have hincomplete : isIncomplete ['{', '"'] = true := by
    rw [isIncomplete_iff, endsOpen_iff_modeAtEnd]
    exact ⟨rfl, .inl rfl⟩
  have hblank : ∀ c ∈ [' ', '\t', '\r'], c = ' ' ∨ c = '\t' ∨ c = '\r' := by
    simp
  obtain ⟨hline, hsame⟩ := isIncomplete_newline ['{', '"']
  exact ⟨hincomplete, hline, hblank, (hsame _ hblank).trans hincomplete⟩

/-! ## Unfinished sources -/

/-- The operators. -/
def operators : List Symbol :=
  [.plus, .minus, .star, .slash, .bang, .bangEqual, .equal, .equalEqual, .less, .lessEqual, .greater,
    .greaterEqual]

/-- A source that more is to follow: a string or a bracket is still to be closed, or the last token is
    one of the given symbols. -/
inductive Unfinished (trailing : List Symbol) (source : Text) : Prop where
  | string (h : (tokenize source).EndsOpen)
  | bracket (hopen : ¬ WellNested (bracketWord source))
    (hmore : ∃ more, WellNested (bracketWord source ++ more))
  | symbol {token : Token} {s : Symbol} (hlast : (tokenize source).proper.getLast? = some token)
    (hkind : token.kind = .symbol s) (hs : s ∈ trailing)

theorem asksForMore_of_unfinished {trailing : List Symbol} {source : Text}
    (hasks : ∀ s ∈ trailing, s.asksForMore = true) (h : Unfinished trailing source) :
    (tokenize source).EndsOpen ∨ isSettled [] (bracketWord source) = false ∨
      ∃ word ∈ ((tokenize source).proper.map Token.word).getLast?, word.1.asksForMore = true := by
  cases h with
  | string h => exact .inl h
  | bracket hopen hmore => exact .inr (.inl (isSettled_eq_false_iff.2 ⟨hopen, hmore⟩))
  | @symbol token s hlast hkind hs =>
    refine .inr (.inr ⟨token.word, ?_, ?_⟩)
    · rw [List.getLast?_map, hlast]
      rfl
    · rw [Token.word, hkind]
      exact hasks s hs

/-! ### Symbols by themselves -/

section Spelling

variable (s : Symbol)

theorem proper_spelling :
    (tokenize s.spelling).proper.map Token.word = [(.symbol s, s.spelling)] := by
  have hwell : (Piece.token (.symbol s) s.spelling).WellFormed := .lexical (.symbol s)
  have hpieces := pieces_append hwell hwell.endsBefore_nil
  rw [Piece.text, List.append_nil, pieces_nil] at hpieces
  rw [words_tokenize, hpieces]
  rfl

theorem startsWithDot_spelling (h : s ≠ .dot) : startsWithDot s.spelling = false := by
  cases s with
  | dot => exact absurd rfl h
  | _ => rfl

theorem Unfinished.spelling {trailing : List Symbol} (h : s ∈ trailing) :
    Unfinished trailing s.spelling := by
  obtain ⟨token, htoken, hword⟩ := List.map_eq_singleton_iff.1 (proper_spelling s)
  refine .symbol ?_ (congrArg Prod.fst hword) h
  rw [htoken]
  rfl

/-- A symbol by itself goes on if it asks for more. -/
theorem isIncomplete_spelling (h : s ≠ .dot) : isIncomplete s.spelling = s.asksForMore := by
  have hclosed : ¬ (tokenize s.spelling).EndsOpen := by
    rw [endsOpen_iff_modeAtEnd]
    cases s <;> decide
  have hbrackets : isSettled [] (bracketWord s.spelling) = false → s.asksForMore = true := by
    cases s <;> decide
  rw [Bool.eq_iff_iff, isIncomplete_iff, proper_spelling]
  constructor
  · rintro ⟨-, hopen | hopen | ⟨word, hword, hasks⟩⟩
    · exact absurd hopen hclosed
    · exact hbrackets hopen
    · obtain rfl := Option.some.inj hword
      exact hasks
  · intro hasks
    exact ⟨startsWithDot_spelling s h, .inr (.inr ⟨_, rfl, hasks⟩)⟩

end Spelling

/-- **Unfinished sources go on.** An entry that starts with a dot never goes on. Any other is no
    command, and it goes on if a string or a bracket is still to be closed, or if its last token is
    an operator of arithmetic or an equals sign, whatever stands after that. -/
theorem isIncomplete_of_unfinished (input : Text) :
    (startsWithDot input = true → isIncomplete input = false) ∧
      (startsWithDot input = false → Invocation.parse? input = none ∧
        (Unfinished [.plus, .minus, .star, .slash, .equal] input → isIncomplete input = true)) := by
  constructor
  · intro hdot
    rw [isIncomplete, if_pos hdot]
  · intro hdot
    refine ⟨parse?_of_no_dot hdot, ?_⟩
    intro hunfinished
    rw [isIncomplete_iff]
    exact ⟨hdot, asksForMore_of_unfinished (by decide) hunfinished⟩

/-- A parenthesis after blanks goes on, and behind a dot it does not. -/
theorem isIncomplete_paren :
    startsWithDot [' ', '('] = false ∧
      Unfinished [.plus, .minus, .star, .slash, .equal] [' ', '('] ∧
      isIncomplete [' ', '('] = true ∧
      startsWithDot ['.', '('] = true ∧ isIncomplete ['.', '('] = false := by
  have hblank : startsWithDot [' ', '('] = false := rfl
  have hdot : startsWithDot ['.', '('] = true := rfl
  have hunfinished : Unfinished [.plus, .minus, .star, .slash, .equal] [' ', '('] :=
    .bracket (by rw [wellNested_iff]; decide) ⟨_, wellNested_append_closers rfl⟩
  exact ⟨hblank, hunfinished, ((isIncomplete_of_unfinished _).2 hblank).2 hunfinished, hdot,
    (isIncomplete_of_unfinished _).1 hdot⟩

/-- An input that is no command and is unfinished, and still is taken to be complete. -/
structure CutShort (input : Text) : Prop where
  noCommand : Invocation.parse? input = none
  unfinished : Unfinished operators input
  complete : isIncomplete input = false

theorem CutShort.spelling (s : Symbol) (h : s ∈ operators) (hasks : s.asksForMore = false) :
    CutShort s.spelling := by
  have hdot : s ≠ .dot := by
    rintro rfl
    exact absurd h (by decide)
  exact {
    noCommand := parse?_of_no_dot (startsWithDot_spelling s hdot)
    unfinished := .spelling s h
    complete := (isIncomplete_spelling s hdot).trans hasks }

/-- Not every unfinished source goes on: a parenthesis behind a dot does not, nor do the operators of
    negation and comparison. -/
theorem cutShort_dot_and_operators :
    CutShort ['.', '('] ∧ CutShort ['!'] ∧ CutShort ['!', '='] ∧ CutShort ['=', '='] ∧
      CutShort ['<'] ∧ CutShort ['<', '='] ∧ CutShort ['>'] ∧ CutShort ['>', '='] := by
  have hparen : Unfinished operators ['.', '('] :=
    .bracket (by rw [wellNested_iff]; decide) ⟨_, wellNested_append_closers rfl⟩
  have hdot : startsWithDot ['.', '('] = true := rfl
  exact ⟨⟨rfl, hparen, if_pos hdot⟩, .spelling .bang (by decide) rfl,
    .spelling .bangEqual (by decide) rfl, .spelling .equalEqual (by decide) rfl,
    .spelling .less (by decide) rfl, .spelling .lessEqual (by decide) rfl,
    .spelling .greater (by decide) rfl, .spelling .greaterEqual (by decide) rfl⟩

end ScriptLexer
