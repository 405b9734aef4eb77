import ScriptLexer.Proofs.Continuation
import ScriptLexer.Proofs.LineNumbers

set_option autoImplicit false

/-! # Carriage returns before line feeds

Lines may end in a carriage return and a line feed, or in a line feed alone. Such a carriage return
stands in a string, or it is the last character of a comment, or it separates tokens
(`Piece.WellFormed.separator_or_comment`). So a source and the same source with line feeds alone are
cut in step: each piece has its counterpart, but for the separators that are gone (`InStep`,
`inStep_pieces`). What becomes of the one source becomes of the other, on the same lines.
Main statement: `tokenize_unixLines`. -/

namespace ScriptLexer

/-! ## What the statement speaks of -/

/-- A text with a line feed in place of every pair of a carriage return and a line feed. -/
def unixLines : Text → Text
  | [] => []
  | '\r' :: '\n' :: rest => '\n' :: unixLines rest
  | c :: rest => c :: unixLines rest

/-- A kind with such line feeds in the value of a string. No other value has lines. -/
def Kind.withUnixLines : Kind → Kind
  | string value => string (unixLines value)
  | kind => kind

/-- A kind and a lexeme with such line feeds. -/
def unixWord (word : Kind × Text) : Kind × Text :=
  (word.1.withUnixLines, unixLines word.2)

/-! ## Texts -/

section Text

variable {front back text rest : Text} {c : Char}

/-- Whether a pair lies across the place where two texts meet. -/
def PairAcross (front back : Text) : Prop :=
  front.getLast? = some '\r' ∧ back.head? = some '\n'

theorem PairAcross.cons (h : PairAcross front back) (c : Char) : PairAcross (c :: front) back :=
  ⟨by simp [List.getLast?_cons, h.1], h.2⟩

theorem unixLines_return (rest : Text) :
    unixLines ('\r' :: '\n' :: rest) = unixLines ('\n' :: rest) := by
  simp [unixLines]

theorem unixLines_cons (h : ¬ PairAcross [c] rest) : unixLines (c :: rest) = c :: unixLines rest := by
  rw [unixLines]
  rintro more rfl rfl
  exact h ⟨rfl, rfl⟩

theorem unixLines_newline (rest : Text) : unixLines ('\n' :: rest) = '\n' :: unixLines rest :=
  unixLines_cons (by simp [PairAcross])

/-- Texts change apart unless a pair lies across the place where they meet. -/
theorem unixLines_append (h : ¬ PairAcross front back) :
    unixLines (front ++ back) = unixLines front ++ unixLines back := by
  fun_induction unixLines front with
  | case1 => rfl
  | case2 rest ih =>
    have hrest : ¬ PairAcross rest back := fun hpair => h ((hpair.cons '\n').cons '\r')
    rw [List.cons_append, List.cons_append, unixLines_return, unixLines_newline, ih hrest,
      List.cons_append]
  | case3 c rest hpair ih =>
    have hrest : ¬ PairAcross rest back := fun hpair => h (hpair.cons c)
    have hhead : ¬ PairAcross [c] (rest ++ back) := by
      rintro ⟨hc, hhead⟩
      cases rest with
      | nil => exact h ⟨hc, hhead⟩
      | cons d rest =>
        rw [List.cons_append, List.head?_cons, Option.some.injEq] at hhead
        exact hpair rest (Option.some.inj hc) (by rw [hhead])
    rw [List.cons_append, unixLines_cons hhead, ih hrest, List.cons_append]

theorem unixLines_of_not_mem (h : '\n' ∉ text) : unixLines text = text := by
  fun_induction unixLines text with
  | case1 => rfl
  | case2 rest ih => simp at h
  | case3 c rest hpair ih =>
    rw [List.mem_cons, not_or] at h
    rw [ih h.2]

theorem mem_unixLines_iff (hc : c ≠ '\r') : c ∈ unixLines text ↔ c ∈ text := by
  fun_induction unixLines text with
  | case1 => rfl
  | case2 rest ih => simp [ih, hc]
  | case3 d rest hpair ih => simp [ih]

/-- Up to the first pair a text goes on as it did. -/
theorem sameUpToLineEnd_unixLines (text : Text) : SameUpToLineEnd text (unixLines text) := by
  fun_induction unixLines text with
  | case1 => exact .ends []
  | case2 rest ih => exact .newline _ (unixLines rest)
  | case3 c rest hpair ih => exact .cons c ih

@[simp]
theorem newlines_unixLines (text : Text) : newlines (unixLines text) = newlines text := by
  fun_induction unixLines text with
  | case1 => rfl
  | case2 rest ih => simpa [newlines] using ih
  | case3 c rest hpair ih =>
    rw [newlines, newlines, List.count_cons, List.count_cons, ← newlines, ← newlines, ih]

/-- Carriage returns and line feeds are blank, so the first character that is not stays. -/
theorem startsWithDot_unixLines (text : Text) :
    startsWithDot (unixLines text) = startsWithDot text := by
  fun_induction unixLines text with
  | case1 => rfl
  | case2 rest ih => exact ih
  | case3 c rest hpair ih =>
    simp only [startsWithDot, trimStart, List.dropWhile_cons] at ih ⊢
    split
    · exact ih
    · rfl

end Text

/-! ## Pieces -/

/-- A piece of the source with such line feeds. -/
def Piece.withUnixLines : Piece → Piece
  | separator c => separator c
  | comment body => comment (unixLines body)
  | token kind lexeme => token kind.withUnixLines (unixLines lexeme)
  | fault reason text => fault reason (unixLines text)

section Piece

variable {piece : Piece} {kind : Kind} {lexeme body rest : Text}

theorem text_withUnixLines (piece : Piece) : piece.withUnixLines.text = unixLines piece.text := by
  cases piece with
  | separator c =>
    rw [Piece.text, unixLines_cons (by simp [PairAcross])]
    rfl
  | _ => rfl

/-- A token is a string, or no blank is in it. -/
theorem Piece.WellFormed.string_or_spaceless (h : (Piece.token kind lexeme).WellFormed) :
    (∃ value, kind = .string value ∧ lexeme = '"' :: value ++ ['"'] ∧ '"' ∉ value) ∨
      kind.withUnixLines = kind ∧ ∀ c ∈ lexeme, ¬ IsSpace c := by
  have hword : ∀ {word : Text}, (∀ c ∈ word, IsLetter c ∨ IsDigit c) → ∀ c ∈ word, ¬ IsSpace c :=
    fun hw c hc => (Piece.unnamed_of_wordChar (hw c hc)).1
  cases h with
  | lexical h =>
    cases h with
    | symbol s =>
      refine .inr ⟨rfl, ?_⟩
      cases s <;> simp [Symbol.spelling, IsSpace]
    | integer hwhole => exact .inr ⟨rfl, hword fun c hc => .inr (hwhole.2 c hc)⟩
    | decimal hwhole hfraction =>
      refine .inr ⟨rfl, ?_⟩
      rw [List.forall_mem_append, List.forall_mem_cons]
      exact ⟨hword fun c hc => .inr (hwhole.2 c hc), by decide,
        hword fun c hc => .inr (hfraction.2 c hc)⟩
    | @string value hvalue => exact .inl ⟨value, rfl, rfl, hvalue⟩
    | keyword k => exact .inr ⟨rfl, hword (forall_wordChar_of_isName (isName_word k))⟩
    | identifier hname => exact .inr ⟨rfl, hword (forall_wordChar_of_isName hname)⟩

theorem Piece.WellFormed.unixLines_comment (h : (Piece.comment body).WellFormed) :
    unixLines body = body := by
  obtain ⟨inside, rfl, hinside⟩ := h.exists_comment
  apply unixLines_of_not_mem
  simp [hinside]

theorem Piece.WellFormed.withUnixLines (h : piece.WellFormed) : piece.withUnixLines.WellFormed := by
  cases piece with
  | separator c => exact h
  | comment body =>
    rw [Piece.withUnixLines, h.unixLines_comment]
    exact h
  | token kind lexeme =>
    rcases h.string_or_spaceless with ⟨value, rfl, rfl, hvalue⟩ | ⟨hkind, hspaces⟩
    · have hlexeme : unixLines ('"' :: value ++ ['"']) = '"' :: unixLines value ++ ['"'] := by
        rw [List.cons_append, unixLines_cons (by simp [PairAcross]),
          unixLines_append (by simp [PairAcross])]
        rfl
      rw [Piece.withUnixLines, hlexeme]
      exact .lexical (.string (by rwa [mem_unixLines_iff (by decide)]))
    · have hlexeme : unixLines lexeme = lexeme :=
        unixLines_of_not_mem fun hmem => hspaces _ hmem (by decide)
      rw [Piece.withUnixLines, hkind, hlexeme]
      exact h
  | fault reason text =>
    cases h with
    | lexical h => cases h
    | unexpected hc =>
      rw [Piece.withUnixLines, unixLines_cons (by simp [PairAcross])]
      exact .unexpected hc
    | openString hinside =>
      rw [Piece.withUnixLines, unixLines_cons (by simp [PairAcross])]
      exact .openString (by rwa [mem_unixLines_iff (by decide)])

/-- Where a piece ends, its counterpart ends. -/
theorem Piece.EndsBefore.withUnixLines (h : piece.EndsBefore rest) :
    piece.withUnixLines.EndsBefore (unixLines rest) := by
  have hends : piece.EndsBefore (unixLines rest) := by
    refine h.of_sameUpToLineEnd ?_ (sameUpToLineEnd_unixLines rest)
    rintro ⟨body, rfl⟩
    obtain rfl : rest = [] := h
    rfl
  cases piece with
  | token kind lexeme =>
    cases kind with
    | number value =>
      refine ⟨hends.1, ?_⟩
      intro hpoint
      rw [mem_unixLines_iff (by decide)] at hpoint
      exact hends.2 hpoint
    | _ => exact hends
  | fault reason text => cases reason <;> exact hends
  | _ => exact hends

/-- A carriage return at the end of a piece is a separator or ends a comment. -/
theorem Piece.WellFormed.separator_or_comment (h : piece.WellFormed) (hclosed : ¬ piece.IsOpen)
    (hlast : piece.text.getLast? = some '\r') :
    piece = .separator '\r' ∨
      ∃ body, piece = .comment (body ++ ['\r']) ∧ (Piece.comment body).WellFormed := by
  have hmem : '\r' ∈ piece.text := List.mem_of_getLast? hlast
  cases piece with
  | separator c =>
    obtain rfl : c = '\r' := by simpa [text] using hlast
    exact .inl rfl
  | comment body =>
    obtain ⟨inside, rfl, hinside⟩ := h.exists_comment
    rcases List.eq_nil_or_concat' inside with rfl | ⟨more, d, rfl⟩
    · exact absurd hlast (by decide)
    · obtain rfl : d = '\r' := by
        rw [text, ← List.cons_append, ← List.cons_append, List.getLast?_concat] at hlast
        exact Option.some.inj hlast
      have hmore : '\n' ∉ more := fun hmem => hinside (List.mem_append_left _ hmem)
      exact .inr ⟨'/' :: '/' :: more, rfl, .lexical (.comment hmore)⟩
  | token kind lexeme =>
    rcases h.string_or_spaceless with ⟨value, rfl, rfl, -⟩ | ⟨-, hspaces⟩
    · rw [text, List.getLast?_concat] at hlast
      exact absurd hlast (by decide)
    · exact absurd (by decide) (hspaces _ hmem)
  | fault reason body =>
    cases h with
    | lexical h => cases h
    | @unexpected c hc =>
      obtain rfl : c = '\r' := by simpa [text] using hlast
      exact absurd (by decide) hc.not_space
    | openString => exact absurd ⟨_, rfl⟩ hclosed

end Piece

/-! ## Two scans in step -/

/-- The pieces of a source beside those of the source with line feeds alone. A carriage return that
    is gone stood by itself or at the end of a comment. -/
inductive InStep : List Piece → List Piece → Prop where
  | nil : InStep [] []
  | kept {ps qs : List Piece} (piece : Piece) (h : InStep ps qs) :
    InStep (piece :: ps) (piece.withUnixLines :: qs)
  | separator {ps qs : List Piece} (h : InStep ps qs) : InStep (.separator '\r' :: ps) qs
  | comment {ps qs : List Piece} (body : Text) (h : InStep ps qs) :
    InStep (.comment (body ++ ['\r']) :: ps) (.comment body :: qs)

/-- What is shown of the pieces changes with them, if separators and comments are not shown. -/
theorem InStep.onLines_eq {α : Type} {view : Piece → Option α} {change : α → α}
    (hview : ∀ piece : Piece, view piece.withUnixLines = (view piece).map change)
    (hseparator : ∀ c, view (.separator c) = none) (hcomment : ∀ body, view (.comment body) = none)
    {ps qs : List Piece} (h : InStep ps qs) (line : Nat) :
    onLines view line qs = (onLines view line ps).map (Prod.map change id) := by
  induction h generalizing line with
  | nil => rfl
  | kept piece _ ih =>
    rw [onLines_cons, onLines_cons, text_withUnixLines, newlines_unixLines, hview, ih,
      List.map_append]
    cases view piece <;> rfl
  | separator _ ih => rw [onLines_cons_of_none (hseparator _) rfl, ih]
  | comment body _ ih =>
    have hlines : newlines (body ++ ['\r']) = newlines body := newlines_append body ['\r']
    simp only [onLines_cons, hcomment, Piece.text, hlines, ih]
    rfl

/-- Every source has its pieces in step with those of the source with line feeds alone. -/
theorem WellPlaced.exists_inStep {ps : List Piece} (h : WellPlaced ps) :
    ∃ qs, InStep ps qs ∧ qs.flatMap Piece.text = unixLines (ps.flatMap Piece.text) ∧
      WellPlaced qs := by
  induction ps with
  | nil => exact ⟨[], .nil, rfl, trivial⟩
  | cons piece later ih =>
    obtain ⟨hwell, hend, hlater⟩ := h
    obtain ⟨qs, hstep, htext, hplaced⟩ := ih hlater
    by_cases hpair : PairAcross piece.text (later.flatMap Piece.text)
    · obtain ⟨hlast, hhead⟩ := hpair
      obtain ⟨more, hmore⟩ := List.head?_eq_some_iff.1 hhead
      have hclosed : ¬ piece.IsOpen := by
        rintro ⟨body, rfl⟩
        exact absurd (hmore.symm.trans hend) (by simp)
      rw [List.flatMap_cons, hmore]
      rw [hmore] at htext
      rcases hwell.separator_or_comment hclosed hlast with rfl | ⟨body, rfl, hbody⟩
      · refine ⟨qs, .separator hstep, ?_, hplaced⟩
        rw [htext]
        exact (unixLines_return more).symm
      · refine ⟨.comment body :: qs, .comment body hstep, ?_, hbody, ?_, hplaced⟩
        · rw [List.flatMap_cons, htext, Piece.text, Piece.text, List.append_assoc,
            List.singleton_append, unixLines_append (by simp [PairAcross]), unixLines_return,
            hbody.unixLines_comment]
        · rw [htext, unixLines_newline]
          simp [Piece.EndsBefore]
    · refine ⟨piece.withUnixLines :: qs, .kept piece hstep, ?_, hwell.withUnixLines, ?_, hplaced⟩
      · rw [List.flatMap_cons, List.flatMap_cons, text_withUnixLines, htext,
          unixLines_append hpair]
      · rw [htext]
        exact hend.withUnixLines

/-! ## Sources -/

section Source

variable (source : Text)

theorem inStep_pieces : InStep (pieces source) (pieces (unixLines source)) := by
  obtain ⟨qs, hstep, htext, hplaced⟩ := (wellPlaced_pieces source).exists_inStep
  rw [flatMap_text_pieces] at htext
  rwa [pieces_eq_iff.2 ⟨htext, hplaced⟩]

/-- What is shown of all pieces, in step. -/
theorem onLines_unixLines :
    onLines Piece.word? 1 (pieces (unixLines source)) =
        (onLines Piece.word? 1 (pieces source)).map (Prod.map unixWord id) ∧
      onLines Piece.fault? 1 (pieces (unixLines source)) =
        onLines Piece.fault? 1 (pieces source) := by
  have hword : ∀ piece : Piece, piece.withUnixLines.word? = piece.word?.map unixWord := by
    intro piece
    cases piece <;> rfl
  have hfault : ∀ piece : Piece, piece.withUnixLines.fault? = piece.fault?.map id := by
    intro piece
    cases piece <;> rfl
  have hstep := inStep_pieces source
  refine ⟨hstep.onLines_eq hword (fun _ => rfl) (fun _ => rfl) 1, ?_⟩
  rw [hstep.onLines_eq hfault (fun _ => rfl) (fun _ => rfl) 1]
  exact List.map_id _

theorem words_unixLines :
    (tokenize (unixLines source)).proper.map Token.word =
      ((tokenize source).proper.map Token.word).map unixWord := by
  rw [words_tokenize, words_tokenize, ← map_fst_onLines Piece.word? 1, (onLines_unixLines source).1,
    ← map_fst_onLines Piece.word? 1, List.map_map, List.map_map]
  rfl

theorem endsOpen_unixLines :
    (tokenize (unixLines source)).EndsOpen ↔ (tokenize source).EndsOpen := by
  have hfault : ∀ scan : Scan,
      scan.EndsOpen ↔ .unterminatedString ∈ scan.diagnostics.map Diagnostic.fault :=
    fun scan => List.mem_map.symm
  rw [hfault, hfault, faults_tokenize, faults_tokenize, ← map_fst_onLines Piece.fault? 1,
    (onLines_unixLines source).2, map_fst_onLines]

/-- Whether an entry goes on does not depend on what is in its strings. -/
theorem isIncomplete_unixLines : isIncomplete (unixLines source) = isIncomplete source := by
  have hbracket : ∀ word : Kind × Text, (unixWord word).1.bracketMark? = word.1.bracketMark? := by
    rintro ⟨kind, lexeme⟩
    cases kind <;> rfl
  have hasks : ∀ word : Kind × Text, (unixWord word).1.asksForMore = word.1.asksForMore := by
    rintro ⟨kind, lexeme⟩
    cases kind <;> rfl
  rw [Bool.eq_iff_iff, isIncomplete_iff, isIncomplete_iff, startsWithDot_unixLines,
    endsOpen_unixLines, bracketWord_eq_words, bracketWord_eq_words, words_unixLines,
    List.filterMap_map, List.getLast?_map]
  simp [Function.comp_def, hbracket, hasks]

/-- **Line endings make no difference.** With a line feed in place of every pair of a carriage return
    and a line feed, a source has the same tokens and the same diagnostics on the same lines, but for
    the pairs inside strings. So an entry goes on in both forms or in neither. -/
theorem tokenize_unixLines :
    (tokenize (unixLines source)).tokens.map Token.onLine =
        (tokenize source).tokens.map (fun token => (unixWord token.word, token.line)) ∧
      (tokenize (unixLines source)).diagnostics.map Diagnostic.onLine =
        (tokenize source).diagnostics.map Diagnostic.onLine ∧
      isIncomplete (unixLines source) = isIncomplete source := by
  obtain ⟨hwords, hfaults⟩ := onLines_unixLines source
  refine ⟨?_, ?_, isIncomplete_unixLines source⟩
  · have hitems : (tokenize source).tokens.map (fun token => (unixWord token.word, token.line)) =
        ((tokenize source).tokens.map Token.onLine).map (Prod.map unixWord id) := by
      rw [List.map_map]
      rfl
    rw [hitems, tokens_onLine, tokens_onLine, hwords, newlines_unixLines, List.map_append]
    rfl
  · rw [diagnostics_onLine, diagnostics_onLine, hfaults]

end Source

end ScriptLexer
