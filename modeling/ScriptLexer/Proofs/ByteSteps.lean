import ScriptLexer.Proofs.ByteScanner

set_option autoImplicit false

/-! # Steps over bytes are steps over pieces

Between two steps the cursor is at the end of a piece, with the line that the pieces before it give
(`Scanner.ofProgress`), and inside a step it has gone over a text that starts there (`Scanner.past`).
Each branch of a step keeps to that, so no read and no cut fails, and a step goes on by one piece
(`Scanner.step_ofProgress`). A run is then the run over the pieces (`scanBytes_eq`). -/

namespace ScriptLexer

/-! ## Between two pieces -/

section Faces

variable {σ : Type} {source text part rest : Text} {progress : Progress σ}

/-- What lies ahead of a scan of pieces is a text and what is left behind it. -/
def Progress.Faces (source : Text) (progress : Progress σ) (text rest : Text) : Prop :=
  ∃ before, source = before ++ (text ++ rest) ∧ progress.position.offset = byteLength before

theorem Progress.Faces.append (h : progress.Faces source text (part ++ rest)) :
    progress.Faces source (text ++ part) rest := by
  obtain ⟨before, hsource, hoffset⟩ := h
  exact ⟨before, by rwa [List.append_assoc], hoffset⟩

theorem Progress.Faces.concat {c : Char} (h : progress.Faces source text (c :: rest)) :
    progress.Faces source (text ++ [c]) rest := by
  rw [← List.singleton_append] at h
  exact h.append

theorem Progress.Faces.takeWhile (h : progress.Faces source text rest) (p : Char → Bool) :
    progress.Faces source (text ++ rest.takeWhile p) (rest.dropWhile p) := by
  rw [← List.takeWhile_append_dropWhile (p := p) (l := rest)] at h
  exact h.append

/-- What lies ahead once a piece is done. -/
theorem Progress.Faces.step {report : σ → Diagnostic → σ} {piece : Piece} {later : Text}
    (h : progress.Faces source [] (piece.text ++ later)) :
    (progress.step report piece).Faces source [] later := by
  obtain ⟨before, hsource, hoffset⟩ := h
  refine ⟨before ++ piece.text, by simpa using hsource, ?_⟩
  rw [step_eq, byteLength_append, ← hoffset]
  rfl

end Faces

theorem bind_ok {α β : Type} (a : α) (next : α → Except Failure β) :
    (Except.ok a >>= next) = next a := rfl

theorem cutOut_append (before part after : Text) :
    cutOut (before ++ (part ++ after)) (byteLength before) (byteLength (before ++ part)) =
      .ok part := by
  rw [cutOut, sliceAt_append]
  rfl

namespace Scanner

section Refinement

variable {σ : Type} (report : σ → Diagnostic → σ) {progress : Progress σ}
  {source text rest : Text}

/-- The scanner that stands where a scan of pieces does. -/
def ofProgress (start : Nat) (progress : Progress σ) : Scanner σ :=
  ⟨start, progress.position.offset, progress.position.line, progress.tokens, progress.reported,
    progress.receiver⟩

/-- The scanner that has stepped over a text since then. -/
def past (progress : Progress σ) (text : Text) : Scanner σ :=
  ofProgress progress.position.offset
    { progress with position := progress.position.advance text }

/-- The scanner once a piece is done. -/
def after (progress : Progress σ) (piece : Piece) : Scanner σ :=
  ofProgress progress.position.offset (progress.step report piece)

theorem current_past {before : Text} (h : progress.position.offset = byteLength before) :
    (past progress text).current = byteLength (before ++ text) := by
  rw [byteLength_append, ← h]
  rfl

theorem past_append (progress : Progress σ) (text part : Text) :
    past progress (text ++ part) =
      { past progress text with
        current := (past progress text).current + byteLength part
        line := (past progress text).line + newlines part } := by
  simp [past, ofProgress, Position.advance, Nat.add_assoc]

section Reads

variable (h : progress.Faces source text rest)
include h

theorem byteAt?_past (ahead : Nat) :
    byteAt? source ((past progress text).current + ahead) = byteAt? rest ahead := by
  obtain ⟨before, rfl, hoffset⟩ := h
  rw [current_past hoffset, ← List.append_assoc, byteAt?_append]

theorem peek_past : (past progress text).peek source = byteAt? rest 0 :=
  byteAt?_past h 0

theorem isAtEnd_past : (past progress text).isAtEnd source = true ↔ rest = [] := by
  obtain ⟨before, rfl, hoffset⟩ := h
  rw [isAtEnd, decide_eq_true_iff, length_asBytes, current_past hoffset, ← byteLength_eq_zero_iff]
  simp only [byteLength_append]
  omega

theorem lexeme_past : (past progress text).lexeme source = .ok text := by
  obtain ⟨before, rfl, hoffset⟩ := h
  have hcut := cutOut_append before text rest
  rw [byteLength_append, ← hoffset] at hcut
  exact hcut

/-- A token is added with the text that was stepped over. -/
theorem addToken_past (kind : Kind) :
    (past progress text).addToken source kind = .ok (after report progress (.token kind text)) := by
  rw [addToken, lexeme_past h]
  rfl

theorem skipWhile_past {p : Char → Bool} (hp : Bytewise p) (hline : p '\n' = false) :
    (past progress text).skipWhile source p = past progress (text ++ rest.takeWhile p) := by
  obtain ⟨before, rfl, hoffset⟩ := h
  have hstop : newlines (rest.takeWhile p) = 0 := by
    refine newlines_of_not_mem ?_
    intro hmem
    rw [List.mem_takeWhile_imp hmem] at hline
    contradiction
  rw [skipWhile, current_past hoffset, ← List.append_assoc, stretchEnd_append hp,
    ← current_past hoffset, past_append, hstop]
  rfl

end Reads

/-- Stepping over a character of one byte that is no line feed. -/
theorem past_concat {mark : Char} (hmark : mark.toNat < 128) (hline : mark ≠ '\n') :
    past progress (text ++ [mark]) = (past progress text).forward := by
  have hsize : byteLength [mark] = 1 := by
    simp [utf8Size_eq_one_iff_lt.2 hmark]
  rw [past_append, hsize, newlines_of_not_mem (by simpa using Ne.symm hline)]
  rfl

theorem matchNext_past {mark : Char} (h : progress.Faces source text (mark :: rest))
    (hmark : mark.toNat < 128) (hline : mark ≠ '\n') :
    (past progress text).matchNext source mark = (true, past progress (text ++ [mark])) := by
  have hnext : (past progress text).peek source = some mark := by
    rw [peek_past h, byteAt?_zero_eq_some_iff hmark, List.head?_cons]
  rw [matchNext, if_pos hnext, past_concat hmark hline]

theorem matchNext_past_of_ne {mark : Char} (h : progress.Faces source text rest)
    (hmark : mark.toNat < 128) (hnext : rest.head? ≠ some mark) :
    (past progress text).matchNext source mark = (false, past progress text) := by
  rw [matchNext, if_neg]
  rwa [peek_past h, byteAt?_zero_eq_some_iff hmark]

/-! ## The branches -/

/-- A point and digits are stepped over together. -/
theorem skipFraction_past {later : Text} (h : progress.Faces source text ('.' :: later))
    (hdigit : later.head?.any Char.isDigit = true) :
    (past progress text).skipFraction source =
        past progress (text ++ '.' :: later.takeWhile Char.isDigit) ∧
      progress.Faces source (text ++ '.' :: later.takeWhile Char.isDigit)
        (later.dropWhile Char.isDigit) := by
  have hpoint : (past progress text).peek source = some '.' := by
    rw [peek_past h, byteAt?_zero_eq_some_iff (by decide), List.head?_cons]
  have hnext : ((past progress text).peekNext source).any Char.isDigit = true := by
    rw [peekNext, byteAt?_past h, byteAt?_succ (by decide), bytewise_isDigit.any_byteAt?_zero, hdigit]
  have hfaces : progress.Faces source (text ++ ['.']) later :=
    h.concat
  have htaken := hfaces.takeWhile Char.isDigit
  have hskip := skipWhile_past hfaces bytewise_isDigit (by decide)
  rw [past_concat (by decide) (by decide)] at hskip
  rw [List.append_assoc, List.singleton_append] at hskip htaken
  rw [skipFraction, if_pos ⟨hpoint, hnext⟩, hskip]
  exact ⟨rfl, htaken⟩

theorem skipFraction_past_of_none (h : progress.Faces source text rest)
    (hnone : ∀ later, rest = '.' :: later → later.head?.any Char.isDigit = false) :
    (past progress text).skipFraction source = past progress text := by
  rw [skipFraction, if_neg]
  rintro ⟨hpoint, hnext⟩
  rw [peek_past h, byteAt?_zero_eq_some_iff (by decide)] at hpoint
  obtain ⟨later, rfl⟩ := List.head?_eq_some_iff.1 hpoint
  rw [peekNext, byteAt?_past h, byteAt?_succ (by decide), bytewise_isDigit.any_byteAt?_zero,
    hnone later rfl] at hnext
  contradiction

section Branches

variable {c : Char} (h : progress.Faces source [c] rest)
include h

theorem scanSymbol_past (symbol : Symbol) :
    (past progress [c]).scanSymbol source symbol =
      .ok (after report progress (Piece.nextSymbol symbol c rest).1) := by
  unfold scanSymbol
  cases hjoined : symbol.withEqual? with
  | none =>
    rw [Piece.nextSymbol_alone (by simp [hjoined])]
    exact addToken_past report h _
  | some joined =>
    by_cases hequal : rest.head? = some '='
    · obtain ⟨rest, rfl⟩ := List.head?_eq_some_iff.1 hequal
      rw [Piece.nextSymbol_joined hjoined]
      simp only [matchNext_past h (by decide) (by decide)]
      exact addToken_past report h.concat _
    · rw [Piece.nextSymbol_alone fun _ => hequal]
      simp only [matchNext_past_of_ne h (by decide) hequal]
      exact addToken_past report h _

theorem scanWord_past (hc : IsLetter c) :
    (past progress [c]).scanWord source =
      .ok (after report progress (Piece.nextWord (c :: rest)).1) := by
  have hword : (c :: rest).takeWhile isWordChar = [c] ++ rest.takeWhile isWordChar :=
    List.takeWhile_cons_of_pos (isWordChar_iff.2 (.inl hc))
  have htaken := h.takeWhile isWordChar
  rw [scanWord, skipWhile_past h bytewise_isWordChar (by decide), Piece.nextWord, hword]
  simp only [lexeme_past htaken, bind_ok]
  exact addToken_past report htaken _

theorem skipNumber_past (hc : IsDigit c) :
    ((past progress [c]).skipWhile source Char.isDigit).skipFraction source =
        past progress (Piece.splitNumber (c :: rest)).1 ∧
      progress.Faces source (Piece.splitNumber (c :: rest)).1
        (Piece.splitNumber (c :: rest)).2 := by
  have hdigit := isDigit_iff.2 hc
  have hwhole : (c :: rest).takeWhile Char.isDigit = [c] ++ rest.takeWhile Char.isDigit :=
    List.takeWhile_cons_of_pos hdigit
  have htaken := h.takeWhile Char.isDigit
  rw [skipWhile_past h bytewise_isDigit (by decide), Piece.splitNumber, hwhole,
    List.dropWhile_cons_of_pos hdigit]
  generalize [c] ++ rest.takeWhile Char.isDigit = whole at htaken ⊢
  generalize rest.dropWhile Char.isDigit = left at htaken ⊢
  cases left with
  | nil => exact ⟨skipFraction_past_of_none htaken (by simp), htaken⟩
  | cons point later =>
    by_cases hfraction : point = '.' ∧ later.head?.any Char.isDigit = true
    · obtain ⟨rfl, hnext⟩ := hfraction
      simp only [hnext, and_self, if_true]
      exact skipFraction_past htaken hnext
    · simp only [if_neg hfraction]
      refine ⟨skipFraction_past_of_none htaken ?_, htaken⟩
      intro after hafter
      obtain ⟨rfl, rfl⟩ := List.cons.inj hafter
      simpa using hfraction

theorem scanNumber_past (hc : IsDigit c) :
    (past progress [c]).scanNumber report source =
      .ok (after report progress (Piece.nextNumber (c :: rest)).1) := by
  obtain ⟨hskip, hfaces⟩ := skipNumber_past h hc
  rw [scanNumber, hskip]
  simp only [lexeme_past hfaces, bind_ok, Piece.nextNumber, Piece.ofNumber]
  cases Binary64.parse? (Piece.splitNumber (c :: rest)).1 with
  | some value => exact addToken_past report hfaces _
  | none => rfl

/-- The whole character is reported, of which one byte was read. -/
theorem unexpectedCharacter_past (hc : c ≠ '\n') :
    (past progress []).forward.unexpectedCharacter report source =
      .ok (after report progress (.fault (.unexpectedCharacter c) [c])) := by
  obtain ⟨before, rfl, hoffset⟩ := h
  have hcut : cutOut (before ++ ([c] ++ rest)) (past progress []).forward.start
      (byteLength (before ++ ([c] ++ rest))) = .ok ([c] ++ rest) := by
    have hcut := cutOut_append before ([c] ++ rest) []
    rwa [List.append_nil, ← hoffset] at hcut
  have hline : newlines [c] = 0 := newlines_of_not_mem (by simpa using Ne.symm hc)
  have hpast : { (past progress []).forward with
      current := (past progress []).forward.start + c.utf8Size } = past progress [c] := by
    simp [past, forward, ofProgress, Position.advance, hline]
  rw [unexpectedCharacter, hcut, bind_ok]
  exact congrArg (fun taken => Except.ok (taken.handOver report (.unexpectedCharacter c))) hpast

end Branches

theorem scanSlash_past (h : progress.Faces source ['/'] rest) :
    (past progress ['/']).scanSlash source =
      .ok (after report progress (Piece.next '/' rest).1) := by
  unfold scanSlash
  by_cases hslash : rest.head? = some '/'
  · obtain ⟨rest, rfl⟩ := List.head?_eq_some_iff.1 hslash
    have hboth : progress.Faces source ['/', '/'] rest := h.concat
    have hskip := skipWhile_past hboth (bytewise_ne (by decide : '\n'.toNat < 128)) (by decide)
    simp only [matchNext_past h (by decide) (by decide)]
    -- a comment has no line feed, so that nothing is to be counted
    exact congrArg Except.ok hskip
  · rw [Piece.next_symbol rfl fun _ => hslash, Piece.nextSymbol_alone (by simp [Symbol.withEqual?])]
    simp only [matchNext_past_of_ne h (by decide) hslash]
    exact addToken_past report h _

theorem skipToQuote_past (h : progress.Faces source text rest) :
    (past progress text).skipToQuote source =
      past progress (text ++ rest.takeWhile (· ≠ '"')) := by
  obtain ⟨before, rfl, hoffset⟩ := h
  rw [skipToQuote, past_append, current_past hoffset, ← List.append_assoc, quoteAhead_append]

/-- The value of a string stands between its quotes. -/
theorem cutOut_value {value : Text} (h : progress.Faces source ('"' :: value ++ ['"']) rest) :
    cutOut source ((past progress ('"' :: value ++ ['"'])).start + 1)
      ((past progress ('"' :: value ++ ['"'])).current - 1) = .ok value := by
  obtain ⟨before, rfl, hoffset⟩ := h
  have hquote : byteLength ['"'] = 1 := by decide
  have hcut := cutOut_append (before ++ ['"']) value ('"' :: rest)
  simp only [byteLength_append, ← hoffset, hquote] at hcut
  have hcurrent : (past progress ('"' :: value ++ ['"'])).current - 1 =
      progress.position.offset + 1 + byteLength value := by
    simp only [past, ofProgress, Position.advance, List.cons_append]
    rw [← List.singleton_append, byteLength_append, byteLength_append, hquote]
    omega
  rw [hcurrent, ← hcut]
  simp [past, ofProgress]

theorem scanString_past (h : progress.Faces source ['"'] rest) :
    (past progress ['"']).scanString report source =
      .ok (after report progress (Piece.nextString rest).1) := by
  have hlater : progress.Faces source ('"' :: rest.takeWhile (· ≠ '"'))
      (rest.dropWhile (· ≠ '"')) := h.takeWhile _
  have hhead := head?_dropWhile_eq_false (fun c => decide (c ≠ '"')) rest
  have hall : rest.takeWhile (· ≠ '"') ++ rest.dropWhile (· ≠ '"') = rest :=
    List.takeWhile_append_dropWhile
  rw [scanString, skipToQuote_past h, List.singleton_append]
  unfold Piece.nextString
  generalize rest.takeWhile (· ≠ '"') = value at *
  generalize rest.dropWhile (· ≠ '"') = left at *
  cases left with
  | nil =>
    rw [List.append_nil] at hall
    subst hall
    have hend : (past progress ('"' :: value)).isAtEnd source = true := (isAtEnd_past hlater).2 rfl
    simp only [hend, if_true]
    rfl
  | cons quote later =>
    obtain rfl : quote = '"' := by
      simpa using hhead quote rfl
    have hmore : ¬ (past progress ('"' :: value)).isAtEnd source = true := by
      rw [isAtEnd_past hlater]
      exact List.cons_ne_nil _ _
    have hclosed : progress.Faces source ('"' :: value ++ ['"']) later :=
      hlater.concat
    have hpast : past progress ('"' :: value ++ ['"']) = (past progress ('"' :: value)).forward :=
      past_concat (by decide) (by decide)
    simp only [if_neg hmore, ← hpast, cutOut_value hclosed, bind_ok]
    exact addToken_past report hclosed _

/-! ## Steps -/

theorem ofChar?_eq_none {c : Char} (h : IsLetter c ∨ IsDigit c) : Symbol.ofChar? c = none := by
  rw [Option.eq_none_iff_forall_ne_some]
  intro symbol hsymbol
  obtain ⟨-, -, hdigit, hletter⟩ := Piece.unnamed_of_ofChar? hsymbol
  exact h.elim hletter hdigit

section Dispatch

variable {byte : Char} (scanner : Scanner σ)

theorem dispatch_symbol {symbol : Symbol} (h : Symbol.ofChar? byte = some symbol)
    (hslash : symbol ≠ .slash) :
    scanner.dispatch report source byte = scanner.scanSymbol source symbol := by
  unfold dispatch
  rw [h]
  split
  · next heq => exact absurd (Option.some.inj heq) hslash
  · next heq => rw [Option.some.inj heq]
  · contradiction

theorem dispatch_digit (h : IsDigit byte) :
    scanner.dispatch report source byte = scanner.scanNumber report source := by
  obtain ⟨hspace, -, hquote⟩ := Piece.unnamed_of_wordChar (.inr h)
  simp only [IsSpace, not_or] at hspace
  simp [dispatch, ofChar?_eq_none (.inr h), hspace, hquote, isDigit_iff.2 h]

theorem dispatch_letter (h : IsLetter byte) :
    scanner.dispatch report source byte = scanner.scanWord source := by
  obtain ⟨hspace, -, hquote⟩ := Piece.unnamed_of_wordChar (.inl h)
  simp only [IsSpace, not_or] at hspace
  simp [dispatch, ofChar?_eq_none (.inl h), hspace, hquote, isDigit_iff,
    Piece.not_digit_of_letter h, isWordStart_iff.2 h]

theorem dispatch_other (h : OpensNothing byte) :
    scanner.dispatch report source byte = scanner.unexpectedCharacter report source := by
  have hspace := h.not_space
  simp only [IsSpace, not_or] at hspace
  simp [dispatch, h.no_symbol, hspace, h.ne_quote, isDigit_iff, h.not_digit, isWordStart_iff,
    h.not_letter]

end Dispatch

/-- What is done at a first byte below 128 makes the piece that starts with it. -/
theorem dispatch_past {c : Char} (h : progress.Faces source [c] rest) (hc : c.toNat < 128) :
    (past progress []).forward.dispatch report source c =
      .ok (after report progress (Piece.next c rest).1) := by
  by_cases hspace : IsSpace c
  · rw [Piece.next_separator hspace]
    -- the line of a line feed is counted here
    rcases hspace with rfl | rfl | rfl | rfl <;> rfl
  have hline : c ≠ '\n' := by
    rintro rfl
    exact hspace (by decide)
  have hfirst : (past progress []).forward = past progress [c] := (past_concat hc hline).symm
  rcases Piece.opening_cases c with h' | rfl | hdigit | hletter | ⟨symbol, hsymbol⟩ | hother
  · exact absurd h' hspace
  · rw [Piece.next_quote, ← scanString_past report h, hfirst]
    rfl
  · rw [Piece.next_digit hdigit, hfirst, dispatch_digit report _ hdigit]
    exact scanNumber_past report h hdigit
  · rw [Piece.next_letter hletter, hfirst, dispatch_letter report _ hletter]
    exact scanWord_past report h hletter
  · rw [hfirst]
    by_cases hslash : symbol = .slash
    · obtain rfl : c = '/' := (Piece.spelling_of_ofChar? hsymbol).2 hslash
      exact scanSlash_past report h
    · have hne : c ≠ '/' := by
        rintro rfl
        exact hslash (Option.some.inj hsymbol).symm
      rw [Piece.next_symbol hsymbol fun heq => absurd heq hne,
        dispatch_symbol report _ hsymbol hslash]
      exact scanSymbol_past report h symbol
  · rw [Piece.next_other hother, dispatch_other report _ hother]
    exact unexpectedCharacter_past report h hline

/-- A step goes on by the piece that comes next. -/
theorem step_ofProgress {c : Char} (h : progress.Faces source [] (c :: rest)) (start : Nat) :
    (ofProgress start progress).step report source =
      .ok (after report progress (Piece.next c rest).1) := by
  have hfaces : progress.Faces source [c] rest := h.concat
  obtain ⟨byte, hmem, hbyte⟩ := exists_byteAt?_zero c rest
  have hread : byteAt? source (past progress []).current = some byte := by
    rw [← hbyte]
    exact byteAt?_past h 0
  have hadvance : (past progress []).advance source = .ok (byte, (past progress []).forward) := by
    rw [advance, hread]
  rw [step]
  show ((past progress []).advance source >>= _) = _
  simp only [hadvance, bind_ok]
  rcases mem_asBytes_singleton hmem with ⟨hlt, rfl⟩ | ⟨hc, hb⟩
  · exact dispatch_past report hfaces hlt
  · have hline : c ≠ '\n' := by
      rintro rfl
      exact absurd hc (by decide)
    rw [Piece.next_other (opensNothing_of_le hc), dispatch_other report _ (opensNothing_of_le hb)]
    exact unexpectedCharacter_past report hfaces hline

/-! ## Runs -/

theorem isAtEnd_ofProgress (h : progress.Faces source [] rest) (start : Nat) :
    (ofProgress start progress).isAtEnd source = true ↔ rest = [] :=
  isAtEnd_past h

/-- A step takes the bytes of its piece. -/
theorem current_after (piece : Piece) :
    (after report progress piece).current = progress.position.offset + byteLength piece.text := by
  rw [after, step_eq]
  rfl

/-- A run goes on piece by piece up to the end. -/
theorem run_ofProgress (h : progress.Faces source [] rest) (start : Nat) :
    ∃ last, (ofProgress start progress).run report source =
      .ok (ofProgress last ((pieces rest).foldl (Progress.step report) progress)) := by
  fun_induction pieces rest generalizing progress start with
  | case1 =>
    refine ⟨start, ?_⟩
    rw [run, if_pos ((isAtEnd_ofProgress h start).2 rfl)]
    rfl
  | case2 c rest ih =>
    have hmore : ¬ (ofProgress start progress).isAtEnd source = true := by
      rw [isAtEnd_ofProgress h start]
      exact List.cons_ne_nil c rest
    have hlt : (ofProgress start progress).current <
        (after report progress (Piece.next c rest).1).current := by
      rw [current_after]
      exact Nat.lt_add_of_pos_right (byteLength_pos (Piece.text_next_ne_nil c rest))
    have hlater : (progress.step report (Piece.next c rest).1).Faces source []
        (Piece.next c rest).2 := by
      rw [← Piece.text_append_next c rest] at h
      exact h.step
    obtain ⟨last, hlast⟩ := ih hlater progress.position.offset
    refine ⟨last, ?_⟩
    rw [run, if_neg hmore]
    simp only [step_ofProgress report h start, if_pos hlt]
    exact hlast

end Refinement

end Scanner

section Scans

variable {σ : Type}

/-- A scan of bytes is the scan of the pieces. -/
theorem scanBytes_eq (report : σ → Diagnostic → σ) (receiver : σ) (source : Text) :
    scanBytes report receiver source = .ok (scanInto report receiver source) := by
  have hfaces : (Progress.mk .start [] 0 receiver).Faces source [] source := ⟨[], rfl, rfl⟩
  obtain ⟨last, hrun⟩ := Scanner.run_ofProgress report hfaces 0
  have hend : ((pieces source).foldl (Progress.step report)
      ⟨.start, [], 0, receiver⟩).position.offset = byteLength source := by
    rw [foldl_step, flatMap_text_pieces]
    exact Nat.zero_add _
  rw [scanBytes]
  show ((Scanner.ofProgress 0 ⟨.start, [], 0, receiver⟩).run report source >>= _) = _
  rw [hrun, bind_ok, ← hend]
  rfl

theorem tokenizeBytes_eq (source : Text) : tokenizeBytes source = .ok (tokenize source) := by
  rw [tokenizeBytes, scanBytes_eq]
  rfl

end Scans

end ScriptLexer
