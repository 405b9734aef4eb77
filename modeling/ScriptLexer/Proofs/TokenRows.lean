import Mathlib.Data.List.Forall2
import ScriptLexer.Proofs.LineBoundary
import ScriptLexer.Proofs.Rescan
import ScriptLexer.Row

set_option autoImplicit false

/-! # Rows can be told apart

The rows of tokens are written one after another, and the lexeme and the value of a string stand in
them as they are, line feeds and control sequences included; a string may even spell a row. Still the
rows say what the tokens are. Read from the left, a row gives its line number, which ends at the bar,
and the name of its kind, which ends at a blank. What follows starts with the lexeme, and since a
blank or a line feed comes after it, it is scanned there as the token that it is of
(`pieces_lexeme`). So the row is known, and with it where the next one starts.
Main statement: `rowsText_tokenize_eq_iff`. -/

namespace ScriptLexer

/-! ## Line numbers -/

/-- Texts before a mark that neither of them holds. -/
theorem append_mark_inj {mark : Char} {a b s t : Text} (ha : mark ∉ a) (hb : mark ∉ b)
    (h : a ++ mark :: s = b ++ mark :: t) : a = b ∧ s = t := by
  induction a generalizing b with
  | nil =>
    cases b with
    | nil => exact ⟨rfl, (List.cons.inj h).2⟩
    | cons d b => exact absurd ((List.cons.inj h).1 ▸ List.mem_cons_self) hb
  | cons c a ih =>
    cases b with
    | nil => exact absurd ((List.cons.inj h).1 ▸ List.mem_cons_self) ha
    | cons d b =>
      obtain ⟨rfl, hlater⟩ := List.cons.inj h
      obtain ⟨rfl, rfl⟩ := ih (fun hm => ha (List.mem_cons_of_mem _ hm))
        (fun hm => hb (List.mem_cons_of_mem _ hm)) hlater
      exact ⟨rfl, rfl⟩

theorem isDigit_of_mem_natText {n : Nat} {c : Char} (h : c ∈ natText n) : IsDigit c :=
  isDigit_iff.1 (Nat.isDigit_of_mem_toDigits (by decide) (by decide) h)

theorem natText_injective {m n : Nat} (h : natText m = natText n) : m = n := by
  have hvalue := congrArg (Nat.ofDigitChars 10 · 0) h
  simpa only [natText, Nat.ofDigitChars_ten_toDigits] using hvalue

theorem dropWhile_padStart (width n : Nat) :
    (padStart width (natText n)).dropWhile (· == ' ') = natText n := by
  apply dropWhile_append_of_stop
  · intro c hc
    rw [List.eq_of_mem_replicate hc]
    rfl
  · intro c hc
    have hdigit := isDigit_of_mem_natText (List.mem_of_mem_head? hc)
    apply beq_false_of_ne
    rintro rfl
    exact absurd hdigit (by decide)

theorem padStart_injective {width m n : Nat}
    (h : padStart width (natText m) = padStart width (natText n)) : m = n := by
  apply natText_injective
  rw [← dropWhile_padStart width m, h, dropWhile_padStart]

theorem bar_not_mem_gutter (n : Nat) : '|' ∉ padStart 4 (natText n) ++ [' '] := by
  intro hbar
  rcases List.mem_append.1 hbar with hpadded | hblank
  · rcases List.mem_append.1 hpadded with hbar | hbar
    · exact absurd (List.eq_of_mem_replicate hbar) (by decide)
    · exact absurd (isDigit_of_mem_natText hbar) (by decide)
  · exact absurd (List.mem_singleton.1 hblank) (by decide)

/-! ## The parts of a row -/

namespace Token

/-- The name of the kind in its colour. -/
def paintedName (token : Token) : Text :=
  (token.kind.paint token.kind.name).render

/-- What a row shows after the lexeme. -/
def afterLexeme (token : Token) : Text :=
  match token.kind.valueText? with
  | some value => renderLine [.plain [' '], .dimmed value]
  | none => ['\n']

theorem renderLine_row_append (token : Token) (rest : Text) :
    renderLine token.row ++ rest =
      controlSequence ['2'] ++ (padStart 4 (natText token.line) ++ [' '] ++ '|' ::
        (controlSequence ['0'] ++ ' ' :: (token.paintedName ++ ' ' ::
          (token.lexeme ++ (token.afterLexeme ++ rest))))) := by
  have hgutter : ∀ text : Text, (Segment.dimmed (text ++ [' ', '|'])).render =
      controlSequence ['2'] ++ (text ++ [' '] ++ '|' :: controlSequence ['0']) := by
    intro text
    simp [Segment.dimmed, Segment.render, Style.wrap, Effect.opening, Effect.closing]
  have hplain : ∀ text : Text, (Segment.plain text).render = text := fun _ => rfl
  rw [row, afterLexeme, renderLine, render_append]
  cases token.kind.valueText? with
  | none => simp [render, hgutter, hplain, paintedName]
  | some value => simp [render, renderLine, hgutter, hplain, paintedName]

/-- No name of a kind has a blank in it, nor do the control sequences around it. -/
theorem blank_not_mem_paintedName (token : Token) : ' ' ∉ token.paintedName := by
  rw [paintedName]
  cases token.kind with
  | symbol s => cases s <;> decide
  | keyword k => cases k <;> decide
  | identifier => decide
  | endOfInput => decide
  -- the value has no part in the name and in the colour
  | string value => exact (by decide : ' ' ∉ ((Kind.string []).paint (Kind.string []).name).render)
  | number value =>
    exact (by decide : ' ' ∉ ((Kind.number ⟨0⟩).paint (Kind.number ⟨0⟩).name).render)

/-! ## What stands in a row -/

/-- What tokens have in common that differ in their places alone. -/
structure LooksLike (a b : Token) : Prop where
  line : a.line = b.line
  kind : a.kind = b.kind
  lexeme : a.lexeme = b.lexeme

/-- What a scan makes: a token of the grammar, or the one that marks the end. -/
inductive IsScanned (token : Token) : Prop where
  | proper (h : (Piece.token token.kind token.lexeme).WellFormed)
  | last (hkind : token.kind = .endOfInput) (hlexeme : token.lexeme = [])

theorem LooksLike.row_eq {a b : Token} (h : a.LooksLike b) : a.row = b.row := by
  rw [row, row, h.line, h.kind, h.lexeme]

/-- A lexeme ends where the value or the end of the row comes. -/
theorem afterLexeme_eq (token : Token) :
    ∃ c rest, IsSpace c ∧ token.afterLexeme = c :: rest := by
  rw [afterLexeme]
  cases token.kind.valueText? with
  | none => exact ⟨'\n', [], by decide, rfl⟩
  | some value => exact ⟨' ', _, by decide, rfl⟩

end Token

/-- In a row a lexeme is found again as its token. -/
theorem pieces_lexeme {token : Token} (h : (Piece.token token.kind token.lexeme).WellFormed)
    (rest : Text) :
    pieces (token.lexeme ++ (token.afterLexeme ++ rest)) =
      .token token.kind token.lexeme :: pieces (token.afterLexeme ++ rest) := by
  obtain ⟨c, after, hspace, hafter⟩ := token.afterLexeme_eq
  apply pieces_append h
  rw [hafter]
  exact endsBefore_space hspace token.kind token.lexeme (after ++ rest)

/-- The token that marks the end has no lexeme, so the row ends where one could start. -/
theorem pieces_last {token : Token} (hkind : token.kind = .endOfInput) (hlexeme : token.lexeme = [])
    (rest : Text) :
    pieces (token.lexeme ++ (token.afterLexeme ++ rest)) = .separator '\n' :: pieces rest := by
  rw [hlexeme, Token.afterLexeme, hkind]
  exact pieces_newline rest

variable {a b : Token}

/-- Lexemes are told apart together with the kinds of their tokens. -/
theorem lexeme_append_inj (ha : a.IsScanned) (hb : b.IsScanned) {s t : Text}
    (h : a.lexeme ++ (a.afterLexeme ++ s) = b.lexeme ++ (b.afterLexeme ++ t)) :
    a.kind = b.kind ∧ a.lexeme = b.lexeme := by
  have hpieces := congrArg pieces h
  cases ha with
  | proper ha =>
    cases hb with
    | proper hb =>
      rw [pieces_lexeme ha, pieces_lexeme hb] at hpieces
      exact Piece.token.inj (List.cons.inj hpieces).1
    | last hkind hlexeme =>
      rw [pieces_lexeme ha, pieces_last hkind hlexeme] at hpieces
      cases (List.cons.inj hpieces).1
  | last hkind hlexeme =>
    cases hb with
    | proper hb =>
      rw [pieces_last hkind hlexeme, pieces_lexeme hb] at hpieces
      cases (List.cons.inj hpieces).1
    | last hkind' hlexeme' => exact ⟨hkind.trans hkind'.symm, hlexeme.trans hlexeme'.symm⟩

/-- A row at the start of a text is the only one there. -/
theorem renderLine_row_append_inj (ha : a.IsScanned) (hb : b.IsScanned) {s t : Text}
    (h : renderLine a.row ++ s = renderLine b.row ++ t) : a.LooksLike b ∧ s = t := by
  have hparts := h
  rw [Token.renderLine_row_append, Token.renderLine_row_append] at hparts
  -- the number ends at the bar
  obtain ⟨hpadded, hname⟩ := append_mark_inj (bar_not_mem_gutter a.line) (bar_not_mem_gutter b.line)
    (List.append_cancel_left hparts)
  -- the name of the kind ends at a blank
  obtain ⟨-, hlexeme⟩ := append_mark_inj a.blank_not_mem_paintedName b.blank_not_mem_paintedName
    (List.cons.inj (List.append_cancel_left hname)).2
  obtain ⟨hkind, hlexeme⟩ := lexeme_append_inj ha hb hlexeme
  have hlike : a.LooksLike b :=
    { line := padStart_injective (List.append_cancel_right hpadded)
      kind := hkind
      lexeme := hlexeme }
  rw [hlike.row_eq] at h
  exact ⟨hlike, List.append_cancel_left h⟩

/-! ## All the rows -/

theorem rowsText_cons (token : Token) (tokens : List Token) :
    rowsText (token :: tokens) = renderLine token.row ++ rowsText tokens := rfl

theorem rowsText_ne_nil (token : Token) (tokens : List Token) : rowsText (token :: tokens) ≠ [] := by
  simp [rowsText_cons, renderLine]

/-- Rows of scanned tokens are told apart one by one, from the first on. -/
theorem rowsText_eq_iff {xs ys : List Token} (hxs : ∀ token ∈ xs, token.IsScanned)
    (hys : ∀ token ∈ ys, token.IsScanned) :
    rowsText xs = rowsText ys ↔ List.Forall₂ Token.LooksLike xs ys := by
  constructor
  · intro h
    induction xs generalizing ys with
    | nil =>
      cases ys with
      | nil => exact .nil
      | cons y ys => exact absurd h.symm (rowsText_ne_nil y ys)
    | cons x xs ih =>
      cases ys with
      | nil => exact absurd h (rowsText_ne_nil x xs)
      | cons y ys =>
        obtain ⟨hx, hxs⟩ := List.forall_mem_cons.1 hxs
        obtain ⟨hy, hys⟩ := List.forall_mem_cons.1 hys
        rw [rowsText_cons, rowsText_cons] at h
        obtain ⟨hlike, hlater⟩ := renderLine_row_append_inj hx hy h
        exact .cons hlike (ih hxs hys hlater)
  · intro h
    clear hxs hys
    induction h with
    | nil => rfl
    | cons hlike _ ih => rw [rowsText_cons, rowsText_cons, hlike.row_eq, ih]

theorem isScanned_of_mem_tokenize (source : Text) :
    ∀ token ∈ (tokenize source).tokens, token.IsScanned := by
  intro token htoken
  rw [tokenize_tokens_eq_proper, List.mem_append, List.mem_singleton] at htoken
  rcases htoken with hproper | rfl
  · exact .proper (wellFormed_ofWord token.word (List.mem_map_of_mem hproper))
  · rw [endToken_eq]
    exact .last rfl rfl

/-- **Rows say what the tokens are.** Two sources show the same rows exactly if they have as many
    tokens and these agree, one after another, in their lines, their kinds with the values, and their
    lexemes. -/
theorem rowsText_tokenize_eq_iff (s t : Text) :
    rowsText (tokenize s).tokens = rowsText (tokenize t).tokens ↔
      List.Forall₂ Token.LooksLike (tokenize s).tokens (tokenize t).tokens :=
  rowsText_eq_iff (isScanned_of_mem_tokenize s) (isScanned_of_mem_tokenize t)

end ScriptLexer
