import ScriptLexer.Diagnostic

set_option autoImplicit false

/-! # The pieces of a source

A source falls into pieces: separators, comments, tokens, and stretches that are at fault. The first
character of what is left decides which piece comes next, and at most two characters beyond a piece
decide where it ends. Every piece takes at least one character, so any source is used up
(`flatMap_text_pieces`: the texts of the pieces, put together, are the source).

Places are not part of a piece; `ScriptLexer.Scan` adds them. -/

namespace ScriptLexer

/-! ## Character classes -/

/-- The characters that separate tokens. -/
def isSeparator (c : Char) : Bool :=
  c == ' ' || c == '\r' || c == '\t' || c == '\n'

/-- The characters an identifier can start with. -/
def isWordStart (c : Char) : Bool :=
  c.isAlpha || c == '_'

/-- The characters an identifier can go on with. -/
def isWordChar (c : Char) : Bool :=
  isWordStart c || c.isDigit

/-! ## Pieces -/

/-- A stretch of a source. -/
inductive Piece where
  /-- A character between tokens. -/
  | separator (c : Char)
  /-- Two slashes and the rest of the line. -/
  | comment (text : Text)
  /-- A token with its text. -/
  | token (kind : Kind) (lexeme : Text)
  /-- A text that is no token, and why. -/
  | fault (fault : Fault) (text : Text)
deriving DecidableEq

namespace Piece

/-- The characters of a piece. -/
def text : Piece → Text
  | separator c => [c]
  | comment text => text
  | token _ lexeme => lexeme
  | fault _ text => text

/-! ## Recognising one piece

Each function takes the characters from the start of the piece on, and gives the piece and what
follows it. -/

/-- A comment goes on up to the next line feed, which is not part of it. -/
def nextComment (source : Text) : Piece × Text :=
  (comment (source.takeWhile (· ≠ '\n')), source.dropWhile (· ≠ '\n'))

/-- A string goes on up to the next quote, over line feeds as well; without a quote the whole rest of
    the source is at fault. `rest` follows the opening quote. -/
def nextString (rest : Text) : Piece × Text :=
  match rest.dropWhile (· ≠ '"') with
  | [] => (fault .unterminatedString ('"' :: rest), [])
  | quote :: after =>
    let value := rest.takeWhile (· ≠ '"')
    (token (.string value) ('"' :: value ++ [quote]), after)

/-- The digits at the start of a source, with a point and more digits if a digit follows the point. -/
def splitNumber (source : Text) : Text × Text :=
  let whole := source.takeWhile Char.isDigit
  match source.dropWhile Char.isDigit with
  | [] => (whole, [])
  | point :: after =>
    if point = '.' ∧ (after.head?.any Char.isDigit) then
      (whole ++ point :: after.takeWhile Char.isDigit, after.dropWhile Char.isDigit)
    else (whole, point :: after)

/-- The piece that the text of a number makes. -/
def ofNumber (lexeme : Text) : Piece :=
  match Binary64.parse? lexeme with
  | some value => token (.number value) lexeme
  | none => fault (.invalidNumber lexeme) lexeme

/-- A number is its digits, with a fraction if there is one. -/
def nextNumber (source : Text) : Piece × Text :=
  (ofNumber (splitNumber source).1, (splitNumber source).2)

/-- The kind of a whole word. -/
def wordKind (word : Text) : Kind :=
  match Keyword.ofWord? word with
  | some keyword => .keyword keyword
  | none => .identifier

/-- A word goes on as long as it can. -/
def nextWord (source : Text) : Piece × Text :=
  let word := source.takeWhile isWordChar
  (token (wordKind word) word, source.dropWhile isWordChar)

/-- A symbol takes an equals sign that follows if it can join with it. -/
def nextSymbol (symbol : Symbol) (c : Char) (rest : Text) : Piece × Text :=
  match symbol.withEqual?, rest with
  | some joined, '=' :: after => (token (.symbol joined) [c, '='], after)
  | _, _ => (token (.symbol symbol) [c], rest)

/-- The piece that starts with the character `c`, and what follows it. -/
def next (c : Char) (rest : Text) : Piece × Text :=
  if isSeparator c then (separator c, rest)
  else if c = '/' ∧ rest.head? = some '/' then nextComment (c :: rest)
  else if c = '"' then nextString rest
  else if c.isDigit then nextNumber (c :: rest)
  else if isWordStart c then nextWord (c :: rest)
  else match Symbol.ofChar? c with
    | some symbol => nextSymbol symbol c rest
    | none => (fault (.unexpectedCharacter c) [c], rest)

/-! ## Nothing is lost -/

theorem text_append_nextComment (source : Text) :
    (nextComment source).1.text ++ (nextComment source).2 = source := by
  simp [nextComment, text]

theorem text_append_nextString (rest : Text) :
    (nextString rest).1.text ++ (nextString rest).2 = '"' :: rest := by
  have h : rest.takeWhile (· ≠ '"') ++ rest.dropWhile (· ≠ '"') = rest :=
    List.takeWhile_append_dropWhile
  unfold nextString
  split
  · simp [text]
  · next quote after hd =>
    rw [hd] at h
    simpa [text] using h

theorem splitNumber_append (source : Text) :
    (splitNumber source).1 ++ (splitNumber source).2 = source := by
  have h : source.takeWhile Char.isDigit ++ source.dropWhile Char.isDigit = source :=
    List.takeWhile_append_dropWhile
  unfold splitNumber
  split
  · next hd => rw [hd] at h; simpa using h
  · next point after hd =>
    rw [hd] at h
    split
    · simp [h]
    · simpa using h

@[simp]
theorem text_ofNumber (lexeme : Text) : (ofNumber lexeme).text = lexeme := by
  unfold ofNumber
  split <;> rfl

theorem text_append_nextNumber (source : Text) :
    (nextNumber source).1.text ++ (nextNumber source).2 = source := by
  simp [nextNumber, splitNumber_append]

theorem text_append_nextWord (source : Text) :
    (nextWord source).1.text ++ (nextWord source).2 = source := by
  simp [nextWord, text]

theorem text_append_nextSymbol (symbol : Symbol) (c : Char) (rest : Text) :
    (nextSymbol symbol c rest).1.text ++ (nextSymbol symbol c rest).2 = c :: rest := by
  unfold nextSymbol
  split <;> simp [text]

/-- A piece and what follows it are the source they were taken from. -/
theorem text_append_next (c : Char) (rest : Text) :
    (next c rest).1.text ++ (next c rest).2 = c :: rest := by
  unfold next
  split
  · simp [text]
  split
  · exact text_append_nextComment _
  split
  · next h => rw [text_append_nextString, h]
  split
  · exact text_append_nextNumber _
  split
  · exact text_append_nextWord _
  split
  · exact text_append_nextSymbol _ _ _
  · simp [text]

/-! ## Every piece takes a character -/

theorem splitNumber_ne_nil {c : Char} {rest : Text} (h : c.isDigit = true) :
    (splitNumber (c :: rest)).1 ≠ [] := by
  unfold splitNumber
  rw [List.takeWhile_cons_of_pos h]
  split
  · simp
  · split <;> simp

/-- A piece is never empty. -/
theorem text_next_ne_nil (c : Char) (rest : Text) : (next c rest).1.text ≠ [] := by
  unfold next
  split
  · simp [text]
  split
  · next h => simp [nextComment, text, h.1]
  split
  · unfold nextString
    split <;> simp [text]
  split
  · next h => simpa [nextNumber] using splitNumber_ne_nil h
  split
  · next h => simp [nextWord, text, isWordChar, h]
  split
  · unfold nextSymbol
    split <;> simp [text]
  · simp [text]

/-- What follows a piece is shorter than the source it was taken from. -/
theorem length_next_lt (c : Char) (rest : Text) : (next c rest).2.length < (c :: rest).length := by
  have hlen := congrArg List.length (text_append_next c rest)
  have hpos := List.length_pos_iff.2 (text_next_ne_nil c rest)
  rw [List.length_append] at hlen
  omega

end Piece

/-! ## All pieces -/

/-- The pieces of a source, in order. -/
def pieces : Text → List Piece
  | [] => []
  | c :: rest => (Piece.next c rest).1 :: pieces (Piece.next c rest).2
termination_by source => source.length
decreasing_by exact Piece.length_next_lt c rest

@[simp]
theorem pieces_nil : pieces [] = [] := by
  rw [pieces]

/-- The pieces of a source that is not empty: the next one, then those of what follows it. -/
theorem pieces_cons (c : Char) (rest : Text) :
    pieces (c :: rest) = (Piece.next c rest).1 :: pieces (Piece.next c rest).2 := by
  rw [pieces]

/-- The texts of the pieces, put together, are the source. -/
theorem flatMap_text_pieces (source : Text) : (pieces source).flatMap Piece.text = source := by
  fun_induction pieces source with
  | case1 => rfl
  | case2 c rest ih => rw [List.flatMap_cons, ih, Piece.text_append_next]

end ScriptLexer
