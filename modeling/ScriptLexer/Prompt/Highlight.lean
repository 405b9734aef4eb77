import ScriptLexer.Prompt.Command
import ScriptLexer.Row

set_option autoImplicit false

/-! # Highlighting

While a line is edited its tokens are shown in the styles of their kinds. Between tokens there is
blank space, comments, and what no token starts with; of this only comments get a style. A line that
starts with a dot is a command and has one colour. -/

namespace ScriptLexer

/-! ## Gaps between tokens -/

/-- A text up to before its first two slashes in a row, and the rest. -/
def splitAtSlashes : Text → Text × Text
  | [] => ([], [])
  | c :: rest =>
    if c = '/' ∧ rest.head? = some '/' then ([], c :: rest)
    else (c :: (splitAtSlashes rest).1, (splitAtSlashes rest).2)

/-- Splitting loses nothing. -/
theorem splitAtSlashes_append (text : Text) :
    (splitAtSlashes text).1 ++ (splitAtSlashes text).2 = text := by
  induction text with
  | nil => rfl
  | cons c rest ih =>
    simp only [splitAtSlashes]
    split <;> simp [ih]

/-- The text between two tokens: dimmed from the first two slashes on, unless a quote before them
    shows that they are part of a string that is not closed. -/
def gapSegments (gap : Text) : List Segment :=
  let (before, comment) := splitAtSlashes gap
  if comment.isEmpty || before.contains '"' then [.plain gap]
  else [.plain before, .dimmed comment]

/-- The characters of a gap are those that it is made of. -/
theorem plainText_gapSegments (gap : Text) : plainText (gapSegments gap) = gap := by
  simp only [gapSegments]
  split
  · simp [plainText, Segment.plain]
  · simp [plainText, Segment.plain, Segment.dimmed, splitAtSlashes_append]

/-! ## Tokens in their gaps -/

/-- The text before the first token, and every token with the text that follows it. -/
def tokensInGaps : List Piece → Text × List (Segment × Text)
  | [] => ([], [])
  | piece :: rest =>
    let (gap, tokens) := tokensInGaps rest
    match piece with
    | .token kind lexeme => ([], (kind.paint lexeme, gap) :: tokens)
    | _ => (piece.text ++ gap, tokens)

/-- A source in the styles of its tokens. -/
def highlightSource (source : Text) : List Segment :=
  let (gap, tokens) := tokensInGaps (pieces source)
  gapSegments gap ++ tokens.flatMap fun (token, after) => token :: gapSegments after

/-- A line as it is shown while it is edited. -/
def highlight (line : Text) : List Segment :=
  if startsWithDot line then [.coloured .magenta line] else highlightSource line

end ScriptLexer
