import ScriptLexer.Scan
import ScriptLexer.Style

set_option autoImplicit false

/-! # Rows of tokens

A token is shown on a row: its line number, the name of its kind in the colour of the kind, its
lexeme, and its value if it has one. -/

namespace ScriptLexer

/-- The style of a symbol: brackets stand out, separators do not, and operators share one colour. -/
def Symbol.style : Symbol → Style
  | .leftParen | .rightParen | .leftBrace | .rightBrace => [.colour .yellow]
  | .comma | .dot | .semicolon => []
  | _ => [.colour .cyan]

/-- The style of a kind of token. -/
def Kind.style : Kind → Style
  | .symbol s => s.style
  | .identifier => []
  | .string _ => [.colour .green]
  | .number _ => [.colour .yellow]
  | .keyword _ => [.bold, .colour .magenta]
  | .endOfInput => [.dimmed]

/-- A text in the style of a kind of token. -/
def Kind.paint (kind : Kind) (text : Text) : Segment :=
  ⟨kind.style, text⟩

/-- The row of a token. -/
def Token.row (token : Token) : List Segment :=
  [.dimmed (padStart 4 (natText token.line) ++ " |".toList), .plain [' '],
    token.kind.paint token.kind.name, .plain (' ' :: token.lexeme)] ++
  match token.kind.valueText? with
  | some value => [.plain [' '], .dimmed value]
  | none => []

/-- The rows of several tokens, each on a line. -/
def rowsText (tokens : List Token) : Text :=
  tokens.flatMap fun token => renderLine token.row

end ScriptLexer
