import ScriptLexer.Number.Written
import ScriptLexer.Token.Keyword
import ScriptLexer.Token.Symbol

set_option autoImplicit false

/-! # Tokens

A token has a kind, the exact text it was recognised from, its place in the source and the number of
the line on which it ends. Numbers and strings carry their value in the kind. -/

namespace ScriptLexer

/-! ## Spans -/

/-- The bytes from `start` up to before `stop`. -/
structure Span where
  start : Nat
  stop : Nat
deriving DecidableEq

/-- The number of bytes; a span that ends before it starts has none. -/
def Span.length? (span : Span) : Option Nat :=
  if span.start ≤ span.stop then some (span.stop - span.start) else none

/-- Whether a span starts where it ends. -/
def Span.isEmpty (span : Span) : Bool :=
  span.start == span.stop

/-! ## Kinds -/

/-- The kinds of token. -/
inductive Kind where
  | symbol (symbol : Symbol)
  | identifier
  | string (value : Text)
  | number (value : Binary64)
  | keyword (keyword : Keyword)
  | endOfInput
deriving DecidableEq

namespace Kind

/-- The name of a kind, without the value it carries. -/
def name : Kind → Text
  | symbol s => s.name
  | identifier => "IDENTIFIER".toList
  | string _ => "STRING".toList
  | number _ => "NUMBER".toList
  | keyword k => k.name
  | endOfInput => "END_OF_INPUT".toList

/-- Whether the kind is a reserved word. -/
def isKeyword : Kind → Bool
  | keyword _ => true
  | _ => false

/-- Whether tokens of the kind differ in their text: identifiers, strings and numbers. -/
def isLiteral : Kind → Bool
  | identifier | string _ | number _ => true
  | _ => false

/-- The text of the value that the kind carries. -/
def valueText? : Kind → Option Text
  | string value => some value
  | number value => some value.text
  | _ => none

end Kind

/-! ## Tokens -/

/-- A token of a source. -/
structure Token where
  kind : Kind
  lexeme : Text
  line : Nat
  span : Span
deriving DecidableEq

namespace Token

/-- Whether the token marks the end of the input. -/
def isEnd (token : Token) : Bool :=
  token.kind == .endOfInput

/-- The name of the kind, the lexeme and the value if there is one, with blanks between them. -/
def description (token : Token) : Text :=
  token.kind.name ++ ' ' :: token.lexeme ++
    match token.kind.valueText? with
    | some value => ' ' :: value
    | none => []

end Token

end ScriptLexer
