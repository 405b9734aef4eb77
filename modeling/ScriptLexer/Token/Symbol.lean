import ScriptLexer.Text.Bytes

set_option autoImplicit false

/-! # Punctuation and operators

Fifteen characters are symbols by themselves. Four of them join with an equals sign that follows
directly. -/

namespace ScriptLexer

/-- Punctuation and operators. -/
inductive Symbol where
  | leftParen | rightParen | leftBrace | rightBrace
  | comma | dot | minus | plus | semicolon | star | slash
  | bang | bangEqual | equal | equalEqual | less | lessEqual | greater | greaterEqual
deriving DecidableEq

namespace Symbol

/-- The symbol that a single character stands for. -/
def ofChar? : Char → Option Symbol
  | '(' => some leftParen
  | ')' => some rightParen
  | '{' => some leftBrace
  | '}' => some rightBrace
  | ',' => some comma
  | '.' => some dot
  | '-' => some minus
  | '+' => some plus
  | ';' => some semicolon
  | '*' => some star
  | '/' => some slash
  | '!' => some bang
  | '=' => some equal
  | '<' => some less
  | '>' => some greater
  | _ => none

/-- The symbol that results when an equals sign follows. -/
def withEqual? : Symbol → Option Symbol
  | bang => some bangEqual
  | equal => some equalEqual
  | less => some lessEqual
  | greater => some greaterEqual
  | _ => none

/-- The name of a symbol as a kind of token. -/
def name : Symbol → Text
  | leftParen => "LEFT_PAREN".toList
  | rightParen => "RIGHT_PAREN".toList
  | leftBrace => "LEFT_BRACE".toList
  | rightBrace => "RIGHT_BRACE".toList
  | comma => "COMMA".toList
  | dot => "DOT".toList
  | minus => "MINUS".toList
  | plus => "PLUS".toList
  | semicolon => "SEMICOLON".toList
  | star => "STAR".toList
  | slash => "SLASH".toList
  | bang => "BANG".toList
  | bangEqual => "BANG_EQUAL".toList
  | equal => "EQUAL".toList
  | equalEqual => "EQUAL_EQUAL".toList
  | less => "LESS".toList
  | lessEqual => "LESS_EQUAL".toList
  | greater => "GREATER".toList
  | greaterEqual => "GREATER_EQUAL".toList

end Symbol

end ScriptLexer
