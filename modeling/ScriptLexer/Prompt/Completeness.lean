import ScriptLexer.Prompt.Command
import ScriptLexer.Scan

set_option autoImplicit false

/-! # Complete entries

An entry at the prompt goes on over the next line as long as it cannot stand by itself: a string or a
bracket is still to be closed, or the last token asks for something after it. A bracket that does not
match is left to be complained about later; no further line would mend it. -/

namespace ScriptLexer

/-! ## Brackets -/

/-- The two kinds of bracket. -/
inductive Bracket where
  | paren | brace
deriving DecidableEq

/-- A bracket that opens or closes. -/
inductive BracketMark where
  | opening (bracket : Bracket)
  | closing (bracket : Bracket)
deriving DecidableEq

/-- The bracket that a kind of token is. -/
def Kind.bracketMark? : Kind → Option BracketMark
  | .symbol .leftParen => some (.opening .paren)
  | .symbol .rightParen => some (.closing .paren)
  | .symbol .leftBrace => some (.opening .brace)
  | .symbol .rightBrace => some (.closing .brace)
  | _ => none

/-- Whether nothing is left to close after the given brackets, where the brackets in `pending` are
    open, the innermost first. A closing bracket that does not match settles it. -/
def isSettled : List Bracket → List BracketMark → Bool
  | pending, [] => pending.isEmpty
  | pending, .opening bracket :: rest => isSettled (bracket :: pending) rest
  | pending, .closing bracket :: rest =>
    match pending with
    | innermost :: outer => if innermost = bracket then isSettled outer rest else true
    | [] => true

/-- Whether no bracket among the tokens is still to be closed. -/
def isBalanced (tokens : List Token) : Bool :=
  isSettled [] (tokens.filterMap fun token => token.kind.bracketMark?)

/-! ## Entries -/

/-- The symbols after which an entry goes on. -/
def Symbol.asksForMore : Symbol → Bool
  | .plus | .minus | .star | .slash | .equal | .comma | .leftBrace | .leftParen => true
  | _ => false

/-- Whether an entry goes on after a token of this kind. -/
def Kind.asksForMore : Kind → Bool
  | .symbol s => s.asksForMore
  | _ => false

/-- The last token before the end of the input. -/
def lastToken? (tokens : List Token) : Option Token :=
  tokens.reverse.find? fun token => !token.isEnd

/-- Whether an entry needs another line. A command never does. -/
def isIncomplete (input : Text) : Bool :=
  if startsWithDot input then false
  else
    let scan := tokenize input
    scan.diagnostics.any (·.fault == .unterminatedString) ||
      !isBalanced scan.tokens ||
      (lastToken? scan.tokens).any (·.kind.asksForMore)

end ScriptLexer
