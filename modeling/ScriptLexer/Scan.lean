import ScriptLexer.Piece
import ScriptLexer.Text.Lines

set_option autoImplicit false

/-! # Scanning

A scan goes through the pieces of a source and keeps count of bytes and lines. Tokens are collected;
a diagnostic is handed over as soon as it is found, to whoever asked for the scan (`scanInto`), and
never changes how the scan goes on. The token list always ends with one token that marks the end of
the input. -/

namespace ScriptLexer

/-! ## Places -/

/-- A place in a source: the bytes before it and the number of its line. -/
structure Position where
  offset : Nat
  line : Nat
deriving DecidableEq

namespace Position

/-- The start of a source. -/
def start : Position := ⟨0, 1⟩

/-- The place after a text. -/
def advance (position : Position) (text : Text) : Position :=
  ⟨position.offset + byteLength text, position.line + newlines text⟩

/-- The bytes of a text that starts here. -/
def span (position : Position) (text : Text) : Span :=
  ⟨position.offset, (position.advance text).offset⟩

/-- The token of a text that starts here. Its line is the one on which it ends. -/
def token (position : Position) (kind : Kind) (lexeme : Text) : Token :=
  ⟨kind, lexeme, (position.advance lexeme).line, position.span lexeme⟩

/-- The diagnostic for a text that starts here. Its line is the one on which it ends. -/
def diagnostic (position : Position) (fault : Fault) (text : Text) : Diagnostic :=
  ⟨(position.advance text).line, position.span text, fault⟩

@[simp]
theorem advance_nil (position : Position) : position.advance [] = position := rfl

theorem advance_append (position : Position) (a b : Text) :
    position.advance (a ++ b) = (position.advance a).advance b := by
  simp [advance, Nat.add_assoc]

end Position

/-! ## Handing over diagnostics -/

variable {σ : Type}

/-- A scan under way; the newest token comes first. -/
structure Progress (σ : Type) where
  position : Position
  tokens : List Token
  reported : Nat
  receiver : σ

/-- Goes on by one piece. -/
def Progress.step (report : σ → Diagnostic → σ) (progress : Progress σ) (piece : Piece) :
    Progress σ :=
  let here := progress.position
  let moved := { progress with position := here.advance piece.text }
  match piece with
  | .separator _ | .comment _ => moved
  | .token kind lexeme => { moved with tokens := here.token kind lexeme :: progress.tokens }
  | .fault fault text =>
    { moved with
      reported := progress.reported + 1
      receiver := report progress.receiver (here.diagnostic fault text) }

/-- A finished scan: the tokens, how many diagnostics were handed over, the number of the last line
    and what the receiver has become. -/
structure Finished (σ : Type) where
  tokens : List Token
  reported : Nat
  lines : Nat
  receiver : σ

/-- Scans a source and hands each diagnostic to the receiver when it is found. -/
def scanInto (report : σ → Diagnostic → σ) (receiver : σ) (source : Text) : Finished σ :=
  let last := (pieces source).foldl (Progress.step report) ⟨.start, [], 0, receiver⟩
  { tokens := (last.position.token .endOfInput [] :: last.tokens).reverse
    reported := last.reported
    lines := last.position.line
    receiver := last.receiver }

/-! ## Collecting diagnostics -/

/-- The tokens and diagnostics of a source. -/
structure Scan where
  tokens : List Token
  diagnostics : List Diagnostic

/-- Whether anything was reported. -/
def Scan.hasErrors (scan : Scan) : Bool :=
  !scan.diagnostics.isEmpty

/-- Scans a source and collects the diagnostics beside the tokens. -/
def tokenize (source : Text) : Scan :=
  let finished := scanInto (fun found diagnostic => found ++ [diagnostic]) [] source
  ⟨finished.tokens, finished.receiver⟩

/-- Scans several sources, each by itself. -/
def tokenizeAll (sources : List Text) : List Scan :=
  sources.map tokenize

/-- The tokens of a source, where its diagnostics do not matter. -/
def tokensOf (source : Text) : List Token :=
  (scanInto (fun _ _ => ()) () source).tokens

end ScriptLexer
