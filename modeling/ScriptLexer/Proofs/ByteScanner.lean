import ScriptLexer.Proofs.ByteReads
import ScriptLexer.Proofs.Offsets

set_option autoImplicit false

/-! # Scanning by bytes

A scan can be made with a cursor that goes over the bytes of a source. It looks at a byte or two, steps
over stretches of bytes, and cuts a lexeme out of the source where it has come to its end. It counts a
line where it steps over a line feed, between tokens or inside a string; a comment leaves the line feed
after it behind. A read and a cut can fail, and the loop would not end if a step took nothing
(`Failure`). -/

namespace ScriptLexer

/-! ## The scanner -/

/-- Why a scan breaks off. -/
inductive Failure where
  /-- There is no byte to be read. -/
  | read (offset : Nat)
  /-- The source cannot be cut there. -/
  | cut (place : BadOffset)
  /-- A step has not gone on. -/
  | stall (offset : Nat)

/-- A scan of bytes under way; the newest token comes first. -/
structure Scanner (σ : Type) where
  /-- Where the piece at hand starts. -/
  start : Nat
  /-- The offset of the next byte. -/
  current : Nat
  line : Nat
  tokens : List Token
  reported : Nat
  receiver : σ

/-- The text between two offsets of a source. -/
def cutOut (source : Text) (start stop : Nat) : Except Failure Text :=
  (sliceAt source start stop).mapError .cut

namespace Scanner

section Steps

variable {σ : Type} (report : σ → Diagnostic → σ) (source : Text) (scanner : Scanner σ)

/-- Whether no byte is left. -/
def isAtEnd : Bool :=
  (asBytes source).length ≤ scanner.current

/-- The scanner one byte further on. -/
def forward : Scanner σ :=
  { scanner with current := scanner.current + 1 }

/-- The next byte, and the scanner behind it. -/
def advance : Except Failure (Char × Scanner σ) :=
  match byteAt? source scanner.current with
  | some byte => .ok (byte, scanner.forward)
  | none => .error (.read scanner.current)

/-- The next byte, if there is one. -/
def peek : Option Char :=
  byteAt? source scanner.current

/-- The byte after the next. -/
def peekNext : Option Char :=
  byteAt? source (scanner.current + 1)

/-- Steps over the next byte if it is the expected one, and says whether it was. -/
def matchNext (expected : Char) : Bool × Scanner σ :=
  if scanner.peek source = some expected then (true, scanner.forward) else (false, scanner)

/-- Steps over the bytes of a class. -/
def skipWhile (p : Char → Bool) : Scanner σ :=
  { scanner with current := stretchEnd p source scanner.current }

/-- The text that was stepped over since the start of the piece. -/
def lexeme : Except Failure Text :=
  cutOut source scanner.start scanner.current

/-- Adds a token that ends here. -/
def addToken (kind : Kind) : Except Failure (Scanner σ) := do
  let lexeme ← scanner.lexeme source
  let token := ⟨kind, lexeme, scanner.line, ⟨scanner.start, scanner.current⟩⟩
  return { scanner with tokens := token :: scanner.tokens }

/-- Hands over a diagnostic for what was stepped over. -/
def handOver (fault : Fault) : Scanner σ :=
  let diagnostic := ⟨scanner.line, ⟨scanner.start, scanner.current⟩, fault⟩
  { scanner with
    reported := scanner.reported + 1
    receiver := report scanner.receiver diagnostic }

/-- A symbol other than a slash, with an equals sign if it can join with one that follows. -/
def scanSymbol (symbol : Symbol) : Except Failure (Scanner σ) :=
  match symbol.withEqual? with
  | some joined =>
    let (joins, taken) := scanner.matchNext source '='
    taken.addToken source (.symbol (if joins then joined else symbol))
  | none => scanner.addToken source (.symbol symbol)

/-- A slash, or a comment. The line feed that ends a comment is left behind, and no line is counted. -/
def scanSlash : Except Failure (Scanner σ) :=
  let (doubled, taken) := scanner.matchNext source '/'
  if doubled then .ok (taken.skipWhile source (· ≠ '\n'))
  else taken.addToken source (.symbol .slash)

/-- Steps up to the next quote, or to the end, and counts the lines on the way. -/
def skipToQuote : Scanner σ :=
  let (current, line) := quoteAhead source scanner.current scanner.line
  { scanner with current := current, line := line }

/-- A string. Its value is cut out between the quotes. -/
def scanString : Except Failure (Scanner σ) := do
  let inside := scanner.skipToQuote source
  if inside.isAtEnd source then return inside.handOver report .unterminatedString
  let closed := inside.forward
  let value ← cutOut source (closed.start + 1) (closed.current - 1)
  closed.addToken source (.string value)

/-- Steps over a point and more digits if a digit follows the point. -/
def skipFraction : Scanner σ :=
  if scanner.peek source = some '.' ∧ (scanner.peekNext source).any Char.isDigit then
    scanner.forward.skipWhile source Char.isDigit
  else scanner

/-- A number, if the text of its digits has a value. -/
def scanNumber : Except Failure (Scanner σ) := do
  let taken := (scanner.skipWhile source Char.isDigit).skipFraction source
  let text ← taken.lexeme source
  match Binary64.parse? text with
  | some value => taken.addToken source (.number value)
  | none => return taken.handOver report (.invalidNumber text)

/-- A word, which is looked up whole. -/
def scanWord : Except Failure (Scanner σ) := do
  let taken := scanner.skipWhile source isWordChar
  let word ← taken.lexeme source
  taken.addToken source (Piece.wordKind word)

/-- The whole character at the start of the piece is reported, however many bytes it has. -/
def unexpectedCharacter : Except Failure (Scanner σ) := do
  let rest ← cutOut source scanner.start (byteLength source)
  let c := rest.head?.getD (Char.ofNat 0xFFFD)
  let taken := { scanner with current := scanner.start + c.utf8Size }
  return taken.handOver report (.unexpectedCharacter c)

/-- What is done at a first byte that was just stepped over. -/
def dispatch (byte : Char) : Except Failure (Scanner σ) :=
  match Symbol.ofChar? byte with
  | some .slash => scanner.scanSlash source
  | some symbol => scanner.scanSymbol source symbol
  | none =>
    if byte = ' ' ∨ byte = '\r' ∨ byte = '\t' then .ok scanner
    else if byte = '\n' then .ok { scanner with line := scanner.line + 1 }
    else if byte = '"' then scanner.scanString report source
    else if byte.isDigit then scanner.scanNumber report source
    else if isWordStart byte then scanner.scanWord source
    else scanner.unexpectedCharacter report source

/-- One piece is scanned from here. -/
def step : Except Failure (Scanner σ) := do
  let (byte, taken) ← { scanner with start := scanner.current }.advance source
  taken.dispatch report source byte

/-- Piece after piece is scanned up to the end of the source. -/
def run (scanner : Scanner σ) : Except Failure (Scanner σ) :=
  if scanner.isAtEnd source then .ok scanner
  else match scanner.step report source with
    | .error failure => .error failure
    | .ok next =>
      if scanner.current < next.current then run next else .error (.stall scanner.current)
termination_by (asBytes source).length - scanner.current
decreasing_by
  next hend hlt =>
    have hmore : ¬ (asBytes source).length ≤ scanner.current := by
      simpa [isAtEnd] using hend
    omega

/-- The scanner before the first byte. -/
def initial (receiver : σ) : Scanner σ :=
  ⟨0, 0, 1, [], 0, receiver⟩

/-- The scanners that a scan comes by between its steps. -/
inductive Reached (receiver : σ) : Scanner σ → Prop where
  | initial : Reached receiver (initial receiver)
  | step {scanner next : Scanner σ} (earlier : Reached receiver scanner)
    (more : scanner.isAtEnd source = false) (taken : scanner.step report source = .ok next) :
    Reached receiver next

end Steps

end Scanner

section Scans

variable {σ : Type}

/-- Scans the bytes of a source and hands each diagnostic to the receiver when it is found. -/
def scanBytes (report : σ → Diagnostic → σ) (receiver : σ) (source : Text) :
    Except Failure (Finished σ) := do
  let last ← (Scanner.initial receiver).run report source
  let endToken := ⟨.endOfInput, [], last.line, ⟨byteLength source, byteLength source⟩⟩
  return ⟨(endToken :: last.tokens).reverse, last.reported, last.line, last.receiver⟩

/-- Scans the bytes of a source and collects the diagnostics beside the tokens. -/
def tokenizeBytes (source : Text) : Except Failure Scan := do
  let finished ← scanBytes (fun found diagnostic => found ++ [diagnostic]) [] source
  return ⟨finished.tokens, finished.receiver⟩

end Scans

end ScriptLexer
