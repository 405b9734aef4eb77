import ScriptLexer.Prompt.Command
import ScriptLexer.Style
import ScriptLexer.Token.Keyword

set_option autoImplicit false

/-! # Completion and hints

The word before the cursor is completed to the reserved words and commands that start with it. A hint
shows, dimmed, the rest of the first of them while the cursor is at the end of the line.

Offsets count bytes, so not every number is a place in the line. A function that would have to cut
the line at such a number answers with the number instead. -/

namespace ScriptLexer

/-- A byte offset at which a text cannot be cut. -/
structure BadOffset where
  offset : Nat
deriving DecidableEq

/-- The parts of a text before and after a byte offset. -/
def cutAt (text : Text) (offset : Nat) : Except BadOffset (Text × Text) :=
  match splitAtByte? text offset with
  | some parts => .ok parts
  | none => .error ⟨offset⟩

/-! ## The word before the cursor -/

/-- The characters of words that can be completed. -/
def isCompletionChar (c : Char) : Bool :=
  c.isAlphanum || c == '_' || c == '.'

/-- One byte past the start of the last character before the cursor that cannot be part of a word;
    zero if there is none. -/
def wordStart (line : Text) (cursor : Nat) : Except BadOffset Nat := do
  let (before, _) ← cutAt line cursor
  match before.reverse.dropWhile isCompletionChar with
  | [] => return 0
  | _ :: earlier => return byteLength earlier + 1

/-! ## Completion -/

/-- The words that completion knows: reserved words, then commands. -/
def completionWords : List Text :=
  Keyword.all.map Keyword.word ++ Command.all.map Command.word

/-- A word that completion offers, and what is still to be typed of it. -/
structure Candidate where
  word : Text
  missing : Text
deriving DecidableEq

/-- The words that start with the given text. -/
def candidates (typed : Text) : List Candidate :=
  completionWords.filterMap fun word => (typed.isPrefixOf? word).map (⟨word, ·⟩)

/-- Where the missing part is to be put, and the words on offer. -/
structure Completion where
  place : Nat
  candidates : List Candidate

/-- Completes the word before the cursor; an empty word is not completed. -/
def complete (line : Text) (cursor : Nat) : Except BadOffset Completion := do
  let start ← wordStart line cursor
  let (before, _) ← cutAt line cursor
  let (_, typed) ← cutAt before start
  return ⟨cursor, if typed.isEmpty then [] else candidates typed⟩

/-! ## Hints -/

/-- What is missing of the first word that is longer than what was typed, dimmed. Nothing is shown
    for less than two bytes, or while the cursor stands before the end of the line. -/
def hint (line : Text) (cursor : Nat) : Except BadOffset (Option Segment) :=
  if cursor < byteLength line then return none
  else do
    let start ← wordStart line cursor
    let (_, typed) ← cutAt line start
    if byteLength typed < 2 then return none
    else
      let longer := (candidates typed).find? fun candidate => !candidate.missing.isEmpty
      return longer.map fun candidate => .dimmed candidate.missing

end ScriptLexer
