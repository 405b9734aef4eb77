import ScriptLexer.File.Storage
import ScriptLexer.Prompt.Completeness

set_option autoImplicit false

/-! # Entries

What is typed at the prompt falls into entries. An entry is read line by line until it is complete:
the line end of the last line is dropped, those before it are part of the entry. If the input ends
while an entry is incomplete, the entry is lost. -/

namespace ScriptLexer

/-! ## Input lines -/

/-- A line of input: its text and its line end, or bytes that are not UTF-8. -/
inductive InputLine where
  | text (content lineEnd : Text)
  | unreadable
deriving DecidableEq

/-- A line without its line end, and the line end: a line feed, with at most one carriage return
    before it. A last line may have none. -/
def splitLineEnd (line : Text) : Text × Text :=
  match line.reverse with
  | '\n' :: '\r' :: rest => (rest.reverse, ['\r', '\n'])
  | '\n' :: rest => (rest.reverse, ['\n'])
  | _ => (line, [])

/-- Nothing of a line is lost. -/
theorem splitLineEnd_append (line : Text) :
    (splitLineEnd line).1 ++ (splitLineEnd line).2 = line := by
  unfold splitLineEnd
  split
  · next rest h => simpa using (congrArg List.reverse h).symm
  · next rest _ h => simpa using (congrArg List.reverse h).symm
  · simp

/-- A line of text as input. -/
def InputLine.ofText (line : Text) : InputLine :=
  .text (splitLineEnd line).1 (splitLineEnd line).2

/-- A line of bytes as input. -/
def InputLine.ofBytes (line : List UInt8) : InputLine :=
  match textOfBytes ⟨line.toArray⟩ with
  | .ok decoded => .ofText decoded
  | .error _ => .unreadable

/-- The input lines of a text. -/
def inputOfText (text : Text) : List InputLine :=
  (splitAfter '\n' text).map .ofText

/-- The input lines of bytes, each of which is read by itself. -/
def inputOfBytes (bytes : ByteArray) : List InputLine :=
  (splitAfter '\n'.toUInt8 bytes.toList).map .ofBytes

/-! ## Entries of an input -/

/-- An entry, and the incomplete texts that were tried before it, in order. -/
structure Entry where
  tried : List Text
  text : Text
deriving DecidableEq

/-- Why no entry follows. -/
inductive Ending where
  | endOfInput
  | unreadable
deriving DecidableEq

/-- The entries of an input, the incomplete texts that were tried after the last of them, and why the
    input ends there. -/
structure Entries where
  entries : List Entry
  tried : List Text
  ending : Ending

/-- Goes on reading an entry of which `pending` has been read, line ends included. -/
def readEntries (pending : Text) (tried : List Text) : List InputLine → Entries
  | [] => ⟨[], tried, .endOfInput⟩
  | .unreadable :: _ => ⟨[], tried, .unreadable⟩
  | .text content lineEnd :: rest =>
    let text := pending ++ content
    if isIncomplete text then readEntries (text ++ lineEnd) (tried ++ [text]) rest
    else
      let later := readEntries [] [] rest
      { later with entries := ⟨tried, text⟩ :: later.entries }

/-- The entries of an input. -/
def entriesOf (input : List InputLine) : Entries :=
  readEntries [] [] input

end ScriptLexer
