import ScriptLexer.Log.Record
import ScriptLexer.Text.Blank
import ScriptLexer.Text.Pattern

set_option autoImplicit false

/-! # Log directives

A directive says which records of a part of the program are shown. Written out in full it is
`target[span{field=value}]=level`, with nearly every part optional: a target stands for all that start
with it, and a field for the records that hold a value of that name. Spans are stretches of work that
records can belong to. This program has none, so a directive that asks for a span, or for a value that
a span would hold, speaks of no record; it is read all the same. -/

namespace ScriptLexer

/-- The least grave level that is shown of some records; with no level nothing is shown. -/
structure Directive where
  /-- The start of the targets in question; empty if the directive names none. -/
  target : Text := []
  /-- The name of a value that the records hold. -/
  field : Option Text := none
  /-- Whether only the records of some span are meant. -/
  inSpan : Bool := false
  least : Option Level

namespace Directive

/-! ## What a directive shows -/

/-- Whether a directive speaks of a record. -/
def concerns (directive : Directive) (record : LogRecord) : Bool :=
  !directive.inSpan && directive.target.isPrefixOf record.target &&
    directive.field.all record.fieldNames.contains

/-- Whether a directive shows records of a level. -/
def allows (directive : Directive) (level : Level) : Bool :=
  directive.least.any fun least => level.number ≤ least.number

/-- Whether a text stands before another in the order of their characters. -/
def precedes (a b : Text) : Bool :=
  List.lex a b fun x y => x.toNat < y.toNat

/-- Whether the field of a directive makes it more specific than another with the same target. -/
def moreSpecificField : Option Text → Option Text → Bool
  | some _, none => true
  | some a, some b => precedes b a
  | none, _ => false

/-- The more specific of two directives that speak of one record, the second one if they are equally
    specific: the one with the longer target, or else the one with a field, or with the later one. -/
def moreSpecific (a b : Directive) : Directive :=
  if byteLength b.target < byteLength a.target ∨
      byteLength b.target = byteLength a.target ∧ moreSpecificField a.field b.field then a
  else b

/-! ## Levels -/

/-- Reads a number: digits, which may follow a plus sign. -/
def number? (text : Text) : Option Nat :=
  let digits := match text with
    | '+' :: rest => rest
    | _ => text
  if digits.isEmpty ∨ ¬ digits.all Char.isDigit then none
  else some (digits.foldl (fun n c => 10 * n + (c.toNat - '0'.toNat)) 0)

/-- Reads a level, or that nothing is to be shown: a name in any case, or a number. -/
def levelSetting? (text : Text) : Option (Option Level) :=
  let choices := ("OFF".toList, 0, none) :: Level.all.map fun l => (l.name, l.number, some l)
  (choices.find? fun (name, number, _) =>
    text.map Char.toUpper = name ∨ number? text = some number).map fun (_, _, level) => level

/-- Reads the level at a byte offset; where none is written everything is shown. -/
def levelAt? (text : Text) (start : Nat) : Option (Option Level) :=
  match splitAtByte? text start with
  | some (_, []) => some (some .trace)
  | some (_, setting) => levelSetting? setting
  | none => none

/-! ## Fields -/

/-- Whether a text has nothing but digits, with a point among them or not, and at least one digit. -/
def isDecimal (text : Text) : Bool :=
  text.any Char.isDigit && text.all (fun c => c.isDigit || c == '.') && text.count '.' ≤ 1

/-- Whether a text is a floating-point number, the sign apart. -/
def isUnsignedNumber (text : Text) : Bool :=
  ["inf".toList, "infinity".toList, "nan".toList].contains (text.map Char.toLower) ||
    let mantissa := text.takeWhile fun c => c != 'e' && c != 'E'
    isDecimal mantissa && match text.drop mantissa.length with
      | [] => true
      | _ :: '+' :: digits | _ :: '-' :: digits | _ :: digits =>
        !digits.isEmpty && digits.all Char.isDigit

/-- Whether a text can be the value of a field: a number or a pattern. -/
def isFieldValue (text : Text) : Bool :=
  isPattern text || match text with
    | '+' :: rest => isUnsignedNumber rest
    | _ => false

/-- Reads what stands between braces: the name of a field, and whether a value is asked for. -/
def fieldTest? (text : Text) : Option (Text × Bool) :=
  let name := text.takeWhile (· != '=')
  match text.drop name.length with
  | [] => if name.isEmpty then none else some (name, false)
  | _ :: rest => if isFieldValue (rest.takeWhile (· != '=')) then some (name, true) else none

/-! ## Whole directives

The marks are looked for in the text without blanks at its ends, but the parts between them are cut
from the text as it is. So a directive that starts with a blank does not mean what it would mean
without. -/

/-- How many bytes come before the first of some marks, and the text from there on. -/
def reach (marks : Text) (text : Text) : Nat × Text :=
  (byteLength (text.takeWhile (!marks.contains ·)), text.dropWhile (!marks.contains ·))

/-- Reads what follows a closing bracket at a byte offset: a level or nothing. -/
def ending? (text : Text) (place : Nat) : Text → Option (Option Level)
  | [] => some (some .trace)
  | '=' :: _ => levelAt? text (place + 1)
  | _ => none

/-- Reads what follows an opening bracket. `start` is the byte offset of `rest` in the text, which the
    directive `head` has been read from so far. -/
def ofBrackets? (text : Text) (head : Directive) (start : Nat) (rest : Text) : Option Directive :=
  let (length, rest) := reach [']', '\x7b'] rest
  let place := start + length
  match rest with
  | ']' :: rest => do
    return { head with inSpan := true, least := ← ending? text (place + 1) rest }
  | '\x7b' :: rest =>
    let (fieldLength, rest) := reach ['\x7d'] rest
    match rest with
    | '\x7d' :: ']' :: rest => do
      let (name, valued) ← fieldTest? (← slice? text (place + 1) (place + 1 + fieldLength))
      let least ← ending? text (place + fieldLength + 3) rest
      return { head with field := some name, inSpan := 0 < length || valued, least := least }
    | _ => none
  | _ => none

/-- The characters that a target can start with. -/
def isTargetStart (c : Char) : Bool :=
  ['-', ':', '_'].contains c || isAlphanumeric c

/-- Reads a directive of one word: a level for everything, or else a target of which everything is
    shown. -/
def ofWord (text : Text) : Directive :=
  match levelSetting? text with
  | some least => { least := least }
  | none => { target := text, least := some .trace }

/-- Reads one directive. -/
def parse? (text : Text) : Option Directive :=
  match trim text with
  | [] => none
  | '[' :: rest => ofBrackets? text { least := none } 1 rest
  | c :: body =>
    if isTargetStart c then
      let (length, rest) := reach ['=', '['] (c :: body)
      match rest with
      | [] => some (ofWord text)
      | mark :: rest => do
        let target ← slice? text 0 length
        if mark = '=' then
          return { target := target, least := ← levelAt? text (length + 1) }
        else ofBrackets? text { target := target, least := none } (length + 1) rest
    else none

end Directive

end ScriptLexer
