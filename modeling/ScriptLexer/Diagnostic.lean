import ScriptLexer.Token.Basic

set_option autoImplicit false

/-! # Diagnostics

What can be wrong with a source, and where. A fault never stops a scan. -/

namespace ScriptLexer

/-- What is wrong. -/
inductive Fault where
  /-- No token starts with this character. -/
  | unexpectedCharacter (c : Char)
  /-- A string runs into the end of the source. -/
  | unterminatedString
  /-- The text of a number has no value. -/
  | invalidNumber (text : Text)
deriving DecidableEq

/-- The wording of a fault. -/
def Fault.message : Fault → Text
  | unexpectedCharacter c => "Unexpected character '".toList ++ c :: "'.".toList
  | unterminatedString => "Unterminated string.".toList
  | invalidNumber text => "Invalid number literal '".toList ++ text ++ "'.".toList

/-- A fault with the bytes it covers and the number of the line on which they end. -/
structure Diagnostic where
  line : Nat
  span : Span
  fault : Fault
deriving DecidableEq

/-- The line number in brackets. -/
def Diagnostic.lineMark (diagnostic : Diagnostic) : Text :=
  "[line ".toList ++ natText diagnostic.line ++ "]".toList

/-- A diagnostic on one line, without its source. -/
def Diagnostic.description (diagnostic : Diagnostic) : Text :=
  diagnostic.lineMark ++ " Error: ".toList ++ diagnostic.fault.message

end ScriptLexer
