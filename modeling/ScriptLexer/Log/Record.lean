import ScriptLexer.Style

set_option autoImplicit false

/-! # Log records

What the program tells about its own work, beside its output. A record has a level, the part of the
program it comes from, a message and named values. -/

namespace ScriptLexer

/-- How much a record matters, from most to least. -/
inductive Level where
  | error | warn | info | debug | trace
deriving DecidableEq

namespace Level

/-- Every level, the gravest first. -/
def all : List Level := [error, warn, info, debug, trace]

/-- How a level is written in a record. -/
def name : Level → Text
  | error => "ERROR".toList
  | warn => "WARN".toList
  | info => "INFO".toList
  | debug => "DEBUG".toList
  | trace => "TRACE".toList

/-- The number of a level: one for the gravest. -/
def number : Level → Nat
  | error => 1
  | warn => 2
  | info => 3
  | debug => 4
  | trace => 5

end Level

/-- One record. -/
structure LogRecord where
  level : Level
  target : Text
  message : Text
  values : List (Text × Text)
  /-- The names of further values, which are not written. -/
  unwritten : List Text := []

namespace LogRecord

/-- The names of everything that a record holds. -/
def fieldNames (record : LogRecord) : List Text :=
  "message".toList :: record.values.map Prod.fst ++ record.unwritten

/-- How a character of a message is written: those that a terminal could act on by their number. -/
def messageChar (c : Char) : Text :=
  if ['\x07', '\x08', '\x0c', '\x1b', '\x7f'].contains c then
    "\\x".toList ++ [Nat.digitChar (c.toNat / 16), Nat.digitChar (c.toNat % 16)]
  else if 0x80 ≤ c.toNat ∧ c.toNat ≤ 0x9f then
    "\\u\x7b".toList ++ Nat.toDigits 16 c.toNat ++ ['\x7d']
  else [c]

/-- The line of a record, without the time. Levels are aligned to the right. -/
def text (record : LogRecord) : Text :=
  padStart 5 record.level.name ++ ' ' :: record.target ++ ": ".toList ++
    record.message.flatMap messageChar ++
    record.values.flatMap (fun (name, value) => ' ' :: name ++ '=' :: value) ++ ['\n']

end LogRecord

end ScriptLexer
