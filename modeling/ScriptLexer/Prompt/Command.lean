import ScriptLexer.Text.Blank

set_option autoImplicit false

/-! # Commands at the prompt

A command is a dot, one of the names of the command, and possibly an argument after blanks. Case does
not matter in the name. -/

namespace ScriptLexer

/-- What can be asked for at the prompt beside scanning. -/
inductive Command where
  | help | exit | clear | version | load
deriving DecidableEq

namespace Command

/-- The names of a command; the first is the full one. -/
def names : Command → List Text
  | help => ["help".toList, "h".toList, "?".toList]
  | exit => ["exit".toList, "quit".toList, "q".toList]
  | clear => ["clear".toList, "cls".toList]
  | version => ["version".toList, "v".toList]
  | load => ["load".toList, "l".toList]

/-- Every command, in the order in which help lists them. -/
def all : List Command :=
  [help, exit, clear, version, load]

/-- The command with the given name. -/
def ofName? (name : Text) : Option Command :=
  all.find? fun command => command.names.contains name

/-- The word that completion offers for a command. -/
def word (command : Command) : Text :=
  '.' :: (command.names.head?.getD [])

/-- How help shows the use of a command. -/
def usage : Command → Text
  | load => load.word ++ " <file>".toList
  | command => command.word

/-- What help says about a command. -/
def summary : Command → Text
  | help => "Show this help message".toList
  | exit => "Exit the REPL".toList
  | clear => "Clear the screen".toList
  | version => "Show version information".toList
  | load => "Scan a Bugsy file and print its tokens".toList

end Command

/-- A command with its argument. -/
structure Invocation where
  command : Command
  argument : Option Text
deriving DecidableEq

/-- Reads a command: the name goes up to the first blank, and what is left after trimming is the
    argument. Only the case of ASCII letters is ignored; the one other character with an ASCII letter
    as its lower-case form is the Kelvin sign, and no name has a `k`. -/
def Invocation.parse? (input : Text) : Option Invocation :=
  match trim input with
  | '.' :: rest =>
    let name := rest.takeWhile (!isBlank ·)
    let argument := trim (rest.dropWhile (!isBlank ·))
    (Command.ofName? (name.map Char.toLower)).map fun command =>
      ⟨command, if argument.isEmpty then none else some argument⟩
  | _ => none

/-- Whether an entry ends the session. -/
def asksToLeave (entry : Text) : Bool :=
  (Invocation.parse? (trim entry)).any (·.command == .exit)

/-- Whether the first character that is not blank is the dot of a command. -/
def startsWithDot (input : Text) : Bool :=
  (trimStart input).head? == some '.'

end ScriptLexer
