import ScriptLexer.Text.Bytes

set_option autoImplicit false

/-! # Reserved words

Sixteen words of the scripting language are reserved. A word is looked up whole and with its letter
case. -/

namespace ScriptLexer

/-- The reserved words. -/
inductive Keyword where
  | andKw | classKw | elseKw | falseKw | forKw | funKw | ifKw | nilKw
  | orKw | printKw | returnKw | superKw | thisKw | trueKw | varKw | whileKw
deriving DecidableEq

namespace Keyword

/-- How a reserved word is spelt. -/
def word : Keyword → Text
  | andKw => "and".toList
  | classKw => "class".toList
  | elseKw => "else".toList
  | falseKw => "false".toList
  | forKw => "for".toList
  | funKw => "fun".toList
  | ifKw => "if".toList
  | nilKw => "nil".toList
  | orKw => "or".toList
  | printKw => "print".toList
  | returnKw => "return".toList
  | superKw => "super".toList
  | thisKw => "this".toList
  | trueKw => "true".toList
  | varKw => "var".toList
  | whileKw => "while".toList

/-- Every reserved word, in alphabetical order. -/
def all : List Keyword :=
  [andKw, classKw, elseKw, falseKw, forKw, funKw, ifKw, nilKw,
    orKw, printKw, returnKw, superKw, thisKw, trueKw, varKw, whileKw]

/-- No reserved word is missing from the list. -/
theorem mem_all (k : Keyword) : k ∈ all := by
  cases k <;> decide

/-- The reserved word with the given spelling. -/
def ofWord? (word : Text) : Option Keyword :=
  all.find? fun k => k.word = word

/-- Looking up the spelling of a reserved word finds that word. -/
theorem ofWord?_word (k : Keyword) : ofWord? k.word = some k := by
  cases k <;> decide

/-- A word is found exactly when it is the spelling of the reserved word. -/
theorem ofWord?_eq_some_iff {word : Text} {k : Keyword} :
    ofWord? word = some k ↔ k.word = word := by
  constructor
  · intro h
    simpa using List.find?_some h
  · rintro rfl
    exact ofWord?_word k

/-- The name of a reserved word as a kind of token: its spelling in capitals. -/
def name (k : Keyword) : Text :=
  k.word.map Char.toUpper

end Keyword

end ScriptLexer
