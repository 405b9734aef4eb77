import ScriptLexer.Text.Bytes

set_option autoImplicit false

/-! # Blank characters

The characters with the Unicode property `White_Space`, and the trimming of a text at its ends.
They matter around what is typed at the prompt; inside a script only four of them separate tokens
(see `ScriptLexer.Piece`). -/

namespace ScriptLexer

/-- The ranges of code points with the property `White_Space`, in order. -/
def blankRanges : List (Nat × Nat) :=
  [(0x09, 0x0D), (0x20, 0x20), (0x85, 0x85), (0xA0, 0xA0), (0x1680, 0x1680), (0x2000, 0x200A),
    (0x2028, 0x2029), (0x202F, 0x202F), (0x205F, 0x205F), (0x3000, 0x3000)]

/-- Whether a character has the property `White_Space`. -/
def isBlank (c : Char) : Bool :=
  blankRanges.any fun range => range.1 ≤ c.toNat && c.toNat ≤ range.2

/-- The text without its leading blank characters. -/
def trimStart (text : Text) : Text :=
  text.dropWhile isBlank

/-- The text without its trailing blank characters. -/
def trimEnd (text : Text) : Text :=
  (text.reverse.dropWhile isBlank).reverse

/-- The text without blank characters at either end. -/
def trim (text : Text) : Text :=
  trimEnd (trimStart text)

end ScriptLexer
