import ScriptLexer.Text.Bytes

set_option autoImplicit false

/-! # Styled text

Output for a terminal is a sequence of segments, each with its effects. An effect is switched on by a
control sequence before the text and off by one after it; effects nest, and empty text keeps its
sequences. What a reader sees is the plain text of the segments. -/

namespace ScriptLexer

/-! ## Effects -/

/-- The colours in use. -/
inductive Colour where
  | red | green | yellow | magenta | cyan | white | brightGreen | brightYellow | brightCyan
deriving DecidableEq

/-- The number of a colour in a control sequence. -/
def Colour.code : Colour → Text
  | red => "31".toList
  | green => "32".toList
  | yellow => "33".toList
  | magenta => "35".toList
  | cyan => "36".toList
  | white => "37".toList
  | brightGreen => "92".toList
  | brightYellow => "93".toList
  | brightCyan => "96".toList

/-- What can be done to a text. -/
inductive Effect where
  | colour (colour : Colour)
  | bold
  | dimmed
deriving DecidableEq

/-- The control sequence with the given number. -/
def controlSequence (code : Text) : Text :=
  '\x1b' :: '[' :: code ++ ['m']

namespace Effect

/-- Switches an effect on. -/
def opening : Effect → Text
  | colour c => controlSequence c.code
  | bold => controlSequence "1".toList
  | dimmed => controlSequence "2".toList

/-- Switches an effect off: a colour by the default colour, the others by a full reset. -/
def closing : Effect → Text
  | colour _ => controlSequence "39".toList
  | bold | dimmed => controlSequence "0".toList

end Effect

/-- Effects from the outermost to the innermost. -/
abbrev Style := List Effect

/-- A text between the control sequences of its effects. -/
def Style.wrap (style : Style) (text : Text) : Text :=
  style.foldr (fun effect inner => effect.opening ++ inner ++ effect.closing) text

/-! ## Segments -/

/-- A text in one style. -/
structure Segment where
  style : Style
  text : Text
deriving DecidableEq

namespace Segment

/-- A text without effects. -/
def plain (text : Text) : Segment := ⟨[], text⟩

/-- A text in a colour. -/
def coloured (colour : Colour) (text : Text) : Segment := ⟨[.colour colour], text⟩

/-- A bold text in a colour. -/
def bold (colour : Colour) (text : Text) : Segment := ⟨[.bold, .colour colour], text⟩

/-- A dimmed text. -/
def dimmed (text : Text) : Segment := ⟨[.dimmed], text⟩

/-- The characters sent to the terminal. -/
def render (segment : Segment) : Text :=
  segment.style.wrap segment.text

end Segment

/-- The characters of several segments in a row. -/
def render (segments : List Segment) : Text :=
  segments.flatMap Segment.render

/-- The characters of several segments and a line feed. -/
def renderLine (segments : List Segment) : Text :=
  render segments ++ ['\n']

/-- What a reader sees of several segments. -/
def plainText (segments : List Segment) : Text :=
  segments.flatMap Segment.text

@[simp]
theorem render_append (a b : List Segment) : render (a ++ b) = render a ++ render b := by
  simp [render]

@[simp]
theorem plainText_append (a b : List Segment) : plainText (a ++ b) = plainText a ++ plainText b := by
  simp [plainText]

/-! ## Columns -/

/-- A text with blanks before it, up to the given number of characters. -/
def padStart (width : Nat) (text : Text) : Text :=
  List.replicate (width - text.length) ' ' ++ text

/-- A text with blanks after it, up to the given number of characters. -/
def padEnd (width : Nat) (text : Text) : Text :=
  text ++ List.replicate (width - text.length) ' '

end ScriptLexer
