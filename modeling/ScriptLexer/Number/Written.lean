import ScriptLexer.Number.Shortest

set_option autoImplicit false

/-! # The text of a number

Numbers of moderate size are written positionally, with at least one digit after the point; others
as a coefficient and a power of ten. `literalFormat` holds the one choice this makes: where
positional writing ends. -/

namespace ScriptLexer

/-- The exponents of the leading digit for which a number is written positionally. -/
structure DecimalFormat where
  leastPositional : Int
  greatestPositional : Int

/-- Literals are written positionally from `0.0001` up to below `10 ^ 16`. -/
def literalFormat : DecimalFormat := ⟨-4, 15⟩

/-- The decimal digits of a natural number. -/
def natText (n : Nat) : Text :=
  Nat.toDigits 10 n

/-- The decimal digits of an integer, after a minus sign if it is negative. -/
def intText (n : Int) : Text :=
  if n < 0 then '-' :: natText n.natAbs else natText n.natAbs

/-- A number as a row of digits with the exponent of the first: `0` after the last digit is dropped. -/
structure Figures where
  digits : Text
  exponent : Int

namespace Figures

/-- The significant digits of a decimal. -/
def ofDecimal (x : Decimal) : Figures :=
  let digits := natText x.digits
  ⟨(digits.reverse.dropWhile (· = '0')).reverse, x.exponent + digits.length - 1⟩

/-- The part before the point of `0.00ddd`, `ddd.ddd` or `ddd000.0`. -/
def whole (x : Figures) : Text :=
  if x.exponent < 0 then ['0']
  else
    let places := x.exponent.toNat + 1
    x.digits.take places ++ List.replicate (places - x.digits.length) '0'

/-- The part after the point. -/
def fraction (x : Figures) : Text :=
  if x.exponent < 0 then List.replicate (-x.exponent - 1).toNat '0' ++ x.digits
  else
    let rest := x.digits.drop (x.exponent.toNat + 1)
    if rest.isEmpty then ['0'] else rest

/-- Writes the digits around the point. -/
def positional (x : Figures) : Text :=
  x.whole ++ '.' :: x.fraction

/-- Writes one digit, a point and the others if there are others, and the power of ten. -/
def scientific (x : Figures) : Text :=
  let point := if x.digits.length ≤ 1 then [] else ['.']
  x.digits.take 1 ++ point ++ x.digits.drop 1 ++ 'e' :: intText x.exponent

/-- Writes the number in the way the format asks for. -/
def write (format : DecimalFormat) (x : Figures) : Text :=
  if format.leastPositional ≤ x.exponent ∧ x.exponent ≤ format.greatestPositional then x.positional
  else x.scientific

end Figures

namespace Binary64

/-- The text of a magnitude that is a number. -/
def magnitudeText (magnitude : Nat) : Text :=
  if magnitude = infinity then "inf".toList
  else if magnitude = 0 then "0.0".toList
  else (Figures.ofDecimal (shortest magnitude)).write literalFormat

/-- The text of a double; what is not a number has one text, whatever its sign. -/
def text (x : Binary64) : Text :=
  if infinity < x.magnitude then "NaN".toList
  else if x.isNegative then '-' :: magnitudeText x.magnitude
  else magnitudeText x.magnitude

end Binary64

end ScriptLexer
