import ScriptLexer.Text.Bytes

set_option autoImplicit false

/-! # Double-precision numbers

A number literal stands for the double nearest to its decimal value. A double is kept as its 64
bits: a sign, eleven bits of exponent and 52 of fraction. Without the sign, the bits read as one
natural number are in the order of the magnitudes they stand for, and rounding up past the largest
fraction carries into the exponent. So a nonnegative ratio is rounded by one division in exact
arithmetic, and what overflows is cut off at the pattern of infinity. -/

namespace ScriptLexer

/-- A double-precision number, as its bits. -/
structure Binary64 where
  bits : UInt64
deriving DecidableEq

namespace Binary64

/-! ## Fields -/

/-- The weight of the sign bit. -/
def signWeight : Nat := Nat.pow 2 63

/-- The weight of the lowest bit of the exponent. -/
def exponentWeight : Nat := Nat.pow 2 52

/-- Whether the sign bit is set. -/
def isNegative (x : Binary64) : Bool :=
  signWeight ≤ x.bits.toNat

/-- The bits without the sign. -/
def magnitude (x : Binary64) : Nat :=
  x.bits.toNat % signWeight

/-- The magnitude of infinity; greater ones are not numbers. -/
def infinity : Nat :=
  2047 * exponentWeight

/-- The least positive double is one part in so many of one. -/
def unitsInOne : Nat := Nat.pow 2 1074

/-- A finite magnitude stands for `significand · 2 ^ scale` times the least positive double. -/
def significand (magnitude : Nat) : Nat :=
  if magnitude < exponentWeight then magnitude else exponentWeight + magnitude % exponentWeight

/-- The power of two that goes with `significand`. -/
def scale (magnitude : Nat) : Nat :=
  magnitude / exponentWeight - 1

/-! ## Rounding -/

/-- The quotient rounded to the nearest natural number, a half to the even neighbour. -/
def roundDiv (n d : Nat) : Nat :=
  let quotient := n / d
  let rest := n % d
  if 2 * rest < d ∨ (2 * rest = d ∧ quotient % 2 = 0) then quotient else quotient + 1

/-- The magnitude nearest to the ratio `n / d`. The scale leaves 53 bits before the point where the
    ratio has that many, so that the rounded quotient is the significand. -/
def ofRatio (n d : Nat) : Nat :=
  let units := n * unitsInOne
  let scale := (units / d).log2 - 52
  min infinity (scale * exponentWeight + roundDiv units (d * Nat.pow 2 scale))

/-! ## Reading a decimal literal -/

/-- The natural number that a sequence of decimal digits spells. -/
def ofDigits (digits : Text) : Nat :=
  digits.foldl (fun value c => 10 * value + (c.toNat - '0'.toNat)) 0

/-- The double nearest to `whole.fraction`, both parts being decimal digits. -/
def ofDecimal (whole fraction : Text) : Binary64 :=
  ⟨(ofRatio (ofDigits (whole ++ fraction)) (Nat.pow 10 fraction.length)).toUInt64⟩

/-- Reads digits, or digits, a point and digits. -/
def parse? (text : Text) : Option Binary64 :=
  let whole := text.takeWhile Char.isDigit
  if whole.isEmpty then none
  else match text.dropWhile Char.isDigit with
    | [] => some (ofDecimal whole [])
    | c :: fraction =>
      if c = '.' ∧ ¬ fraction.isEmpty ∧ fraction.all Char.isDigit then
        some (ofDecimal whole fraction)
      else none

end Binary64

end ScriptLexer
