import ScriptLexer.Number.Binary64

set_option autoImplicit false

/-! # The shortest decimal of a double

A double is shown with the fewest significant digits that read back as the same double. Among the
decimals of that length the one nearest to the exact value is taken, and of two equally near ones
the greater.

For each number of digits the decimals form a grid. If a point of the grid reads back then so does
one of the two neighbours of the exact value on it, so only those two are tried. -/

namespace ScriptLexer

/-- The decimal `digits · 10 ^ exponent`. -/
structure Decimal where
  digits : Nat
  exponent : Int
deriving DecidableEq

namespace Decimal

/-- A decimal as a ratio of natural numbers. -/
def toRatio (x : Decimal) : Nat × Nat :=
  (x.digits * Nat.pow 10 x.exponent.toNat, Nat.pow 10 (-x.exponent).toNat)

/-- The number of decimal digits of a natural number; zero has none. -/
def digitCount (n : Nat) : Nat :=
  if n = 0 then 0 else digitCount (n / 10) + 1

/-- The exponent of the leading decimal digit of the positive ratio `n / d`. -/
def leadingExponent (n d : Nat) : Int :=
  if d ≤ n then (digitCount (n / d) : Int) - 1
  else -(digitCount ((d + n - 1) / n - 1) : Int)

/-- The multiple of `10 ^ exponent` just below or at the ratio `n / d`. -/
def floorAt (n d : Nat) (exponent : Int) : Decimal :=
  ⟨n * Nat.pow 10 (-exponent).toNat / (d * Nat.pow 10 exponent.toNat), exponent⟩

/-- The next point of the grid upwards. -/
def next (x : Decimal) : Decimal :=
  ⟨x.digits + 1, x.exponent⟩

/-- Whether the ratio `n / d` is at least as near to `x.next` as to `x`, where it lies between the
    two. -/
def nearerToNext (x : Decimal) (n d : Nat) : Bool :=
  let below := x.toRatio
  let above := x.next.toRatio
  (below.1 + above.1) * d ≤ 2 * n * below.2

end Decimal

namespace Binary64

/-- The exact ratio that a finite magnitude stands for. -/
def toRatio (magnitude : Nat) : Nat × Nat :=
  (significand magnitude * Nat.pow 2 (scale magnitude), unitsInOne)

/-- Whether a decimal rounds to the given magnitude. -/
def readsBack (magnitude : Nat) (x : Decimal) : Bool :=
  ofRatio x.toRatio.1 x.toRatio.2 == magnitude

/-- The nearest decimal of the given number of digits that reads back as the magnitude. -/
def decimalOfLength? (magnitude length : Nat) : Option Decimal :=
  let (n, d) := toRatio magnitude
  let below := Decimal.floorAt n d (Decimal.leadingExponent n d - length + 1)
  match readsBack magnitude below, readsBack magnitude below.next with
  | true, true => some (if below.nearerToNext n d then below.next else below)
  | true, false => some below
  | false, true => some below.next
  | false, false => none

/-- The shortest decimal that reads back as a positive finite magnitude. Seventeen digits are enough
    for every double. -/
def shortest (magnitude : Nat) : Decimal :=
  let (n, d) := toRatio magnitude
  ((List.range 17).findSome? fun k => decimalOfLength? magnitude (k + 1)).getD
    (Decimal.floorAt n d (Decimal.leadingExponent n d - 16))

end Binary64

end ScriptLexer
