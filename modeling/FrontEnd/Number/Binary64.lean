/-!
# Binary floating point

A `Binary64` is the bit pattern of an IEEE 754 double. Its magnitude, the pattern without the sign
bit, counts the doubles up from zero: a finite magnitude stands for the value
`significand · 2 ^ unit / 2 ^ 1074`.

`Binary64.nearest` rounds a fraction to a double, halves to the even neighbour and too large values
to infinity. `Binary64.numEq` is equality of numbers: the two zeros are equal and a NaN equals
nothing.
-/

namespace FrontEnd

/-- A double, given by its bits. -/
structure Binary64 where
  bits : UInt64
deriving DecidableEq, Repr

/-- The quotient `num / den` as an integer, rounded to nearest and halves to even. -/
def roundHalfEven (num den : Nat) : Nat :=
  let quotient := num / den
  let twice := 2 * (num % den)
  if twice < den then quotient
  else if den < twice then quotient + 1
  else quotient + quotient % 2

namespace Binary64

/-- The magnitude of the infinities. -/
def infiniteMagnitude : Nat := 0x7FF * Nat.pow 2 52

/-- The double with a sign and a magnitude. -/
def ofMagnitude (negative : Bool) (magnitude : Nat) : Binary64 :=
  ⟨UInt64.ofNat ((if negative then Nat.pow 2 63 else 0) + magnitude)⟩

/-- The canonical NaN with a sign. -/
def nan (negative : Bool) : Binary64 := ofMagnitude negative (infiniteMagnitude + Nat.pow 2 51)

/-- The infinity with a sign. -/
def infinity (negative : Bool) : Binary64 := ofMagnitude negative infiniteMagnitude

/-- Whether the sign bit is set. -/
def isNegative (x : Binary64) : Bool := Nat.pow 2 63 ≤ x.bits.toNat

/-- The bits below the sign as a number. -/
def magnitude (x : Binary64) : Nat := x.bits.toNat % Nat.pow 2 63

/-- Whether the double stands for no number at all. -/
def isNaN (x : Binary64) : Bool := infiniteMagnitude < x.magnitude

/-- Equality of numbers. -/
def numEq (x y : Binary64) : Bool :=
  !x.isNaN && !y.isNaN && (x == y || (x.magnitude == 0 && y.magnitude == 0))

/-- The power of two that one step of the significand is worth, over `2 ^ 1074`. -/
def unit (x : Binary64) : Nat := x.magnitude / Nat.pow 2 52 - 1

/-- The significand; below `2 ^ 52` only for the smallest magnitudes. -/
def significand (x : Binary64) : Nat :=
  if x.magnitude < Nat.pow 2 52 then x.magnitude
  else Nat.pow 2 52 + x.magnitude % Nat.pow 2 52

/-- The magnitude of the double nearest to `num / den`. The significand gets 53 bits, or as many as
are left above the smallest unit; a significand rounded up to `2 ^ 53` carries into the exponent. -/
def nearestMagnitude (num den : Nat) : Nat :=
  let scaled := num * Nat.pow 2 1074
  let unit := (scaled / den).log2 - 52
  min infiniteMagnitude (unit * Nat.pow 2 52 + roundHalfEven scaled (den * Nat.pow 2 unit))

/-- The double nearest to `num / den`, with a sign. -/
def nearest (negative : Bool) (num den : Nat) : Binary64 :=
  ofMagnitude negative (nearestMagnitude num den)

end Binary64

end FrontEnd
